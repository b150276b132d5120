/-
Members of object types.

An object type in braces is read member by member, each with the semicolon behind it. A member that has
a name is a method when a parenthesis follows the name and a property otherwise; `readonly` in front of
a name is a modifier. A method that is called `new` and is not optional is read as a construct
signature, since that is what it looks like.
-/
import DeclKit.Proofs.Grammar.Reading

set_option autoImplicit false

namespace DeclKit

open DeclKit.Parser Kind Outline

/-! ## Outlines -/

namespace Outline

/-- Outlines with a mark behind each. -/
def ended (k : Kind) (os : List Outline) : List Outline := os.flatMap fun o => [o, mark k]

@[simp] theorem ended_nil (k : Kind) : ended k [] = [] := rfl

@[simp] theorem ended_cons (k : Kind) (o : Outline) (os : List Outline) :
    ended k (o :: os) = o :: mark k :: ended k os := rfl

theorem mem_ended {k : Kind} {o : Outline} {os : List Outline} (h : o ∈ os) : o ∈ ended k os :=
  List.mem_flatMap.2 ⟨o, h, List.mem_cons_self⟩

theorem length_le_ended (k : Kind) (os : List Outline) :
    os.length ≤ (wordsOf (ended k os)).length := by
  induction os with
  | nil => exact Nat.zero_le _
  | cons o os ih =>
    rw [ended_cons, wordsOf_cons, wordsOf_cons, words_mark, List.length_append, List.length_append,
      List.length_cons, List.length_singleton]
    omega

/-- Marks around and behind members are left out by what takes nodes only. -/
theorem filter_ended {p : Outline → Bool} {k k' k'' : Kind} {os : List Outline}
    (hmark : ∀ k, ¬p (mark k) = true) (h : ∀ o ∈ os, p o = true) :
    (mark k' :: ended k os ++ [mark k'']).filter p = os := by
  have hended : (ended k os).filter p = os := by
    induction os with
    | nil => rfl
    | cons o os ih =>
      obtain ⟨ho, hos⟩ := List.forall_mem_cons.1 h
      rw [ended_cons, List.filter_cons_of_pos ho, List.filter_cons_of_neg (hmark k), ih hos]
  rw [List.cons_append, List.filter_cons_of_neg (hmark k'), List.filter_append, hended,
    List.filter_cons_of_neg (hmark k''), List.filter_nil, List.append_nil]

/-- Parameters in parentheses, and the type that is returned. -/
def signature (params : List (String × Outline)) (returns : Outline) : List Outline :=
  [.node paramList (mark parenOpen :: joined comma (paramsOf params) ++ [mark parenClose]),
    .node Kind.returnType [mark colon, returns]]

/-- A property with a type. -/
def property (readonly : Bool) (w : Lexeme) (optional : Bool) (type : Outline) : Outline :=
  .node propertySig (flagged readonly (named "readonly") ++ Outline.node Kind.name [.word w] ::
    (flagged optional (mark question) ++ [Outline.node Kind.colonType [mark colon, type]]))

/-- A method. -/
def method (w : Lexeme) (optional : Bool) (params : List (String × Outline)) (returns : Outline) :
    Outline :=
  .node methodSig
    (.node Kind.name [.word w] :: (flagged optional (mark question) ++ signature params returns))

/-- A construct signature. -/
def construct (params : List (String × Outline)) (returns : Outline) : Outline :=
  .node constructSig (named "new" :: signature params returns)

/-- An object type. -/
def object (members : List Outline) : Outline :=
  .node Kind.objectType (mark braceOpen :: ended semicolon members ++ [mark braceClose])

section Words

variable (readonly optional : Bool) (w : Lexeme) (o : Outline) (params : List (String × Outline))

theorem words_property : (property readonly w optional o).words =
    wordsOf (flagged readonly (named "readonly")) ++
      w :: (wordsOf (flagged optional (mark question)) ++ Lexeme.mark colon :: o.words) := by
  simp [property]

theorem wordsOf_signature : wordsOf (signature params o) = .mark parenOpen ::
    (wordsOf (joined comma (paramsOf params)) ++ Lexeme.mark parenClose :: .mark colon :: o.words) := by
  simp [signature]

theorem words_method : (method w optional params o).words =
    w :: (wordsOf (flagged optional (mark question)) ++ wordsOf (signature params o)) := by
  simp [method]

theorem words_construct :
    (construct params o).words = .named "new" :: wordsOf (signature params o) := by
  simp [construct]

theorem words_object (os : List Outline) : (object os).words =
    .mark braceOpen :: (wordsOf (ended semicolon os) ++ [Lexeme.mark braceClose]) := by
  simp [object]

/-- What stands behind a name first, a question mark or what follows it. -/
theorem firstKind_question (ws : List Lexeme) :
    firstKind (wordsOf (flagged optional (mark question)) ++ ws) =
      if optional then question else firstKind ws := by
  cases optional <;> rfl

theorem firstKind_signature (ws : List Lexeme) :
    firstKind (wordsOf (signature params o) ++ ws) = parenOpen := by
  rw [wordsOf_signature]
  rfl

end Words

end Outline

/-! ## Reading -/

namespace Parser

section Members

variable {fuel n : Nat} {s s0 s1 : State} {w : Lexeme} {o : Outline} {os items : List Outline}
  {rest ws : List Lexeme} {params : List (String × Outline)} {type : Parse Bool}

/-- Parameters and a return type. -/
theorem signatureRest_reads (hnames : ∀ p ∈ params, isIdentifier p.1 = true)
    (hparams : ∀ p ∈ params, Spelt n true p.2) (ho : Spelt n true o)
    (hfuel : (wordsOf (signature params o)).length ≤ fuel) (hroom : Room s0 (n + 1))
    (hfalse : s0.inExtends = false) (hends : firstKind ws = semicolon)
    (h : Reads s0 s os (wordsOf (signature params o) ++ ws)) :
    Yields s0 (signatureRest (typeAt fuel)) s () (os ++ signature params o) ws := by
  rw [wordsOf_signature, List.cons_append, List.append_assoc, List.cons_append,
    List.cons_append] at h
  rw [wordsOf_signature] at hfuel
  simp only [List.length_append, List.length_cons] at hfuel
  unfold signatureRest
  refine (h.whenAt_not (by rw [firstKind_cons]; decide) _).bind fun s1 h1 => ?_
  refine (params_reads hnames hparams (by omega) hroom h1).bind fun s2 h2 => ?_
  have hparts : os ++ signature params o = os ++
      [Outline.node paramList
        (Outline.mark parenOpen :: joined comma (paramsOf params) ++ [.mark parenClose])] ++
      [.node Kind.returnType [.mark colon, o]] := by simp [signature]
  rw [hparts]
  refine h2.whenAt rfl fun s3 h3 => h3.within fun s4 h4 hs4 => ?_
  refine (h4.expect (w := .mark colon) ":").bind fun s5 h5 => ?_
  rw [if_pos rfl]
  have hsame : Same s0 s4 := h3.toSame.trans hs4
  have htype : Consumes s4 (typeAt fuel) (Level.type true).ends o :=
    ho.consumes (by omega) (hroom.of_same hsame) (hsame.inExtends_eq.trans hfalse)
  have hpredicate := ho.typeOrPredicate (by rw [hends]; decide) (by rw [hends]; decide)
    (fun s6 h6 => htype.read (by rw [hends]; decide) h6) h5
  exact hpredicate.bind fun s6 h6 => h6.pure

/-- The word in front is a modifier if a member name follows, which is on its line as no line may start
with it. -/
theorem modifiesMember_reads
    (hline : startsMemberName (firstKind rest) = true → startsLine rest = false)
    (h : Reads s0 s os (w :: rest)) :
    Yields s0 modifiesMember s (startsMemberName (firstKind rest)) os (w :: rest) := by
  unfold modifiesMember
  refine (h.peek 1).bind fun s1 h1 => ?_
  rw [List.drop_one, List.tail_cons]
  cases hname : startsMemberName (firstKind rest) with
  | true => exact (h1.lineBreakBefore 1 (hline hname)).bind fun s2 h2 => h2.pure
  | false => exact h1.pure

/-- Without a modifier in front nothing is taken. -/
theorem memberModifiers_none (hnext : startsMemberName (firstKind rest) = false)
    (h : Reads s0 s os (w :: rest)) (n : Nat) :
    Yields s0 (iterate (n + 1) do
      if ← atWord "readonly" then
        if ← modifiesMember then
          bump
          return true
      return false) s () os (w :: rest) := by
  refine Yields.iterate_stop ((h.atWord "readonly").bind fun s1 h1 => ?_)
  split
  · have hline : startsMemberName (firstKind rest) = true → startsLine rest = false := by
      rw [hnext]
      exact fun h => absurd h Bool.false_ne_true
    refine (modifiesMember_reads hline h1).bind fun s2 h2 => ?_
    rw [hnext, if_neg Bool.false_ne_true]
    exact h2.pure
  · exact h1.pure

/-- The word `readonly` in front of a name, if it is there, is a modifier. -/
theorem memberModifiers_reads {readonly : Bool} (hw : startsMemberName w.kind = true)
    (hnext : startsMemberName (firstKind rest) = false)
    (h : Reads s0 s os (wordsOf (flagged readonly (.named "readonly")) ++ w :: rest)) :
    Yields s0 memberModifiers s () (os ++ flagged readonly (.named "readonly")) (w :: rest) := by
  have hsize := h.length_le
  unfold memberModifiers repeatWhile
  refine Yields.get ?_
  rw [h.tokens_eq]
  cases readonly with
  | false =>
    rw [flagged, if_neg Bool.false_ne_true, List.append_nil]
    exact memberModifiers_none hnext h _
  | true =>
    rw [flagged, if_pos rfl] at h hsize ⊢
    rw [wordsOf_cons, words_named, wordsOf_nil, List.append_nil, List.singleton_append] at h hsize
    obtain ⟨k, hk⟩ : ∃ k, s0.tokens.size = k + 1 := Nat.exists_eq_succ_of_ne_zero (by
      rw [List.length_cons] at hsize
      omega)
    rw [hk]
    refine Yields.iterate_next ?_ fun s1 (h1 : Reads s0 s1 (os ++ [.named "readonly"]) (w :: rest)) =>
      memberModifiers_none hnext h1 _
    refine (h.atWord "readonly").bind fun s1 h1 => ?_
    have hword : (firstKind (Lexeme.named "readonly" :: w :: rest) == ident &&
        firstText (Lexeme.named "readonly" :: w :: rest) == "readonly") = true := by
      rw [firstText_cons, Lexeme.named, String.ofList_toList]
      rfl
    rw [hword, if_pos rfl]
    have hline : startsLine (w :: rest) = false := by
      have hident : firstKind rest ≠ ident := by
        intro hkind
        rw [hkind] at hnext
        cases hnext
      rw [startsLine, List.tail_cons, beq_false_of_ne hident, Bool.and_false]
    refine (modifiesMember_reads (fun _ => hline) h1).bind fun s2 h2 => ?_
    rw [firstKind_cons, hw, if_pos rfl]
    exact h2.bump.bind fun s3 h3 => h3.pure

/-- The name of a member is a word of its own that is no bracket. -/
structure IsMemberName (w : Lexeme) : Prop where
  starts : startsMemberName w.kind = true
  not_bracket : w.kind ≠ bracketOpen

theorem memberName_reads (hw : IsMemberName w) (h : Reads s0 s os (w :: rest)) :
    Yields s0 memberName s true (os ++ [.node Kind.name [.word w]]) rest := by
  unfold memberName
  refine h.current.bind fun s1 h1 => ?_
  rw [firstKind_cons, beq_false_of_ne hw.not_bracket, if_neg Bool.false_ne_true, if_pos hw.starts]
  exact h1.bumpAs.bind fun s2 h2 => h2.pure

theorem atIndexSignature_name (hw : IsMemberName w) (h : Reads s0 s os (w :: rest)) :
    Yields s0 atIndexSignature s false os (w :: rest) := by
  unfold atIndexSignature
  refine (h.at? bracketOpen).bind fun s1 h1 => ?_
  rw [firstKind_cons, beq_false_of_ne hw.not_bracket, if_neg Bool.false_ne_true]
  exact h1.pure

/-- From the start of a member on, what stands behind its name is read with everything before it. -/
theorem namedMember_reads {readonly : Bool} (hw : IsMemberName w)
    (hnext : startsMemberName (firstKind rest) = false)
    (hrest : ∀ s1 s2, Same s0 s1 → Reads s1 s2
      (flagged readonly (.named "readonly") ++ [Outline.node Kind.name [.word w]]) rest →
      Yields s1 (memberRest type s1.row.size) s2 () [o] ws)
    (h : Reads s0 s os (wordsOf (flagged readonly (.named "readonly")) ++ w :: rest)) :
    Yields s0 (namedMember type) s true (os ++ [o]) ws := by
  unfold namedMember
  refine h.mark_bind fun s1 h1 => h1.then ?_
  refine Yields.get ?_
  refine (memberModifiers_reads hw.starts hnext h1.here).bind fun s2 h2 => Yields.get ?_
  refine (atIndexSignature_name hw h2).bind fun s3 h3 => ?_
  rw [if_neg Bool.false_ne_true]
  refine h3.current.bind fun s4 h4 => ?_
  rw [firstKind_cons, hw.starts, if_neg (by simp)]
  refine (memberName_reads hw h4).bind fun s5 h5 => ?_
  rw [List.nil_append] at h5
  exact (hrest s1 s5 h1.toSame h5).bind fun s6 h6 => h6.pure

/-- A name is no opening mark, so a member that starts with one is told by its name, unless it is
`new` before an opening mark. -/
theorem member_reads {readonly : Bool} (hw : IsMemberName w)
    (hnew : readonly = false → w.kind = kwNew → firstKind rest ∉ [parenOpen, lt])
    (hnext : startsMemberName (firstKind rest) = false)
    (hrest : ∀ s1 s2, Same s0 s1 → Reads s1 s2
      (flagged readonly (.named "readonly") ++ [Outline.node Kind.name [.word w]]) rest →
      Yields s1 (memberRest type s1.row.size) s2 () [o] ws)
    (h : Reads s0 s os (wordsOf (flagged readonly (.named "readonly")) ++ w :: rest)) :
    Yields s0 (member type) s true (os ++ [o]) ws := by
  obtain ⟨first, more, hwords, hparen, hlt, hmore⟩ : ∃ first more,
      wordsOf (flagged readonly (.named "readonly")) ++ w :: rest = first :: more ∧
        first.kind ≠ parenOpen ∧ first.kind ≠ lt ∧
        (first.kind = kwNew → firstKind more ∉ [parenOpen, lt]) := by
    cases readonly with
    | true => exact ⟨.named "readonly", w :: rest, rfl, by decide, by decide, fun h => by cases h⟩
    | false =>
      have hstarts := hw.starts
      refine ⟨w, rest, rfl, ?_, ?_, hnew rfl⟩
      · intro hkind
        rw [hkind] at hstarts
        cases hstarts
      · intro hkind
        rw [hkind] at hstarts
        cases hstarts
  have hnamed : ∀ s1, Reads s0 s1 os (first :: more) →
      Yields s0 (namedMember type) s1 true (os ++ [o]) ws := fun s1 h1 =>
    namedMember_reads hw hnext hrest (hwords ▸ h1)
  rw [hwords] at h
  unfold member
  refine h.current.bind fun s1 h1 => ?_
  rw [firstKind_cons, beq_false_of_ne hparen, beq_false_of_ne hlt, Bool.or_false,
    if_neg Bool.false_ne_true]
  by_cases hkind : first.kind = kwNew
  · simp only [List.mem_cons, List.not_mem_nil, or_false, not_or] at hmore
    rw [hkind, beq_self_eq_true, if_pos rfl]
    refine (h1.peek 1).bind fun s2 h2 => ?_
    rw [List.drop_one, List.tail_cons, beq_false_of_ne (hmore hkind).1,
      beq_false_of_ne (hmore hkind).2, Bool.or_false, if_neg Bool.false_ne_true]
    exact hnamed s2 h2
  · rw [beq_false_of_ne hkind, if_neg Bool.false_ne_true]
    exact hnamed s1 h1

/-- A question mark, if there is one. -/
theorem eat_question {optional : Bool} (hws : firstKind ws ≠ question)
    (h : Reads s0 s os (wordsOf (flagged optional (.mark question)) ++ ws)) :
    Yields s0 (eat question) s optional (os ++ flagged optional (.mark question)) ws := by
  cases optional with
  | true => exact h.eat (w := .mark question)
  | false =>
    rw [flagged, if_neg Bool.false_ne_true, List.append_nil]
    exact h.eat_not hws

/-- A property is read as one. -/
theorem consumes_property {readonly optional : Bool} (hw : IsMemberName w) (ho : Spelt n true o)
    (hfuel : o.words.length ≤ fuel) (hroom : Room s (n + 1)) (hfalse : s.inExtends = false) :
    Consumes s (member (typeAt fuel)) (· = semicolon) (.property readonly w optional o) := by
  intro s1 ws hs hends h
  rw [words_property, List.append_assoc, List.cons_append, List.append_assoc, List.cons_append] at h
  refine member_reads hw ?_ ?_ (fun s3 s4 hs3 h4 => ?_) h
  · intro _ _
    rw [firstKind_question, firstKind_cons]
    cases optional <;> decide
  · rw [firstKind_question, firstKind_cons]
    cases optional <;> rfl
  unfold memberRest
  refine (eat_question (by rw [firstKind_cons]; decide) h4).bind fun s5 h5 => ?_
  refine h5.current.bind fun s6 h6 => ?_
  rw [firstKind_cons, if_neg (by decide)]
  have hparts : Outline.property readonly w optional o = .node propertySig
      (flagged readonly (.named "readonly") ++ [Outline.node Kind.name [.word w]] ++
        flagged optional (.mark question) ++ [Outline.node Kind.colonType [.mark colon, o]]) := by
    simp [Outline.property]
  rw [hparts]
  refine h6.withinFrom fun s7 h7 hs7 => ?_
  have hsame : Same s s7 := hs.trans (hs3.trans (h6.toSame.trans hs7))
  refine h7.whenAt rfl fun s8 h8 => ?_
  exact (colonType_reads ho hfuel (hroom.of_same hsame) (hsame.inExtends_eq.trans hfalse)
    (by rw [hends]; decide) h8).bind fun s9 h9 => h9.pure

/-- A method is read as one, except that a method called `new` that is not optional is not. -/
theorem consumes_method {optional : Bool} (hw : IsMemberName w)
    (hnew : w.kind = kwNew → optional = true) (hnames : ∀ p ∈ params, isIdentifier p.1 = true)
    (hparams : ∀ p ∈ params, Spelt n true p.2) (ho : Spelt n true o)
    (hfuel : (wordsOf (signature params o)).length ≤ fuel) (hroom : Room s (n + 1))
    (hfalse : s.inExtends = false) :
    Consumes s (member (typeAt fuel)) (· = semicolon) (.method w optional params o) := by
  intro s1 ws hs hends h
  have hkind := firstKind_signature o params ws
  rw [words_method, List.cons_append, List.append_assoc] at h
  have hplain : Reads s1 s1 [] (wordsOf (flagged false (.named "readonly")) ++ w :: _) := h
  refine member_reads hw ?_ ?_ (fun s3 s4 hs3 h4 => ?_) hplain
  · intro _ hnewKind
    rw [firstKind_question, hnew hnewKind, if_pos rfl]
    decide
  · rw [firstKind_question, hkind]
    cases optional <;> rfl
  unfold memberRest
  refine (eat_question (by rw [hkind]; decide) h4).bind fun s5 h5 => ?_
  refine h5.current.bind fun s6 h6 => ?_
  rw [hkind, if_pos (by decide)]
  refine h6.withinFrom fun s7 h7 hs7 => ?_
  have hsame : Same s s7 := hs.trans (hs3.trans (h6.toSame.trans hs7))
  exact signatureRest_reads hnames hparams ho hfuel (hroom.of_same hsame)
    (hsame.inExtends_eq.trans hfalse) hends h7

/-- The word `new` and a signature are a construct signature. -/
theorem consumes_construct (hnames : ∀ p ∈ params, isIdentifier p.1 = true)
    (hparams : ∀ p ∈ params, Spelt n true p.2) (ho : Spelt n true o)
    (hfuel : (wordsOf (signature params o)).length ≤ fuel) (hroom : Room s (n + 1))
    (hfalse : s.inExtends = false) :
    Consumes s (member (typeAt fuel)) (· = semicolon) (.construct params o) := by
  intro s1 ws hs hends h
  have hkind := firstKind_signature o params ws
  rw [words_construct, List.cons_append] at h
  unfold member
  refine h.current.bind fun s2 h2 => ?_
  rw [firstKind_cons, show (Lexeme.named "new").kind = kwNew by decide, if_neg (by decide),
    if_pos (by decide)]
  refine (h2.peek 1).bind fun s3 h3 => ?_
  rw [List.drop_one, List.tail_cons, hkind, if_pos (by decide)]
  refine Yields.bind (a := ()) (h3.within fun s4 h4 hs4 => ?_) fun s4 h4 => h4.pure
  refine h4.bump.bind fun s5 h5 => ?_
  have hsame : Same s s4 := hs.trans (h3.toSame.trans hs4)
  exact signatureRest_reads hnames hparams ho hfuel (hroom.of_same hsame)
    (hsame.inExtends_eq.trans hfalse) hends h5

/-- A member shows by its first words that it is one. -/
def StartsMember (o : Outline) : Prop := ∃ w vs, o.words = w :: vs ∧
  w.kind ∉ [braceClose, bracketOpen, plus, minus] ∧ firstKind vs ≠ bracketOpen

/-- What can be read as a member inside braces. -/
structure Declares (n : Nat) (o : Outline) : Prop where
  consumes : ∀ fuel s, o.words.length ≤ fuel → Room s (n + 1) → s.inExtends = false →
    Consumes s (member (typeAt fuel)) (· = semicolon) o
  starts : StartsMember o

theorem IsMemberName.kind_not_mem (hw : IsMemberName w) :
    w.kind ∉ [braceClose, bracketOpen, plus, minus] := by
  obtain ⟨hstarts, hbracket⟩ := hw
  intro hmem
  simp only [List.mem_cons, List.not_mem_nil, or_false] at hmem
  obtain hkind | hkind | hkind | hkind := hmem
  · rw [hkind] at hstarts
    cases hstarts
  · exact hbracket hkind
  · rw [hkind] at hstarts
    cases hstarts
  · rw [hkind] at hstarts
    cases hstarts

theorem declares_property {readonly optional : Bool} (hw : IsMemberName w) (ho : Spelt n true o) :
    Declares n (.property readonly w optional o) where
  consumes fuel s hfuel hroom hfalse := by
    refine consumes_property hw ho (Nat.le_trans ?_ hfuel) hroom hfalse
    rw [words_property, List.length_append, List.length_cons, List.length_append, List.length_cons]
    omega
  starts := by
    cases readonly with
    | true => exact ⟨.named "readonly", _, words_property .., by decide, hw.not_bracket⟩
    | false =>
      refine ⟨w, _, words_property .., hw.kind_not_mem, ?_⟩
      rw [firstKind_question, firstKind_cons]
      cases optional <;> decide

theorem declares_method {optional : Bool} (hw : IsMemberName w)
    (hnew : w.kind = kwNew → optional = true) (hnames : ∀ p ∈ params, isIdentifier p.1 = true)
    (hparams : ∀ p ∈ params, Spelt n true p.2) (ho : Spelt n true o) :
    Declares n (.method w optional params o) where
  consumes fuel s hfuel hroom hfalse := by
    refine consumes_method hw hnew hnames hparams ho (Nat.le_trans ?_ hfuel) hroom hfalse
    rw [words_method, List.length_cons, List.length_append]
    omega
  starts := by
    refine ⟨w, _, words_method .., hw.kind_not_mem, ?_⟩
    rw [wordsOf_signature, firstKind_question, firstKind_cons]
    cases optional
    · exact nofun
    · exact nofun

theorem declares_construct (hnames : ∀ p ∈ params, isIdentifier p.1 = true)
    (hparams : ∀ p ∈ params, Spelt n true p.2) (ho : Spelt n true o) :
    Declares n (.construct params o) where
  consumes fuel s hfuel hroom hfalse := by
    refine consumes_construct hnames hparams ho (Nat.le_trans ?_ hfuel) hroom hfalse
    rw [words_construct]
    exact Nat.le_succ _
  starts := by
    refine ⟨.named "new", _, words_construct .., by decide, ?_⟩
    rw [wordsOf_signature]
    exact nofun

/-- One round takes a member and the semicolon behind it. -/
theorem memberStep_reads (hitem : Consumes s0 (member type) (· = semicolon) o)
    (hstart : StartsMember o) (h : Reads s0 s os (o.words ++ Lexeme.mark semicolon :: ws)) :
    Yields s0 (do
      if ← atEnd then return false
      if ← at? braceClose then return false
      memberOrSkipped type
      memberEnd
      return true) s true (os ++ [o] ++ [.mark semicolon]) ws := by
  obtain ⟨w, vs, hwords, hw, -⟩ := hstart
  have hclose : (firstKind (o.words ++ Lexeme.mark semicolon :: ws) == braceClose) = false := by
    rw [hwords]
    exact beq_false_of_ne fun hkind : w.kind = braceClose => hw (by simp [hkind])
  have hempty : (o.words ++ Lexeme.mark semicolon :: ws).isEmpty = false := by
    rw [hwords]
    rfl
  refine h.atEnd.bind fun s1 h1 => ?_
  rw [hempty, if_neg Bool.false_ne_true]
  refine (h1.at? braceClose).bind fun s2 h2 => ?_
  rw [hclose, if_neg Bool.false_ne_true]
  refine Yields.bind (a := ()) ?_
    fun s3 (h3 : Reads s0 s3 (os ++ [o]) (Lexeme.mark semicolon :: ws)) => ?_
  · unfold memberOrSkipped
    refine (hitem.read rfl h2).bind fun s3 h3 => ?_
    rw [if_neg (by simp)]
    exact h3.pure
  · refine Yields.bind (a := ()) ?_ fun s4 h4 => h4.pure
    unfold memberEnd
    refine (h3.eat (w := .mark semicolon)).bind fun s4 h4 => ?_
    rw [if_pos rfl]
    exact h4.pure

/-- Members are read one by one, up to the closing brace. -/
theorem iterate_ended (hitems : ∀ o ∈ items, Consumes s0 (member type) (· = semicolon) o)
    (hstarts : ∀ o ∈ items, StartsMember o) {n : Nat} (hn : items.length < n)
    (h : Reads s0 s os (wordsOf (ended semicolon items) ++ Lexeme.mark braceClose :: ws)) :
    Yields s0 (iterate n do
      if ← atEnd then return false
      if ← at? braceClose then return false
      memberOrSkipped type
      memberEnd
      return true) s () (os ++ ended semicolon items) (Lexeme.mark braceClose :: ws) := by
  induction items generalizing s os n with
  | nil =>
    obtain ⟨n, rfl⟩ := Nat.exists_eq_succ_of_ne_zero (Nat.ne_zero_of_lt hn)
    rw [ended_nil, wordsOf_nil, List.nil_append] at h
    rw [ended_nil, List.append_nil]
    refine Yields.iterate_stop (h.atEnd.bind fun s1 h1 => ?_)
    rw [List.isEmpty_cons, if_neg Bool.false_ne_true]
    refine (h1.at? braceClose).bind fun s2 h2 => ?_
    rw [firstKind_cons, Lexeme.mark_kind, beq_self_eq_true, if_pos rfl]
    exact h2.pure
  | cons o items ih =>
    obtain ⟨n, rfl⟩ := Nat.exists_eq_succ_of_ne_zero (Nat.ne_zero_of_lt hn)
    rw [ended_cons, wordsOf_cons, wordsOf_cons, words_mark, List.append_assoc, List.append_assoc,
      List.singleton_append] at h
    have hstep := memberStep_reads (hitems o List.mem_cons_self) (hstarts o List.mem_cons_self) h
    refine hstep.iterate_next fun s1 h1 => ?_
    have hrest := ih (fun p hp => hitems p (List.mem_cons_of_mem o hp))
      (fun p hp => hstarts p (List.mem_cons_of_mem o hp)) (Nat.lt_of_succ_lt_succ hn) h1
    rw [List.append_assoc, List.append_assoc] at hrest
    exact hrest

theorem members_reads (hitems : ∀ o ∈ items, Consumes s0 (member type) (· = semicolon) o)
    (hstarts : ∀ o ∈ items, StartsMember o)
    (h : Reads s0 s os (wordsOf (ended semicolon items) ++ Lexeme.mark braceClose :: ws)) :
    Yields s0 (members type) s () (os ++ ended semicolon items) (Lexeme.mark braceClose :: ws) := by
  unfold members repeatWhile
  refine Yields.get (iterate_ended hitems hstarts ?_ h)
  have hsize := h.length_le
  rw [List.length_append] at hsize
  have hitems := length_le_ended semicolon items
  rw [h.tokens_eq]
  omega

/-- What stands between the braces makes no mapped type of them. -/
theorem atMappedType_members (hstarts : ∀ o ∈ items, StartsMember o)
    (h : Reads s0 s os (w :: (wordsOf (ended semicolon items) ++ Lexeme.mark braceClose :: ws))) :
    Yields s0 atMappedType s false os
      (w :: (wordsOf (ended semicolon items) ++ Lexeme.mark braceClose :: ws)) := by
  generalize hrest : wordsOf (ended semicolon items) ++ Lexeme.mark braceClose :: ws = rest at h ⊢
  obtain ⟨hsigns, hfirst, hsecond⟩ : (firstKind rest ≠ plus ∧ firstKind rest ≠ minus) ∧
      firstKind rest ≠ bracketOpen ∧
      (firstKind rest = ident → firstKind (rest.drop 1) ≠ bracketOpen) := by
    subst hrest
    cases items with
    | nil =>
      refine ⟨⟨nofun, nofun⟩, nofun, nofun⟩
    | cons o items =>
      obtain ⟨w, vs, hwords, hw, hvs⟩ := hstarts o List.mem_cons_self
      rw [ended_cons, wordsOf_cons, hwords]
      simp only [List.mem_cons, List.not_mem_nil, or_false, not_or] at hw
      refine ⟨⟨hw.2.2.1, hw.2.2.2⟩, hw.2.1, fun _ => ?_⟩
      cases vs with
      | nil => exact nofun
      | cons v vs => exact hvs
  unfold atMappedType
  refine (h.peek 1).bind fun s1 h1 => ?_
  rw [List.drop_one, List.tail_cons, beq_false_of_ne hsigns.1, beq_false_of_ne hsigns.2, Bool.or_false,
    if_neg Bool.false_ne_true]
  refine (h1.peekText 1).bind fun s2 h2 => ?_
  have hbracket : (firstKind ((w :: rest).drop (if (firstKind rest == ident &&
      firstText ((w :: rest).drop 1) == "readonly") = true then 2 else 1)) == bracketOpen) = false := by
    split
    · rename_i hreadonly
      exact beq_false_of_ne (hsecond (eq_of_beq (Bool.and_eq_true_iff.1 hreadonly).1))
    · exact beq_false_of_ne hfirst
  refine (h2.peek _).bind fun s3 h3 => ?_
  rw [hbracket, if_neg Bool.false_ne_true]
  exact h3.pure

/-- An object type is read. -/
theorem readable_object (hitems : ∀ o ∈ items, Declares n o) :
    Readable (n + 1) .primary (.object items) := by
  intro fuel s hfuel hroom _ s1 ws hs _ h
  rw [words_object, List.cons_append, List.append_assoc, List.singleton_append] at h
  rw [words_object, List.length_cons, List.length_append] at hfuel
  have hobject : ∀ s2, Reads s1 s2 [] (.mark braceOpen ::
        (wordsOf (ended semicolon items) ++ Lexeme.mark braceClose :: ws)) →
      Yields s1 (Parser.objectType (typeAt fuel)) s2 () [.object items] ws := by
    intro s2 h2
    refine h2.within fun s3 h3 hs3 => ?_
    refine (h3.expect (w := .mark braceOpen) "\x7b").bind fun s4 h4 => ?_
    refine Yields.bind (a := ()) (h4.allowingConditional fun s5 h5 hs5 hfalse => ?_) fun s5 h5 =>
      (h5.expect (w := .mark braceClose) "\x7d").bind fun s6 h6 => h6.pure
    have hroom4 : Room s4 (n + 1) :=
      hroom.of_same (hs.trans (h2.toSame.trans (hs3.trans h4.toSame)))
    have hroom5 : Room s5 (n + 1) := hroom4.of_eq hs5.limits_eq hs5.depth_eq
    have hlength : ∀ o ∈ items, o.words.length ≤ fuel := fun o ho =>
      Nat.le_trans (length_words_le (mem_ended (k := semicolon) ho)) (by omega)
    exact members_reads (fun o ho => (hitems o ho).consumes fuel s5 (hlength o ho) hroom5 hfalse)
      (fun o ho => (hitems o ho).starts) h5
  unfold primaryType
  refine h.current.bind fun s2 h2 => ?_
  refine (atMappedType_members (fun o ho => (hitems o ho).starts) h2).bind fun s3 h3 => ?_
  exact (hobject s3 h3).bind fun s4 h4 => h4.pure

/-- An object type stands for a type. -/
theorem spelt_object (hitems : ∀ o ∈ items, Declares n o) : Spelt (n + 1) true (.object items) := by
  have hwords := words_object items
  have hleads : Leads (Outline.object items).words := by
    rw [hwords]
    exact leads_bracket rfl rfl _
  have hitem : ∀ k, braceOpen ≠ k → StartsItem k (.object items) := fun k hk =>
    ⟨_, _, hwords, hk⟩
  have hoperator := (readable_object hitems).postfix_.operator (by rw [hwords]; exact nofun)
  have hintersection := hoperator.intersection_single (hitem amp (by decide))
  have hunion := hintersection.union_single (hitem pipe (by decide))
  exact ⟨hunion.type_single hleads (fun ws _ => by rw [hwords]; rfl) true, hleads⟩

end Members

end Parser

end DeclKit

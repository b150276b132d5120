/-
Reading phrases.

The production of each level reads the phrases of its level: from a state that has the words of a
phrase ahead it adds the outline to the row, answers that there was a type, and stops before the words
behind, if their first one does not bind. This is shown by induction on the phrase, with the state and
what stands behind left open, and with one lemma for each way to build a phrase.
-/
import DeclKit.Proofs.Grammar.Ahead
import DeclKit.Proofs.Grammar.Phrase

set_option autoImplicit false

namespace DeclKit

open DeclKit.Parser Kind Outline

/-! ## What ends a phrase -/

/-- Kinds of words that go on with a phrase of a level, or make something else of it. -/
def Level.binds : Level → List Kind
  | primary | postfix_ => [lt, dot, arrow, ident, kwThis, kwNew]
  | operator => [bracketOpen, lt, dot, arrow, ident, kwThis, kwNew]
  | intersection => [amp, bracketOpen, lt, dot, arrow, ident, kwThis, kwNew]
  | union => [pipe, amp, bracketOpen, lt, dot, arrow, ident, kwThis, kwNew]
  | type _ => [kwExtends, pipe, amp, bracketOpen, lt, dot, arrow, ident, kwThis, kwNew]

/-- A word of a kind ends a phrase of a level. -/
def Level.ends (l : Level) (k : Kind) : Prop := k ∉ l.binds

instance (l : Level) (k : Kind) : Decidable (l.ends k) := inferInstanceAs (Decidable (k ∉ l.binds))

theorem Level.ends.ne {l : Level} {k k' : Kind} (h : l.ends k) (hk : k' ∈ l.binds) : k ≠ k' :=
  fun heq => h (heq ▸ hk)

/-! What ends a phrase ends its operands, and is no further operator. -/

theorem Level.ends.of_operator {k : Kind} (h : operator.ends k) : postfix_.ends k ∧ k ≠ bracketOpen :=
  ⟨fun hmem => h (List.mem_cons_of_mem _ hmem), h.ne List.mem_cons_self⟩

theorem Level.ends.of_intersection {k : Kind} (h : intersection.ends k) : operator.ends k ∧ k ≠ amp :=
  ⟨fun hmem => h (List.mem_cons_of_mem _ hmem), h.ne List.mem_cons_self⟩

theorem Level.ends.of_union {k : Kind} (h : union.ends k) : intersection.ends k ∧ k ≠ pipe :=
  ⟨fun hmem => h (List.mem_cons_of_mem _ hmem), h.ne List.mem_cons_self⟩

theorem Level.ends.of_type {c : Bool} {k : Kind} (h : (type c).ends k) : union.ends k ∧ k ≠ kwExtends :=
  ⟨fun hmem => h (List.mem_cons_of_mem _ hmem), h.ne List.mem_cons_self⟩

namespace Parser

/-! ## Lists -/

section Lists

variable {s0 s s1 : State} {step : Parse Bool} {ends : Kind → Prop} {close : Kind} {o : Outline}
  {os items : List Outline} {ws : List Lexeme}

/-- A parse can be followed from where it is. -/
theorem Reads.here (h : Reads s0 s os ws) : Reads s s [] ws := h.ahead_eq ▸ Reads.refl h.toSteady

/-- In states like a given one a step consumes an outline that the words behind it end, and answers
that there is one. -/
def Consumes (s : State) (step : Parse Bool) (ends : Kind → Prop) (o : Outline) : Prop :=
  ∀ s1 ws, Same s s1 → ends (firstKind ws) → Reads s1 s1 [] (o.words ++ ws) →
    Yields s1 step s1 true [o] ws

theorem Consumes.read (h : Consumes s0 step ends o) (hends : ends (firstKind ws))
    (hreads : Reads s0 s1 os (o.words ++ ws)) : Yields s0 step s1 true (os ++ [o]) ws :=
  hreads.then (h s1 ws hreads.toSame hends hreads.here)

theorem Consumes.mono {ends' : Kind → Prop} (h : Consumes s step ends o)
    (hends : ∀ k, ends' k → ends k) : Consumes s step ends' o :=
  fun s1 ws hs hk hreads => h s1 ws hs (hends _ hk) hreads

theorem Consumes.of_same (h : Consumes s step ends o) (hs : Same s s1) : Consumes s1 step ends o :=
  fun s2 ws hs2 hk hreads => h s2 ws (hs.trans hs2) hk hreads

/-- Behind an item stands a mark or what stands behind all of them. -/
theorem ends_following {op : Kind} (hop : ends op) (hends : ends (firstKind ws))
    (items : List Outline) : ends (firstKind (wordsOf (following op items) ++ ws)) := by
  cases items with
  | nil =>
    rw [following_nil, wordsOf_nil]
    exact hends
  | cons o items =>
    rw [following_cons, wordsOf_cons, words_mark]
    exact hop

/-- A step that takes a mark and the item behind it, repeated for each item. -/
theorem iterate_following {op : Kind} (hitems : ∀ o ∈ items, Consumes s0 step ends o)
    (hop : ends op) (hends : ends (firstKind ws)) (hne : firstKind ws ≠ op) {n : Nat}
    (hn : items.length < n) (h : Reads s0 s1 os (wordsOf (following op items) ++ ws)) :
    Yields s0 (iterate n (do if ← eat op then step else return false)) s1 ()
      (os ++ following op items) ws := by
  induction items generalizing s1 os n with
  | nil =>
    obtain ⟨n, rfl⟩ := Nat.exists_eq_succ_of_ne_zero (Nat.ne_zero_of_lt hn)
    rw [following_nil, List.append_nil]
    refine Yields.iterate_stop ?_
    exact (h.eat_not hne).bind fun s2 h2 => h2.pure
  | cons o items ih =>
    obtain ⟨n, rfl⟩ := Nat.exists_eq_succ_of_ne_zero (Nat.ne_zero_of_lt hn)
    rw [following_cons, wordsOf_cons, words_mark, wordsOf_cons, List.append_assoc,
      List.append_assoc] at h
    have hstep : Yields s0 (do if ← eat op then step else return false) s1 true
        (os ++ [.mark op] ++ [o]) (wordsOf (following op items) ++ ws) := by
      refine h.eat.bind fun s2 h2 => ?_
      exact (hitems o List.mem_cons_self).read (ends_following hop hends items) h2
    refine Yields.iterate_next hstep fun s2 h2 => ?_
    have hrest := ih (fun p hp => hitems p (List.mem_cons_of_mem o hp))
      (Nat.lt_of_succ_lt_succ hn) h2
    rw [List.append_assoc, List.append_assoc] at hrest
    exact hrest

/-- An item of a list starts with a word that does not close the list. -/
def StartsItem (close : Kind) (o : Outline) : Prop := ∃ w vs, o.words = w :: vs ∧ w.kind ≠ close

/-- What a step of a list does at an item, up to the comma behind it. -/
theorem listStep_item {b : Bool} {os' : List Outline} {ws' : List Lexeme}
    (hitem : Consumes s0 step (fun k => k = comma ∨ k = close) o) (hstart : StartsItem close o)
    (hends : firstKind ws = comma ∨ firstKind ws = close) (h : Reads s0 s1 os (o.words ++ ws))
    (hcomma : ∀ s2, Reads s0 s2 (os ++ [o]) ws → Yields s0 (eat comma) s2 b os' ws') :
    Yields s0 (do
      if ← atEnd then return false
      if ← at? close then return false
      if !(← step) then skipUntil fun k => recoversList k || k == comma
      eat comma) s1 b os' ws' := by
  obtain ⟨w, vs, hwords, hw⟩ := hstart
  rw [hwords, List.cons_append] at h
  refine h.atEnd.bind fun s2 h2 => ?_
  rw [List.isEmpty_cons, if_neg Bool.false_ne_true]
  refine (h2.at? close).bind fun s3 h3 => ?_
  rw [firstKind_cons, beq_false_of_ne hw, if_neg Bool.false_ne_true]
  rw [← List.cons_append, ← hwords] at h3
  exact (hitem.read hends h3).bind hcomma

/-- A list of items is read item by item, each but the last one with the comma behind it. -/
theorem iterate_joined (hclose : close ≠ comma)
    (hitems : ∀ p ∈ o :: items, Consumes s0 step (fun k => k = comma ∨ k = close) p)
    (hstarts : ∀ p ∈ o :: items, StartsItem close p) {n : Nat} (hn : items.length < n)
    (h : Reads s0 s1 os (wordsOf (joined comma (o :: items)) ++ Lexeme.mark close :: ws)) :
    Yields s0 (iterate n do
      if ← atEnd then return false
      if ← at? close then return false
      if !(← step) then skipUntil fun k => recoversList k || k == comma
      eat comma) s1 () (os ++ joined comma (o :: items)) (Lexeme.mark close :: ws) := by
  rw [joined_cons, wordsOf_cons, List.append_assoc] at h
  induction items generalizing s1 os n o with
  | nil =>
    obtain ⟨n, rfl⟩ := Nat.exists_eq_succ_of_ne_zero (Nat.ne_zero_of_lt hn)
    rw [following_nil, wordsOf_nil, List.nil_append] at h
    refine Yields.iterate_stop (listStep_item (hitems o List.mem_cons_self)
      (hstarts o List.mem_cons_self) (.inr rfl) h fun s2 h2 => ?_)
    exact h2.eat_not hclose
  | cons p items ih =>
    obtain ⟨n, rfl⟩ := Nat.exists_eq_succ_of_ne_zero (Nat.ne_zero_of_lt hn)
    rw [following_cons, wordsOf_cons, words_mark, wordsOf_cons, List.append_assoc,
      List.append_assoc] at h
    refine Yields.iterate_next (listStep_item (hitems o List.mem_cons_self)
      (hstarts o List.mem_cons_self) (.inl rfl) h fun s2 h2 => h2.eat) fun s2 h2 => ?_
    have hrest := ih (fun q hq => hitems q (List.mem_cons_of_mem o hq))
      (fun q hq => hstarts q (List.mem_cons_of_mem o hq)) (Nat.lt_of_succ_lt_succ hn) h2
    rw [List.append_assoc, List.append_assoc] at hrest
    exact hrest

/-- Items between commas up to a closing mark. -/
theorem commaList_items (closeText : String) (hclose : close ≠ comma)
    (hitems : ∀ o ∈ items, Consumes s0 step (fun k => k = comma ∨ k = close) o)
    (hstarts : ∀ o ∈ items, StartsItem close o)
    (h : Reads s0 s1 os (wordsOf (joined comma items) ++ Lexeme.mark close :: ws)) :
    Yields s0 (commaList close closeText step) s1 true
      (os ++ joined comma items ++ [.mark close]) ws := by
  unfold commaList repeatWhile
  refine Yields.bind (a := ()) (Yields.get ?_) fun s2 h2 => h2.expect (w := .mark close) closeText
  cases items with
  | nil =>
    rw [joined_nil, List.append_nil]
    rw [joined_nil, wordsOf_nil, List.nil_append] at h
    refine Yields.iterate_stop (h.atEnd.bind fun s2 h2 => ?_)
    rw [List.isEmpty_cons, if_neg Bool.false_ne_true]
    refine (h2.at? close).bind fun s3 h3 => ?_
    rw [firstKind_cons, Lexeme.mark_kind, beq_self_eq_true, if_pos rfl]
    exact h3.pure
  | cons o items =>
    refine iterate_joined hclose hitems hstarts (Nat.lt_succ_of_le ?_) h
    have hsize := h.length_le
    rw [joined_cons, wordsOf_cons, List.length_append, List.length_append] at hsize
    have hitems := length_le_following comma items
    rw [h.tokens_eq]
    omega

end Lists

/-! ## Productions -/

section Productions

variable {fuel n : Nat} {c : Bool} {l : Level} {s s1 : State} {o : Outline} {os items : List Outline}
  {ws : List Lexeme}

/-- The nesting that a parse allows is enough for types that nest so deep. -/
def Room (s : State) (n : Nat) : Prop := ∀ m ∈ s.limits.nesting, s.depth + n ≤ m

/-- Brackets behind a type are taken round by round: so many rounds on, an outline with its brackets
has been read. -/
def ConsumesPostfix (s : State) (type : Parse Bool) (o : Outline) : Prop :=
  ∀ s1 ws, Same s s1 → Level.postfix_.ends (firstKind ws) → Reads s1 s1 [] (o.words ++ ws) →
    ∃ s2 s3, ∃ j ≤ o.words.length,
      primaryType type s1 = (true, s2) ∧ s2.tokens = s1.tokens ∧
      (∀ n, iterate (n + j) (bracketSuffix type s1.row.size) s2 =
        iterate n (bracketSuffix type s1.row.size) s3) ∧
      Reads s1 s3 [o] ws

/-- The production of a level reads an outline, with types inside it read so deep. -/
def Produces (fuel : Nat) (s : State) (o : Outline) : Level → Prop
  | .primary => Consumes s (primaryType (typeAt fuel)) Level.primary.ends o
  | .postfix_ => ConsumesPostfix s (typeAt fuel) o
  | .operator => ∀ m, o.words.length ≤ m →
      Consumes s (operatorType (typeAt fuel) m) Level.operator.ends o
  | .intersection => Consumes s (intersection (typeAt fuel)) Level.intersection.ends o
  | .union => Consumes s (union (typeAt fuel)) Level.union.ends o
  | .type c => Consumes s (typeHere (typeAt fuel)) (Level.type c).ends o

/-- An outline is read at a level wherever there is room for it, and for a conditional type at its open
end wherever one is allowed. -/
def Readable (n : Nat) (l : Level) (o : Outline) : Prop :=
  ∀ fuel s, o.words.length ≤ fuel + 1 → Room s n → (l = .type true → s.inExtends = false) →
    Produces fuel s o l

/-- A type inside another one is read one level deeper. -/
theorem Readable.consumes (h : Readable n (.type c) o) (hsome : o.words ≠ [])
    (hfuel : o.words.length ≤ fuel) (hroom : Room s (n + 1))
    (hconditional : c = true → s.inExtends = false) :
    Consumes s (typeAt fuel) (Level.type c).ends o := by
  obtain ⟨fuel, rfl⟩ := Nat.exists_eq_succ_of_ne_zero
    (Nat.ne_zero_of_lt (Nat.lt_of_lt_of_le (List.length_pos_iff.2 hsome) hfuel))
  intro s1 ws hs hends hreads
  unfold Parser.typeAt
  have hroom1 : ∀ m ∈ s1.limits.nesting, s1.depth < m := by
    intro m hm
    rw [hs.limits_eq] at hm
    rw [hs.depth_eq]
    exact Nat.lt_of_lt_of_le (Nat.lt_add_of_pos_right (Nat.succ_pos n)) (hroom m hm)
  refine hreads.typeWith hroom1 fun s2 h2 hs2 hdepth => ?_
  have hroom2 : Room s2 n := by
    intro m hm
    have hle := hroom m (by rwa [← hs.limits_eq, ← hs2.limits_eq])
    rw [hdepth, hs.depth_eq]
    omega
  refine h fuel s2 hfuel hroom2 ?_ s2 ws (.refl s2) hends h2
  intro hc
  have hfalse := hconditional (Level.type.inj hc)
  rw [← hfalse, ← hs.inExtends_eq]
  exact hs2.inExtends_eq

theorem Room.of_eq (h : Room s n) (hlimits : s1.limits = s.limits) (hdepth : s1.depth = s.depth) :
    Room s1 n := by
  intro m hm
  rw [hdepth]
  exact h m (hlimits ▸ hm)

theorem Room.of_same (h : Room s n) (hs : Same s s1) : Room s1 n := h.of_eq hs.limits_eq hs.depth_eq

/-- A list in brackets, in which conditional types are allowed. -/
theorem allowing_commaList {s0 : State} {item : Parse Bool} {close : Kind} (closeText : String)
    (hclose : close ≠ comma) (hroom : Room s0 n)
    (hitems : ∀ s2, Room s2 n → s2.inExtends = false →
      ∀ o ∈ items, Consumes s2 item (fun k => k = comma ∨ k = close) o)
    (hstarts : ∀ o ∈ items, StartsItem close o)
    (h : Reads s0 s1 os (wordsOf (joined comma items) ++ Lexeme.mark close :: ws)) :
    Yields s0 (allowingConditional (commaList close closeText item)) s1 true
      (os ++ (joined comma items ++ [.mark close])) ws := by
  refine h.allowingConditional fun s2 h2 hs2 hfalse => ?_
  have hroom2 : Room s2 n := (hroom.of_same h.toSame).of_eq hs2.limits_eq hs2.depth_eq
  exact commaList_items closeText hclose (hitems s2 hroom2 hfalse) hstarts h2

/-- An outline that stands for a type: it is read as one, and its first words show it. -/
structure Spelt (n : Nat) (c : Bool) (o : Outline) : Prop where
  reads : Readable n (.type c) o
  leads : Leads o.words

theorem Spelt.ne_nil (h : Spelt n c o) : o.words ≠ [] := by
  obtain ⟨w, vs, hwords, -⟩ := h.leads.exists_cons
  rw [hwords]
  exact List.cons_ne_nil w vs

/-- A type inside brackets, with nothing that binds behind it. -/
theorem Spelt.consumes (h : Spelt n c o) (hfuel : o.words.length ≤ fuel) (hroom : Room s (n + 1))
    (hfalse : s.inExtends = false) : Consumes s (typeAt fuel) (Level.type c).ends o :=
  h.reads.consumes h.ne_nil hfuel hroom fun _ => hfalse

/-- A type starts no list that is closed by a closing bracket. -/
theorem Spelt.startsItem (h : Spelt n c o) {close : Kind} (hclose : closesBracket close ∨ close = gt) :
    StartsItem close o := by
  obtain ⟨w, vs, hwords, hw⟩ := h.leads.exists_cons
  refine ⟨w, vs, hwords, Lexeme.starts_kind_ne hw ?_⟩
  cases close <;> simp_all [closesBracket]

/-- A comma and a closing bracket end every phrase. -/
theorem Level.ends_of_separates {close k : Kind} (hclose : closesBracket close ∨ close = gt)
    (hk : k = comma ∨ k = close) : l.ends k := by
  obtain rfl | rfl := hk
  · cases l <;> simp [Level.ends, Level.binds]
  · cases k <;> simp_all [closesBracket] <;> cases l <;> simp [Level.ends, Level.binds]

/-- A type in brackets. -/
theorem Spelt.allowing {s0 : State} (h : Spelt n true o) (hfuel : o.words.length ≤ fuel)
    (hroom : Room s0 (n + 1)) {close : Kind} (hclose : closesBracket close ∨ close = gt)
    (hreads : Reads s0 s os (o.words ++ Lexeme.mark close :: ws)) :
    Yields s0 (allowingConditional (typeAt fuel)) s true (os ++ [o]) (Lexeme.mark close :: ws) := by
  refine hreads.allowingConditional fun s1 h1 hs1 hfalse => ?_
  have hroom1 : Room s1 (n + 1) :=
    (hroom.of_same hreads.toSame).of_eq hs1.limits_eq hs1.depth_eq
  exact (h.consumes hfuel hroom1 hfalse).read (Level.ends_of_separates hclose (.inr rfl)) h1

/-- Type arguments. -/
theorem typeArgs_reads {s0 : State} (hitems : ∀ o ∈ items, Spelt n true o)
    (hfuel : (wordsOf (joined comma items)).length ≤ fuel) (hroom : Room s0 (n + 1))
    (h : Reads s0 s1 os
      (Lexeme.mark lt :: (wordsOf (joined comma items) ++ Lexeme.mark gt :: ws))) :
    Yields s0 (typeArgs (typeAt fuel)) s1 ()
      (os ++ [.node typeArgList (.mark lt :: joined comma items ++ [.mark gt])]) ws := by
  refine h.within fun s2 h2 hs2 => ?_
  refine h2.bump.bind fun s3 h3 => ?_
  have hroom2 : Room s2 (n + 1) := (hroom.of_same h.toSame).of_same hs2
  refine (allowing_commaList ">" (by decide) hroom2 ?_ ?_ h3).bind fun s4 h4 => h4.pure
  · intro s4 hroom4 hfalse o ho
    refine ((hitems o ho).consumes ?_ hroom4 hfalse).mono fun k hk => ?_
    · exact Nat.le_trans (length_words_le (mem_joined ho)) hfuel
    · exact Level.ends_of_separates (.inr rfl) hk
  · exact fun o ho => (hitems o ho).startsItem (.inr rfl)

/-! ### Primary types -/

theorem readable_keyword (k : Decl.Keyword) :
    Readable n .primary (.node keywordType [.named k.text]) := by
  intro fuel s _ _ _ s1 ws _ hends h
  have hcases : ((Lexeme.named k.text).kind = kwVoid ∨ (Lexeme.named k.text).kind = kwNull) ∨
      (Lexeme.named k.text).kind = ident ∧ keywordTypes.contains k.text = true := by
    cases k <;> decide
  have htext : firstText (Lexeme.named k.text :: ws) = k.text := String.ofList_toList
  rw [words_node, wordsOf_cons, wordsOf_nil, words_named, List.append_nil, List.singleton_append] at h
  unfold primaryType
  refine h.current.bind fun s2 h2 => ?_
  obtain (hkind | hkind) | ⟨hkind, hmem⟩ := hcases
  · rw [firstKind_cons, hkind]
    exact h2.bumpAs.bind fun s3 h3 => h3.pure
  · rw [firstKind_cons, hkind]
    exact h2.bumpAs.bind fun s3 h3 => h3.pure
  · rw [firstKind_cons, hkind]
    refine h2.currentText.bind fun s3 h3 => ?_
    rw [htext, if_pos hmem]
    refine (h3.peek 1).bind fun s4 h4 => ?_
    have hdot : (firstKind ws == dot) = false := beq_false_of_ne (hends.ne (by decide))
    rw [List.drop_one, List.tail_cons, hdot, if_neg Bool.false_ne_true]
    exact h4.bumpAs.bind fun s5 h5 => h5.pure

/-- A literal is a word of its own. -/
theorem readable_literal {w : Lexeme}
    (hw : w.kind = stringLiteral ∨ w.kind = kwTrue ∨ w.kind = kwFalse) :
    Readable n .primary (.node literalType [.word w]) := by
  intro fuel s _ _ _ s1 ws _ _ h
  rw [words_node, wordsOf_cons, wordsOf_nil, words_word, List.append_nil, List.singleton_append] at h
  unfold primaryType
  refine h.current.bind fun s2 h2 => ?_
  obtain hkind | hkind | hkind := hw
  all_goals
    rw [firstKind_cons, hkind]
    exact h2.bumpAs.bind fun s3 h3 => h3.pure

/-- A name alone, without dots. -/
theorem entity_reads {s0 : State} {name : String} (hname : isIdentifier name = true)
    (hdot : firstKind ws ≠ dot) (h : Reads s0 s os (Lexeme.named name :: ws)) :
    Yields s0 entity s () (os ++ [.node entityName [.named name]]) ws := by
  unfold entity
  refine h.within fun s1 h1 _ => ?_
  have hpart : Yields s1 entityPart s1 true [.named name] ws := by
    unfold entityPart
    refine h1.current.bind fun s2 h2 => ?_
    have hlike : (firstKind (Lexeme.named name :: ws)).isIdentifierLike = true := by
      rw [firstKind_cons, named_of_isIdentifier hname]
      rfl
    rw [if_pos hlike]
    exact h2.bump.bind fun s3 h3 => h3.pure
  refine hpart.bind fun s2 h2 => ?_
  refine Yields.get (Yields.iterate_stop ?_)
  exact (h2.eat_not hdot).bind fun s3 h3 => h3.pure

/-- A name and type arguments, if there are any. -/
theorem entityWithArgs_reads {s0 : State} {name : String} (hname : isIdentifier name = true)
    (hargs : ∀ o ∈ items, Spelt n true o) (hfuel : (wordsOf (arguments items)).length ≤ fuel)
    (hroom : Room s0 (n + 1)) (hdot : firstKind ws ≠ dot) (hlt : firstKind ws ≠ lt)
    (h : Reads s0 s os (Lexeme.named name :: (wordsOf (arguments items) ++ ws))) :
    Yields s0 (entityWithArgs (typeAt fuel)) s ()
      (os ++ .node entityName [.named name] :: arguments items) ws := by
  unfold entityWithArgs
  cases items with
  | nil =>
    refine (entity_reads hname hdot h).bind fun s1 h1 => ?_
    exact h1.whenAt_not hlt _
  | cons o items =>
    have hwords : wordsOf (arguments (o :: items)) ++ ws =
        Lexeme.mark lt :: (wordsOf (joined comma (o :: items)) ++ Lexeme.mark gt :: ws) := by
      rw [arguments, if_neg (by simp)]
      simp
    rw [hwords] at h
    have hfuel : (wordsOf (joined comma (o :: items))).length ≤ fuel := by
      refine Nat.le_trans ?_ hfuel
      rw [arguments, if_neg (by simp)]
      simp
      omega
    refine (entity_reads hname (by rw [firstKind_cons]; decide) h).bind fun s1 h1 => ?_
    refine h1.whenAt rfl fun s2 h2 => ?_
    refine (h2.lineBreakBefore 0 rfl).bind fun s3 h3 => ?_
    have hread := typeArgs_reads hargs hfuel hroom h3
    rw [List.append_assoc] at hread
    exact hread

theorem readable_reference {name : String} (hname : isTypeName name = true)
    (hargs : ∀ o ∈ items, Spelt n true o) :
    Readable (n + 1) .primary (.node typeRef (.node entityName [.named name] :: arguments items)) := by
  intro fuel s hfuel hroom _ s1 ws hs hends h
  have hident : isIdentifier name = true := isIdentifier_of_isTypeName hname
  have hkind : (Lexeme.named name).kind = ident := by rw [named_of_isIdentifier hident]
  rw [words_node, wordsOf_cons, words_node, wordsOf_cons, wordsOf_nil, words_named, List.append_nil,
    List.singleton_append] at h hfuel
  rw [List.cons_append] at h
  have hreference : ∀ s2 os, Reads s1 s2 os (Lexeme.named name :: (wordsOf (arguments items) ++ ws)) →
      Yields s1 (typeReference (typeAt fuel)) s2 ()
        (os ++ [.node typeRef (.node entityName [.named name] :: arguments items)]) ws := by
    intro s2 os h2
    refine h2.within fun s3 h3 hs3 => ?_
    refine entityWithArgs_reads hident hargs (Nat.le_of_succ_le_succ hfuel) ?_
      (hends.ne (by decide)) (hends.ne (by decide)) h3
    exact (hroom.of_same hs).of_same (h2.toSame.trans hs3)
  unfold primaryType
  refine h.current.bind fun s2 h2 => ?_
  rw [firstKind_cons, hkind]
  refine h2.currentText.bind fun s3 h3 => ?_
  have htext : firstText (Lexeme.named name :: (wordsOf (arguments items) ++ ws)) = name :=
    String.ofList_toList
  have hno : ¬keywordTypes.contains name = true := by simpa using not_keywordType_of_isTypeName hname
  rw [htext, if_neg hno]
  exact (hreference s3 _ h3).bind fun s4 h4 => h4.pure

/-- Behind the first word of a type, if it is like a name, stands no mark of a label or a parameter
and no `new`. -/
theorem second_ne {ws vs : List Lexeme} (h : Leads ws) {k : Kind} (hk : k ∈ [colon, question, kwNew])
    (hvs : firstKind vs ≠ k) (hlike : (firstKind (ws ++ vs)).isIdentifierLike = true) :
    firstKind ((ws ++ vs).drop 1) ≠ k := by
  match ws, h with
  | [w], _ => exact hvs
  | w :: v :: ws, h =>
    clear hvs
    obtain hcarries | ⟨-, hstarts⟩ := h.2 hlike
    · exact Lexeme.carries_kind_ne hcarries (by revert hk; revert k; decide)
    · exact Lexeme.starts_kind_ne hstarts (by revert hk; revert k; decide)

/-- The words of a type make no label of its first one. -/
theorem Spelt.atLabel {s0 : State} (ho : Spelt n c o) (hcolon : firstKind ws ≠ colon)
    (hquestion : firstKind ws ≠ question) (h : Reads s0 s os (o.words ++ ws)) :
    Yields s0 (atLabel 0) s false os (o.words ++ ws) := by
  unfold Parser.atLabel
  refine (h.peek 0).bind fun s1 h1 => ?_
  split
  · rename_i hlike
    refine (h1.peek 1).bind fun s2 h2 => ?_
    split
    · rename_i hkind
      exact absurd hkind (second_ne ho.leads (by decide) hcolon hlike)
    · rename_i hkind
      exact absurd hkind (second_ne ho.leads (by decide) hquestion hlike)
    · exact h2.pure
  · exact h1.pure

/-- An element of a tuple without a name and a mark. -/
theorem tupleElement_type (ho : Spelt n true o) (hfuel : o.words.length ≤ fuel)
    (hroom : Room s (n + 1)) (hfalse : s.inExtends = false) :
    Consumes s (tupleElement (typeAt fuel)) (fun k => k = comma ∨ k = bracketClose) o := by
  intro s1 ws hs hends h
  have hne : ∀ k ∈ [dotDotDot, colon, question], firstKind ws ≠ k := by
    obtain hkind | hkind := hends <;> rw [hkind] <;> decide
  have hdots : (firstKind (o.words ++ ws) == dotDotDot) = false := by
    obtain ⟨w, vs, hwords, hw⟩ := ho.leads.exists_cons
    rw [hwords]
    exact beq_false_of_ne (Lexeme.starts_kind_ne hw (by decide))
  unfold tupleElement
  refine (h.at? dotDotDot).bind fun s2 h2 => ?_
  rw [hdots]
  refine (ho.atLabel (hne _ (by decide)) (hne _ (by decide)) h2).bind fun s3 h3 => ?_
  rw [if_neg Bool.false_ne_true, if_neg Bool.false_ne_true]
  refine h3.mark_bind fun s4 h4 => ?_
  have htype := ho.consumes hfuel (hroom.of_same hs) (hs.inExtends_eq.trans hfalse)
  refine (htype.read (Level.ends_of_separates (.inl rfl) hends) h4).bind fun s5 h5 => ?_
  rw [if_neg (by simp)]
  refine (h5.whenAt_not (hne _ (by decide)) _).bind fun s6 h6 => h6.pure

theorem readable_tuple (hitems : ∀ o ∈ items, Spelt n true o) :
    Readable (n + 1) .primary
      (.node Kind.tupleType (.mark bracketOpen :: joined comma items ++ [.mark bracketClose])) := by
  intro fuel s hfuel hroom _ s1 ws hs _ h
  have hwords : (Outline.node Kind.tupleType
      (.mark bracketOpen :: joined comma items ++ [.mark bracketClose])).words =
      Lexeme.mark bracketOpen :: (wordsOf (joined comma items) ++ [Lexeme.mark bracketClose]) := by
    simp
  rw [hwords, List.cons_append, List.append_assoc, List.singleton_append] at h
  rw [hwords, List.length_cons, List.length_append] at hfuel
  have htuple : ∀ s2, Reads s1 s2 [] (.mark bracketOpen ::
        (wordsOf (joined comma items) ++ Lexeme.mark bracketClose :: ws)) →
      Yields s1 (Parser.tupleType (typeAt fuel)) s2 () [.node Kind.tupleType
        (.mark bracketOpen :: joined comma items ++ [.mark bracketClose])] ws := by
    intro s2 h2
    refine h2.within fun s3 h3 hs3 => h3.bump.bind fun s4 h4 => ?_
    have hroom3 : Room s3 (n + 1) := (hroom.of_same hs).of_same (h2.toSame.trans hs3)
    refine (allowing_commaList "]" (by decide) hroom3 ?_ ?_ h4).bind fun s5 h5 => h5.pure
    · intro s5 hroom5 hfalse o ho
      have hlength := length_words_le (mem_joined (k := comma) ho)
      exact tupleElement_type (hitems o ho) (by omega) hroom5 hfalse
    · exact fun o ho => (hitems o ho).startsItem (.inl rfl)
  unfold primaryType
  refine h.current.bind fun s2 h2 => ?_
  exact (htuple s2 h2).bind fun s3 h3 => h3.pure

theorem readable_paren (ho : Spelt n true o) :
    Readable (n + 1) .primary (.node parenType [.mark parenOpen, o, .mark parenClose]) := by
  intro fuel s hfuel hroom _ s1 ws hs _ h
  have hwords : (Outline.node parenType [.mark parenOpen, o, .mark parenClose]).words =
      Lexeme.mark parenOpen :: (o.words ++ [Lexeme.mark parenClose]) := by simp
  rw [hwords, List.cons_append, List.append_assoc, List.singleton_append] at h
  rw [hwords, List.length_cons, List.length_append] at hfuel
  have hparen : ∀ s2, Reads s1 s2 []
        (.mark parenOpen :: (o.words ++ Lexeme.mark parenClose :: ws)) →
      Yields s1 (parenthesizedType (typeAt fuel)) s2 ()
        [.node parenType [.mark parenOpen, o, .mark parenClose]] ws := by
    intro s2 h2
    refine h2.within fun s3 h3 hs3 => h3.bump.bind fun s4 h4 => ?_
    have hroom3 : Room s3 (n + 1) := (hroom.of_same hs).of_same (h2.toSame.trans hs3)
    have hlength : o.words.length ≤ fuel := by omega
    have htype := ho.allowing hlength hroom3 (.inl rfl) h4
    refine htype.bind fun s5 h5 => ?_
    exact (h5.expect (w := .mark parenClose) ")").bind fun s6 h6 => h6.pure
  unfold primaryType
  refine h.current.bind fun s2 h2 => ?_
  exact (hparen s2 h2).bind fun s3 h3 => h3.pure

/-! ### Operators -/

theorem Readable.postfix_ (h : Readable n .primary o) : Readable n .postfix_ o := by
  intro fuel s hfuel hroom _ s1 ws hs hends hreads
  obtain ⟨htrue, h1⟩ := h fuel s hfuel hroom nofun s1 ws hs hends hreads
  exact ⟨_, _, 0, Nat.zero_le _, Prod.ext htrue rfl, h1.tokens_eq, fun _ => rfl, h1⟩

/-- One more round takes brackets behind a type. -/
theorem ConsumesPostfix.round {type : Parse Bool} (h : ConsumesPostfix s type o) {o' : Outline}
    {tail : List Lexeme} (hwords : o'.words = o.words ++ Lexeme.mark bracketOpen :: tail)
    (hround : ∀ s1 s3 ws, Same s s1 → Reads s1 s3 [o] (Lexeme.mark bracketOpen :: (tail ++ ws)) →
      Yields s1 (bracketSuffix type s1.row.size) s3 true [o'] ws) : ConsumesPostfix s type o' := by
  intro s1 ws hs _ hreads
  rw [hwords, List.append_assoc, List.cons_append] at hreads
  have hends : Level.postfix_.ends (firstKind (Lexeme.mark bracketOpen :: (tail ++ ws))) := by
    simp [Level.ends, Level.binds]
  obtain ⟨s2, s3, j, hj, hprimary, htokens, hiterate, h3⟩ := h s1 _ hs hends hreads
  obtain ⟨htrue, h4⟩ := hround s1 s3 ws hs h3
  refine ⟨s2, (bracketSuffix type s1.row.size s3).2, j + 1, ?_, hprimary, htokens, ?_, h4⟩
  · rw [hwords, List.length_append, List.length_cons]
    omega
  · intro n
    calc iterate (n + (j + 1)) (bracketSuffix type s1.row.size) s2
        = iterate (n + 1 + j) (bracketSuffix type s1.row.size) s2 := by
          rw [Nat.add_right_comm, Nat.add_assoc]
      _ = iterate (n + 1) (bracketSuffix type s1.row.size) s3 := hiterate (n + 1)
      _ = iterate n (bracketSuffix type s1.row.size) (bracketSuffix type s1.row.size s3).2 := by
        rw [iterate, Reads.bind_apply, htrue]
        rfl

theorem Readable.array (h : Readable n .postfix_ o) :
    Readable n .postfix_ (.node arrayType [o, .mark bracketOpen, .mark bracketClose]) := by
  intro fuel s hfuel hroom _
  have hwords : (Outline.node arrayType [o, .mark bracketOpen, .mark bracketClose]).words =
      o.words ++ Lexeme.mark bracketOpen :: [Lexeme.mark bracketClose] := by simp
  rw [hwords, List.length_append] at hfuel
  refine ConsumesPostfix.round (h fuel s (by omega) hroom nofun) hwords fun s1 s3 ws hs h3 => ?_
  rw [List.singleton_append] at h3
  unfold bracketSuffix
  refine (h3.at? bracketOpen).bind fun s4 h4 => ?_
  rw [firstKind_cons, Lexeme.mark_kind, beq_self_eq_true, if_neg (by simp)]
  refine (h4.lineBreakBefore 0 rfl).bind fun s5 h5 => ?_
  rw [if_neg Bool.false_ne_true]
  refine (h5.peek 1).bind fun s6 h6 => ?_
  rw [List.drop_one, List.tail_cons, firstKind_cons, Lexeme.mark_kind, beq_self_eq_true, if_pos rfl]
  refine Yields.bind (a := ()) (h6.withinFrom fun s7 h7 _ => ?_) fun s7 h7 => h7.pure
  exact h7.bump.bind fun s8 h8 => h8.bump

theorem Readable.indexed {p : Outline} (h : Readable (n + 1) .postfix_ o) (hp : Spelt n true p) :
    Readable (n + 1) .postfix_
      (.node indexedAccessType [o, .mark bracketOpen, p, .mark bracketClose]) := by
  intro fuel s hfuel hroom _
  have hwords : (Outline.node indexedAccessType [o, .mark bracketOpen, p, .mark bracketClose]).words =
      o.words ++ Lexeme.mark bracketOpen :: (p.words ++ [Lexeme.mark bracketClose]) := by simp
  rw [hwords, List.length_append, List.length_cons, List.length_append] at hfuel
  refine ConsumesPostfix.round (h fuel s (by omega) hroom nofun) hwords fun s1 s3 ws hs h3 => ?_
  rw [List.append_assoc, List.singleton_append] at h3
  have hclose : (firstKind ((Lexeme.mark bracketOpen ::
      (p.words ++ Lexeme.mark bracketClose :: ws)).drop 1) == bracketClose) = false := by
    obtain ⟨w, vs, hw, hstarts⟩ := hp.leads.exists_cons
    rw [hw]
    exact beq_false_of_ne (Lexeme.starts_kind_ne hstarts (by decide))
  unfold bracketSuffix
  refine (h3.at? bracketOpen).bind fun s4 h4 => ?_
  rw [firstKind_cons, Lexeme.mark_kind, beq_self_eq_true, if_neg (by simp)]
  refine (h4.lineBreakBefore 0 rfl).bind fun s5 h5 => ?_
  rw [if_neg Bool.false_ne_true]
  refine (h5.peek 1).bind fun s6 h6 => ?_
  rw [hclose, if_neg Bool.false_ne_true]
  have hlength : p.words.length ≤ fuel := by omega
  refine Yields.bind (a := ()) (h6.withinFrom fun s7 h7 hs7 => ?_) fun s7 h7 => h7.pure
  have hroom7 : Room s7 (n + 1) := (hroom.of_same hs).of_same (h6.toSame.trans hs7)
  refine h7.bump.bind fun s8 h8 => (hp.allowing hlength hroom7 (.inl rfl) h8).bind fun s9 h9 => ?_
  exact (h9.expect (w := .mark bracketClose) "]").bind fun s10 h10 => h10.pure

/-- A type with brackets behind it is read when no further ones follow. -/
theorem ConsumesPostfix.consumes {type : Parse Bool} (h : ConsumesPostfix s type o) :
    Consumes s (postfixType type) Level.operator.ends o := by
  intro s1 ws hs hends hreads
  unfold postfixType
  refine hreads.mark_bind fun s2 h2 => ?_
  obtain ⟨s3, s4, j, hj, hprimary, htokens, hiterate, h4⟩ :=
    h s2 ws (hs.trans h2.toSame) hends.of_operator.1 h2.here
  -- there are more tokens than rounds, and one more round finds no bracket
  obtain ⟨m, hm⟩ : ∃ m, s3.tokens.size + 1 = m + 1 + j := by
    have hsize := h2.here.length_le
    rw [List.length_append] at hsize
    exact ⟨s3.tokens.size - j, by rw [htokens]; omega⟩
  have hstop : Yields s2 (bracketSuffix type s2.row.size) s4 false [o] ws := by
    unfold bracketSuffix
    refine (h4.at? bracketOpen).bind fun s5 h5 => ?_
    rw [beq_false_of_ne hends.of_operator.2, if_pos (by simp)]
    exact h5.pure
  have hrounds : repeatWhile (bracketSuffix type s2.row.size) s3 =
      iterate (m + 1) (bracketSuffix type s2.row.size) s4 := by
    rw [← hiterate, ← hm]
    rfl
  have hrun : ((do
      if !(← primaryType type) then return false
      repeatWhile (bracketSuffix type s2.row.size)
      return true) : Parse Bool) s2 =
      (true, (iterate (m + 1) (bracketSuffix type s2.row.size) s4).2) := by
    rw [Reads.bind_apply, hprimary, if_neg (by simp), Reads.bind_apply, hrounds]
    rfl
  refine h2.then ?_
  rw [Yields, hrun]
  exact ⟨rfl, (hstop.iterate_stop (n := m)).2⟩

/-- There is a first word, and it is no operator. -/
def StartsOperand : List Lexeme → Prop
  | [] => False
  | w :: _ => w.kind = ident → String.ofList w.chars ∉ operatorWords

theorem StartsOperand.append {ws : List Lexeme} (h : StartsOperand ws) (vs : List Lexeme) :
    StartsOperand (ws ++ vs) := by
  match ws, h with
  | w :: ws, h => exact h

/-- What starts with no operator is read without one. -/
theorem Readable.operator (h : Readable n .postfix_ o) (ho : StartsOperand o.words) :
    Readable n .operator o := by
  intro fuel s hfuel hroom _ m hm s1 ws hs hends hreads
  obtain ⟨w, vs, hwords, hw⟩ : ∃ w vs, o.words = w :: vs ∧
      (w.kind = ident → String.ofList w.chars ∉ operatorWords) := by
    match o.words, ho with
    | w :: vs, ho => exact ⟨w, vs, rfl, ho⟩
  obtain ⟨m, rfl⟩ : ∃ k, m = k + 1 := by
    rw [hwords, List.length_cons] at hm
    exact Nat.exists_eq_succ_of_ne_zero (by omega)
  have hread : ∀ s2, Reads s1 s2 [] (o.words ++ ws) →
      Yields s1 (postfixType (typeAt fuel)) s2 true [o] ws := fun s2 h2 =>
    ConsumesPostfix.consumes (h fuel s1 hfuel (hroom.of_same hs) nofun) |>.read hends h2
  have hkind : firstKind (o.words ++ ws) = w.kind := by rw [hwords]; rfl
  have htext : firstText (o.words ++ ws) = String.ofList w.chars := by rw [hwords]; rfl
  unfold operatorType
  refine hreads.current.bind fun s2 h2 => ?_
  rw [hkind]
  by_cases hident : w.kind = ident
  · have hno := hw hident
    simp only [operatorWords, List.mem_cons, not_or] at hno
    obtain ⟨hkeyof, hunique, hreadonly, hinfer, -⟩ := hno
    rw [hident, beq_self_eq_true, if_pos rfl]
    refine h2.currentText.bind fun s3 h3 => (h3.peek 1).bind fun s4 h4 => ?_
    rw [htext, beq_false_of_ne hkeyof, beq_false_of_ne hunique, beq_false_of_ne hreadonly,
      beq_false_of_ne hinfer, Bool.or_false, Bool.or_false, Bool.false_and,
      if_neg Bool.false_ne_true, Bool.false_and, if_neg Bool.false_ne_true]
    exact hread s4 h4
  · rw [beq_false_of_ne hident, if_neg Bool.false_ne_true]
    exact hread s2 h2

/-- A word that starts a type does not end the operand of an operator. -/
theorem not_endsOperand {w : Lexeme} (hw : w.starts = true) : endsOperand w.kind = false := by
  unfold endsOperand
  split
  all_goals first
    | rfl
    | rename_i hkind
      exact absurd hkind (Lexeme.starts_kind_ne hw (by decide))

theorem Readable.keyof (h : Readable n .operator o) (ho : Leads o.words) :
    Readable n .operator (.node typeOperator [.named "keyof", o]) := by
  intro fuel s hfuel hroom _ m hm s1 ws hs hends hreads
  have hwords : (Outline.node typeOperator [.named "keyof", o]).words =
      Lexeme.named "keyof" :: o.words := by simp
  rw [hwords, List.cons_append] at hreads
  rw [hwords, List.length_cons] at hfuel hm
  obtain ⟨m, rfl⟩ : ∃ k, m = k + 1 := Nat.exists_eq_succ_of_ne_zero (by omega)
  have hoperand : endsOperand (firstKind (o.words ++ ws)) = false := by
    obtain ⟨w, vs, hw, hstarts⟩ := ho.exists_cons
    rw [hw]
    exact not_endsOperand hstarts
  unfold operatorType
  refine hreads.current.bind fun s2 h2 => ?_
  rw [firstKind_cons, show (Lexeme.named "keyof").kind = ident by decide, beq_self_eq_true,
    if_pos rfl]
  refine h2.currentText.bind fun s3 h3 => (h3.peek 1).bind fun s4 h4 => ?_
  have htext : firstText (Lexeme.named "keyof" :: (o.words ++ ws)) = "keyof" := String.ofList_toList
  rw [htext, List.drop_one, List.tail_cons, hoperand, if_pos (by decide)]
  refine Yields.bind (a := ()) (h4.within fun s5 h5 hs5 => ?_) fun s5 h5 => h5.pure
  refine h5.bump.bind fun s6 h6 => ?_
  have hroom5 : Room s5 n := hroom.of_same (hs.trans (h4.toSame.trans hs5))
  have hoperator := h fuel s5 (by omega) hroom5 nofun m (by omega)
  exact (hoperator.read hends h6).bind fun s7 h7 => h7.pure

/-- One operand, with no operator before it and behind it. -/
theorem Consumes.binary_single {op node : Kind} {operand : Parse Bool} {ends ends' : Kind → Prop}
    (h : Consumes s operand ends o) (hstart : StartsItem op o)
    (hends : ∀ k, ends' k → ends k ∧ k ≠ op) :
    Consumes s (binaryType op node operand) ends' o := by
  intro s1 ws hs hws hreads
  obtain ⟨w, vs, hwords, hw⟩ := hstart
  have hop : (firstKind (o.words ++ ws) == op) = false := by
    rw [hwords]
    exact beq_false_of_ne hw
  unfold binaryType
  refine hreads.mark_bind fun s2 h2 => (h2.at? op).bind fun s3 h3 => ?_
  rw [hop, if_neg Bool.false_ne_true]
  have hread := h s3 ws (hs.trans h3.toSame) (hends _ hws).1 h3.here
  refine Yields.bind (h3.then hread) fun s4 h4 => ?_
  rw [if_neg (by simp)]
  exact (h4.whenAt_not (hends _ hws).2 _).bind fun s5 h5 => h5.pure

/-- Operands with an operator between each two. -/
theorem Consumes.binary_joined {op node : Kind} {operand : Parse Bool} {ends ends' : Kind → Prop}
    {p : Outline} (hitems : ∀ q ∈ o :: p :: items, Consumes s operand ends q)
    (hstart : StartsItem op o) (hop : ends op) (hends : ∀ k, ends' k → ends k ∧ k ≠ op) :
    Consumes s (binaryType op node operand) ends' (.node node (joined op (o :: p :: items))) := by
  intro s1 ws hs hws hreads
  obtain ⟨w, vs, hwords, hw⟩ := hstart
  rw [words_node, joined_cons, wordsOf_cons, List.append_assoc] at hreads
  have hfirst : (firstKind (o.words ++ (wordsOf (following op (p :: items)) ++ ws)) == op) = false := by
    rw [hwords]
    exact beq_false_of_ne hw
  unfold binaryType
  refine hreads.mark_bind fun s2 h2 => ?_
  have hread : ∀ q ∈ o :: p :: items, Consumes s2 operand ends q := fun q hq =>
    (hitems q hq).of_same (hs.trans h2.toSame)
  -- from the mark on everything belongs to the node
  refine h2.then (h2.here.at? op |>.bind fun s3 h3 => ?_)
  rw [hfirst, if_neg Bool.false_ne_true]
  have hfollows := ends_following hop (hends _ hws).1 (p :: items)
  refine ((hread o List.mem_cons_self).read hfollows h3).bind fun s4 h4 => ?_
  rw [if_neg (by simp)]
  refine Yields.bind (a := ()) (h4.whenAt rfl fun s5 h5 => h5.withinFrom fun s6 h6 hs6 => ?_)
    fun s5 h5 => h5.pure
  have hcount : (p :: items).length < s6.tokens.size + 1 := by
    have hsize := h6.length_le
    have hfollowing := length_le_following op (p :: items)
    rw [List.length_append] at hsize
    omega
  have hmore : ∀ q ∈ p :: items, Consumes s6 operand ends q := fun q hq =>
    (hread q (List.mem_cons_of_mem o hq)).of_same (h5.toSame.trans hs6)
  exact Yields.get (iterate_following hmore hop (hends _ hws).1 (hends _ hws).2 hcount h6)

theorem Readable.intersection_single (h : Readable n .operator o) (ho : StartsItem amp o) :
    Readable n .intersection o := by
  intro fuel s hfuel hroom _ s1 ws hs hends hreads
  have hsize := hreads.length_le
  rw [List.length_append] at hsize
  have hoperand := h fuel s1 hfuel (hroom.of_same hs) nofun (s1.tokens.size + 1) (by omega)
  have hbinary : Consumes s1 (binaryType amp intersectionType _) Level.intersection.ends o :=
    hoperand.binary_single ho fun k => Level.ends.of_intersection
  exact Yields.get (hbinary s1 ws (.refl s1) hends hreads)

theorem Readable.intersection {p : Outline} (h : ∀ q ∈ o :: p :: items, Readable n .operator q)
    (ho : StartsItem amp o) :
    Readable n .intersection (.node intersectionType (joined amp (o :: p :: items))) := by
  intro fuel s hfuel hroom _ s1 ws hs hends hreads
  have hsize := hreads.length_le
  rw [List.length_append] at hsize
  rw [words_node] at hfuel hsize
  have hoperands : ∀ q ∈ o :: p :: items,
      Consumes s1 (operatorType (typeAt fuel) (s1.tokens.size + 1)) Level.operator.ends q := by
    intro q hq
    have hlength := length_words_le (mem_joined (k := amp) hq)
    exact h q hq fuel s1 (by omega) (hroom.of_same hs) nofun _ (by omega)
  have hbinary : Consumes s1 (binaryType amp intersectionType _) Level.intersection.ends _ :=
    Consumes.binary_joined hoperands ho (by simp [Level.ends, Level.binds])
      fun k => Level.ends.of_intersection
  exact Yields.get (hbinary s1 ws (.refl s1) hends hreads)

theorem Readable.union_single (h : Readable n .intersection o) (ho : StartsItem pipe o) :
    Readable n .union o := by
  intro fuel s hfuel hroom _
  exact (h fuel s hfuel hroom nofun).binary_single ho fun k => Level.ends.of_union

theorem Readable.union {p : Outline} (h : ∀ q ∈ o :: p :: items, Readable n .intersection q)
    (ho : StartsItem pipe o) :
    Readable n .union (.node unionType (joined pipe (o :: p :: items))) := by
  intro fuel s hfuel hroom _
  rw [words_node] at hfuel
  have hoperands : ∀ q ∈ o :: p :: items,
      Consumes s (Parser.intersection (typeAt fuel)) Level.intersection.ends q := by
    intro q hq
    have hlength := length_words_le (mem_joined (k := pipe) hq)
    exact h q hq fuel s (by omega) hroom nofun
  exact Consumes.binary_joined hoperands ho (by simp [Level.ends, Level.binds])
    fun k => Level.ends.of_union

/-! ### Function and conditional types -/

/-- What a list of parameters is told by. -/
theorem atParameters_reads {s0 : State} {w : Lexeme} (h : Reads s0 s os (w :: ws)) :
    Yields s0 atParameters s (startsParams ws) os (w :: ws) := by
  unfold atParameters
  refine (h.peek 1).bind fun s1 h1 => ?_
  rw [List.drop_one, List.tail_cons]
  cases ws with
  | nil => exact h1.pure
  | cons v us =>
    rw [startsParams, firstKind_cons]
    split
    case h_1 hkind | h_2 hkind => rw [hkind]; exact h1.pure
    case h_3 hkind | h_4 hkind =>
      rw [hkind]
      refine (h1.peek 2).bind fun s2 h2 => ?_
      rw [List.drop_succ_cons, List.drop_one, List.tail_cons]
      cases us with
      | nil => exact h2.pure
      | cons u ts =>
        rw [labels, firstKind_cons]
        split <;> rename_i hkind
        · rw [hkind]; exact h2.pure
        · rw [hkind]; exact h2.pure
        · rw [hkind]; exact h2.pure
        · rw [hkind]; exact h2.pure
        · rw [hkind]
          cases ts with
          | nil => exact (h2.peek 3).bind fun s3 h3 => h3.pure
          | cons t ts => exact (h2.peek 3).bind fun s3 h3 => h3.pure
        · rw [beq_false_of_ne ‹u.kind ≠ colon›, beq_false_of_ne ‹u.kind ≠ comma›,
            beq_false_of_ne ‹u.kind ≠ question›, beq_false_of_ne ‹u.kind ≠ equals›,
            beq_false_of_ne ‹u.kind ≠ parenClose›]
          exact h2.pure
    case h_5 =>
      rw [beq_false_of_ne ‹v.kind ≠ parenClose›, beq_false_of_ne ‹v.kind ≠ dotDotDot›,
        beq_false_of_ne ‹v.kind ≠ ident›, beq_false_of_ne ‹v.kind ≠ kwThis›]
      exact h1.pure

/-- What a function type is told by. -/
theorem atFunctionType_reads {s0 : State} (h : Reads s0 s os ws) :
    Yields s0 atFunctionType s (startsFunction ws) os ws := by
  unfold atFunctionType
  refine h.current.bind fun s1 h1 => ?_
  cases ws with
  | nil => exact h1.pure
  | cons w vs =>
    rw [startsFunction, firstKind_cons]
    split <;> rename_i hkind
    · rw [hkind]; exact h1.pure
    · rw [hkind]; exact atParameters_reads h1
    · rw [beq_false_of_ne ‹w.kind ≠ lt›, beq_false_of_ne ‹w.kind ≠ parenOpen›]
      exact h1.pure

/-- The words of a type start no constructor type. -/
theorem atConstructorType_type {s0 : State} (ho : Leads o.words) (hnew : firstKind ws ≠ kwNew)
    (h : Reads s0 s os (o.words ++ ws)) :
    Yields s0 atConstructorType s false os (o.words ++ ws) := by
  have hfirst : firstKind (o.words ++ ws) ≠ kwNew := by
    obtain ⟨w, vs, hwords, hw⟩ := ho.exists_cons
    rw [hwords]
    exact Lexeme.starts_kind_ne hw (by decide)
  unfold atConstructorType
  refine (h.at? kwNew).bind fun s1 h1 => ?_
  rw [beq_false_of_ne hfirst, if_neg Bool.false_ne_true]
  refine (h1.atWord "abstract").bind fun s2 h2 => ?_
  split
  · rename_i hword
    have hlike : (firstKind (o.words ++ ws)).isIdentifierLike = true := by
      rw [eq_of_beq (Bool.and_eq_true_iff.1 hword).1]
      rfl
    refine (h2.peek 1).bind fun s3 h3 => ?_
    rw [beq_false_of_ne (second_ne ho (by decide) hnew hlike)]
    exact h3.pure
  · exact h2.pure

/-- A type that is no function type and no conditional type. -/
theorem Readable.type_single (h : Readable n .union o) (ho : Leads o.words)
    (hfunction : ∀ ws, firstKind ws ≠ arrow → startsFunction (o.words ++ ws) = false) (c : Bool) :
    Readable n (.type c) o := by
  intro fuel s hfuel hroom _ s1 ws hs hends hreads
  unfold typeHere
  refine (atFunctionType_reads hreads).bind fun s2 h2 => ?_
  rw [hfunction ws (hends.ne (by simp [Level.binds])), if_neg Bool.false_ne_true]
  refine (atConstructorType_type ho (hends.ne (by simp [Level.binds])) h2).bind fun s3 h3 => ?_
  rw [if_neg Bool.false_ne_true]
  unfold conditionalOrUnion
  refine h3.mark_bind fun s4 h4 => ?_
  have hunion : Consumes s1 (Parser.union (typeAt fuel)) Level.union.ends o :=
    h fuel s1 hfuel (hroom.of_same hs) nofun
  refine (hunion.read hends.of_type.1 h4).bind fun s5 h5 => ?_
  rw [if_neg (by simp)]
  refine Yields.get ?_
  split
  · exact h5.pure
  · exact (h5.whenAt_not hends.of_type.2 _).bind fun s6 h6 => h6.pure

/-- The `extends` operand is read with conditional types not allowed, and they are allowed again behind
it. -/
theorem Spelt.extendsOperand {α : Type} {s0 : State} {rest : Parse α} {a : α} {os' : List Outline}
    {ws' : List Lexeme} (ho : Spelt n false o) (hfuel : o.words.length ≤ fuel)
    (hroom : Room s0 (n + 1)) (hfalse : s0.inExtends = false)
    (hends : (Level.type false).ends (firstKind ws)) (h : Reads s0 s os (o.words ++ ws))
    (hrest : ∀ s1, Reads s0 s1 (os ++ [o]) ws → Yields s0 rest s1 a os' ws') :
    Yields s0 (do
      modify fun s => { s with inExtends := true }
      let _ ← typeAt fuel
      modify fun s => { s with inExtends := false }
      rest) s a os' ws' := by
  have hreset := h.reset s.depth s.patience true
  have hroom1 : Room { s with inExtends := true } (n + 1) :=
    (hroom.of_same h.toSame).of_eq rfl rfl
  have hread := ho.reads.consumes ho.ne_nil hfuel hroom1 nofun _ ws (.refl _) hends hreset
  exact hrest _ (h.resume hread.2 hread.2.depth_eq (hfalse.symm.trans h.inExtends_eq.symm))

theorem readable_conditional {a b c d : Outline} (ha : Readable (n + 1) .union a)
    (hleads : Leads a.words)
    (hfunction : ∀ ws, firstKind ws ≠ arrow → startsFunction (a.words ++ ws) = false)
    (hb : Spelt n false b) (hc : Spelt n true c) (hd : Spelt n true d) :
    Readable (n + 1) (.type true)
      (.node conditionalType [a, .named "extends", b, .mark question, c, .mark colon, d]) := by
  intro fuel s hfuel hroom hconditional s1 ws hs hends hreads
  have hwords : (Outline.node conditionalType
      [a, .named "extends", b, .mark question, c, .mark colon, d]).words = a.words ++
        .named "extends" :: (b.words ++ .mark question :: (c.words ++ .mark colon :: d.words)) := by
    simp
  rw [hwords] at hreads hfuel
  simp only [List.append_assoc, List.cons_append] at hreads
  simp only [List.length_append, List.length_cons] at hfuel
  have hroom1 : Room s1 (n + 1) := hroom.of_same hs
  have hfalse : s1.inExtends = false := hs.inExtends_eq.trans (hconditional rfl)
  unfold typeHere
  refine (atFunctionType_reads hreads).bind fun s2 h2 => ?_
  rw [hfunction _ (by rw [firstKind_cons]; decide), if_neg Bool.false_ne_true]
  have hconstructor := atConstructorType_type hleads (by rw [firstKind_cons]; decide) h2
  refine hconstructor.bind fun s3 h3 => ?_
  rw [if_neg Bool.false_ne_true]
  unfold conditionalOrUnion
  refine h3.mark_bind fun s4 h4 => ?_
  -- from the mark on everything belongs to the node
  have hunion : Consumes s4 (Parser.union (typeAt fuel)) Level.union.ends a :=
    ha fuel s4 (by omega) (hroom1.of_same h4.toSame) nofun
  have hcheck := hunion.read (by rw [firstKind_cons]; decide) h4.here
  refine h4.then (hcheck.bind fun s5 h5 => ?_)
  rw [if_neg (by simp)]
  refine Yields.get ?_
  have hfalse5 : s5.inExtends = false := h5.inExtends_eq.trans (h4.inExtends_eq.trans hfalse)
  rw [hfalse5, if_neg Bool.false_ne_true]
  refine Yields.bind (a := ()) (h5.whenAt (by rw [firstKind_cons]; decide) fun s6 h6 => ?_)
    fun s6 h6 => h6.pure
  refine (h6.lineBreakBefore 0 rfl).bind fun s7 h7 => ?_
  rw [if_pos (by simp)]
  refine h7.withinFrom fun s8 h8 hs8 => ?_
  have hroom8 : Room s8 (n + 1) := hroom1.of_same (h4.toSame.trans (h7.toSame.trans hs8))
  have hfalse8 : s8.inExtends = false :=
    hs8.inExtends_eq.trans (h7.inExtends_eq.trans (h4.inExtends_eq.trans hfalse))
  unfold conditionalRest
  refine h8.bump.bind fun s9 h9 => ?_
  refine hb.extendsOperand (by omega) hroom8 hfalse8 (by rw [firstKind_cons]; decide) h9
    fun s10 h10 => ?_
  refine (h10.expect (w := .mark question) "?").bind fun s11 h11 => ?_
  have htrue : Consumes s8 (typeAt fuel) (Level.type true).ends c :=
    hc.consumes (by omega) hroom8 hfalse8
  refine (htrue.read (by rw [firstKind_cons]; decide) h11).bind fun s12 h12 => ?_
  refine (h12.expect (w := .mark colon) ":").bind fun s13 h13 => ?_
  exact ((hd.consumes (by omega) hroom8 hfalse8).read hends h13).bind fun s14 h14 => h14.pure

/-- A colon and a type. -/
theorem colonType_reads {s0 : State} (ho : Spelt n true o) (hfuel : o.words.length ≤ fuel)
    (hroom : Room s0 (n + 1)) (hfalse : s0.inExtends = false)
    (hends : (Level.type true).ends (firstKind ws))
    (h : Reads s0 s os (Lexeme.mark colon :: (o.words ++ ws))) :
    Yields s0 (Parser.colonType (typeAt fuel)) s true
      (os ++ [.node Kind.colonType [.mark colon, o]]) ws := by
  refine h.within fun s1 h1 hs1 => ?_
  refine (h1.expect (w := .mark colon) ":").bind fun s2 h2 => ?_
  rw [if_pos rfl]
  have hsame : Same s0 s1 := h.toSame.trans hs1
  have htype := ho.consumes hfuel (hroom.of_same hsame) (hsame.inExtends_eq.trans hfalse)
  exact htype.read hends h2

/-- A parameter with a type. -/
theorem param_reads {name : String} (hname : isIdentifier name = true) (ho : Spelt n true o)
    (hfuel : o.words.length ≤ fuel) (hroom : Room s (n + 1)) (hfalse : s.inExtends = false) :
    Consumes s (Parser.param (typeAt fuel)) (fun k => k = comma ∨ k = parenClose)
      (Outline.param name o) := by
  intro s1 ws hs hends h
  have hkind : (Lexeme.named name).kind = ident := by rw [named_of_isIdentifier hname]
  have hwords : (Outline.param name o).words = .named name :: .mark colon :: o.words := by
    simp [Outline.param]
  rw [hwords, List.cons_append, List.cons_append] at h
  unfold Parser.param
  have hmodifier : Yields s1 reportParameterProperty s1 ()
      [] (.named name :: .mark colon :: (o.words ++ ws)) := by
    unfold reportParameterProperty
    refine h.current.bind fun s2 h2 => ?_
    rw [firstKind_cons, hkind, beq_self_eq_true, if_pos rfl]
    refine h2.currentText.bind fun s3 h3 => ?_
    split
    · exact (h3.peek 1).bind fun s4 h4 => h4.pure
    · exact h3.pure
  refine hmodifier.bind fun s2 h2 => ?_
  refine h2.within fun s3 h3 hs3 => ?_
  have hdots : firstKind (.named name :: .mark colon :: (o.words ++ ws)) ≠ dotDotDot := by
    rw [firstKind_cons, hkind]
    decide
  refine (h3.eat_not hdots).bind fun s4 h4 => ?_
  have hparameter : Yields s3 parameterName s4 true [.node Kind.name [.named name]]
      (.mark colon :: (o.words ++ ws)) := by
    unfold parameterName
    refine h4.current.bind fun s5 h5 => ?_
    rw [firstKind_cons, hkind, if_pos (by decide)]
    exact h5.bumpAs.bind fun s6 h6 => h6.pure
  refine hparameter.bind fun s5 h5 => ?_
  refine (h5.eat_not (by rw [firstKind_cons]; decide)).bind fun s6 h6 => ?_
  have hannotated : Yields s3 (whenAt colon do
      let _ ← Parser.colonType (typeAt fuel)) s6 ()
      [.node Kind.name [.named name], .node Kind.colonType [.mark colon, o]] ws := by
    refine h6.whenAt rfl fun s7 h7 => ?_
    have hsame : Same s s3 := hs.trans (h2.toSame.trans hs3)
    exact (colonType_reads ho hfuel (hroom.of_same hsame) (hsame.inExtends_eq.trans hfalse)
      (Level.ends_of_separates (.inl rfl) hends) h7).bind fun s8 h8 => h8.pure
  refine hannotated.bind fun s7 h7 => ?_
  have hequals : firstKind ws ≠ equals := by obtain hk | hk := hends <;> rw [hk] <;> decide
  exact (h7.whenAt_not hequals _).bind fun s8 h8 => h8.pure

/-- Behind a first word `asserts` stands no name. -/
theorem not_asserts {ws vs : List Lexeme} (h : Leads ws) {k : Kind} (hk : k = ident ∨ k = kwThis)
    (hvs : firstKind vs ≠ k) (hword : firstText (ws ++ vs) = "asserts")
    (hlike : (firstKind (ws ++ vs)).isIdentifierLike = true) : firstKind ((ws ++ vs).drop 1) ≠ k := by
  match ws, h with
  | [w], _ => exact hvs
  | w :: v :: ws, h =>
    obtain hcarries | ⟨rfl, -⟩ := h.2 hlike
    · exact Lexeme.carries_kind_ne hcarries (by obtain rfl | rfl := hk <;> decide)
    · exact absurd hword (by rw [List.cons_append, firstText_cons]; decide)

/-- Behind a first word that is a name does not stand `is`. -/
theorem not_predicate {ws vs : List Lexeme} (h : Leads ws) (hvs : firstKind vs ≠ ident)
    (hlike : (firstKind (ws ++ vs)).isIdentifierLike = true) :
    ¬(firstKind ((ws ++ vs).drop 1) = ident ∧ firstText ((ws ++ vs).drop 1) = "is") := by
  rintro ⟨hkind, htext⟩
  match ws, h with
  | [w], _ => exact hvs hkind
  | w :: v :: ws, h =>
    obtain hcarries | ⟨-, hstarts⟩ := h.2 hlike
    · exact Lexeme.carries_kind_ne hcarries (by decide) hkind
    · have hv : v = .named "is" := by
        obtain ⟨k, cs⟩ := v
        have hcs : String.ofList cs = "is" := htext
        obtain rfl : k = ident := hkind
        rw [← hcs, Lexeme.named, String.toList_ofList, hcs]
        rfl
      rw [hv] at hstarts
      exact absurd hstarts (by decide)

/-- A type that is returned is no predicate. -/
theorem Spelt.typeOrPredicate {s0 : State} {type : Parse Bool} (ho : Spelt n c o)
    (hident : firstKind ws ≠ ident) (hthis : firstKind ws ≠ kwThis)
    (htype : ∀ s1, Reads s0 s1 os (o.words ++ ws) → Yields s0 type s1 true (os ++ [o]) ws)
    (h : Reads s0 s os (o.words ++ ws)) :
    Yields s0 (typeOrPredicate type) s true (os ++ [o]) ws := by
  have hasserts : ∀ s1, Reads s0 s1 os (o.words ++ ws) →
      Yields s0 atAsserts s1 false os (o.words ++ ws) := by
    intro s1 h1
    unfold atAsserts
    refine (h1.atWord "asserts").bind fun s2 h2 => ?_
    split
    · rename_i hword
      obtain ⟨hkind, htext⟩ := Bool.and_eq_true_iff.1 hword
      have hlike : (firstKind (o.words ++ ws)).isIdentifierLike = true := by
        rw [eq_of_beq hkind]
        rfl
      refine (h2.peek 1).bind fun s3 h3 => ?_
      rw [beq_false_of_ne (not_asserts ho.leads (.inl rfl) hident (eq_of_beq htext) hlike),
        beq_false_of_ne (not_asserts ho.leads (.inr rfl) hthis (eq_of_beq htext) hlike)]
      exact h3.pure
    · exact h2.pure
  have hpredicate : ∀ s1, Reads s0 s1 os (o.words ++ ws) →
      Yields s0 (atPredicate (firstKind (o.words ++ ws))) s1 false os (o.words ++ ws) := by
    intro s1 h1
    unfold atPredicate
    split
    · rename_i hname
      have hlike : (firstKind (o.words ++ ws)).isIdentifierLike = true := by
        obtain hkind | hkind := Bool.or_eq_true_iff.1 hname <;> rw [eq_of_beq hkind] <;> rfl
      refine (h1.peek 1).bind fun s2 h2 => (h2.peekText 1).bind fun s3 h3 => ?_
      rw [if_neg (by simpa using not_predicate ho.leads hident hlike)]
      exact h3.pure
    · exact h1.pure
  unfold Parser.typeOrPredicate
  refine h.current.bind fun s1 h1 => (hasserts s1 h1).bind fun s2 h2 => ?_
  refine (hpredicate s2 h2).bind fun s3 h3 => ?_
  rw [if_neg Bool.false_ne_true, if_neg Bool.false_ne_true]
  exact htype s3 h3

/-- Parameters that are named by identifiers. -/
def paramsOf (params : List (String × Outline)) : List Outline :=
  params.map fun p => .param p.1 p.2

/-- The first words of a function type tell what it is. -/
theorem startsFunction_params {params : List (String × Outline)}
    (hnames : ∀ p ∈ params, isIdentifier p.1 = true) (ws : List Lexeme) :
    startsFunction (Lexeme.mark parenOpen ::
      (wordsOf (joined comma (paramsOf params)) ++ Lexeme.mark parenClose :: ws)) = true := by
  cases params with
  | nil => rfl
  | cons p params =>
    have hkind : (Lexeme.named p.1).kind = ident := by
      rw [named_of_isIdentifier (hnames p List.mem_cons_self)]
    simp [startsFunction, startsParams, paramsOf, Outline.param, hkind, labels]

/-- Parameters in parentheses. -/
theorem params_reads {s0 : State} {params : List (String × Outline)}
    (hnames : ∀ p ∈ params, isIdentifier p.1 = true) (hparams : ∀ p ∈ params, Spelt n true p.2)
    (hfuel : (wordsOf (joined comma (paramsOf params))).length ≤ fuel) (hroom : Room s0 (n + 1))
    (h : Reads s0 s os (Lexeme.mark parenOpen ::
      (wordsOf (joined comma (paramsOf params)) ++ Lexeme.mark parenClose :: ws))) :
    Yields s0 (Parser.params (typeAt fuel)) s () (os ++ [.node paramList
      (.mark parenOpen :: joined comma (paramsOf params) ++ [.mark parenClose])]) ws := by
  refine h.within fun s1 h1 hs1 => ?_
  refine (h1.expect (w := .mark parenOpen) "(").bind fun s2 h2 => ?_
  rw [if_pos rfl]
  have hroom1 : Room s1 (n + 1) := hroom.of_same (h.toSame.trans hs1)
  refine (allowing_commaList ")" (by decide) hroom1 ?_ ?_ h2).bind fun s3 h3 => h3.pure
  · intro s3 hroom3 hfalse q hq
    obtain ⟨p, hp, rfl⟩ := List.mem_map.1 hq
    have hlength := length_words_le (mem_joined (k := comma) hq)
    have hshorter : p.2.words.length ≤ (Outline.param p.1 p.2).words.length := by
      simp [Outline.param]
      omega
    exact param_reads (hnames p hp) (hparams p hp) (by omega) hroom3 hfalse
  · intro q hq
    obtain ⟨p, hp, rfl⟩ := List.mem_map.1 hq
    refine ⟨.named p.1, .mark colon :: p.2.words, by simp [Outline.param], ?_⟩
    rw [named_of_isIdentifier (hnames p hp)]
    show ident ≠ parenClose
    decide

theorem readable_function {params : List (String × Outline)}
    (hnames : ∀ p ∈ params, isIdentifier p.1 = true) (hparams : ∀ p ∈ params, Spelt n true p.2)
    (ho : Spelt n c o) : Readable (n + 1) (.type c) (.function (paramsOf params) o) := by
  intro fuel s hfuel hroom hconditional s1 ws hs hends hreads
  have hwords : (Outline.function (paramsOf params) o).words = .mark parenOpen ::
      (wordsOf (joined comma (paramsOf params)) ++ .mark parenClose :: .mark arrow :: o.words) := by
    simp [Outline.function]
  rw [hwords, List.cons_append, List.append_assoc, List.cons_append, List.cons_append] at hreads
  rw [hwords] at hfuel
  simp only [List.length_append, List.length_cons] at hfuel
  unfold typeHere
  refine (atFunctionType_reads hreads).bind fun s2 h2 => ?_
  rw [startsFunction_params hnames, if_pos rfl]
  refine Yields.bind (a := ()) (h2.within fun s3 h3 hs3 => ?_) fun s3 h3 => h3.pure
  have hsame : Same s s3 := hs.trans (h2.toSame.trans hs3)
  have hroom3 : Room s3 (n + 1) := hroom.of_same hsame
  unfold arrowRest
  refine (h3.whenAt_not (by rw [firstKind_cons]; decide) _).bind fun s4 h4 => ?_
  refine (params_reads hnames hparams (by omega) hroom3 h4).bind fun s5 h5 => ?_
  refine h5.within fun s6 h6 hs6 => ?_
  refine (h6.expect (w := .mark arrow) "=>").bind fun s7 h7 => ?_
  have hreturn : Consumes s6 (typeAt fuel) (Level.type c).ends o := by
    have hsame6 : Same s s6 := hsame.trans (h5.toSame.trans hs6)
    refine ho.reads.consumes ho.ne_nil (by omega) (hroom.of_same hsame6) fun hc => ?_
    exact hsame6.inExtends_eq.trans (hconditional (by rw [hc]))
  have hpredicate := ho.typeOrPredicate (hends.ne (by simp [Level.binds]))
    (hends.ne (by simp [Level.binds])) (fun s8 h8 => hreturn.read hends h8) h7
  exact hpredicate.bind fun s8 h8 => h8.pure

end Productions

end Parser

/-! ## Phrases -/

namespace Phrase

variable {n : Nat} {l : Level} {t : Decl.TypeNode} {o : Outline}

/-- What binds tightest starts with no operator. -/
theorem startsOperand (h : Phrase n l t o) (hl : l = .primary ∨ l = .postfix_) :
    StartsOperand o.words := by
  induction h with
  | @keyword _ k =>
    rw [words_node, wordsOf_cons, wordsOf_nil, words_named]
    intro _
    cases k <;> decide
  | string | tuple | paren =>
    intro hkind
    cases hkind
  | @boolean _ b =>
    rw [words_node, wordsOf_cons, wordsOf_nil, words_named]
    intro _
    cases b <;> decide
  | @reference _ name _ _ hname =>
    rw [words_node, wordsOf_cons, words_node, wordsOf_cons, words_named]
    intro _
    rw [Lexeme.named, String.ofList_toList]
    exact not_operatorWord_of_isTypeName hname
  | array _ ih | indexed _ _ ih =>
    rw [words_node, wordsOf_cons]
    exact (ih (.inr rfl)).append _
  | ofPrimary _ ih => exact ih (.inl rfl)
  | _ => simp at hl

/-- A phrase does not start with an operator between types, and with no closing bracket. -/
theorem startsItem (h : Phrase n l t o) {k : Kind} (hk : k = amp ∨ k = pipe) : StartsItem k o := by
  obtain ⟨w, vs, hwords, hw⟩ := h.leads.exists_cons
  exact ⟨w, vs, hwords, Lexeme.starts_kind_ne hw (by obtain rfl | rfl := hk <;> decide)⟩

/-- Every phrase is read by the production of its level. -/
theorem readable (h : Phrase n l t o) : Readable n l o := by
  -- what is read of types inside makes them stand for types
  have hspelt : ∀ {m : Nat} {items : List (Decl.TypeNode × Outline)},
      (∀ x ∈ items, Phrase m (.type true) x.1 x.2) →
      (∀ x ∈ items, Readable m (.type true) x.2) →
      ∀ p ∈ items.map (·.2), Spelt m true p := fun hitems hreads =>
    List.forall_mem_map.2 fun x hx => ⟨hreads x hx, (hitems x hx).leads⟩
  induction h with
  | @keyword _ k => exact readable_keyword k
  | string => exact readable_literal (.inl rfl)
  | @boolean _ b => exact readable_literal (.inr (by cases b <;> decide))
  | reference hname hargs ih => exact readable_reference hname (hspelt hargs ih)
  | tuple hitems ih => exact readable_tuple (hspelt hitems ih)
  | paren hinner ih => exact readable_paren ⟨ih, hinner.leads⟩
  | array _ ih => exact ih.array
  | indexed _ hindex iht ihi => exact iht.indexed ⟨ihi, hindex.leads⟩
  | keyof hoperand ih => exact ih.keyof hoperand.leads
  | intersection hmembers ih =>
    exact Readable.intersection (List.forall_mem_map.2 ih)
      ((hmembers _ List.mem_cons_self).startsItem (.inl rfl))
  | union hmembers ih =>
    exact Readable.union (List.forall_mem_map.2 ih)
      ((hmembers _ List.mem_cons_self).startsItem (.inr rfl))
  | @function _ c params _ o _ hnames hparams hreturns ihparams ih =>
    have hparams : ∀ p ∈ params.map fun p => (p.1, p.2.2), Spelt _ true p.2 :=
      List.forall_mem_map.2 fun p hp => ⟨ihparams p hp, (hparams p hp).leads⟩
    have hreads := readable_function (List.forall_mem_map.2 hnames) hparams ⟨ih, hreturns.leads⟩
    rw [paramsOf, List.map_map] at hreads
    exact hreads
  | conditional ha hb hc hd iha ihb ihc ihd =>
    exact readable_conditional iha ha.leads
      (fun ws hws => ha.startsFunction_eq_false nofun (kind_ne_of_firstKind_ne hws))
      ⟨ihb, hb.leads⟩ ⟨ihc, hc.leads⟩ ⟨ihd, hd.leads⟩
  | ofPrimary _ ih => exact ih.postfix_
  | ofPostfix htight ih => exact ih.operator (htight.startsOperand (.inr rfl))
  | ofOperator hoperator ih => exact ih.intersection_single (hoperator.startsItem (.inl rfl))
  | ofIntersection hintersection ih => exact ih.union_single (hintersection.startsItem (.inr rfl))
  | @ofUnion _ c _ _ hunion ih =>
    exact ih.type_single hunion.leads
      (fun ws hws => hunion.startsFunction_eq_false nofun (kind_ne_of_firstKind_ne hws)) c

end Phrase

end DeclKit

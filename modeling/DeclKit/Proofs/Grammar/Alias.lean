/-
Reading type aliases.

A file that holds type aliases, exported or not, is read as these aliases and nothing else, without a
report, if the words behind their equals signs are those of types. How such a file was written, its
blanks and comments, does not matter as long as lines end only between the aliases.
-/
import DeclKit.Proofs.Grammar.Reading
import DeclKit.Proofs.Parser.File

set_option autoImplicit false

namespace DeclKit

open DeclKit.Parser Kind Outline

/-- What a type alias says: whether it is exported, its name and its type. -/
structure AliasOutline where
  exported : Bool
  name : String
  type : Outline

/-- The outline of a type alias. -/
def AliasOutline.outline (a : AliasOutline) : Outline := .typeAlias a.exported a.name a.type

/-- A type alias that can be read: its name is a name, and its type is spelt as one. -/
structure AliasOutline.Readable (n : Nat) (a : AliasOutline) : Prop where
  name : isIdentifier a.name = true
  type : Parser.Spelt n true a.type

namespace Parser

variable {n : Nat} {s s0 s1 : State} {exported : Bool} {name : String} {o : Outline}
  {os : List Outline} {ws : List Lexeme}

/-- A type at the outermost level. -/
theorem type_reads (ho : Spelt n true o) (hroom : Room s0 (n + 1)) (hfalse : s0.inExtends = false)
    (hends : (Level.type true).ends (firstKind ws)) (h : Reads s0 s os (o.words ++ ws)) :
    Yields s0 type s true (os ++ [o]) ws := by
  have hsize := h.length_le
  rw [List.length_append] at hsize
  unfold type
  refine Yields.get ?_
  rw [h.tokens_eq]
  exact (ho.consumes (by omega) hroom hfalse).read hends h

theorem typeAliasRest_reads (hname : isIdentifier name = true) (ho : Spelt n true o)
    (hroom : Room s0 (n + 1)) (hfalse : s0.inExtends = false)
    (h : Reads s0 s os (.named "type" :: .named name :: .mark equals ::
      (o.words ++ .mark semicolon :: ws))) :
    Yields s0 typeAliasRest s () (os ++ [.named "type", .node Kind.name [.named name], .mark equals, o,
      .mark semicolon]) ws := by
  have hkind : (Lexeme.named name).kind = ident := by rw [named_of_isIdentifier hname]
  unfold typeAliasRest
  refine h.bump.bind fun s1 h1 => ?_
  have hbinding : Yields s0 bindingName s1 true (os ++ [.word (.named "type")] ++
      [.node Kind.name [.named name]]) (.mark equals :: (o.words ++ .mark semicolon :: ws)) := by
    unfold bindingName
    refine h1.current.bind fun s2 h2 => ?_
    rw [firstKind_cons, hkind, beq_self_eq_true, if_pos rfl]
    exact h2.bumpAs.bind fun s3 h3 => h3.pure
  refine hbinding.bind fun s2 h2 => ?_
  refine (h2.whenAt_not (by rw [firstKind_cons]; decide) _).bind fun s3 h3 => ?_
  refine (h3.expect (w := .mark equals) "=").bind fun s4 h4 => ?_
  rw [if_pos rfl]
  have hends : (Level.type true).ends (firstKind (Lexeme.mark semicolon :: ws)) := by
    rw [firstKind_cons]
    decide
  refine (type_reads ho hroom hfalse hends h4).bind fun s5 h5 => ?_
  have hparts : os ++ [.named "type", .node Kind.name [.named name], .mark equals, o, .mark semicolon] =
      os ++ [.named "type"] ++ [.node Kind.name [.named name]] ++ [.mark equals] ++ [o] ++
        [.mark semicolon] := by simp
  rw [hparts]
  exact (h5.eat (w := .mark semicolon)).bind fun s6 h6 => h6.pure

/-- The word `export`, if it is there, is a modifier, and there is no `declare`. -/
theorem declarationModifiers_alias
    (h : Reads s0 s os (wordsOf (flagged exported (.named "export")) ++ .named "type" :: ws)) :
    Yields s0 declarationModifiers s exported (os ++ flagged exported (.named "export"))
      (.named "type" :: ws) := by
  have htext : firstText (.named "type" :: ws) = "type" := String.ofList_toList
  have hmodifies : ∀ s1 os, Reads s0 s1 os (.named "type" :: ws) →
      Yields s0 declareModifies s1 false os (.named "type" :: ws) := by
    intro s1 os h1
    unfold declareModifies
    refine (h1.atWord "declare").bind fun s2 h2 => ?_
    rw [htext, if_neg (by simp)]
    exact h2.pure
  unfold declarationModifiers
  cases exported with
  | false =>
    rw [flagged, if_neg Bool.false_ne_true, wordsOf_nil, List.nil_append] at h
    rw [flagged, if_neg Bool.false_ne_true, List.append_nil]
    refine (h.eat_not (by rw [firstKind_cons]; decide)).bind fun s1 h1 => ?_
    rw [if_neg Bool.false_ne_true]
    refine (hmodifies s1 _ h1).bind fun s2 h2 => ?_
    rw [if_neg Bool.false_ne_true]
    exact h2.pure
  | true =>
    rw [flagged, if_pos rfl] at h ⊢
    rw [wordsOf_cons, words_named, wordsOf_nil, List.append_nil, List.singleton_append] at h
    refine (h.eat (w := .named "export")).bind fun s1 h1 => ?_
    rw [if_pos rfl]
    refine (h1.eat_not (by rw [firstKind_cons]; decide)).bind fun s2 h2 => ?_
    unfold bumpIf
    refine Yields.bind (a := ()) ?_ fun s3 h3 => h3.pure
    refine (hmodifies s2 _ h2).bind fun s3 h3 => ?_
    rw [if_neg Bool.false_ne_true]
    exact h3.pure

/-- The word `type` and a name behind it are told to be an alias. -/
theorem declaration?_alias (hname : isIdentifier name = true)
    (h : Reads s0 s os (.named "type" :: .named name :: .mark equals :: ws)) :
    Yields s0 declaration? s (some typeAliasDecl) os
      (.named "type" :: .named name :: .mark equals :: ws) := by
  have hkind : (Lexeme.named name).kind = ident := by rw [named_of_isIdentifier hname]
  have htext : firstText (.named "type" :: .named name :: .mark equals :: ws) = "type" :=
    String.ofList_toList
  have hline : startsLine (.named name :: .mark equals :: ws) = false := by
    rw [startsLine, List.tail_cons, firstKind_cons (.mark equals)]
    exact Bool.and_false _
  unfold declaration?
  refine h.current.bind fun s1 h1 => ?_
  rw [firstKind_cons, show (Lexeme.named "type").kind = ident by decide]
  show Yields s0 wordDeclaration? s1 _ _ _
  unfold wordDeclaration?
  refine (h1.peek 1).bind fun s2 h2 => (h2.lineBreakBefore 1 hline).bind fun s3 h3 => ?_
  refine h3.currentText.bind fun s4 h4 => ?_
  rw [htext, List.drop_one, List.tail_cons, firstKind_cons, hkind, if_pos (by decide)]
  exact h4.pure

/-- A type alias with its modifiers. -/
theorem declaration_alias (hname : isIdentifier name = true) (ho : Spelt n true o)
    (hroom : Room s0 (n + 1)) (hfalse : s0.inExtends = false)
    (h : Reads s0 s os ((Outline.typeAlias exported name o).words ++ ws)) :
    Yields s0 declaration s () (os ++ [.typeAlias exported name o]) ws := by
  rw [Outline.words_alias] at h
  simp only [List.append_assoc, List.cons_append, List.nil_append] at h
  unfold declaration
  refine h.mark_bind fun s1 h1 => ?_
  -- from the mark on everything belongs to the declaration
  refine h1.then ((declarationModifiers_alias h1.here).bind fun s2 h2 => ?_)
  refine (declaration?_alias hname h2).bind fun s3 h3 => ?_
  refine h3.withinFrom fun s4 h4 hs4 => ?_
  have hsame : Same s0 s4 := h1.toSame.trans (h3.toSame.trans hs4)
  exact typeAliasRest_reads hname ho (hroom.of_same hsame) (hsame.inExtends_eq.trans hfalse) h4

/-- A statement that is a type alias. -/
theorem statement_alias (hname : isIdentifier name = true) (ho : Spelt n true o)
    (hroom : Room s0 (n + 1)) (hfalse : s0.inExtends = false)
    (h : Reads s0 s os ((Outline.typeAlias exported name o).words ++ ws)) :
    Yields s0 statement s () (os ++ [.typeAlias exported name o]) ws := by
  have hkind : (Lexeme.named name).kind = ident := by rw [named_of_isIdentifier hname]
  have hdeclaration : ∀ s1, Reads s0 s1 os ((Outline.typeAlias exported name o).words ++ ws) →
      Yields s0 declaration s1 () (os ++ [.typeAlias exported name o]) ws := fun s1 h1 =>
    declaration_alias hname ho hroom hfalse h1
  have hwords := Outline.words_alias exported name o
  unfold statement
  refine h.current.bind fun s1 h1 => ?_
  cases exported with
  | false =>
    rw [hwords, show firstKind _ = ident from rfl]
    exact hdeclaration s1 h1
  | true =>
    rw [hwords, show firstKind _ = kwExport from rfl]
    show Yields s0 exporting s1 _ _ _
    unfold exporting
    refine (h1.peek 1).bind fun s2 h2 => ?_
    have hdrop : ((Outline.typeAlias true name o).words ++ ws).drop 1 =
        .named "type" :: .named name :: (.mark equals :: (o.words ++ [.mark semicolon]) ++ ws) := by
      rw [hwords]
      rfl
    have hname : firstKind (((Outline.typeAlias true name o).words ++ ws).drop 2) = ident := by
      rw [hwords]
      exact hkind
    rw [hdrop, firstKind_cons, show (Lexeme.named "type").kind = ident by decide]
    refine (h2.peekText 1).bind fun s3 h3 => ?_
    rw [hdrop, show firstText (.named "type" :: _) = "type" from String.ofList_toList, if_pos (by simp)]
    refine (h3.peek 2).bind fun s4 h4 => ?_
    rw [hname, if_neg (by decide)]
    exact hdeclaration s4 h4

theorem statementOrToken_alias (hname : isIdentifier name = true) (ho : Spelt n true o)
    (hroom : Room s0 (n + 1)) (hfalse : s0.inExtends = false)
    (h : Reads s0 s os ((Outline.typeAlias exported name o).words ++ ws)) :
    Yields s0 statementOrToken s () (os ++ [.typeAlias exported name o]) ws := by
  unfold statementOrToken
  refine Yields.get ((statement_alias hname ho hroom hfalse h).bind fun s1 h1 => Yields.get ?_)
  -- words have been taken, so the cursor is not where it was
  have hmoved : (s1.pos == s.pos) = false := by
    refine beq_false_of_ne fun heq => ?_
    have hsame : ahead s1 = ahead s := by rw [ahead, ahead, h1.tokens_eq, h.tokens_eq, heq]
    have hlength := congrArg List.length (h1.ahead_eq.symm.trans (hsame.trans h.ahead_eq))
    rw [Outline.words_alias] at hlength
    simp only [List.length_cons, List.length_append] at hlength
    omega
  rw [hmoved, if_neg Bool.false_ne_true]
  exact h1.pure

/-- Type aliases one after the other, up to the end. By induction on the aliases. -/
theorem iterate_aliases {aliases : List AliasOutline} (ha : ∀ a ∈ aliases, a.Readable n)
    (hroom : Room s0 (n + 1)) (hfalse : s0.inExtends = false) {fuel : Nat}
    (hfuel : aliases.length < fuel)
    (h : Reads s0 s os (wordsOf (aliases.map AliasOutline.outline))) :
    Yields s0 (iterate fuel do
      if ← atEnd then return false
      statementOrToken
      return true) s () (os ++ aliases.map AliasOutline.outline) [] := by
  induction aliases generalizing s os fuel with
  | nil =>
    obtain ⟨fuel, rfl⟩ := Nat.exists_eq_succ_of_ne_zero (Nat.ne_of_gt hfuel)
    rw [List.map_nil, List.append_nil]
    rw [List.map_nil, wordsOf_nil] at h
    refine Yields.iterate_stop (h.atEnd.bind fun s1 h1 => ?_)
    rw [List.isEmpty_nil, if_pos rfl]
    exact h1.pure
  | cons a aliases ih =>
    obtain ⟨ha, haliases⟩ := List.forall_mem_cons.1 ha
    obtain ⟨fuel, rfl⟩ := Nat.exists_eq_succ_of_ne_zero (Nat.ne_of_gt (Nat.zero_lt_of_lt hfuel))
    rw [List.map_cons, wordsOf_cons] at h
    have hfirst : Yields s0 (do
        if ← atEnd then return false
        statementOrToken
        return true) s true (os ++ [a.outline]) (wordsOf (aliases.map AliasOutline.outline)) := by
      have hnonempty : (a.outline.words ++
          wordsOf (aliases.map AliasOutline.outline)).isEmpty = false := by
        rw [AliasOutline.outline, Outline.words_alias]
        cases a.exported <;> rfl
      refine h.atEnd.bind fun s1 h1 => ?_
      rw [hnonempty, if_neg Bool.false_ne_true]
      exact (statementOrToken_alias ha.name ha.type hroom hfalse h1).bind fun s2 h2 => h2.pure
    refine hfirst.iterate_next fun s1 h1 => ?_
    have hrest := ih haliases (Nat.lt_of_succ_lt_succ hfuel) h1
    rwa [List.append_assoc] at hrest

/-- A file of type aliases. -/
theorem file_aliases {aliases : List AliasOutline} (ha : ∀ a ∈ aliases, a.Readable n)
    (hroom : Room s (n + 1)) (hfalse : s.inExtends = false) (hsteady : Steady s)
    (hahead : ahead s = wordsOf (aliases.map AliasOutline.outline)) :
    Yields s file s () [.node root (aliases.map AliasOutline.outline)] [] := by
  have h : Reads s s [] (wordsOf (aliases.map AliasOutline.outline)) := hahead ▸ Reads.refl hsteady
  unfold file
  refine h.within fun s1 h1 hs1 => ?_
  have hstatements : Yields s1 statements s1 () (aliases.map AliasOutline.outline) [] := by
    unfold statements repeatWhile
    refine Yields.get ?_
    have hsize : aliases.length < s1.tokens.size + 1 := by
      refine Nat.lt_succ_of_le (Nat.le_trans ?_ h1.length_le)
      have hsome : ∀ o ∈ aliases.map AliasOutline.outline, 0 < o.words.length := by
        refine List.forall_mem_map.2 fun a _ => ?_
        rw [AliasOutline.outline, Outline.words_alias]
        simp
      have hlength := Outline.length_le_wordsOf hsome
      rwa [List.length_map] at hlength
    exact iterate_aliases ha (hroom.of_same hs1) (hs1.inExtends_eq.trans hfalse) hsize h1
  exact hstatements.bind fun s2 h2 => h2.skipTrivia.bind fun s3 h3 => h3.placeTrivia

end Parser

/-- A text whose words are those of type aliases, and whose lines end between them, is parsed without a
report, and its tree is these aliases. -/
theorem parseWith_aliases {n : Nat} {aliases : List AliasOutline} {limits : Limits} {text : String}
    (ha : ∀ a ∈ aliases, a.Readable n) (htokens : limits.tokens = none)
    (hnesting : ∀ m ∈ limits.nesting, n < m)
    (hwords : wordsIn (Token.lex text) = wordsOf (aliases.map AliasOutline.outline))
    (hlines : ∀ i t, (Token.lex text)[i]? = some t → breaksLine t = true →
      wordsIn ((Token.lex text).drop (i + 1)) = [] ∨
        startsLine (wordsIn ((Token.lex text).drop (i + 1))) = true) (source : SourceId) :
    ∃ tree, parseWith source limits text = .ok ⟨tree, []⟩ ∧
      tree.outline = [.node root (aliases.map AliasOutline.outline)] := by
  have hahead : ahead (State.start source limits text) =
      wordsOf (aliases.map AliasOutline.outline) := by
    rw [← hwords]
    rfl
  have hsteady : Steady (State.start source limits text) := by
    refine ⟨Nat.le_refl 0, rfl, rfl, htokens, fun i t ht hbreaks => ?_⟩
    exact hlines i t (by rwa [← List.getElem?_toArray]) hbreaks
  have hroom : Room (State.start source limits text) (n + 1) := by
    intro m hm
    rw [show (State.start source limits text).depth = 0 from rfl, Nat.zero_add]
    exact hnesting m hm
  have hfalse : (State.start source limits text).inExtends = false := rfl
  have hempty : (State.start source limits text).row = #[] := rfl
  have hclean : (State.start source limits text).diagnostics = #[] := rfl
  obtain ⟨-, ⟨a, b, cs, hroot⟩, -⟩ := afterFile_spec source limits text
  rw [State.afterFile] at hroot
  rw [parseWith, State.afterFile]
  generalize State.start source limits text = s at hahead hsteady hroom hfalse hempty hclean hroot
  have h := (file_aliases ha hroom hfalse hsteady hahead).2
  generalize (file s).2 = s' at h hroot
  have hrow : s'.row.getD 0 default = .node root a b cs := by
    rw [Array.getD_eq_getD_getElem?, ← Array.getElem?_toList, hroot]
    rfl
  refine ⟨.node root a b cs, ?_, ?_⟩
  · rw [State.result, h.going, hrow, h.diagnostics_eq, hclean]
  · obtain ⟨new, hnew, houtlines⟩ := h.row_eq
    have hone : new = [.node root a b cs] := by
      rw [← hroot, hnew, hempty, List.nil_append]
    rwa [hone, Tree.outlines_cons, Tree.outlines_nil, List.append_nil] at houtlines

end DeclKit

/-
Statements and whole files are runs.

No production below takes part in a keyed node, apart from the references and the body of an interface,
so only the cost is at stake. A statement need not take a token: it is the loop over statements that
gives up a token which no statement wanted. A parse that has failed takes no further turn.

Beside the cost it is kept track of the statements that lead to other files: they start with one of two
words, so a text without these words has none of them.
-/
import DeclKit.Parser.Statements
import DeclKit.Proofs.Parser.Types

set_option autoImplicit false

namespace DeclKit.Parser

open Kind
open DeclKit.Tree (tokensOfList bareAll hollowsAll CoversAll GoodAll Owns Quiet Proper)

section Statements

variable {s s' s'' : State}

theorem After.and {α : Type} {p : Parse α} {Q R : α → State → Prop} (hQ : After p s Q)
    (hR : After p s R) : After p s fun a s' => Q a s' ∧ R a s' :=
  ⟨hQ, hR⟩

/-! ## Links

A link is a statement that only modules have: it may lead to another file, or it says what importing
the file gives. -/

/-- The kinds of links. -/
def isLink : Kind → Bool
  | importDecl | exportDecl | exportAssignment => true
  | _ => false

/-- The words that links start with. -/
def opensLink : Kind → Bool
  | kwImport | kwExport => true
  | _ => false

/-- A text without these words has none of them under the cursor. -/
theorem opensLink_kindHere (h : ∀ t ∈ s.tokens, opensLink t.kind = false) :
    opensLink (kindHere s) = false := by
  rw [kindHere]
  cases htoken : s.tokens[cursor s]? with
  | none => rfl
  | some t => exact h t (Array.mem_of_getElem? htoken)

/-- None of the elements is a link. -/
def Linkless (ts : List Tree) : Prop := ∀ k a b cs, Tree.node k a b cs ∈ ts → isLink k = false

theorem Linkless.nil : Linkless [] := fun _ _ _ _ h => absurd h List.not_mem_nil

theorem Linkless.append {ts us : List Tree} (ht : Linkless ts) (hu : Linkless us) :
    Linkless (ts ++ us) := fun k a b cs h =>
  (List.mem_append.1 h).elim (ht k a b cs) (hu k a b cs)

theorem linkless_tokens (ts : List Token) : Linkless (ts.map .token) := fun k a b cs h => by
  obtain ⟨t, -, ht⟩ := List.mem_map.1 h
  cases ht

theorem Closes.linkless {k : Kind} {parts : List Tree} (h : Closes k parts s s')
    (hk : isLink k = false) : Linkless (grown s s') := by
  obtain ⟨lead, a, b, hgrown, -⟩ := h.grown_eq
  rw [hgrown]
  refine (linkless_tokens lead).append fun k' a' b' cs hmem => ?_
  cases List.mem_singleton.1 hmem
  exact hk

theorem Looks.linkless {n : Nat} (h : Looks n s s') : Linkless (grown s s') := by
  rw [grown_of_row_eq h.row_eq]
  exact .nil

theorem Walk.linkless_trans {i b i' b' : Nat} (h : Walk i b s s') (h' : Walk i' b' s' s'')
    (hl : Linkless (grown s s')) (hl' : Linkless (grown s' s'')) : Linkless (grown s s'') := by
  rw [grown_trans h.row_le h'.row_le]
  exact hl.append hl'

theorem placeTrivia_linkless (s : State) :
    After placeTrivia s fun _ s' => Linkless (grown s s') := by
  rw [After, grown_of_append (placeTrivia_row s)]
  exact linkless_tokens _

theorem mark_linkless (s : State) : After mark s fun _ s' => Linkless (grown s s') := by
  unfold mark
  refine (skipTrivia_spec s).bind fun _ s1 h1 => ?_
  refine (placeTrivia_linkless s1).bind fun _ s2 h2 => ?_
  rw [grown, h1.row_eq] at h2
  exact After.get (After.pure h2)

theorem bump_linkless (s : State) : After bump s fun _ s' => Linkless (grown s s') := by
  unfold bump
  refine (skipTrivia_spec s).bind fun _ s1 h1 => After.get ?_
  split
  · refine After.modify ((charge_spec _).bind ?_)
    rintro _ s2 ⟨spent, failure, rfl, -⟩
    refine After.modify ((placeTrivia_linkless _).mono fun _ s' h => ?_)
    rw [grown, ← h1.row_eq]
    exact h
  · exact After.pure h1.linkless

theorem reportAndBump_linkless (kind : DiagnosticKind) (hs : Sound s) :
    After (reportAndBump kind) s fun _ s' => Linkless (grown s s') := by
  unfold reportAndBump report
  refine (reportWith_spec kind [] hs).bind ?_
  rintro _ s1 ⟨h1, -, hrow, -⟩
  refine After.get ?_
  split
  · refine (within_spec (k := error) (n := 0) (i := 0) (b := 0) (R := fun _ _ _ => True) (by decide)
      ⟨h1.sound, Nat.zero_le _⟩ fun s2 hs2 _ => (bump_spec hs2.toSound).mono fun _ _ h =>
        ⟨h.1, proper_of_not_keyed rfl, trivial⟩).mono ?_
    rintro _ s' ⟨-, s3, s4, -, -, hcloses, -⟩
    rw [grown, ← hrow]
    exact hcloses.linkless rfl
  · refine After.pure ?_
    rw [grown_of_row_eq hrow]
    exact .nil

/-! ## Optional parts -/

theorem bumpIf_spec {look : Parse Bool} {m : Nat} (hs : Sound s)
    (hlook : After look s fun _ s' => Looks m s s') :
    After (bumpIf look) s fun _ s' => Run m m s s' := by
  unfold bumpIf
  refine hlook.bind fun yes s1 hl1 => ?_
  have h1 := hl1.run hs
  cases yes with
  | false => exact After.pure (h1.mono (Nat.le_refl m) (Nat.zero_le m))
  | true =>
    refine (bump_spec h1.sound).mono ?_
    rintro _ s2 ⟨h2, -⟩
    exact (h1.trans h2).mono (by omega) (by omega)

/-- An optional part, of which only the cost matters. -/
theorem whenAt_run {k : Kind} {step : Parse Unit} {n i b : Nat} (hs : Ready (n + 1) s)
    (inner : ∀ s1, Ready n s1 → kindHere s1 = k → After step s1 fun _ s2 => Run i b s1 s2) :
    After (whenAt k step) s fun _ s' => Run (i + 1) (max i b) s s' := by
  refine whenAt_spec (hs.weaken (by omega)) ?_ ?_
  · intro s1 hl1 _
    exact (hl1.run hs.toSound).mono (by omega) (Nat.zero_le _)
  · intro s1 hl1 hk
    have h1 := hl1.run hs.toSound
    refine (inner s1 (hl1.ready (by rw [Nat.add_comm]; exact hs))
      (hl1.still.kind_eq.trans hk)).mono ?_
    intro _ s2 h2
    exact (h1.trans h2).mono (by omega) (by omega)

theorem expectWord_spec (word : String) (hs : Ready 1 s) :
    After (expectWord word) s fun _ s' => Run 1 0 s s' := by
  unfold expectWord
  refine (eatWord_spec word hs).bind ?_
  rintro ok s1 ⟨h1, -⟩
  cases ok with
  | true => exact After.pure h1
  | false =>
    refine (reportWith_spec _ _ h1.sound).mono ?_
    rintro _ s2 ⟨h2, -⟩
    exact h1.trans h2

/-! ## Imports and exports -/

theorem typeOnlySpecifier_spec (hs : Ready 1 s) :
    After typeOnlySpecifier s fun _ s' => Looks 1 s s' := by
  unfold typeOnlySpecifier
  refine (peek_spec 1 s).bind fun next s1 hl1 => ?_
  refine (atWord_spec _ (hl1.ready (m := 1) hs)).bind ?_
  rintro yes s2 ⟨hl2, -⟩
  have hl12 := (hl1.trans hl2).mono (m := 1) (by decide)
  cases yes with
  | false => exact After.pure hl12
  | true =>
    extract_lets plain
    rw [if_pos rfl]
    split
    · refine (peekText_spec 1 s2).bind fun text s3 hl3 => ?_
      split
      · exact After.pure (hl12.trans hl3)
      · refine (peekText_spec 2 s3).bind fun text s4 hl4 => ?_
        exact After.pure ((hl12.trans hl3).trans hl4)
    · exact After.pure hl12

theorem specifier_spec {k : Kind} (hk : k.isKeyed = false) (hs : Ready 4 s) :
    After (specifier k) s fun _ s' => Run 4 4 s s' := by
  unfold specifier
  refine within_run hk hs fun s1 hs1 _ => ?_
  refine (bumpIf_spec hs1.toSound (typeOnlySpecifier_spec (hs1.weaken (by decide)))).bind fun _ s2 h2 => ?_
  refine (specifierName_spec (h2.ready hs1 (by decide) (by decide))).bind fun ok s3 h3 => ?_
  have h13 := h2.trans h3
  refine (eatWord_spec "as" (h13.ready hs1 (by decide) (by decide))).bind ?_
  rintro renamed s4 ⟨h4, -⟩
  have h14 := h13.trans h4
  cases renamed with
  | false => exact After.pure (h14.mono (by decide) (by decide))
  | true =>
    refine (specifierName_spec (h14.ready hs1 (by decide) (by decide))).bind fun _ s5 h5 => ?_
    exact After.pure ((h14.trans h5).mono (by decide) (by decide))

theorem atImportAttributes_spec (hs : Ready 2 s) :
    After atImportAttributes s fun _ s' => Looks 2 s s' := by
  unfold atImportAttributes
  refine (atWord_spec "with" (hs.weaken (by decide))).bind ?_
  rintro yes s1 ⟨hl1, -⟩
  extract_lets plain rest
  have key : ∀ (word : Bool) (s2 : State), Looks 2 s s2 →
      After (rest word) s2 fun _ s' => Looks 2 s s' := by
    intro word s2 hl2
    cases word with
    | false => exact After.pure hl2
    | true =>
      refine (peek_spec 1 s2).bind fun next s3 hl3 => ?_
      split
      · refine (lineBreakBefore_spec 0 s3).bind fun breaks s4 hl4 => ?_
        exact After.pure ((hl2.trans hl3).trans hl4)
      · exact After.pure (hl2.trans hl3)
  cases yes with
  | true => exact key true s1 (hl1.mono (by decide))
  | false =>
    refine (atWord_spec "assert" (hl1.ready hs)).bind ?_
    rintro yes s2 ⟨hl2, -⟩
    exact key yes s2 (hl1.trans hl2)

theorem importAttributes_spec (hs : Ready 3 s) :
    After importAttributes s fun _ s' => Run 2 2 s s' := by
  unfold importAttributes
  refine (atImportAttributes_spec (hs.weaken (by decide))).bind fun yes s1 hl1 => ?_
  have h1 := hl1.run hs.toSound
  cases yes with
  | false => exact After.pure (h1.mono (by decide) (by decide))
  | true =>
    refine (within_run (k := error) (n := 1) (i := 0) (b := 0) rfl (hl1.ready hs)
      fun s2 hs2 _ => ?_).mono fun _ s2 h2 => (h1.trans h2).mono (by decide) (by decide)
    refine (bump_spec hs2.toSound).bind ?_
    rintro _ s3 ⟨h3, -⟩
    refine (skipBalanced_spec (h3.ready hs2 (by decide) (by decide))).mono ?_
    rintro _ s4 ⟨h4, -⟩
    exact h3.trans h4

theorem typeOnlyImport_spec (hs : Ready 1 s) :
    After typeOnlyImport s fun _ s' => Looks 1 s s' := by
  unfold typeOnlyImport
  refine (atWord_spec _ hs).bind ?_
  rintro yes s1 ⟨hl1, -⟩
  cases yes with
  | false => exact After.pure hl1
  | true =>
    refine (peek_spec 1 s1).bind fun next s2 hl2 => ?_
    have hl12 := hl1.trans hl2
    split
    case h_3 =>
      refine (peekText_spec 1 s2).bind fun text s3 hl3 => ?_
      split
      · exact After.pure (hl12.trans hl3)
      · refine (peek_spec 2 s3).bind fun after s4 hl4 => ?_
        exact After.pure ((hl12.trans hl3).trans hl4)
    all_goals exact After.pure hl12

theorem importedNames_spec (hs : Ready 3 s) :
    After importedNames s fun _ s' => Run 3 18 s s' := by
  unfold importedNames
  refine (current_spec (hs.weaken (by decide))).bind ?_
  rintro k s1 ⟨hl1, rfl⟩
  have h1 := hl1.run hs.toSound
  have hs1 : Ready 2 s1 := hl1.ready hs
  have hc1 : kindHere s ≠ error → cursor s1 < s1.tokens.size := fun hne =>
    cursor_lt_of_kind (by rw [hl1.still.kind_eq]; exact hne)
  split
  · rename_i hk
    refine (within_bump_bare (k := namespaceImport) (i := 2) (b := 1) rfl hs1
      (hc1 (by rw [hk]; decide)) fun s2 hs2 _ => ?_).mono fun _ s2 h2 =>
        (h1.trans h2.1).mono (by decide) (by decide)
    refine (expectWord_spec "as" (hs2.weaken (by decide))).bind fun _ s3 h3 => ?_
    refine (bindingName_spec (h3.ready (m := 1) hs2 (by decide) (by decide))).bind ?_
    rintro _ s4 ⟨h4, -⟩
    exact After.pure ((h3.trans h4).mono (by decide) (by decide))
  · rename_i hk
    refine (within_bump_bare (k := namedImports) (i := 9) (b := 17) rfl hs1
      (hc1 (by rw [hk]; decide)) fun s2 hs2 _ => ?_).mono fun _ s2 h2 =>
        (h1.trans h2.1).mono (by decide) (by decide)
    refine (commaList_spec (i := 4) (b := 4) (by decide) (hs2.weaken (by decide)) (by decide)
      fun s3 _ hs3 => specifier_spec rfl hs3).bind fun _ s3 h3 => ?_
    exact After.pure h3
  · exact After.pure (h1.mono (by decide) (by decide))

theorem importBindings_spec (hs : Ready 7 s) :
    After importBindings s fun _ s' => Run 7 21 s s' := by
  unfold importBindings
  refine within_run rfl hs fun s1 hs1 _ => ?_
  refine (current_spec (hs1.weaken (by decide))).bind ?_
  rintro k s2 ⟨hl2, -⟩
  have h2 := hl2.run hs1.toSound
  extract_lets rest
  have key : ∀ s3, Run 4 3 s1 s3 → After (rest ⟨⟩) s3 fun _ s' => Run 7 21 s1 s' := by
    intro s3 h3
    refine (importedNames_spec (h3.ready hs1 (by decide) (by decide))).bind fun _ s4 h4 => ?_
    exact After.pure ((h3.trans h4).mono (by decide) (by decide))
  split
  · refine (bindingName_spec (h2.ready hs1 (by decide) (by decide))).bind ?_
    rintro _ s3 ⟨h3, -⟩
    have h13 := h2.trans h3
    refine (at_spec equals (h13.ready hs1 (by decide) (by decide))).look h13 ?_
    rintro assigned s4 h4 hl4 -
    cases assigned with
    | true =>
      refine (reportWith_spec _ _ h4.sound).bind ?_
      rintro _ s5 ⟨h5, -⟩
      exact After.pure ((h4.trans h5).mono (by decide) (by decide))
    | false =>
      refine (eat_spec (k := comma) (by decide) (h4.ready hs1 (by decide) (by decide))).bind ?_
      rintro _ s5 ⟨h5, -⟩
      exact key s5 ((h4.trans h5).mono (by decide) (by decide))
  · exact key s2 (h2.mono (by decide) (by decide))

theorem importRest_spec (hs : Ready 14 s) : After importRest s fun _ s' => Run 13 26 s s' := by
  unfold importRest
  refine (at_spec stringLiteral (hs.weaken (by decide))).bind ?_
  rintro plain s1 ⟨hl1, -⟩
  have h1 := hl1.run hs.toSound
  have hs1 : Ready 13 s1 := hl1.ready hs
  cases plain with
  | true =>
    refine (moduleName_spec (hs1.weaken (by decide))).mono fun _ s2 h2 => ?_
    exact (h1.trans h2).mono (by decide) (by decide)
  | false =>
    refine (bumpIf_spec h1.sound (typeOnlyImport_spec (hs1.weaken (by decide)))).bind fun _ s2 h2 => ?_
    have h12 := h1.trans h2
    refine (importBindings_spec (h12.ready hs (by decide) (by decide))).bind fun ok s3 h3 => ?_
    have h13 := h12.trans h3
    cases ok with
    | true =>
      refine (expectWord_spec "from" (h13.ready hs (by decide) (by decide))).bind fun _ s4 h4 => ?_
      have h14 := h13.trans h4
      refine (moduleName_spec (h14.ready hs (by decide) (by decide))).bind fun _ s5 h5 => ?_
      have h15 := h14.trans h5
      refine (importAttributes_spec (h15.ready hs (by decide) (by decide))).mono fun _ s6 h6 => ?_
      exact (h15.trans h6).mono (by decide) (by decide)
    | false =>
      refine (skipExpression_spec _ (h13.ready hs (by decide) (by decide))).bind ?_
      rintro _ s4 ⟨h4, -⟩
      exact After.pure ((h13.trans h4).mono (by decide) (by decide))

/-- Entered at its own token a production has nothing to complain about. -/
theorem assertAt_spec {k : Kind} (hs : Ready 1 s) (hk : kindHere s = k) :
    After (assertAt k) s fun _ s' => Looks 1 s s' := by
  unfold assertAt
  refine (current_spec hs).bind ?_
  rintro c s1 ⟨hl1, rfl⟩
  rw [hk, if_neg (by simp)]
  exact After.pure hl1

theorem importStatement_spec (hs : Ready 1 s) (hk : kindHere s = kwImport) :
    After importStatement s fun _ s' => Run 1 27 s s' := by
  unfold importStatement
  refine (assertAt_spec hs hk).bind fun _ s1 hl1 => ?_
  have h1 := hl1.run hs.toSound
  refine (within_bump_bare (k := importDecl) (n := 0) (i := 14) (b := 27) rfl (hl1.ready hs)
    (cursor_lt_of_kind (by rw [hl1.still.kind_eq, hk]; decide)) fun s2 hs2 _ => ?_).mono
      fun _ s2 h2 => (h1.trans h2.1).mono (by decide) (by decide)
  refine (importRest_spec (hs2.weaken (by decide))).bind fun _ s3 h3 => ?_
  refine (eat_spec (k := semicolon) (by decide) (h3.ready (m := 1) hs2 (by decide) (by decide))).bind ?_
  rintro _ s4 ⟨h4, -⟩
  exact After.pure ((h3.trans h4).mono (by decide) (by decide))

theorem exportRest_spec (hs : Ready 12 s) : After exportRest s fun _ s' => Run 12 21 s s' := by
  unfold exportRest
  refine (at_spec star (hs.weaken (by decide))).bind ?_
  rintro starred s1 ⟨hl1, hstar⟩
  have h1 := hl1.run hs.toSound
  have hs1 : Ready 11 s1 := hl1.ready hs
  cases starred with
  | true =>
    refine (within_bump_bare (k := exportStar) (i := 2) (b := 1) rfl hs1 (cursor_lt_of_kind (by
      rw [hl1.still.kind_eq, hstar.1 rfl]
      decide)) fun s2 hs2 _ => ?_).bind ?_
    · refine (eatWord_spec "as" (hs2.weaken (by decide))).bind ?_
      rintro renamed s3 ⟨h3, -⟩
      cases renamed with
      | false => exact After.pure (h3.mono (by decide) (by decide))
      | true =>
        refine (specifierName_spec (h3.ready (m := 1) hs2 (by decide) (by decide))).bind
          fun _ s4 h4 => ?_
        exact After.pure ((h3.trans h4).mono (by decide) (by decide))
    · rintro _ s2 ⟨h2, -⟩
      have h12 := h1.trans h2
      refine (expectWord_spec "from" (h12.ready hs (by decide) (by decide))).bind fun _ s3 h3 => ?_
      have h13 := h12.trans h3
      refine (moduleName_spec (h13.ready hs (by decide) (by decide))).mono fun _ s4 h4 => ?_
      exact (h13.trans h4).mono (by decide) (by decide)
  | false =>
    refine (within_run (k := namedExports) (i := 9) (b := 17) rfl hs1 fun s2 hs2 _ => ?_).bind ?_
    · refine (bump_spec hs2.toSound).bind ?_
      rintro _ s3 ⟨h3, -⟩
      refine (commaList_spec (i := 4) (b := 4) (by decide) (h3.ready hs2 (by decide) (by decide))
        (by decide) fun s4 _ hs4 => specifier_spec rfl hs4).bind fun _ s4 h4 => ?_
      exact After.pure ((h3.trans h4).mono (by decide) (by decide))
    · intro _ s2 h2
      have h12 := h1.trans h2
      refine (eatWord_spec "from" (h12.ready hs (by decide) (by decide))).bind ?_
      rintro named s3 ⟨h3, -⟩
      have h13 := h12.trans h3
      cases named with
      | false => exact After.pure (h13.mono (by decide) (by decide))
      | true =>
        refine (moduleName_spec (h13.ready hs (by decide) (by decide))).mono fun _ s4 h4 => ?_
        exact (h13.trans h4).mono (by decide) (by decide)

theorem exportStatement_spec (hs : Ready 1 s) (hk : kindHere s = kwExport) :
    After exportStatement s fun _ s' => Run 1 26 s s' := by
  unfold exportStatement
  refine (assertAt_spec hs hk).bind fun _ s1 hl1 => ?_
  have h1 := hl1.run hs.toSound
  refine (within_bump_bare (k := exportDecl) (n := 0) (i := 16) (b := 25) rfl (hl1.ready hs)
    (cursor_lt_of_kind (by rw [hl1.still.kind_eq, hk]; decide)) fun s2 hs2 _ => ?_).mono
      fun _ s2 h2 => (h1.trans h2.1).mono (by decide) (by decide)
  refine (eatWord_spec "type" (hs2.weaken (by decide))).bind ?_
  rintro _ s3 ⟨h3, -⟩
  refine (exportRest_spec (h3.ready (m := 12) hs2 (by decide) (by decide))).bind fun _ s4 h4 => ?_
  have h24 := h3.trans h4
  refine (importAttributes_spec (h24.ready (m := 3) hs2 (by decide) (by decide))).bind
    fun _ s5 h5 => ?_
  have h25 := h24.trans h5
  refine (eat_spec (k := semicolon) (by decide) (h25.ready (m := 1) hs2 (by decide) (by decide))).bind ?_
  rintro _ s6 ⟨h6, -⟩
  exact After.pure ((h25.trans h6).mono (by decide) (by decide))

/-- An initializer that has to be there. -/
theorem initializer_spec {stop : Kind → Bool} (hs : Ready 3 s) :
    After (do if !(← skipExpression stop) then report .unsupportedForm) s fun _ s' =>
      Run 3 3 s s' := by
  refine (skipExpression_spec stop hs).bind ?_
  rintro ok s1 ⟨h1, -⟩
  cases ok with
  | true => exact After.pure h1
  | false =>
    refine (reportWith_spec _ _ h1.sound).mono ?_
    rintro _ s2 ⟨h2, -⟩
    exact (h1.trans h2).mono (by decide) (by decide)

theorem exportedExpression_spec (hs : Ready 4 s) :
    After exportedExpression s fun _ s' => Run 4 4 s s' := by
  unfold exportedExpression
  refine within_run rfl hs fun s1 hs1 _ => ?_
  refine (bump_spec hs1.toSound).bind ?_
  rintro _ s2 ⟨h2, -⟩
  refine (bump_spec h2.sound).bind ?_
  rintro _ s3 ⟨h3, -⟩
  have h13 := h2.trans h3
  refine (within_run (k := initializer) (n := 3) rfl (h13.ready hs1 (by decide) (by decide))
    fun s4 hs4 _ => initializer_spec hs4).bind fun _ s4 h4 => ?_
  have h14 := h13.trans h4
  refine (eat_spec (k := semicolon) (by decide) (h14.ready hs1 (by decide) (by decide))).bind ?_
  rintro _ s5 ⟨h5, -⟩
  exact After.pure ((h14.trans h5).mono (by decide) (by decide))

/-! ## Declarations -/

theorem whenAt_typeParams (hs : Ready 1 s) :
    After (whenAt lt (typeParams Parser.type)) s fun _ s' => Run 1 19 s s' :=
  (whenAt_run (n := 0) (i := 0) (b := 19) hs fun s1 hs1 hk => (typeParams_spec (nests_type (left s1))
    hs1 (cursor_lt_of_kind (by rw [hk]; decide)) (Nat.le_refl _)).mono fun _ _ h => h.1).mono
      fun _ _ h => h.mono (by decide) (by decide)

theorem type_run (hs : Sound s) : After Parser.type s fun _ s' => Run 0 0 s s' :=
  (nests_type (left s + 1)).run hs (Nat.lt_succ_self _)

theorem typeAliasRest_spec (hs : Ready 4 s) : After typeAliasRest s fun _ s' => Run 4 22 s s' := by
  unfold typeAliasRest
  refine (bump_spec hs.toSound).bind ?_
  rintro _ s1 ⟨h1, -⟩
  refine (bindingName_spec (h1.ready hs (by decide) (by decide))).bind ?_
  rintro _ s2 ⟨h2, -⟩
  have h12 := h1.trans h2
  refine (whenAt_typeParams (h12.ready hs (by decide) (by decide))).bind fun _ s3 h3 => ?_
  have h13 := h12.trans h3
  refine (expect_spec "=" (by decide) (h13.ready hs (by decide) (by decide))).bind ?_
  rintro ok s4 ⟨h4, -⟩
  have h14 := h13.trans h4
  extract_lets rest
  have key : ∀ s5, Run 0 0 s4 s5 → After (rest ⟨⟩) s5 fun _ s' => Run 4 22 s s' := by
    intro s5 h5
    have h15 := h14.trans h5
    refine (eat_spec (k := semicolon) (by decide) (h15.ready hs (by decide) (by decide))).bind ?_
    rintro _ s6 ⟨h6, -⟩
    exact After.pure ((h15.trans h6).mono (by decide) (by decide))
  cases ok with
  | false => exact key s4 (Run.refl h4.sound)
  | true => exact (type_run h4.sound).bind fun _ s5 h5 => key s5 h5

/-- The types that an interface extends; each owns a token or has none. -/
theorem heritage_spec (hs : Ready 4 s) : After heritage s fun _ s' => Run 4 15 s s' := by
  unfold heritage
  refine within_run rfl hs fun s1 hs1 _ => ?_
  refine (bump_spec hs1.toSound).bind ?_
  rintro _ s2 ⟨h2, -⟩
  refine (repeatWhile_spec (i := 4) (b := 11) (J := fun _ _ => True)
    (h2.ready (m := 4) hs1 (by decide) (by decide)) (by decide) trivial fun s3 h3 hs3 _ => ?_).mono
      fun _ s3 h3 => (h2.trans h3.1).mono (by decide) (by decide)
  refine (within_owning (k := typeRef) (i := 3) (b := 9) (by decide) (by decide) hs3
    fun s4 hs4 _ => ?_).bind fun _ s4 h4 => ?_
  · refine (entity_spec (hs4.weaken (by decide))).bind ?_
    rintro _ s5 ⟨h5, ho5⟩
    have hs5 : Ready 1 s5 := h5.ready hs4 (by decide) (by decide)
    refine (whenAt_bare (n := 0) (i := 0) (b := 9) hs5 fun s6 hs6 _ hk => typeArgs_spec
      (nests_type (left s6)) hs6 (cursor_lt_of_kind (by rw [hk]; decide)) (Nat.le_refl _)).mono ?_
    rintro _ s6 ⟨h6, hq6, -⟩
    exact ⟨(h5.trans h6).mono (by decide) (by decide), h5.toWalk.owns_trans h6.toWalk ho5 hq6.owns⟩
  · refine (eat_spec (k := comma) (by decide) (h4.ready hs3 (by decide) (by decide))).mono ?_
    rintro more s5 ⟨h5, htake, -⟩
    exact ⟨(h4.trans h5).mono (by decide) (by decide), trivial, fun hm =>
      Nat.lt_of_le_of_lt h4.cursor_le (htake.taken hm).cursor_lt⟩

theorem interfaceRest_spec (hs : Ready 20 s) : After interfaceRest s fun _ s' => Run 19 45 s s' := by
  unfold interfaceRest
  refine (bump_spec hs.toSound).bind ?_
  rintro _ s1 ⟨h1, -⟩
  refine (bindingName_spec (h1.ready hs (by decide) (by decide))).bind ?_
  rintro _ s2 ⟨h2, -⟩
  have h12 := h1.trans h2
  refine (whenAt_typeParams (h12.ready hs (by decide) (by decide))).bind fun _ s3 h3 => ?_
  have h13 := h12.trans h3
  refine (whenAt_run (n := 4) (i := 4) (b := 15) (h13.ready hs (by decide) (by decide))
    fun s4 hs4 _ => heritage_spec hs4).bind fun _ s4 h4 => ?_
  have h14 := h13.trans h4
  refine (objectType_spec (nests_type (left s4)) (h14.ready hs (by decide) (by decide))
    (Nat.le_refl _)).mono ?_
  rintro _ s5 ⟨h5, -⟩
  exact (h14.trans h5).mono (by decide) (by decide)

theorem generatorStar_spec (hs : Ready 1 s) : After generatorStar s fun _ s' => Run 1 0 s s' := by
  unfold generatorStar
  refine (eat_spec (k := star) (by decide) hs).bind ?_
  rintro ok s1 ⟨h1, -⟩
  cases ok with
  | false => exact After.pure h1
  | true =>
    refine (reportWith_spec _ _ h1.sound).mono ?_
    rintro _ s2 ⟨h2, -⟩
    exact h1.trans h2

theorem bodyOrSemicolon_spec {body : Parse Unit} (hs : Ready 2 s)
    (hbody : ∀ s1, Ready 1 s1 → After body s1 fun _ s2 => Run 0 0 s1 s2) :
    After (bodyOrSemicolon body) s fun _ s' => Run 2 1 s s' := by
  unfold bodyOrSemicolon
  refine (at_spec braceOpen (hs.weaken (by decide))).bind ?_
  rintro opens s1 ⟨hl1, -⟩
  have h1 := hl1.run hs.toSound
  cases opens with
  | true =>
    refine (hbody s1 (hl1.ready hs)).mono fun _ s2 h2 => ?_
    exact (h1.trans h2).mono (by decide) (by decide)
  | false =>
    refine (eat_spec (k := semicolon) (by decide) (hl1.ready hs)).bind ?_
    rintro _ s2 ⟨h2, -⟩
    exact After.pure ((h1.trans h2).mono (by decide) (by decide))

theorem functionRest_spec (hs : Ready 10 s) : After functionRest s fun _ s' => Run 9 29 s s' := by
  unfold functionRest
  refine (eatWord_spec "async" (hs.weaken (by decide))).bind ?_
  rintro _ s1 ⟨h1, -⟩
  refine (bump_spec h1.sound).bind ?_
  rintro _ s2 ⟨h2, -⟩
  have h12 := h1.trans h2
  refine (generatorStar_spec (h12.ready hs (by decide) (by decide))).bind fun _ s3 h3 => ?_
  have h13 := h12.trans h3
  refine (whenAt_run (n := 1) (i := 1) (b := 0) (h13.ready hs (by decide) (by decide))
    fun s4 hs4 _ => ?_).bind fun _ s4 h4 => ?_
  · refine (bindingName_spec hs4).bind ?_
    rintro _ s5 ⟨h5, -⟩
    exact After.pure h5
  · have h14 := h13.trans h4
    refine (signatureRest_spec (nests_type (left s4)) (h14.ready hs (by decide) (by decide))
      (Nat.le_refl _)).bind ?_
    rintro _ s5 ⟨h5, -⟩
    have h15 := h14.trans h5
    refine (bodyOrSemicolon_spec (h15.ready hs (by decide) (by decide)) fun s6 hs6 =>
      within_run rfl hs6 fun s7 hs7 _ => (skipBalanced_spec hs7).mono fun _ _ h => h.1).mono ?_
    intro _ s6 h6
    exact (h15.trans h6).mono (by decide) (by decide)

theorem variableTarget_spec (hs : Ready 2 s) : After variableTarget s fun _ s' => Run 2 1 s s' := by
  unfold variableTarget
  refine (current_spec (hs.weaken (by decide))).bind ?_
  rintro k s1 ⟨hl1, -⟩
  have h1 := hl1.run hs.toSound
  have hs1 : Ready 1 s1 := hl1.ready hs
  split
  · refine (reportWith_spec _ _ h1.sound).bind ?_
    rintro _ s2 ⟨h2, -⟩
    refine (skipBalanced_spec (h2.ready hs1 (by decide) (by decide))).mono ?_
    rintro _ s3 ⟨h3, -⟩
    exact ((h1.trans h2).trans h3).mono (by decide) (by decide)
  · refine (bindingName_spec hs1).bind ?_
    rintro _ s2 ⟨h2, -⟩
    exact After.pure ((h1.trans h2).mono (by decide) (by decide))

theorem variableDeclaration_spec (hs : Ready 5 s) :
    After variableDeclaration s fun _ s' => Run 5 4 s s' := by
  unfold variableDeclaration
  refine within_run rfl hs fun s1 hs1 _ => ?_
  refine (variableTarget_spec (hs1.weaken (by decide))).bind fun _ s2 h2 => ?_
  refine (eat_spec (k := bang) (by decide) (h2.ready hs1 (by decide) (by decide))).bind ?_
  rintro _ s3 ⟨h3, -⟩
  have h13 := h2.trans h3
  refine (whenAt_colonType (nests_type (left s3)) (h13.ready hs1 (by decide) (by decide))
    (Nat.le_refl _)).bind ?_
  rintro _ s4 ⟨h4, -⟩
  have h14 := h13.trans h4
  refine (whenAt_run (n := 0) (i := 0) (b := 3) (h14.ready hs1 (by decide) (by decide))
    fun s5 hs5 hk => ?_).mono fun _ s5 h5 => (h14.trans h5).mono (by decide) (by decide)
  exact (within_bump_bare (k := initializer) (i := 3) (b := 3) rfl hs5
    (cursor_lt_of_kind (by rw [hk]; decide)) fun s6 hs6 _ =>
      initializer_spec (hs6.weaken (by decide))).mono fun _ _ h => h.1

theorem variablesRest_spec (hs : Ready 7 s) : After variablesRest s fun _ s' => Run 7 12 s s' := by
  unfold variablesRest
  refine (bump_spec hs.toSound).bind ?_
  rintro _ s1 ⟨h1, -⟩
  refine (repeatWhile_spec (i := 6) (b := 5) (J := fun _ _ => True)
    (h1.ready (m := 6) hs (by decide) (by decide)) (by decide) trivial fun s2 h2 hs2 _ => ?_).bind ?_
  · refine (variableDeclaration_spec (hs2.weaken (by decide))).bind fun _ s3 h3 => ?_
    refine (eat_spec (k := comma) (by decide) (h3.ready hs2 (by decide) (by decide))).mono ?_
    rintro more s4 ⟨h4, htake, -⟩
    exact ⟨(h3.trans h4).mono (by decide) (by decide), trivial, fun hm =>
      Nat.lt_of_le_of_lt h3.cursor_le (htake.taken hm).cursor_lt⟩
  · rintro _ s2 ⟨h2, -⟩
    have h12 := h1.trans h2
    refine (eat_spec (k := semicolon) (by decide) (h12.ready hs (by decide) (by decide))).bind ?_
    rintro _ s3 ⟨h3, -⟩
    exact After.pure ((h12.trans h3).mono (by decide) (by decide))

theorem unsupportedForm_spec (hs : Ready 1 s) :
    After unsupportedForm s fun _ s' => Looks 1 s s' := by
  unfold unsupportedForm
  refine (current_spec hs).bind ?_
  rintro k s1 ⟨hl1, -⟩
  split
  case h_4 =>
    refine (currentText_spec s1).bind fun text s2 hl2 => ?_
    exact After.pure (hl1.trans hl2)
  all_goals exact After.pure hl1

theorem unsupportedRest_spec (hs : Ready 5 s) : After unsupportedRest s fun _ s' => Run 5 6 s s' := by
  unfold unsupportedRest
  refine (unsupportedForm_spec (hs.weaken (by decide))).bind fun what s1 hl1 => ?_
  have h1 := hl1.run hs.toSound
  refine (reportWith_spec _ _ h1.sound).bind ?_
  rintro _ s2 ⟨h2, -⟩
  have h12 := h1.trans h2
  refine (repeatWhile_spec (i := 2) (b := 0) (J := fun _ _ => True)
    (h12.ready (m := 2) hs (by decide) (by decide)) (by decide) trivial fun s3 h3 hs3 _ => ?_).bind ?_
  · have stays : ∀ {m : Nat} {s4 : State}, m ≤ 2 → Looks m s3 s4 →
        Run 2 0 s3 s4 ∧ True ∧ (false = true → cursor s3 < cursor s4) := fun hm hl =>
      ⟨(hl.run hs3.toSound).mono hm (Nat.le_refl 0), trivial, fun h => by cases h⟩
    refine (atEnd_spec s3).bind ?_
    rintro e s4 ⟨hl4, hmore, -⟩
    cases e with
    | true => exact After.pure (stays (by decide) hl4)
    | false =>
      refine (at_spec braceOpen ((hl4.ready (m := 2) hs3).weaken (by decide))).bind ?_
      rintro opens s5 ⟨hl5, -⟩
      have hl35 := hl4.trans hl5
      cases opens with
      | true => exact After.pure (stays (by decide) hl35)
      | false =>
        refine (at_spec semicolon (hl35.ready hs3)).bind ?_
        rintro ends s6 ⟨hl6, -⟩
        have hl36 := hl35.trans hl6
        cases ends with
        | true => exact After.pure (stays (by decide) hl36)
        | false =>
          have h6 := hl36.run hs3.toSound
          refine (bump_spec h6.sound).bind ?_
          rintro _ s7 ⟨h7, hbare, -⟩
          have hlt := (hbare (by
            rw [hl36.still.tokens_eq, hl36.still.cursor_eq]
            exact (hmore rfl).1)).cursor_lt
          refine After.pure ⟨(h6.trans_moved h7 hlt).mono (by decide) (by decide), trivial, fun _ => ?_⟩
          exact Nat.lt_of_le_of_lt h6.cursor_le hlt
  · rintro _ s3 ⟨h3, -⟩
    have h13 := h12.trans h3
    refine (bodyOrSemicolon_spec (h13.ready hs (by decide) (by decide)) fun s4 hs4 =>
      (skipBalanced_spec hs4).mono fun _ _ h => h.1).mono ?_
    intro _ s4 h4
    exact (h13.trans h4).mono (by decide) (by decide)

theorem declareModifies_spec (hs : Ready 1 s) :
    After declareModifies s fun _ s' => Looks 1 s s' := by
  unfold declareModifies
  refine (atWord_spec _ hs).bind ?_
  rintro yes s1 ⟨hl1, -⟩
  cases yes with
  | false => exact After.pure hl1
  | true =>
    refine (lineBreakBefore_spec 1 s1).bind fun breaks s2 hl2 => ?_
    have hl12 := hl1.trans hl2
    cases breaks with
    | true => exact After.pure hl12
    | false =>
      refine (peek_spec 1 s2).bind fun next s3 hl3 => ?_
      have hl13 := hl12.trans hl3
      split
      case h_6 =>
        refine (peekText_spec 1 s3).bind fun text s4 hl4 => ?_
        exact After.pure (hl13.trans hl4)
      all_goals exact After.pure hl13

/-- A declaration is no keyed node and no link. -/
theorem wordDeclaration_spec (s : State) :
    After wordDeclaration? s fun k? s' => Looks 0 s s' ∧
      ∀ k, k? = some k → k.isKeyed = false ∧ isLink k = false := by
  unfold wordDeclaration?
  refine (peek_spec 1 s).bind fun next s1 hl1 => ?_
  refine (lineBreakBefore_spec 1 s1).bind fun breaks s2 hl2 => ?_
  refine (currentText_spec s2).bind fun text s3 hl3 => ?_
  have hl13 := (hl1.trans hl2).trans hl3
  have known : ∀ {k : Kind}, k.isKeyed = false ∧ isLink k = false →
      Looks 0 s s3 ∧ ∀ k', some k = some k' → k'.isKeyed = false ∧ isLink k' = false := fun hk =>
    ⟨hl13, fun k' h => by cases h; exact hk⟩
  extract_lets sameLine
  split
  · exact After.pure (known ⟨rfl, rfl⟩)
  split
  · exact After.pure (known ⟨rfl, rfl⟩)
  split
  · exact After.pure (known ⟨rfl, rfl⟩)
  split
  · exact After.pure (known ⟨rfl, rfl⟩)
  split
  · exact After.pure (known ⟨rfl, rfl⟩)
  · exact After.pure ⟨hl13, fun k h => by cases h⟩

theorem declaration?_spec (hs : Ready 1 s) :
    After declaration? s fun k? s' => Looks 1 s s' ∧
      ∀ k, k? = some k → k.isKeyed = false ∧ isLink k = false := by
  unfold declaration?
  refine (current_spec hs).bind ?_
  rintro k s1 ⟨hl1, -⟩
  have known : ∀ {k : Kind} {s2 : State}, k.isKeyed = false ∧ isLink k = false → Looks 1 s s2 →
      Looks 1 s s2 ∧ ∀ k', some k = some k' → k'.isKeyed = false ∧ isLink k' = false := fun hk hl =>
    ⟨hl, fun k' h => by cases h; exact hk⟩
  split
  case h_2 =>
    refine (peek_spec 1 s1).bind fun next s2 hl2 => ?_
    refine After.pure (known ?_ (hl1.trans hl2))
    split <;> exact ⟨rfl, rfl⟩
  case h_6 =>
    refine (wordDeclaration_spec s1).mono ?_
    rintro k? s2 ⟨hl2, hk⟩
    exact ⟨hl1.trans hl2, hk⟩
  case h_7 => exact After.pure ⟨hl1, fun k h => by cases h⟩
  all_goals exact After.pure (known ⟨rfl, rfl⟩ hl1)

theorem declarationModifiers_spec (hs : Ready 3 s) :
    After declarationModifiers s fun _ s' => Run 3 2 s s' := by
  unfold declarationModifiers
  refine (eat_spec (k := kwExport) (by decide) (hs.weaken (by decide))).bind ?_
  rintro exported s1 ⟨h1, -⟩
  cases exported with
  | true =>
    refine (eat_spec (k := kwDefault) (by decide) (h1.ready hs (by decide) (by decide))).bind ?_
    rintro _ s2 ⟨h2, -⟩
    have h12 := h1.trans h2
    refine (bumpIf_spec h2.sound (declareModifies_spec (h12.ready hs (by decide) (by decide)))).bind
      fun _ s3 h3 => ?_
    exact After.pure ((h12.trans h3).mono (by decide) (by decide))
  | false =>
    refine (declareModifies_spec (h1.ready hs (by decide) (by decide))).bind fun declared s2 hl2 => ?_
    have h12 := h1.trans (hl2.run h1.sound)
    cases declared with
    | false => exact After.pure (h12.mono (by decide) (by decide))
    | true =>
      refine (bump_spec h12.sound).bind ?_
      rintro _ s3 ⟨h3, -⟩
      exact After.pure ((h12.trans h3).mono (by decide) (by decide))

theorem declarationRest_spec (k : Kind) (hs : Ready 20 s) :
    After (declarationRest k) s fun _ s' => Run 19 45 s s' := by
  unfold declarationRest
  split
  · exact (typeAliasRest_spec (hs.weaken (by decide))).mono fun _ _ h => h.mono (by decide) (by decide)
  · exact interfaceRest_spec hs
  · exact (functionRest_spec (hs.weaken (by decide))).mono fun _ _ h => h.mono (by decide) (by decide)
  · exact (variablesRest_spec (hs.weaken (by decide))).mono fun _ _ h => h.mono (by decide) (by decide)
  · exact (unsupportedRest_spec (hs.weaken (by decide))).mono fun _ _ h => h.mono (by decide) (by decide)

theorem strayModifiers_spec (hs : Ready 2 s) : After strayModifiers s fun _ s' => Run 2 2 s s' := by
  unfold strayModifiers
  refine (reportWith_spec _ _ hs.toSound).bind ?_
  rintro _ s1 ⟨h1, -⟩
  refine (skipUntil_spec _ (h1.ready hs (by decide) (by decide))).mono ?_
  rintro _ s2 ⟨h2, -⟩
  exact h1.trans h2

theorem expressionStatement_spec (hs : Ready 4 s) :
    After expressionStatement s fun _ s' => Run 4 4 s s' := by
  unfold expressionStatement
  refine (skipExpression_spec _ (hs.weaken (by decide))).bind ?_
  rintro ok s1 ⟨h1, -⟩
  have hs1 : Ready 1 s1 := h1.ready hs (by decide) (by decide)
  extract_lets rest
  have key : ∀ s2, Run 0 0 s1 s2 → After (rest ⟨⟩) s2 fun _ s' => Run 4 4 s s' := by
    intro s2 h2
    refine (eat_spec (k := semicolon) (by decide) (h2.ready hs1 (by decide) (by decide))).bind ?_
    rintro _ s3 ⟨h3, -⟩
    exact After.pure (((h1.trans h2).trans h3).mono (by decide) (by decide))
  cases ok with
  | true => exact key s1 (Run.refl h1.sound)
  | false =>
    refine (reportAndBump_spec _ hs1).bind ?_
    rintro _ s2 ⟨h2, -⟩
    exact key s2 h2

theorem declaration_spec (hs : Ready 24 s) :
    After declaration s fun _ s' => Run 23 49 s s' ∧ Linkless (grown s s') := by
  unfold declaration
  refine ((mark_spec hs.toSound).and (mark_linkless s)).bind ?_
  rintro start s1 ⟨⟨h1, -, -, rfl⟩, hlead⟩
  have hs1 : Ready 24 s1 := h1.ready hs (by decide) (by decide)
  refine (declarationModifiers_spec (hs1.weaken (by decide))).bind fun modified s2 h2 => ?_
  refine (declaration?_spec (h2.ready hs1 (by decide) (by decide))).look h2 ?_
  rintro k? s3 h3 - hkeyed
  have hs3 : Ready 20 s3 := h3.ready hs1 (by decide) (by decide)
  -- the node starts before the modifiers, and only blanks stand before the node
  have wraps : ∀ {k : Kind} {p : Parse Unit}, k.isKeyed = false ∧ isLink k = false →
      (∀ s4, Ready 20 s4 → After p s4 fun _ s5 => Run 19 45 s4 s5) →
      After (withinFrom s1.row.size k p) s3 fun _ s' =>
        Run 23 49 s s' ∧ Linkless (grown s s') := by
    rintro k p ⟨hk, hlink⟩ inner
    have hm : k ≠ mappedTypeParam := fun h => by rw [h] at hk; exact absurd hk (by decide)
    refine (withinFrom_spec (i := 19) (b := 45) (R := fun _ _ _ => True) hm h1.sound h3 hs3
      fun s4 hs4 _ => (inner s4 hs4).mono fun _ _ h => ⟨h, proper_of_not_keyed hk, trivial⟩).mono ?_
    rintro _ s' ⟨h', s4, s5, -, -, hcloses, -⟩
    refine ⟨(h1.trans h').mono (by decide) (by decide), ?_⟩
    rw [grown_trans h1.row_le h'.row_le]
    exact hlead.append (hcloses.linkless hlink)
  cases k? with
  | some k => exact wraps (hkeyed k rfl) fun s4 hs4 => declarationRest_spec k hs4
  | none =>
    cases modified with
    | true =>
      exact wraps ⟨rfl, rfl⟩ fun s4 hs4 => (strayModifiers_spec (hs4.weaken (by decide))).mono
        fun _ _ h => h.mono (by decide) (by decide)
    | false =>
      exact wraps ⟨rfl, rfl⟩ fun s4 hs4 => (expressionStatement_spec (hs4.weaken (by decide))).mono
        fun _ _ h => h.mono (by decide) (by decide)

/-! ## Statements -/

theorem defaultDeclares_spec (s : State) : After defaultDeclares s fun _ s' => Looks 0 s s' := by
  unfold defaultDeclares
  refine (peek_spec 2 s).bind fun next s1 hl1 => ?_
  split
  case h_3 =>
    refine (peekText_spec 2 s1).bind fun text s2 hl2 => ?_
    have hl12 := hl1.trans hl2
    split
    · exact After.pure hl12
    split
    · refine (peek_spec 3 s2).bind fun after s3 hl3 => ?_
      exact After.pure (hl12.trans hl3)
    · exact After.pure hl12
  all_goals exact After.pure hl1

theorem exporting_spec (hs : Ready 24 s) (hk : kindHere s = kwExport) :
    After exporting s fun _ s' => Run 23 49 s s' := by
  unfold exporting
  have declares : ∀ {s1 : State}, Looks 0 s s1 → After declaration s1 fun _ s' => Run 23 49 s s' := by
    intro s1 hl1
    refine (declaration_spec (hl1.ready (m := 24) hs)).mono fun _ s' h' => ?_
    exact ((hl1.run hs.toSound).trans h'.1).mono (by decide) (by decide)
  have exports : ∀ {s1 : State}, Looks 0 s s1 →
      After exportStatement s1 fun _ s' => Run 23 49 s s' := by
    intro s1 hl1
    refine (exportStatement_spec ((hl1.ready (m := 24) hs).weaken (by decide))
      (hl1.still.kind_eq.trans hk)).mono fun _ s' h' => ?_
    exact ((hl1.run hs.toSound).trans h').mono (by decide) (by decide)
  have assigns : ∀ {s1 : State}, Looks 0 s s1 →
      After exportedExpression s1 fun _ s' => Run 23 49 s s' := by
    intro s1 hl1
    refine (exportedExpression_spec ((hl1.ready (m := 24) hs).weaken (by decide))).mono
      fun _ s' h' => ?_
    exact ((hl1.run hs.toSound).trans h').mono (by decide) (by decide)
  refine (peek_spec 1 s).bind fun next s1 hl1 => ?_
  split
  case h_1 => exact exports hl1
  case h_2 => exact exports hl1
  case h_3 => exact assigns hl1
  case h_4 =>
    refine (defaultDeclares_spec s1).bind fun declared s2 hl2 => ?_
    cases declared with
    | true => exact declares (hl1.trans hl2)
    | false => exact assigns (hl1.trans hl2)
  case h_5 =>
    refine (peekText_spec 1 s1).bind fun text s2 hl2 => ?_
    have hl12 := hl1.trans hl2
    split
    · refine (peek_spec 2 s2).bind fun after s3 hl3 => ?_
      have hl13 := hl12.trans hl3
      split
      · exact exports hl13
      · exact declares hl13
    · exact declares hl12
  case h_6 => exact declares hl1

theorem statement_spec (hs : Ready 25 s) :
    After statement s fun _ s' => Run 24 49 s s' ∧
      (opensLink (kindHere s) = false → Linkless (grown s s')) := by
  unfold statement
  refine (current_spec (hs.weaken (by decide))).bind ?_
  rintro k s1 ⟨hl1, rfl⟩
  have h1 := hl1.run hs.toSound
  have hs1 : Ready 24 s1 := hl1.ready hs
  have declares : ∀ {s2 : State}, Looks 1 s s2 → After declaration s2 fun _ s' =>
      Run 24 49 s s' ∧ Linkless (grown s s') := by
    intro s2 hl2
    refine (declaration_spec (hl2.ready hs)).mono ?_
    rintro _ s' ⟨h', hlinkless⟩
    have h2 := hl2.run hs.toSound
    exact ⟨(h2.trans h').mono (by decide) (by decide),
      h2.linkless_trans h'.toWalk hl2.linkless hlinkless⟩
  split
  · refine ((bump_spec h1.sound).and (bump_linkless s1)).mono ?_
    rintro _ s2 ⟨⟨h2, -⟩, hlinkless⟩
    exact ⟨(h1.trans h2).mono (by decide) (by decide),
      fun _ => h1.linkless_trans h2.toWalk hl1.linkless hlinkless⟩
  · rename_i hk
    refine (peek_spec 1 s1).bind fun next s2 hl2 => ?_
    have hl12 := hl1.trans hl2
    split
    · exact (declares hl12).mono fun _ _ h => ⟨h.1, fun _ => h.2⟩
    · refine (importStatement_spec ((hl2.ready (m := 24) hs1).weaken (by decide))
        (hl12.still.kind_eq.trans hk)).mono fun _ s' h' => ?_
      refine ⟨((hl12.run hs.toSound).trans h').mono (by decide) (by decide), fun hnone => ?_⟩
      rw [hk] at hnone
      cases hnone
  · rename_i hk
    refine (exporting_spec hs1 (hl1.still.kind_eq.trans hk)).mono fun _ s' h' => ?_
    refine ⟨(h1.trans h').mono (by decide) (by decide), fun hnone => ?_⟩
    rw [hk] at hnone
    cases hnone
  · exact (declares hl1).mono fun _ _ h => ⟨h.1, fun _ => h.2⟩

/-- Where there is a token, a turn takes one or the parse has failed. -/
theorem statementOrToken_spec (hs : Ready 25 s) (hpos : s.pos = cursor s)
    (hc : cursor s < s.tokens.size) :
    After statementOrToken s fun _ s' => Run 24 49 s s' ∧
      (cursor s < cursor s' ∨ s'.failure.isSome) ∧
      (opensLink (kindHere s) = false → Linkless (grown s s')) := by
  unfold statementOrToken
  refine After.get ?_
  refine (statement_spec hs).bind ?_
  rintro _ s1 ⟨h1, hlink1⟩
  refine After.get ?_
  have hle := h1.cursor_le
  split
  · refine (atEnd_spec s1).bind ?_
    rintro e s2 ⟨hl2, -, hend⟩
    have h12 := h1.trans (hl2.run h1.sound)
    cases e with
    | true =>
      refine After.pure ⟨h12.mono (by decide) (by decide), ?_, fun hk =>
        h1.linkless_trans (hl2.run h1.sound).toWalk (hlink1 hk) hl2.linkless⟩
      -- the statement did start before the end, so it has come past a token
      rcases hend rfl with hsize | hfail
      · rw [h1.tokens_eq] at hsize
        rw [hl2.still.cursor_eq]
        exact .inl (by omega)
      · rw [hl2.still.failure_eq]
        exact .inr hfail
    | false =>
      refine ((reportAndBump_spec (n := 0) _ ⟨h12.sound, Nat.zero_le _⟩).and
        (reportAndBump_linkless _ h12.sound)).mono ?_
      rintro _ s3 ⟨⟨h3, -, hmv3⟩, hlink3⟩
      refine ⟨(h12.trans h3).mono (by decide) (by decide), .inl ?_, fun hk =>
        h12.linkless_trans h3.toWalk (h1.linkless_trans (hl2.run h1.sound).toWalk (hlink1 hk)
          hl2.linkless) hlink3⟩
      rcases Nat.lt_or_ge (cursor s2) s2.tokens.size with hlt | hge
      · exact Nat.lt_of_le_of_lt h12.cursor_le (hmv3 hlt)
      · rw [h12.tokens_eq] at hge
        have hle3 := h3.cursor_le
        omega
  · rename_i hmoved
    refine After.pure ⟨h1.mono (by decide) (by decide), .inl ?_, hlink1⟩
    -- the position never falls, so it has passed the cursor when it has changed
    have hmono := h1.pos_mono
    have hpos1 := pos_le_cursor s1
    have hne : s1.pos ≠ s.pos := fun h => hmoved (beq_of_eq h)
    omega

/-! ## Whole files -/

/-- Statements go on until the text ends or the parse has failed. -/
theorem statements_spec (hs : Ready 25 s) :
    After statements s fun _ s' => Run 24 73 s s' ∧
      (s.tokens.size ≤ cursor s' ∨ s'.failure.isSome) ∧
      ((∀ t ∈ s.tokens, opensLink t.kind = false) → Linkless (grown s s')) := by
  unfold statements repeatWhile
  refine After.get ?_
  -- what a failed parse has left over does not matter, for it takes no further turn
  refine iterate_spec (I := fun n s1 => Run 24 73 s s1 ∧ 0 < n ∧
    (s1.failure.isSome ∨ Run 0 49 s s1 ∧ left s1 < n) ∧
    ((∀ t ∈ s.tokens, opensLink t.kind = false) → Linkless (grown s s1)))
    (fun _ h => Nat.lt_irrefl _ h.2.1) ?_ _
    ⟨(Run.refl hs.toSound).mono (by decide) (by decide), Nat.succ_pos _,
      .inr ⟨(Run.refl hs.toSound).mono (by decide) (by decide), Nat.lt_succ_of_le (Nat.sub_le _ _)⟩,
      fun _ => by rw [grown_self]; exact .nil⟩
  rintro n s1 ⟨h1, -, hgo, hlink1⟩
  refine (atEnd_spec s1).bind ?_
  rintro e s2 ⟨hl2, hmore, hend⟩
  have h12 := h1.trans (hl2.run h1.sound)
  cases e with
  | true =>
    refine After.pure ⟨h12.mono (by decide) (by decide), ?_, fun hnone =>
      h1.linkless_trans (hl2.run h1.sound).toWalk (hlink1 hnone) hl2.linkless⟩
    rw [hl2.still.cursor_eq, hl2.still.failure_eq, ← h1.tokens_eq]
    exact hend rfl
  | false =>
    obtain ⟨hc1, hfail1⟩ := hmore rfl
    rcases hgo with hfails | ⟨hr1, hleft⟩
    · rw [hfail1] at hfails
      cases hfails
    · have h2 := hl2.run h1.sound
      have hr2 := hr1.trans h2
      have hpos2 : s2.pos = cursor s2 := by
        obtain ⟨m, -, rfl⟩ := hl2
        exact (cursor_at s1).symm
      have hc2 : cursor s2 < s2.tokens.size := by
        rw [hl2.still.cursor_eq, hl2.still.tokens_eq]
        exact hc1
      refine (statementOrToken_spec (hr2.ready hs (by decide) (by decide)) hpos2 hc2).bind ?_
      rintro _ s3 ⟨h3, hmv3, hlink3⟩
      have h13 := hr2.trans h3
      have hlinks : (∀ t ∈ s.tokens, opensLink t.kind = false) → Linkless (grown s s3) := by
        intro hnone
        refine hr2.linkless_trans h3.toWalk
          (h1.linkless_trans h2.toWalk (hlink1 hnone) hl2.linkless) (hlink3 ?_)
        exact opensLink_kindHere (by rwa [hr2.tokens_eq])
      refine After.pure ⟨h13.mono (by decide) (by decide), ?_, ?_, hlinks⟩
      · have hpositive : 0 < left s1 := by
          rw [left]
          omega
        omega
      · rcases hmv3 with hlt | hfail
        · have hdown := h3.left_lt hlt
          rw [hl2.still.left_eq] at hdown
          exact .inr ⟨hr2.trans_moved h3 hlt, by omega⟩
        · exact .inl hfail

/-- A whole file becomes one node, and unless the parse has failed all tokens are placed. -/
theorem file_spec (hs : Ready 25 s) (hplaced : s.placed = s.pos) :
    After file s fun _ s' => Run 24 73 s s' ∧ (∃ a b parts, grown s s' = [.node root a b parts] ∧
        ((∀ t ∈ s.tokens, opensLink t.kind = false) → Linkless parts)) ∧
      (s'.failure = none → s'.placed = s.tokens.size) := by
  unfold file
  refine (within_spec (k := root) (i := 24) (b := 73) (R := fun _ s1 s2 =>
    (s2.failure = none → s2.placed = s1.tokens.size) ∧
      ((∀ t ∈ s1.tokens, opensLink t.kind = false) → Linkless (grown s1 s2)))
    (by decide) hs fun s1 hs1 _ => ?_).mono ?_
  · refine (statements_spec hs1).bind ?_
    rintro _ s2 ⟨h2, hend, hlink⟩
    refine (skipTrivia_spec s2).bind fun _ s3 hl3 => ?_
    have h3 := hl3.run h2.sound
    have hpos3 : s3.pos = cursor s2 := by
      obtain ⟨m, -, rfl⟩ := hl3
      rfl
    refine ((placeTrivia_spec h3.sound).and (placeTrivia_linkless s3)).mono ?_
    rintro _ s4 ⟨⟨h4, hst4, hplaced4, -⟩, hlink4⟩
    refine ⟨((h2.trans h3).trans h4).mono (by decide) (by decide), proper_of_not_keyed rfl,
      fun hnone => ?_, fun hnone => (h2.trans h3).linkless_trans h4.toWalk
        (h2.linkless_trans h3.toWalk (hlink hnone) hl3.linkless) hlink4⟩
    have hsize := cursor_le_size h2.sound.pos_le
    rw [hst4.failure_eq, hl3.still.failure_eq] at hnone
    rw [h2.tokens_eq] at hsize
    rw [hplaced4, hpos3]
    rcases hend with hge | hfail
    · exact Nat.le_antisymm hsize hge
    · rw [hnone] at hfail
      cases hfail
  · rintro _ s' ⟨h', s1, s2, hst1, -, hcloses, hst', hall, hlink⟩
    -- no tokens have been waiting, so the root is all that is added
    obtain ⟨lead, a, b, hgrown, hlead⟩ := hcloses.grown_eq
    rw [hlead hplaced] at hgrown
    refine ⟨h', ⟨a, b, _, hgrown, fun hnone => hlink (by rwa [hst1.tokens_eq])⟩, fun hnone => ?_⟩
    rw [hst'.failure_eq] at hnone
    rw [hst'.placed_eq, hall hnone, hst1.tokens_eq]

end Statements

end DeclKit.Parser

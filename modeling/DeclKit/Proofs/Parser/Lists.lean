/-
Names, lists and skipped expressions are runs.

None of them needs the cursor to be at a particular token: where the token they want is missing they
report and stay. Skipping takes a token with every turn, so it needs no more patience than one turn
does; a list goes on only past a comma, whatever its items do.
-/
import DeclKit.Parser.Lists
import DeclKit.Proofs.Parser.Nodes

set_option autoImplicit false

namespace DeclKit.Parser

open Kind
open DeclKit.Tree (tokensOfList bareAll hollowsAll CoversAll GoodAll Owns Quiet Proper)

variable {s : State}

/-! ## Names -/

/-- A name that has been looked at is taken. -/
theorem bumpAs_looked {n : Nat} {s1 : State} {k : Kind} (hk : k.isKeyed = false) (hs : Sound s)
    (hl : Looks n s s1) (hc : kindHere s ≠ error) :
    After (bumpAs k) s1 fun _ s' => Run 0 0 s s' ∧ Bare s s' := by
  have h1 := hl.run hs
  have hlt : cursor s1 < s1.tokens.size := cursor_lt_of_kind (by rw [hl.still.kind_eq]; exact hc)
  refine (bumpAs_bare (n := 0) hk ⟨h1.sound, Nat.zero_le _⟩ hlt).mono ?_
  rintro _ s2 ⟨h2, hbare⟩
  exact ⟨h1.trans_moved h2 hbare.cursor_lt, h1.toWalk.trans_bare hbare h2.toWalk⟩

/-- A report after a look changes nothing. -/
theorem report_looked {n : Nat} {s1 : State} (kind : DiagnosticKind) (args : List String)
    (hs : Sound s) (hl : Looks n s s1) :
    After (reportWith kind args) s1 fun _ s' => Run n 0 s s' ∧ Still s s' ∧ s'.row = s.row := by
  refine (reportWith_spec kind args (hl.run hs).sound).mono ?_
  rintro _ s2 ⟨h2, hst, hrow, -⟩
  exact ⟨(hl.run hs).trans h2, hl.still.trans hst, hrow.trans hl.row_eq⟩

/-- Kinds that are identifiers or reserved words are kinds of tokens. -/
theorem ne_error_of_identifierLike {k : Kind} (h : k.isIdentifierLike = true) : k ≠ error := by
  rintro rfl
  exact absurd h (by decide)

theorem bindingName_spec (hs : Ready 1 s) :
    After bindingName s fun _ s' => Run 1 0 s s' ∧ Quiet (grown s s') := by
  unfold bindingName
  refine (current_spec hs).bind ?_
  rintro k s1 ⟨hl1, rfl⟩
  split
  · rename_i hk
    refine (bumpAs_looked (k := name) rfl hs.toSound hl1 (by rw [eq_of_beq hk]; decide)).bind ?_
    rintro _ s2 ⟨h2, hbare⟩
    exact After.pure ⟨h2.mono (by decide) (by decide), hbare.quiet⟩
  · refine (report_looked _ _ hs.toSound hl1).bind ?_
    rintro _ s2 ⟨h2, -, hrow⟩
    exact After.pure ⟨h2, quiet_of_row_eq hrow⟩

theorem specifierName_spec (hs : Ready 1 s) :
    After specifierName s fun _ s' => Run 1 0 s s' := by
  unfold specifierName
  refine (current_spec hs).bind ?_
  rintro k s1 ⟨hl1, rfl⟩
  split
  · rename_i hk
    have hne : kindHere s ≠ error := by
      intro he
      rw [he] at hk
      exact absurd hk (by decide)
    refine (bumpAs_looked (k := name) rfl hs.toSound hl1 hne).bind ?_
    rintro _ s2 ⟨h2, -⟩
    exact After.pure (h2.mono (by decide) (by decide))
  · refine (report_looked _ _ hs.toSound hl1).bind ?_
    rintro _ s2 ⟨h2, -⟩
    exact After.pure h2

theorem moduleName_spec (hs : Ready 1 s) : After moduleName s fun _ s' => Run 1 0 s s' := by
  unfold moduleName
  refine (at_spec stringLiteral hs).bind ?_
  rintro yes s1 ⟨hl1, hyes⟩
  cases yes with
  | true =>
    refine (bumpAs_looked (k := moduleSpecifier) rfl hs.toSound hl1
      (by rw [hyes.1 rfl]; decide)).mono ?_
    rintro _ s2 ⟨h2, -⟩
    exact h2.mono (by decide) (by decide)
  | false =>
    refine (report_looked _ _ hs.toSound hl1).mono ?_
    rintro _ s2 ⟨h2, -⟩
    exact h2

theorem entityPart_spec (hs : Ready 1 s) :
    After entityPart s fun _ s' => Run 1 0 s s' ∧ Quiet (grown s s') := by
  unfold entityPart
  refine (current_spec hs).bind ?_
  rintro k s1 ⟨hl1, rfl⟩
  split
  · rename_i hk
    refine (bump_takes hs.toSound hl1 (ne_error_of_identifierLike hk)).bind ?_
    rintro _ s2 ⟨h2, htake⟩
    exact After.pure ⟨h2, htake.quiet⟩
  · refine (report_looked _ _ hs.toSound hl1).bind ?_
    rintro _ s2 ⟨h2, -, hrow⟩
    exact After.pure ⟨h2, quiet_of_row_eq hrow⟩

/-- A dotted name holds no nodes, so whatever tokens it has are bare. -/
theorem entity_spec (hs : Ready 2 s) :
    After entity s fun _ s' => Run 2 3 s s' ∧ Owns (grown s s') := by
  unfold entity
  refine within_owns rfl hs fun s1 hs1 _ => ?_
  refine (entityPart_spec (hs1.weaken (by decide))).bind ?_
  rintro _ s2 ⟨h2, hq2⟩
  have hs2 : Ready 1 s2 := h2.ready hs1 (by decide) (by decide)
  refine (repeatWhile_spec (i := 1) (b := 1) (J := fun _ s3 => Quiet (grown s2 s3)) hs2 (by decide)
    (quiet_of_row_eq rfl) ?_).mono ?_
  · intro s3 h3 hs3 hq3
    refine (eat_spec (k := dot) (by decide) hs3).bind ?_
    rintro ok s4 ⟨h4, htake, -⟩
    have hq4 := h3.toWalk.quiet_trans h4.toWalk hq3 htake.quiet
    cases ok with
    | false => exact After.pure ⟨h4.mono (by decide) (by decide), hq4, fun h => by cases h⟩
    | true =>
      have hlt := (htake.taken rfl).cursor_lt
      refine (entityPart_spec ((h4.moving hlt).ready hs3 (by decide) (by decide))).mono ?_
      rintro more s5 ⟨h5, hq5⟩
      refine ⟨?_, (h3.trans h4).toWalk.quiet_trans h5.toWalk hq4 hq5, fun _ => ?_⟩
      · exact ((h4.moving hlt).trans h5).mono (by decide) (by decide)
      · exact Nat.lt_of_lt_of_le hlt h5.cursor_le
  · rintro _ s3 ⟨h3, hq3⟩
    exact ⟨(h2.trans h3).mono (by decide) (by decide),
      (h2.toWalk.quiet_trans h3.toWalk hq2 hq3).owns⟩

/-! ## Skipping -/

/-- Brackets are closed with patience for one look, since every turn takes a token. -/
theorem closeBrackets_spec (n depth : Nat) (hs : Ready 1 s) (hn : left s < n) :
    After (closeBrackets n depth) s fun _ s' => Run 0 0 s s' ∧ Quiet (grown s s') := by
  induction n generalizing s depth with
  | zero => exact absurd hn (Nat.not_lt_zero _)
  | succ n ih =>
    unfold closeBrackets
    refine (atEnd_spec s).bind ?_
    rintro e s1 ⟨hl1, hmore, -⟩
    have h1 := hl1.run hs.toSound
    cases e with
    | true => exact After.pure ⟨h1, hl1.quiet⟩
    | false =>
      refine (current_spec (hl1.ready hs)).bind ?_
      rintro k s2 ⟨hl2, -⟩
      extract_lets inner
      have hl12 := hl1.trans hl2
      have h2 := hl12.run hs.toSound
      refine (bump_spec h2.sound).bind ?_
      rintro _ s3 ⟨h3, hbare, -⟩
      have hb : Bare s2 s3 := hbare (by
        rw [hl12.still.tokens_eq, hl12.still.cursor_eq]
        exact (hmore rfl).1)
      have h13 := h2.trans_moved h3 hb.cursor_lt
      have hb13 := h2.toWalk.trans_bare hb h3.toWalk
      split
      · exact After.pure ⟨h13, hb13.quiet⟩
      · have hdown := h13.left_lt hb13.cursor_lt
        refine (ih inner (h13.ready hs (by decide) (by decide)) (by omega)).mono ?_
        rintro _ s4 ⟨h4, hq4⟩
        exact ⟨h13.trans h4, h13.toWalk.quiet_trans h4.toWalk hb13.quiet hq4⟩

theorem skipBalanced_spec (hs : Ready 1 s) :
    After skipBalanced s fun _ s' => Run 0 0 s s' ∧ Quiet (grown s s') := by
  unfold skipBalanced
  refine After.get ?_
  refine (closeBrackets_spec _ 0 hs (Nat.lt_succ_of_le (Nat.sub_le _ _))).bind ?_
  rintro closed s1 ⟨h1, hq1⟩
  split
  · exact After.pure ⟨h1, hq1⟩
  · refine (reportWith_spec _ _ h1.sound).mono ?_
    rintro _ s2 ⟨h2, -, hrow, -⟩
    exact ⟨h1.trans h2, h1.toWalk.quiet_trans h2.toWalk hq1 (quiet_of_row_eq hrow)⟩

theorem continuesExpression_spec (hs : Ready 2 s) :
    After continuesExpression s fun _ s' => Looks 2 s s' := by
  unfold continuesExpression
  refine (current_spec (hs.weaken (by decide))).bind ?_
  rintro k s1 ⟨hl1, -⟩
  split
  · exact After.pure (hl1.mono (by decide))
  · refine (current_spec (hl1.ready hs)).bind ?_
    rintro k s2 ⟨hl2, -⟩
    split
    · refine (currentText_spec s2).bind fun text s3 hl3 => ?_
      exact After.pure (((hl1.trans hl2).trans hl3).mono (by decide))
    · exact After.pure (hl1.trans hl2)

/-- A bracket is closed only inside one that is open, so that nothing is raised. -/
theorem openBrackets_spec (depth : Nat) (k : Kind) (h : depth = 0 → closesBracket k = false) :
    After (openBrackets depth k) s fun _ s' => s' = s := by
  unfold openBrackets
  split
  · exact After.pure rfl
  split
  · rename_i hcloses
    split
    · rename_i hzero
      rw [h (eq_of_beq hzero)] at hcloses
      cases hcloses
    · exact After.pure rfl
  · exact After.pure rfl

/-- An expression is taken with patience for three looks: every turn that goes on takes a token. -/
theorem skipExpressionFrom_spec (stop : Kind → Bool) (n depth : Nat) (before : Option Kind)
    (hs : Ready 3 s) (hn : left s < n) :
    After (skipExpressionFrom stop n depth before) s fun _ s' =>
      Run 3 3 s s' ∧ Quiet (grown s s') := by
  induction n generalizing s depth before with
  | zero => exact absurd hn (Nat.not_lt_zero _)
  | succ n ih =>
    unfold skipExpressionFrom
    refine (atEnd_spec s).bind ?_
    rintro e s1 ⟨hl1, hmore, -⟩
    cases e with
    | true => exact After.pure ⟨(hl1.run hs.toSound).mono (by decide) (by decide), hl1.quiet⟩
    | false =>
      refine (current_spec ((hl1.ready (m := 3) hs).weaken (by decide))).bind ?_
      rintro k s2 ⟨hl2, -⟩
      extract_lets goOn
      have stays : ∀ {m : Nat} {s3 : State}, m ≤ 3 → Looks m s s3 →
          Run 3 3 s s3 ∧ Quiet (grown s s3) := fun hm hl =>
        ⟨(hl.run hs.toSound).mono hm (Nat.zero_le _), hl.quiet⟩
      -- past the checks the token is taken, and the rest of the expression follows
      have key : ∀ s3, Looks 3 s s3 → (depth = 0 → closesBracket k = false) →
          After (goOn ⟨⟩) s3 fun _ s' => Run 3 3 s s' ∧ Quiet (grown s s') := by
        intro s3 hl3 hdepth
        have h3 := hl3.run hs.toSound
        refine (openBrackets_spec depth k hdepth).bind ?_
        rintro inner s3 rfl
        refine (bump_spec h3.sound).bind ?_
        rintro _ s4 ⟨h4, hbare, -⟩
        have hb : Bare s3 s4 := hbare (by
          rw [hl3.still.tokens_eq, hl3.still.cursor_eq]
          exact (hmore rfl).1)
        have h14 := h3.trans_moved h4 hb.cursor_lt
        have hb14 := h3.toWalk.trans_bare hb h4.toWalk
        have hdown := h14.left_lt hb14.cursor_lt
        refine (ih inner (some k) (h14.ready hs (by decide) (by decide)) (by omega)).mono ?_
        rintro _ s5 ⟨h5, hq5⟩
        exact ⟨(h14.trans h5).mono (by decide) (by decide),
          h14.toWalk.quiet_trans h5.toWalk hb14.quiet hq5⟩
      have hl12 := hl1.trans hl2
      split
      · split
        · exact After.pure (stays (by decide) hl12)
        rename_i hstop
        have hcloses : closesBracket k = false := by
          cases hc : closesBracket k with
          | false => rfl
          | true => exact absurd (by simp [hc]) hstop
        split
        · refine (lineBreakBefore_spec 0 s2).bind fun breaks s3 hl3 => ?_
          have hl13 := hl12.trans hl3
          cases breaks with
          | false => exact key s3 (hl13.mono (by decide)) fun _ => hcloses
          | true =>
            refine (continuesExpression_spec (hl13.ready hs)).bind fun carried s4 hl4 => ?_
            cases carried with
            | false => exact After.pure (stays (by decide) (hl13.trans hl4))
            | true => exact key s4 (hl13.trans hl4) fun _ => hcloses
        · exact key s2 (hl12.mono (by decide)) fun _ => hcloses
      · rename_i hdepth
        exact key s2 (hl12.mono (by decide)) fun h => absurd (beq_of_eq h) hdepth

theorem skipExpression_spec (stop : Kind → Bool) (hs : Ready 3 s) :
    After (skipExpression stop) s fun _ s' => Run 3 3 s s' ∧ Quiet (grown s s') := by
  unfold skipExpression
  refine After.get ?_
  refine (skipExpressionFrom_spec stop _ 0 none hs (Nat.lt_succ_of_le (Nat.sub_le _ _))).bind ?_
  intro last s1 h1
  exact After.pure h1

/-! ## Lists -/

/-- A member name takes a token wherever one can start. -/
theorem memberName_spec (hs : Ready 1 s) :
    After memberName s fun _ s' => Run 1 4 s s' ∧ Quiet (grown s s') ∧
      (startsMemberName (kindHere s) = true → Bare s s') := by
  unfold memberName
  refine (current_spec hs).bind ?_
  rintro k s1 ⟨hl1, rfl⟩
  have h1 := hl1.run hs.toSound
  split
  · rename_i hk
    have hne : kindHere s ≠ error := by rw [eq_of_beq hk]; decide
    have hc1 : cursor s1 < s1.tokens.size := cursor_lt_of_kind (by rw [hl1.still.kind_eq]; exact hne)
    refine (within_bump_bare (k := name) (n := 0) (i := 4) (b := 4) rfl ⟨h1.sound, Nat.zero_le _⟩ hc1
      fun s2 hs2 _ => ?_).bind ?_
    · refine (skipExpression_spec _ (hs2.weaken (by decide))).bind ?_
      rintro _ s3 ⟨h3, -⟩
      refine (expect_spec _ (by decide) (h3.ready hs2 (by decide) (by decide))).bind ?_
      rintro _ s4 ⟨h4, -⟩
      exact After.pure ((h3.trans h4).mono (by decide) (by decide))
    · rintro _ s2 ⟨h2, hbare⟩
      have hb := h1.toWalk.trans_bare hbare h2.toWalk
      exact After.pure ⟨(h1.trans_moved h2 hbare.cursor_lt).mono (by decide) (by decide), hb.quiet,
        fun _ => hb⟩
  split
  · rename_i hstarts
    have hne : kindHere s ≠ error := by
      intro he
      rw [he] at hstarts
      exact absurd hstarts (by decide)
    refine (bumpAs_looked (k := name) rfl hs.toSound hl1 hne).bind ?_
    rintro _ s2 ⟨h2, hbare⟩
    exact After.pure ⟨h2.mono (by decide) (by decide), hbare.quiet, fun _ => hbare⟩
  · rename_i hstarts
    refine (report_looked _ _ hs.toSound hl1).bind ?_
    rintro _ s2 ⟨h2, -, hrow⟩
    exact After.pure ⟨h2.mono (by decide) (by decide), quiet_of_row_eq hrow,
      fun h => absurd h hstarts⟩

/-- A parameter name or pattern. -/
theorem parameterName_spec (hs : Ready 2 s) :
    After parameterName s fun _ s' => Run 1 1 s s' ∧ Owns (grown s s') := by
  unfold parameterName
  refine (current_spec (hs.weaken (by decide))).bind ?_
  rintro k s1 ⟨hl1, rfl⟩
  have h1 := hl1.run hs.toSound
  split
  · rename_i hk
    have hne : kindHere s ≠ error := by
      intro he
      rw [he] at hk
      exact absurd hk (by decide)
    refine (bumpAs_looked (k := name) rfl hs.toSound hl1 hne).bind ?_
    rintro _ s2 ⟨h2, hbare⟩
    exact After.pure ⟨h2.mono (by decide) (by decide), hbare.quiet.owns⟩
  split
  · refine (within_owns (k := name) rfl (hl1.ready hs) fun s2 hs2 _ =>
      (skipBalanced_spec hs2).mono fun _ s3 h => ⟨h.1, h.2.owns⟩).bind ?_
    rintro _ s2 ⟨h2, ho2⟩
    exact After.pure ⟨(h1.trans h2).mono (by decide) (by decide),
      h1.toWalk.owns_trans h2.toWalk hl1.quiet.owns ho2⟩
  · refine (report_looked _ _ hs.toSound hl1).bind ?_
    rintro _ s2 ⟨h2, -, hrow⟩
    exact After.pure ⟨h2.mono (by decide) (by decide), (quiet_of_row_eq hrow).owns⟩

/-- A list of items, each a run that costs `(i, b)`. Whatever an item does, the list goes on only past
a comma. -/
theorem commaList_spec {close : Kind} {closeText : String} {item : Parse Bool} {i b : Nat}
    (hclose : close ≠ error) (hs : Ready (i + 5) s) (hb : max (i + 1) b + i + 8 ≤ fullPatience)
    (hitem : ∀ s1, left s1 ≤ left s → Ready i s1 → After item s1 fun _ s2 => Run i b s1 s2) :
    After (commaList close closeText item) s fun _ s' =>
      Run (i + 5) (max (i + 1) b + i + 8) s s' := by
  unfold commaList
  refine (repeatWhile_spec (i := i + 4) (b := max (i + 1) b + 3) (J := fun _ _ => True)
    (hs.weaken (m := i + 4) (by omega)) (by omega) trivial ?_).bind ?_
  · intro s1 h1 hs1 _
    refine (atEnd_spec s1).bind ?_
    rintro e s2 ⟨hl2, -⟩
    have stays : ∀ {m : Nat} {s3 : State}, m ≤ 1 → Looks m s1 s3 →
        Run (i + 4) (max (i + 1) b + 3) s1 s3 := fun hm hl =>
      (hl.run hs1.toSound).mono (by omega) (Nat.zero_le _)
    cases e with
    | true => exact After.pure ⟨stays (by decide) hl2, trivial, fun h => by cases h⟩
    | false =>
      have hs2 : Ready (i + 4) s2 := hl2.ready (by rw [Nat.zero_add]; exact hs1)
      refine (at_spec close (hs2.weaken (by omega))).bind ?_
      rintro closes s3 ⟨hl3, -⟩
      have hl13 := hl2.trans hl3
      cases closes with
      | true => exact After.pure ⟨stays (by decide) hl13, trivial, fun h => by cases h⟩
      | false =>
        have h3 := hl13.run hs1.toSound
        have hs3 : Ready (i + 3) s3 := h3.ready hs1 (by omega) (by omega)
        refine (hitem s3 (Nat.le_trans h3.left_le h1.left_le) (hs3.weaken (by omega))).bind ?_
        intro ok s4 h4
        have h14 := h3.trans h4
        have hs4 : Ready 3 s4 := h4.ready hs3 (by omega) (by omega)
        extract_lets next
        have key : ∀ {i' b' : Nat} {s5 : State}, i' ≤ 2 → b' ≤ 2 → Run i' b' s4 s5 →
            After (next ⟨⟩) s5 fun more s6 => Run (i + 4) (max (i + 1) b + 3) s1 s6 ∧ True ∧
              (more = true → cursor s1 < cursor s6) := by
          intro i' b' s5 hi' hb' h5
          have hs5 : Ready 1 s5 := h5.ready hs4 (by omega) (by omega)
          refine (eat_spec (k := comma) (by decide) hs5).mono ?_
          rintro more s6 ⟨h6, htake, -⟩
          refine ⟨((h14.trans h5).trans h6).mono (by omega) (by omega), trivial, fun hm => ?_⟩
          have hlt := (htake.taken hm).cursor_lt
          exact Nat.lt_of_le_of_lt (h14.trans h5).cursor_le hlt
        cases ok with
        | true => exact key (Nat.zero_le _) (Nat.zero_le _) (Run.refl h4.sound)
        | false =>
          refine (skipUntil_spec _ (hs4.weaken (by decide))).bind ?_
          rintro _ s5 ⟨h5, -⟩
          exact key (Nat.le_refl _) (Nat.le_refl _) h5
  · rintro _ s1 ⟨h1, -⟩
    refine (expect_spec closeText hclose (h1.ready hs (by omega) (by omega))).mono ?_
    rintro _ s2 ⟨h2, -⟩
    exact (h1.trans h2).mono (by omega) (by omega)

end DeclKit.Parser

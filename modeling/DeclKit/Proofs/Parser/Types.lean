/-
Types are runs.

From the tightest to the loosest binding every production is a run that costs a little more than the
one inside it, up to the production that counts the nesting, which gives back all the patience that it
was given. That production is a run by induction on its bound: each level takes a token before it asks
for a type further in.

A node that starts at a mark holds at least the operator that made it necessary, and that operator is
no part of its operands.
-/
import DeclKit.Parser.Types
import DeclKit.Proofs.Parser.Primary

set_option autoImplicit false

namespace DeclKit.Parser

open Kind
open DeclKit.Tree (tokensOfList bareAll hollowsAll CoversAll GoodAll Owns Quiet Proper)

section Types

variable {s : State} {type : Parse Bool} {n : Nat}

/-! ## Suffixes and prefixes -/

/-- Brackets are taken around everything since the mark, or nothing has happened. -/
theorem bracketSuffix_spec {start : State} {i b : Nat} (ht : Nests n type) (hstart : Sound start)
    (h0 : Run i b start s) (hs : Ready 1 s) (hn : left s ≤ n) :
    After (bracketSuffix type start.row.size) s fun more s' =>
      if more then Run 0 1 start s' ∧ cursor s < cursor s' else Looks 1 s s' := by
  unfold bracketSuffix
  refine (at_spec bracketOpen hs).bind ?_
  rintro yes s1 ⟨hl1, hyes⟩
  cases yes with
  | false => exact After.pure hl1
  | true =>
    refine (lineBreakBefore_spec 0 s1).bind fun breaks s2 hl2 => ?_
    have hl12 := hl1.trans hl2
    cases breaks with
    | true => exact After.pure hl12
    | false =>
      refine (peek_spec 1 s2).bind fun next s3 hl3 => ?_
      have hl13 := hl12.trans hl3
      have h3 := hl13.run h0.sound
      have h03 := h0.trans h3
      have hs3 : Ready 0 s3 := ⟨h3.sound, Nat.zero_le _⟩
      have hc3 : cursor s3 < s3.tokens.size := cursor_lt_of_kind (by
        rw [hl13.still.kind_eq, hyes.1 rfl]
        decide)
      -- the bracket is bare in the node, whatever stands behind it
      have wraps : ∀ {k : Kind} {p : Parse Unit}, k ≠ mappedTypeParam →
          (∀ s1, Ready fullPatience s1 → left s1 < left s → After p s1 fun _ s2 => Run 1 1 s1 s2) →
          After (withinFrom start.row.size k do bump; p) s3 fun _ s' =>
            Run 0 1 start s' ∧ cursor s < cursor s' := by
        intro k p hk inner
        refine (withinFrom_keyed (i := 0) (b := 1) hk hstart h03 hs3 fun s4 hs4 hst4 => ?_).mono
          fun _ s' h' => ⟨h'.1, by rw [← hl13.still.cursor_eq]; exact h'.2⟩
        refine bump_then (i := 1) (b := 1) hs4.toSound
          (by rw [hst4.tokens_eq, hst4.cursor_eq]; exact hc3) fun s5 hs5 hlt => inner s5 hs5 ?_
        rw [hst4.left_eq, hl13.still.left_eq] at hlt
        exact hlt
      split
      · refine (wraps (k := arrayType) (by decide) fun s4 hs4 _ => ?_).bind fun _ s4 h4 => h4
        exact (bump_spec hs4.toSound).mono fun _ _ h => h.1.mono (by decide) (by decide)
      · refine (wraps (k := indexedAccessType) (by decide) fun s4 hs4 hlt => ?_).bind fun _ s4 h4 => h4
        refine (allowingConditional_run (n := 1) (hs4.weaken (by decide)) fun s5 hs5 hst5 =>
          ht.run hs5.toSound (by rw [hst5.left_eq]; omega)).bind fun _ s5 h5 => ?_
        refine (expect_spec "]" (by decide) (h5.ready (m := 1) hs4 (by decide) (by decide))).bind ?_
        rintro _ s6 ⟨h6, -⟩
        exact After.pure ((h5.trans h6).mono (by decide) (by decide))

theorem postfixType_spec (ht : Nests n type) (hs : Ready 14 s) (hn : left s ≤ n) :
    After (postfixType type) s fun _ s' => Run 5 45 s s' ∧ Rests s s' := by
  unfold postfixType
  refine (mark_spec hs.toSound).bind ?_
  rintro start s1 ⟨h1, hst1, hq1, rfl⟩
  have hs1 : Ready 14 s1 := h1.ready hs (by decide) (by decide)
  have hn1 : left s1 ≤ n := by rw [hst1.left_eq]; exact hn
  have seen : ∀ {s' : State}, Run 5 45 s1 s' → Rests s1 s' → Run 5 45 s s' ∧ Rests s s' := by
    intro s' h' hrest
    exact ⟨(h1.trans h').mono (by decide) (by decide),
      Rests.after h1 hst1.cursor_eq hq1.owns h' hrest⟩
  refine (primaryType_spec ht (hs1.weaken (by decide)) hn1).bind ?_
  rintro ok s2 ⟨h2, hrest2⟩
  cases ok with
  | false => exact After.pure (seen (h2.mono (by decide) (by decide)) hrest2)
  | true =>
    -- each suffix wraps what there is since the mark, so the loop is followed from there
    have hloop : After (repeatWhile (bracketSuffix type s1.row.size)) s2 fun _ s' =>
        Run 5 45 s1 s' ∧ Rests s1 s' := by
      unfold repeatWhile
      refine After.get ?_
      refine iterate_spec (I := fun m s3 => Run 4 44 s1 s3 ∧ Rests s1 s3 ∧ left s3 < m)
        (fun _ h => Nat.not_lt_zero _ h.2.2) ?_ _ ⟨h2, hrest2, Nat.lt_succ_of_le (Nat.sub_le _ _)⟩
      rintro m s3 ⟨h3, hrest3, hm⟩
      have hs3 : Ready 1 s3 := h3.ready hs1 (by decide) (by decide)
      refine (bracketSuffix_spec ht h1.sound h3 hs3 (Nat.le_trans h3.left_le hn1)).mono ?_
      intro more s4 h4
      cases more with
      | true =>
        obtain ⟨h14, hlt⟩ := h4
        -- a suffix takes its bracket, so the tokens left bound the loop
        have hsize := cursor_le_size h14.sound.pos_le
        have hdown : left s4 < left s3 := by
          rw [h14.tokens_eq] at hsize
          rw [left, left, h14.tokens_eq, h3.tokens_eq]
          omega
        refine ⟨h14.mono (by decide) (by decide), fun hend => ?_, by omega⟩
        have hc := h3.cursor_le
        rw [h14.tokens_eq] at hsize
        omega
      | false =>
        have h34 := Looks.run h4 h3.sound
        exact ⟨(h3.trans h34).mono (by decide) (by decide), hrest3.look h3 h4⟩
    refine hloop.bind ?_
    rintro _ s3 ⟨h3, hrest3⟩
    exact After.pure (seen h3 hrest3)

/-- Each prefix operator takes a token, so the tokens are bound enough. -/
theorem operatorType_spec (ht : Nests n type) (m : Nat) (hs : Ready 15 s) (hn : left s ≤ n)
    (hm : left s < m) :
    After (operatorType type m) s fun _ s' => Run 6 46 s s' ∧ Rests s s' := by
  induction m generalizing s with
  | zero => exact absurd hm (Nat.not_lt_zero _)
  | succ m ih =>
    unfold operatorType
    refine (current_spec (hs.weaken (by decide))).bind ?_
    rintro k s1 ⟨hl1, rfl⟩
    have postfixed : ∀ s2, Looks 1 s s2 → After (postfixType type) s2 fun _ s' =>
        Run 6 46 s s' ∧ Rests s s' := by
      intro s2 hl2
      have h2 := hl2.run hs.toSound
      refine (postfixType_spec ht (h2.ready hs (by decide) (by decide))
        (Nat.le_trans h2.left_le hn)).mono ?_
      rintro _ s3 ⟨h3, hrest3⟩
      exact ⟨(h2.trans h3).mono (by decide) (by decide),
        Rests.after h2 hl2.still.cursor_eq hl2.quiet.owns h3 hrest3⟩
    split
    · rename_i hk
      have hne : kindHere s ≠ error := by rw [eq_of_beq hk]; decide
      refine (currentText_spec s1).bind fun text s2 hl2 => ?_
      refine (peek_spec 1 s2).bind fun next s3 hl3 => ?_
      have hl13 := (hl1.trans hl2).trans hl3
      have h3 := hl13.run hs.toSound
      have hs3 : Ready 14 s3 := hl13.ready hs
      have hc3 : cursor s3 < s3.tokens.size := cursor_lt_of_kind (by
        rw [hl13.still.kind_eq]
        exact hne)
      have taken : ∀ {b : Nat} {s' : State}, b ≤ 46 → Run 0 b s3 s' →
          Run 6 46 s s' ∧ Rests s s' := fun hb h' =>
        ⟨(h3.trans h').mono (by decide) (by omega), rests_of_lt (cursor_lt_of_kind hne)⟩
      split
      · refine (within_bump_keyed (k := typeOperator) (i := 6) (b := 46) (by decide) hs3 hc3
          fun s4 hs4 hlt => ?_).bind fun _ s4 h4 => After.pure (taken (by decide) h4)
        rw [hl13.still.left_eq] at hlt
        refine (ih (hs4.weaken (by decide)) (by omega) (by omega)).bind ?_
        rintro _ s5 ⟨h5, -⟩
        exact After.pure h5
      split
      · refine (within_bump_keyed (k := inferType) (i := 1) (b := 0) (by decide) hs3 hc3
          fun s4 hs4 _ => ?_).bind fun _ s4 h4 => After.pure (taken (by decide) h4)
        refine (within_spec (k := Kind.typeParam) (n := 1) (i := 1) (b := 0) (R := fun _ _ _ => True)
          (by decide) (hs4.weaken (by decide)) fun s5 hs5 _ => ?_).mono fun _ _ h => h.1
        refine (bindingName_spec hs5).bind ?_
        rintro _ s6 ⟨h6, hq6⟩
        exact After.pure ⟨h6, proper_of_quiet hq6, trivial⟩
      · exact postfixed s3 hl13
    · exact postfixed s1 hl1

/-! ## Binary operators -/

/-- Behind an operator operands go on past an operator each, the first of which is there. -/
theorem moreOperands_spec {op : Kind} {operand : Parse Bool} {r i b : Nat} (hop : op ≠ error)
    (hs : Ready 1 s) (hk : kindHere s = op) (hr : r ≤ fullPatience)
    (hb : max i b + 1 ≤ fullPatience)
    (hoperand : ∀ s1, left s1 < left s → Ready r s1 → After operand s1 fun _ s2 => Run i b s1 s2) :
    After (moreOperands op operand) s fun _ s' => Run 0 (max i b + 1) s s' ∧ Bare s s' := by
  unfold moreOperands
  refine (repeatWhile_spec (i := 1) (b := max i b) (J := fun more s1 =>
    Bare s s1 ∨ more = true ∧ Still s s1) hs hb (.inr ⟨rfl, Still.refl s⟩) ?_).mono ?_
  · rintro s1 h1 hs1 hmv1
    refine (eat_spec hop hs1).bind ?_
    rintro ok s2 ⟨h2, htake, hiff⟩
    cases ok with
    | false =>
      refine After.pure ⟨h2.mono (Nat.le_refl 1) (Nat.zero_le _), .inl ?_, fun h => by cases h⟩
      rcases hmv1 with hb1 | ⟨-, hst1⟩
      · exact hb1.trans_walk h1.toWalk h2.toWalk
      · exact absurd (hiff.2 (hst1.kind_eq.trans hk)) (by decide)
    | true =>
      have hb2 := htake.taken rfl
      have hlt : left s2 < left s := Nat.lt_of_lt_of_le (h2.left_lt hb2.cursor_lt) h1.left_le
      refine (hoperand s2 hlt (h2.ready_moved hb2.cursor_lt (by omega))).mono ?_
      intro more s3 h3
      have h13 := (h2.moving hb2.cursor_lt).trans h3
      have hb3 := hb2.trans_walk h2.toWalk h3.toWalk
      exact ⟨(h13.moving hb3.cursor_lt).mono (Nat.zero_le _) (by omega),
        .inl (h1.toWalk.trans_bare hb3 (h2.trans h3).toWalk), fun _ => hb3.cursor_lt⟩
  · rintro _ s' ⟨h', hb'⟩
    rcases hb' with hb' | ⟨h, -⟩
    · exact ⟨h'.moving hb'.cursor_lt, hb'⟩
    · cases h

/-- What stands behind an operator that comes first. -/
theorem leadOperands_spec {op : Kind} {operand : Parse Bool} {r i b : Nat} (hop : op ≠ error)
    (hs : Ready (r + i + 2) s) (hfull : r + max i b + 2 ≤ fullPatience)
    (hoperand : ∀ s1, left s1 ≤ left s → Ready r s1 → After operand s1 fun _ s2 => Run i b s1 s2) :
    After (do if ← operand then whenAt op (moreOperands op operand)) s fun _ s' =>
      Run (i + 1) (max i b + 2) s s' := by
  refine (hoperand s (Nat.le_refl _) (hs.weaken (by omega))).bind fun ok s1 h1 => ?_
  cases ok with
  | false => exact After.pure (h1.mono (by omega) (by omega))
  | true =>
    refine whenAt_spec (h1.ready hs (by omega) (by omega)) ?_ ?_
    · intro s2 hl2 _
      exact (h1.trans (hl2.run h1.sound)).mono (by omega) (by omega)
    · intro s2 hl2 hk
      have h12 := h1.trans (hl2.run h1.sound)
      have hdown : left s2 ≤ left s := h12.left_le
      refine (moreOperands_spec (r := r) (i := i) (b := b) hop (h12.ready hs (by omega) (by omega))
        (hl2.still.kind_eq.trans hk) (by omega) (by omega) fun s3 hlt hs3 =>
          hoperand s3 (by omega) hs3).mono ?_
      rintro _ s3 ⟨h3, -⟩
      exact (h12.trans h3).mono (by omega) (by omega)

/-- What the operators behind an operand make of everything since the mark. -/
theorem joinOperands_spec {op node : Kind} {operand : Parse Bool} {start : State} {r i b : Nat}
    (hop : op ≠ error) (hnode : node ≠ mappedTypeParam) (hstart : Sound start)
    (h0 : Run (i + 1) (max i b + 2) start s) (hrest0 : Rests start s) (hs : Ready 2 s)
    (hr : r ≤ fullPatience) (hfull : max i b + 1 ≤ fullPatience)
    (hoperand : ∀ s1, left s1 < left s → Ready r s1 → After operand s1 fun _ s2 => Run i b s1 s2) :
    After (whenAt op (withinFrom start.row.size node (moreOperands op operand))) s fun _ s' =>
      Run (i + 2) (max i b + 3) start s' ∧ Rests start s' := by
  refine whenAt_spec (hs.weaken (by decide)) ?_ ?_
  · intro s1 hl1 _
    exact ⟨(h0.trans (hl1.run h0.sound)).mono (by omega) (by omega), hrest0.look h0 hl1⟩
  · intro s1 hl1 hk
    have h1 := h0.trans (hl1.run h0.sound)
    have hk1 : kindHere s1 = op := hl1.still.kind_eq.trans hk
    have hs1 : Ready 1 s1 := hl1.ready hs
    -- there is an operator, so the start was not the end of the text
    have hc : cursor start < start.tokens.size := by
      have hc1 := cursor_lt_of_kind (s := s1) (by rw [hk1]; exact hop)
      have hle := h1.cursor_le
      rw [h1.tokens_eq] at hc1
      omega
    refine (withinFrom_keyed (i := 0) (b := max i b + 1) hnode hstart h1 hs1
      fun s2 hs2 hst2 => ?_).mono fun _ s2 h2 => ⟨h2.1.mono (by omega) (by omega), rests_of_lt hc⟩
    refine moreOperands_spec hop hs2 (hst2.kind_eq.trans hk1) hr hfull fun s3 hlt hs3 => ?_
    rw [hst2.left_eq, hl1.still.left_eq] at hlt
    exact hoperand s3 hlt hs3

/-- Operands joined by an operator cost a little more than one operand, which is all that is there
without an operator. -/
theorem binaryType_spec {op node : Kind} {operand : Parse Bool} {r i b : Nat} (hop : op ≠ error)
    (hnode : node ≠ mappedTypeParam) (hs : Ready (r + 1) s) (hr : i + 2 ≤ r)
    (hfull : r + max i b + 3 ≤ fullPatience)
    (hoperand : ∀ s1, left s1 ≤ left s → Ready r s1 → After operand s1 fun _ s2 =>
      Run i b s1 s2 ∧ Rests s1 s2) :
    After (binaryType op node operand) s fun _ s' => Run (i + 2) (max i b + 3) s s' ∧ Rests s s' := by
  unfold binaryType
  refine (mark_spec hs.toSound).bind ?_
  rintro start s1 ⟨h1, hst1, hq1, rfl⟩
  have hs1 : Ready (r + 1) s1 := h1.ready hs (by omega) (by omega)
  refine (at_spec op (hs1.weaken (by omega))).bind ?_
  rintro yes s2 ⟨hl2, hyes⟩
  have h12 := hl2.run h1.sound
  have hst2 := hst1.trans hl2.still
  have hs2 : Ready r s2 := h12.ready hs1 (by omega) (by omega)
  have plain : ∀ s', left s' ≤ left s → Ready r s' → After operand s' fun _ s'' => Run i b s' s'' :=
    fun s' hle hs' => (hoperand s' hle hs').mono fun _ _ h => h.1
  cases yes with
  | true =>
    have hk2 : kindHere s2 ≠ error := by
      rw [hl2.still.kind_eq, hyes.1 rfl]
      exact hop
    have hc : cursor s < s.tokens.size := by
      rw [← hst2.tokens_eq, ← hst2.cursor_eq]
      exact cursor_lt_of_kind hk2
    refine (within_bump_keyed (i := i + 1) (b := max i b + 2) hnode hs2 (cursor_lt_of_kind hk2)
      fun s3 hs3 hlt => ?_).bind fun _ s3 h3 => ?_
    · rw [hst2.left_eq] at hlt
      exact leadOperands_spec hop (hs3.weaken (by omega)) (by omega) fun s4 hle hs4 =>
        plain s4 (by omega) hs4
    · exact After.pure ⟨((h1.trans h12).trans h3).mono (by omega) (by omega), rests_of_lt hc⟩
  | false =>
    refine (hoperand s2 (Nat.le_of_eq hst2.left_eq) hs2).bind ?_
    rintro ok s3 ⟨h3, hrest3⟩
    have h13 := h12.trans h3
    have hrest13 : Rests s1 s3 := Rests.after h12 hl2.still.cursor_eq hl2.quiet.owns h3 hrest3
    have seen : ∀ {s' : State}, Run (i + 2) (max i b + 3) s1 s' → Rests s1 s' →
        Run (i + 2) (max i b + 3) s s' ∧ Rests s s' := fun h' hrest' =>
      ⟨(h1.trans h').mono (by omega) (by omega), Rests.after h1 hst1.cursor_eq hq1.owns h' hrest'⟩
    cases ok with
    | false => exact After.pure (seen (h13.mono (by omega) (by omega)) hrest13)
    | true =>
      have hle : left s3 ≤ left s := (h1.trans h13).left_le
      refine (joinOperands_spec (r := r) (i := i) (b := b) hop hnode h1.sound
        (h13.mono (by omega) (by omega)) hrest13 (h3.ready hs2 (by omega) (by omega)) (by omega)
        (by omega) fun s4 hlt hs4 => plain s4 (by omega) hs4).bind ?_
      rintro _ s' ⟨h', hrest'⟩
      exact After.pure (seen h' hrest')

theorem intersection_spec (ht : Nests n type) (hs : Ready 16 s) (hn : left s ≤ n) :
    After (intersection type) s fun _ s' => Run 8 49 s s' ∧ Rests s s' := by
  unfold intersection
  refine After.get ?_
  refine binaryType_spec (r := 15) (i := 6) (b := 46) (by decide) (by decide) hs (by decide)
    (by decide) fun s1 hle hs1 => ?_
  exact operatorType_spec ht _ hs1 (Nat.le_trans hle hn)
    (Nat.lt_succ_of_le (Nat.le_trans hle (Nat.sub_le _ _)))

theorem union_spec (ht : Nests n type) (hs : Ready 17 s) (hn : left s ≤ n) :
    After (union type) s fun _ s' => Run 10 52 s s' ∧ Rests s s' := by
  unfold union
  exact binaryType_spec (r := 16) (i := 8) (b := 49) (by decide) (by decide) hs (by decide)
    (by decide) fun s1 hle hs1 => intersection_spec ht hs1 (Nat.le_trans hle hn)

/-! ## Conditional types -/

theorem Alike.of_inExtends (s : State) (b : Bool) : Alike s { s with inExtends := b } :=
  ⟨⟨⟨rfl, rfl, rfl⟩, rfl, rfl⟩, rfl, rfl, rfl, rfl, rfl⟩

theorem conditionalRest_spec (ht : Nests n type) (hs : Ready 0 s) (hc : cursor s < s.tokens.size)
    (hn : left s ≤ n) : After (conditionalRest type) s fun _ s' => Run 0 2 s s' ∧ Bare s s' := by
  unfold conditionalRest
  refine bump_then (i := 2) (b := 2) hs.toSound hc fun s1 hs1 hlt => ?_
  have hn1 : left s1 < n := Nat.lt_of_lt_of_le hlt hn
  refine After.modify ?_
  have ha1 := Alike.of_inExtends s1 true
  refine (ht.run (ha1.sound hs1.toSound) (by rw [ha1.left_eq]; exact hn1)).bind fun _ s2 h2 => ?_
  refine After.modify ?_
  have h3 := ha1.run h2 (Alike.of_inExtends s2 false)
  refine (expect_spec "?" (by decide) (h3.ready (m := 1) hs1 (by decide) (by decide))).bind ?_
  rintro _ s4 ⟨h4, -⟩
  have h14 := h3.trans h4
  refine (ht.run h4.sound (Nat.lt_of_le_of_lt h14.left_le hn1)).bind fun _ s5 h5 => ?_
  have h15 := h14.trans h5
  refine (expect_spec ":" (by decide) (h15.ready (m := 1) hs1 (by decide) (by decide))).bind ?_
  rintro _ s6 ⟨h6, -⟩
  have h16 := h15.trans h6
  refine (ht.run h6.sound (Nat.lt_of_le_of_lt h16.left_le hn1)).bind fun _ s7 h7 => ?_
  exact After.pure ((h16.trans h7).mono (by decide) (by decide))

theorem conditionalOrUnion_spec (ht : Nests n type) (hs : Ready 17 s) (hn : left s ≤ n) :
    After (conditionalOrUnion type) s fun _ s' => Run 11 53 s s' ∧ Rests s s' := by
  unfold conditionalOrUnion
  refine (mark_spec hs.toSound).bind ?_
  rintro start s1 ⟨h1, hst1, hq1, rfl⟩
  have hs1 : Ready 17 s1 := h1.ready hs (by decide) (by decide)
  refine (union_spec ht hs1 (by rw [hst1.left_eq]; exact hn)).bind ?_
  rintro ok s2 ⟨h2, hrest2⟩
  have h12 := h1.trans h2
  have hrest : Rests s s2 := Rests.after h1 hst1.cursor_eq hq1.owns h2 hrest2
  have plain : Run 11 53 s s2 ∧ Rests s s2 := ⟨h12.mono (by decide) (by decide), hrest⟩
  have looked : ∀ {m : Nat} {s3 : State}, m ≤ 1 → Looks m s2 s3 → Run 11 53 s s3 ∧ Rests s s3 := by
    intro m s3 hm hl
    have h3 := hl.run h2.sound
    exact ⟨(h12.trans h3).mono (by omega) (by omega), hrest.look h12 hl⟩
  cases ok with
  | false => exact After.pure plain
  | true =>
    refine After.get ?_
    split
    · exact After.pure plain
    · refine (whenAt_spec (Q := fun s' => Run 11 53 s s' ∧ Rests s s')
        (h2.ready hs1 (by decide) (by decide)) ?_ ?_).bind fun _ _ h => After.pure h
      · intro s3 hl3 _
        exact looked (Nat.le_refl 1) hl3
      · intro s3 hl3 hk
        refine (lineBreakBefore_spec 0 s3).bind fun breaks s4 hl4 => ?_
        have hl24 := hl3.trans hl4
        have h4 := hl24.run h2.sound
        cases breaks with
        | true => exact After.pure (looked (by decide) hl24)
        | false =>
          have h14 := h12.trans h4
          have hc4 : cursor s4 < s4.tokens.size := cursor_lt_of_kind (by
            rw [hl24.still.kind_eq, hk]
            decide)
          refine (withinFrom_keyed (k := conditionalType) (n := 0) (i := 0) (b := 2) (by decide)
            h1.sound (h2.trans h4) ⟨h4.sound, Nat.zero_le _⟩ fun s5 hs5 hst5 => ?_).mono ?_
          · refine conditionalRest_spec ht hs5 (by rw [hst5.tokens_eq, hst5.cursor_eq]; exact hc4) ?_
            rw [hst5.left_eq]
            exact Nat.le_trans h14.left_le hn
          · rintro _ s5 ⟨h5, -⟩
            refine ⟨(h1.trans h5).mono (by decide) (by decide), rests_of_lt ?_⟩
            have hle := h14.cursor_le
            rw [h14.tokens_eq] at hc4
            omega

/-! ## Nesting -/

theorem typeHere_spec (ht : Nests n type) (hs : Ready 20 s) (hn : left s ≤ n) :
    After (typeHere type) s fun _ s' => Run 14 56 s s' ∧ Rests s s' := by
  unfold typeHere
  have taken : ∀ {m b : Nat} {s1 s' : State}, m ≤ 3 → b ≤ 56 → kindHere s ≠ error →
      Looks m s s1 → Run 0 b s1 s' → Run 14 56 s s' ∧ Rests s s' := fun hm hb hk hl h' =>
    ⟨((hl.run hs.toSound).trans h').mono (by omega) (by omega), rests_of_lt (cursor_lt_of_kind hk)⟩
  refine (atFunctionType_spec (hs.weaken (by decide))).bind ?_
  rintro function s1 ⟨hl1, hfunction⟩
  have hs1 : Ready 19 s1 := hl1.ready hs
  have hn1 : left s1 ≤ n := by rw [hl1.still.left_eq]; exact hn
  cases function with
  | true =>
    have hk := hfunction rfl
    have hne : kindHere s ≠ error := by rcases hk with hk | hk <;> rw [hk] <;> decide
    refine (functionType_spec ht (hs1.weaken (by decide)) hn1
      (by rw [hl1.still.kind_eq]; exact hk)).bind fun _ s2 h2 => ?_
    exact After.pure (taken (by decide) (by decide) hne hl1 h2)
  | false =>
    refine (atConstructorType_spec (hs1.weaken (by decide))).bind ?_
    rintro constructor s2 ⟨hl2, hconstructor⟩
    have hl12 := hl1.trans hl2
    have hs2 : Ready 17 s2 := hl2.ready hs1
    have hn2 : left s2 ≤ n := by rw [hl12.still.left_eq]; exact hn
    cases constructor with
    | true =>
      have hne := hconstructor rfl
      refine (constructorType_spec ht (hs2.weaken (by decide)) hn2
        (by rw [hl2.still.kind_eq]; exact hne)).bind fun _ s3 h3 => ?_
      exact After.pure (taken (by decide) (by decide) (by rw [← hl1.still.kind_eq]; exact hne) hl12 h3)
    | false =>
      have h2 := hl12.run hs.toSound
      refine (conditionalOrUnion_spec ht hs2 hn2).mono ?_
      rintro _ s3 ⟨h3, hrest3⟩
      exact ⟨(h2.trans h3).mono (by decide) (by decide),
        Rests.after h2 hl12.still.cursor_eq hl12.quiet.owns h3 hrest3⟩

/-- One level further out fewer than one token more may be left, and the patience spent is given
back. -/
theorem Nests.typeWith (ht : Nests n type) : Nests (n + 1) (typeWith type) := by
  intro s hs hn
  unfold Parser.typeWith
  refine (enter_spec hs).bind ?_
  rintro ok s1 ⟨h1, hc1, hrow1, hready, -⟩
  cases ok with
  | false => exact After.pure ⟨h1, fun _ => (quiet_of_row_eq hrow1).owns⟩
  | true =>
    have hn1 : left s1 ≤ n := by
      rw [left, h1.tokens_eq, hc1]
      exact Nat.le_of_lt_succ hn
    refine (typeHere_spec ht ((hready rfl).weaken (by decide)) hn1).bind ?_
    rintro parsed s2 ⟨h2, hrest2⟩
    have h12 := h1.trans h2
    refine (leave_spec h12 hs).bind ?_
    rintro _ s3 ⟨h3, -, hrow3, -⟩
    have hrest : Rests s s2 := Rests.after h1 hc1 (quiet_of_row_eq hrow1).owns h2 hrest2
    have hgrown : grown s s3 = grown s s2 := by rw [grown, hrow3, grown]
    refine After.pure ⟨h3, ?_⟩
    rw [Rests, hgrown]
    exact hrest

/-- A bound on the nesting is enough where fewer tokens than that are left. -/
theorem nests_typeAt (n : Nat) : Nests n (typeAt n) := by
  induction n with
  | zero => exact fun s _ hn => absurd hn (Nat.not_lt_zero _)
  | succ n ih => exact ih.typeWith

theorem nests_type (n : Nat) : Nests n Parser.type := by
  intro s hs _
  unfold Parser.type
  exact After.get (nests_typeAt _ s hs (Nat.lt_succ_of_le (Nat.sub_le _ _)))

end Types

end DeclKit.Parser

/-
Building nodes, reporting, repeating: the steps from which the productions are made.

A step inside a node runs on the same row, behind the place where the node starts. When the node is
closed the elements from that place on become its parts, so what the step has added to the row is what
the node holds. The two ways to open a node differ only in that place.
-/
import DeclKit.Proofs.Parser.Run

set_option autoImplicit false

namespace DeclKit.Parser

open Kind
open DeclKit.Tree (tokensOfList bareAll hollowsAll CoversAll GoodAll Owns Quiet Proper)

/-! ## Nodes -/

theorem proper_of_not_keyed {k : Kind} {cs : List Tree} (h : k.isKeyed = false) : Proper k cs := by
  intro hk
  rw [h] at hk
  cases hk

theorem proper_of_owns {k : Kind} {cs : List Tree} (h : Owns cs) (hk : k ≠ .typeParam) :
    Proper k cs :=
  fun _ => ⟨h, fun h => absurd h hk⟩

theorem proper_of_quiet {k : Kind} {cs : List Tree} (h : Quiet cs) : Proper k cs :=
  fun _ => ⟨h.owns, fun _ => h⟩

section Nodes

variable {α : Type} {s s' : State} {n i b : Nat} {k : Kind}

/-- Nothing has been taken and no patience been used. -/
structure Beside (s s' : State) : Prop extends Still s s' where
  patience_eq : s'.patience = s.patience
  pos_eq : s'.pos = s.pos

/-- No token has been placed either. -/
structure Poised (s s' : State) : Prop extends Beside s s' where
  placed_eq : s'.placed = s.placed

/-- The state after the innermost node has been closed by the step that opened it. -/
theorem closeNode_spec {m : Nat} {outer : List (Kind × Nat)} (hs : Sound s)
    (ho : s.opened = (k, m) :: outer) (hm : m ≤ s.row.size)
    (hin : ∀ k' m', outer.head? = some (k', m') → m' ≤ m) (hproper : Proper k (s.row.toList.drop m)) :
    After (closeNode (outer.length + 1)) s fun _ s' => Sound s' ∧ Poised s s' ∧ s'.opened = outer ∧
      s'.row.toList = s.row.toList.take m ++ [nodeOf k (s.row.toList.drop m) (placedStop s)] := by
  have hcount : (s.opened.length != outer.length + 1) = false := by
    rw [ho]
    simp
  have hparts : (s.row.extract m s.row.size).toList = s.row.toList.drop m := by
    rw [Array.toList_extract, List.extract_eq_take_drop, ← Array.length_toList]
    exact List.take_of_length_le (by simp)
  have hshrink : ((s.row.shrink m).push (nodeOf k (s.row.toList.drop m) (placedStop s))).toList
      = s.row.toList.take m ++ [nodeOf k (s.row.toList.drop m) (placedStop s)] := by
    simp
  have hcut : s.row.toList = s.row.toList.take m ++ s.row.toList.drop m :=
    (List.take_append_drop m _).symm
  unfold closeNode
  refine After.get ?_
  simp only [hcount, Bool.false_eq_true, if_false]
  show Sound s.closed ∧ Poised s s.closed ∧ s.closed.opened = outer ∧ s.closed.row.toList = _
  have hend : s.closed = { s with
      opened := outer
      row := (s.row.shrink m).push (nodeOf k (s.row.toList.drop m) (placedStop s)) } := by
    rw [State.closed, ho, ← hparts]
  rw [hend]
  -- what the row covers splits where the node starts, and the node takes over the second part
  have hold := hs.covered
  rw [hcut, Tree.coversAll_append] at hold
  obtain ⟨c, hc1, hc2⟩ := hold
  have hgood := hs.good
  rw [hcut, Tree.goodAll_append] at hgood
  refine ⟨⟨hs.placed_le, hs.pos_le, hs.no_fault, hs.patience_le, hs.tiled, ?_, ?_, ?_, ?_⟩,
    ⟨⟨⟨rfl, rfl, rfl⟩, rfl, rfl⟩, rfl⟩, rfl, hshrink⟩
  · rw [hshrink, Tree.tokensOfList_append]
    have hleaves := hs.leaves
    rw [hcut, Tree.tokensOfList_append] at hleaves
    rw [← hleaves]
    simp [tokensOfList, nodeOf, Tree.tokens]
  · rw [hshrink, Tree.coversAll_append]
    exact ⟨c, hc1, placedStop s, Tree.covers_nodeOf hc2, rfl⟩
  · rw [hshrink, Tree.goodAll_append]
    exact ⟨hgood.1, ⟨hproper, hgood.2⟩, trivial⟩
  · intro k' m' hk'
    have hle := hin k' m' hk'
    have hsize : ((s.row.shrink m).push (nodeOf k (s.row.toList.drop m) (placedStop s))).size
        = m + 1 := by
      rw [Array.size_push, Array.size_shrink, Nat.min_eq_left hm]
    exact Nat.le_trans hle (by rw [hsize]; exact Nat.le_succ m)

/-- What has been added between two states is a node of a kind with given parts, after the tokens
that have been waiting. -/
structure Closes (k : Kind) (parts : List Tree) (s s' : State) : Prop where
  grown_eq : ∃ (lead : List Token) (a b : Nat),
    grown s s' = lead.map .token ++ [.node k a b parts] ∧ (s.placed = s.pos → lead = [])

theorem Closes.bare {parts : List Tree} (h : Closes k parts s s') (hk : k.isKeyed = false)
    (hp : bareAll parts ≠ []) : bareAll (grown s s') ≠ [] := by
  obtain ⟨lead, a, c, hg, -⟩ := h.grown_eq
  rw [hg, Tree.bareAll_append]
  simp [bareAll, Tree.bare, hk, hp]

theorem Closes.owns {parts : List Tree} (h : Closes k parts s s') (hk : k.isKeyed = false)
    (hp : Owns parts) : Owns (grown s s') := by
  obtain ⟨lead, a, c, hg, -⟩ := h.grown_eq
  rw [hg]
  refine Owns.append (Tree.quiet_token lead).owns ?_
  rcases hp with hp | hp
  · exact .inl (by simp [tokensOfList, Tree.tokens, hp])
  · exact .inr (by simp [bareAll, Tree.bare, hk, hp])

theorem Closes.hollows_eq {parts : List Tree} (h : Closes k parts s s') :
    hollowsAll (grown s s')
      = (if k = .mappedTypeParam ∧ tokensOfList parts = [] then 1 else 0) + hollowsAll parts := by
  obtain ⟨lead, a, c, hg, -⟩ := h.grown_eq
  rw [hg, Tree.hollowsAll_append, Tree.hollowsAll_token]
  simp [hollowsAll, Tree.hollows]

theorem Beside.moves {s1 s2 : State} (h : Beside s s1) (hm : Moves i b s1 s2) (h' : Beside s2 s') :
    Moves i b s s' where
  tokens_eq := h'.tokens_eq.trans (hm.tokens_eq.trans h.tokens_eq)
  pos_mono := by
    rw [h'.pos_eq, ← h.pos_eq]
    exact hm.pos_mono
  cursor_le := by
    rw [h'.cursor_eq, ← h.cursor_eq]
    exact hm.cursor_le
  failure_some := by
    rw [h'.failure_eq, ← h.failure_eq]
    exact hm.failure_some
  failure_limit := by
    rw [h'.failure_eq, ← h.failure_eq]
    exact hm.failure_limit
  calm := by
    rw [h'.cursor_eq, ← h.cursor_eq, h'.patience_eq, ← h.patience_eq]
    exact hm.calm
  moved := by
    rw [h'.cursor_eq, ← h.cursor_eq, h'.patience_eq]
    exact hm.moved

/-- A node is open that starts where the row of an earlier state ends. -/
structure OpenedAt (k : Kind) (base s1 : State) : Prop where
  sound : Sound s1
  base_sound : Sound base
  opened_eq : s1.opened = (k, base.row.size) :: base.opened
  row_le : base.row.toList <+: s1.row.toList

theorem openNode_spec (hs : Sound s) :
    After (openNode k) s fun count s1 => ∃ base, count = base.opened.length + 1 ∧ Run 0 0 s base ∧
      (∃ lead : List Token, grown s base = lead.map .token ∧ (s.placed = s.pos → lead = [])) ∧
      OpenedAt k base s1 ∧
      s1.row = base.row ∧ Beside s s1 ∧ base.placed = base.pos := by
  unfold openNode
  refine (placeTrivia_spec hs).bind ?_
  rintro _ s0 ⟨h0, hst, hpl, hpos, hpat, hgrown⟩
  have hs0 := h0.sound
  have hlead : s.placed = s.pos → (s.tokens.toList.take s.pos).drop s.placed = [] := by
    intro h
    rw [h]
    exact List.drop_eq_nil_of_le (List.length_take_le _ _)
  refine After.modify (After.get (After.pure ⟨s0, rfl, h0, ⟨_, hgrown, hlead⟩, ?_, rfl, ?_, ?_⟩))
  · exact ⟨⟨hs0.placed_le, hs0.pos_le, hs0.no_fault, hs0.patience_le, hs0.tiled, hs0.leaves,
      hs0.covered, hs0.good, fun k' m' h => by cases h; exact Nat.le_refl _⟩, hs0, rfl,
      List.prefix_refl _⟩
  · exact ⟨hst.trans ⟨rfl, rfl, rfl⟩, hpat, hpos⟩
  · exact hpl.trans hpos.symm

theorem openAt_spec {base : State} {i0 b0 : Nat} (hbase : Sound base) (h0 : Walk i0 b0 base s) :
    After (openAt base.row.size k) s fun count s1 => count = base.opened.length + 1 ∧
      OpenedAt k base s1 ∧ s1.row = s.row ∧ Beside s s1 := by
  have hsize : base.row.size ≤ s.row.size := by
    rw [← Array.length_toList, ← Array.length_toList]
    exact h0.row_le.length_le
  have hfresh : (decide (s.row.size < base.row.size)
      || (s.opened.head?.map (·.2)).any (base.row.size < ·)) = false := by
    -- the open nodes are those of the mark, and none of them starts behind it
    rw [h0.opened_eq, Bool.or_eq_false_iff]
    refine ⟨decide_eq_false (Nat.not_lt.2 hsize), ?_⟩
    cases hhead : base.opened.head? with
    | none => rfl
    | some top => exact decide_eq_false (Nat.not_lt.2 (hbase.inside top.1 top.2 hhead))
  have hs := h0.sound
  unfold openAt
  refine After.get ?_
  simp only [hfresh, Bool.false_eq_true, if_false]
  refine After.modify (After.get (After.pure ⟨?_, ?_, rfl, ⟨⟨rfl, rfl, rfl⟩, rfl, rfl⟩⟩))
  · rw [← h0.opened_eq]
    rfl
  · exact ⟨⟨hs.placed_le, hs.pos_le, hs.no_fault, hs.patience_le, hs.tiled, hs.leaves, hs.covered,
      hs.good, fun k' m' h => by cases h; exact hsize⟩, hbase, by rw [← h0.opened_eq]; rfl, h0.row_le⟩

/-- Closing a node turns what was added since it starts into its parts. -/
theorem closeNode_openedAt {base s1 s2 : State} (ho : OpenedAt k base s1) (hw : Walk i b s1 s2)
    (hproper : Proper k (grown base s2)) :
    After (closeNode (base.opened.length + 1)) s2 fun _ s' => Sound s' ∧ Poised s2 s' ∧
      s'.opened = base.opened ∧ base.row.toList <+: s'.row.toList ∧
      Closes k (grown base s2) base s' := by
  have hle := ho.row_le.trans hw.row_le
  have hrow := row_append hle
  have hlen : base.row.size ≤ s2.row.size := by
    rw [← Array.length_toList, ← Array.length_toList]
    exact hle.length_le
  refine (closeNode_spec hw.sound (hw.opened_eq.trans ho.opened_eq) hlen
    (fun k' m' h => ho.base_sound.inside k' m' h) hproper).mono ?_
  rintro _ s' ⟨hs', hb, hopen, hr⟩
  have htake : s2.row.toList.take base.row.size = base.row.toList := by
    rw [hrow, ← Array.length_toList, List.take_left]
  rw [htake] at hr
  exact ⟨hs', hb, hopen, ⟨_, hr.symm⟩, [], _, _, grown_of_append hr, fun _ => rfl⟩

/-- A step inside a node that it opens. -/
theorem within_walk {p : Parse α} {R : α → State → State → Prop} (hs : Ready n s)
    (inner : ∀ s1, Ready n s1 → Still s s1 → After p s1 fun a s2 =>
      Walk i b s1 s2 ∧ Proper k (grown s1 s2) ∧ R a s1 s2) :
    After (within k p) s fun a s' => ∃ s1 s2, Still s s1 ∧ Walk i b s1 s2 ∧
      Walk i b s s' ∧ Closes k (grown s1 s2) s s' ∧ Poised s2 s' ∧ R a s1 s2 := by
  unfold within
  refine (openNode_spec hs.toSound).bind ?_
  rintro count s1 ⟨base, rfl, h0, ⟨lead, hlead, hnone⟩, hopened, hrow1, hbeside, hplaced⟩
  have hs1 : Ready n s1 := ⟨hopened.sound, by rw [hbeside.patience_eq]; exact hs.patience_ge⟩
  refine (inner s1 hs1 hbeside.toStill).bind ?_
  rintro a s2 ⟨hw, hproper, hR⟩
  have hgrown : grown base s2 = grown s1 s2 := by rw [grown, grown, hrow1]
  refine (closeNode_openedAt hopened hw (by rw [hgrown]; exact hproper)).bind ?_
  rintro _ s' ⟨hs', hbeside', hopen, hrow, hcloses⟩
  obtain ⟨lead', a', b', hg, hnone'⟩ := hcloses.grown_eq
  rw [hgrown] at hg
  refine After.pure ⟨s1, s2, hbeside.toStill, hw,
    ⟨hbeside.moves hw.toMoves hbeside'.toBeside, hs', hopen.trans h0.opened_eq, h0.row_le.trans hrow⟩,
    ⟨lead ++ lead', a', b', ?_, fun h => ?_⟩, hbeside', hR⟩
  · rw [grown_trans h0.row_le hrow, hlead, hg, List.map_append, List.append_assoc]
  · rw [hnone h, hnone' hplaced]
    rfl

/-- A step inside a node that starts at a mark set earlier. -/
theorem withinFrom_walk {p : Parse α} {R : α → State → State → Prop} {base : State} {i0 b0 : Nat}
    (hbase : Sound base) (h0 : Walk i0 b0 base s) (hs : Ready n s)
    (inner : ∀ s1, Ready n s1 → Still s s1 → After p s1 fun a s2 =>
      Walk i b s1 s2 ∧ Proper k (grown base s ++ grown s1 s2) ∧ R a s1 s2) :
    After (withinFrom base.row.size k p) s fun a s' => ∃ s1 s2, Still s s1 ∧ Walk i b s1 s2 ∧
      Walk (i0 + i) (max (b0 + i) b) base s' ∧ Closes k (grown base s ++ grown s1 s2) base s' ∧
      Poised s2 s' ∧ R a s1 s2 := by
  unfold withinFrom
  refine (openAt_spec hbase h0).bind ?_
  rintro count s1 ⟨rfl, hopened, hrow1, hbeside⟩
  have hs1 : Ready n s1 := ⟨hopened.sound, by rw [hbeside.patience_eq]; exact hs.patience_ge⟩
  refine (inner s1 hs1 hbeside.toStill).bind ?_
  rintro a s2 ⟨hw, hproper, hR⟩
  have hgrown : grown base s2 = grown base s ++ grown s1 s2 := by
    have hle : s.row.toList <+: s2.row.toList := by
      rw [← hrow1]
      exact hw.row_le
    rw [grown_trans h0.row_le hle]
    congr 1
    rw [grown, grown, hrow1]
  refine (closeNode_openedAt hopened hw (by rw [hgrown]; exact hproper)).bind ?_
  rintro _ s' ⟨hs', hbeside', hopen, hrow, hcloses⟩
  rw [hgrown] at hcloses
  exact After.pure ⟨s1, s2, hbeside.toStill, hw,
    ⟨h0.toMoves.trans (hbeside.moves hw.toMoves hbeside'.toBeside), hs', hopen, hrow⟩, hcloses,
    hbeside', hR⟩

/-- A step inside a node, where the node is no parameter of a mapped type. -/
theorem within_spec {p : Parse α} {R : α → State → State → Prop} (hk : k ≠ .mappedTypeParam)
    (hs : Ready n s)
    (inner : ∀ s1, Ready n s1 → Still s s1 → After p s1 fun a s2 =>
      Run i b s1 s2 ∧ Proper k (grown s1 s2) ∧ R a s1 s2) :
    After (within k p) s fun a s' => Run i b s s' ∧ ∃ s1 s2, Still s s1 ∧ Run i b s1 s2 ∧
      Closes k (grown s1 s2) s s' ∧ Poised s2 s' ∧ R a s1 s2 := by
  refine (within_walk (i := i) (b := b) (R := fun a s1 s2 => Run i b s1 s2 ∧ R a s1 s2) hs
    fun s1 hs1 hst => (inner s1 hs1 hst).mono ?_).mono ?_
  · rintro a s2 ⟨hr, hp, hR⟩
    exact ⟨hr.toWalk, hp, hr, hR⟩
  · rintro a s' ⟨s1, s2, hst, -, hw, hcloses, hst', hr, hR⟩
    refine ⟨⟨hw, ?_⟩, s1, s2, hst, hr, hcloses, hst', hR⟩
    -- the node itself is not hollow, so the count is that of its parts
    have hh := hr.hollow
    rw [Hollow, hcloses.hollows_eq, if_neg (fun h => hk h.1), Nat.zero_add, hst'.cursor_eq]
    rw [Hollow, hst.tokens_eq, hst.cursor_eq] at hh
    exact hh

/-- A step that first takes a token starts over with full patience, and leaves that token bare. -/
theorem bump_then {p : Parse α} (hs : Sound s) (hc : cursor s < s.tokens.size)
    (inner : ∀ s1, Ready fullPatience s1 → left s1 < left s → After p s1 fun _ s2 => Run i b s1 s2) :
    After (do bump; p) s fun _ s' => Run 0 (max i b) s s' ∧ Bare s s' := by
  refine (bump_spec hs).bind ?_
  rintro _ s1 ⟨h1, hbare, -⟩
  have hb := hbare hc
  refine (inner s1 (h1.ready_moved hb.cursor_lt (Nat.le_refl _)) (h1.left_lt hb.cursor_lt)).mono ?_
  intro _ s2 h2
  have hb2 := hb.trans_walk h1.toWalk h2.toWalk
  exact ⟨((h1.trans h2).moving hb2.cursor_lt).mono (Nat.le_refl 0) (by omega), hb2⟩

/-- A step inside a node that is not keyed: the node is as good as what the step leaves in it. -/
theorem within_starts {p : Parse α} {P : Prop} (hk : k.isKeyed = false) (hs : Ready n s)
    (inner : ∀ s1, Ready n s1 → Still s s1 → After p s1 fun _ s2 =>
      Run i b s1 s2 ∧ Owns (grown s1 s2) ∧ (P → Bare s1 s2)) :
    After (within k p) s fun _ s' => Run i b s s' ∧ Owns (grown s s') ∧ (P → Bare s s') := by
  have hm : k ≠ .mappedTypeParam := fun h => by rw [h] at hk; exact absurd hk (by decide)
  refine (within_spec (i := i) (b := b) (R := fun _ s1 s2 =>
    Owns (grown s1 s2) ∧ (P → Bare s1 s2)) hm hs fun s1 hs1 hst => (inner s1 hs1 hst).mono fun _ s2 h =>
      ⟨h.1, proper_of_not_keyed hk, h.2⟩).mono ?_
  rintro a s' ⟨hr, s1, s2, hst, -, hcloses, hst', ho, hbare⟩
  refine ⟨hr, hcloses.owns hk ho, fun hP => ⟨?_, hcloses.bare hk (hbare hP).bare⟩⟩
  rw [hst'.cursor_eq, ← hst.cursor_eq]
  exact (hbare hP).cursor_lt

/-- A step that takes a bare token inside a node that is not keyed. -/
theorem within_bare {p : Parse α} (hk : k.isKeyed = false) (hs : Ready n s)
    (inner : ∀ s1, Ready n s1 → Still s s1 → After p s1 fun _ s2 => Run i b s1 s2 ∧ Bare s1 s2) :
    After (within k p) s fun _ s' => Run i b s s' ∧ Bare s s' := by
  refine (within_starts (P := True) (i := i) (b := b) hk hs fun s1 hs1 hst =>
    (inner s1 hs1 hst).mono fun _ s2 h => ⟨h.1, h.2.quiet.owns, fun _ => h.2⟩).mono ?_
  rintro a s' ⟨hr, -, hbare⟩
  exact ⟨hr, hbare trivial⟩

/-- A step that takes a bare token inside a keyed node, which then owns it. -/
theorem within_keyed {p : Parse α} (hk : k ≠ .mappedTypeParam) (hs : Ready n s)
    (inner : ∀ s1, Ready n s1 → Still s s1 → After p s1 fun _ s2 => Run i b s1 s2 ∧ Bare s1 s2) :
    After (within k p) s fun _ s' => Run i b s s' ∧ cursor s < cursor s' := by
  refine (within_spec (i := i) (b := b) (R := fun _ s1 s2 => Bare s1 s2) hk hs fun s1 hs1 hst =>
    (inner s1 hs1 hst).mono fun _ s2 h => ⟨h.1, proper_of_quiet h.2.quiet, h.2⟩).mono ?_
  rintro a s' ⟨hr, s1, s2, hst, -, -, hst', hb⟩
  refine ⟨hr, ?_⟩
  rw [hst'.cursor_eq, ← hst.cursor_eq]
  exact hb.cursor_lt

/-- A step inside a node that is not keyed, which may take nothing. -/
theorem within_owns {p : Parse α} (hk : k.isKeyed = false) (hs : Ready n s)
    (inner : ∀ s1, Ready n s1 → Still s s1 → After p s1 fun _ s2 =>
      Run i b s1 s2 ∧ Owns (grown s1 s2)) :
    After (within k p) s fun _ s' => Run i b s s' ∧ Owns (grown s s') := by
  refine (within_starts (P := False) (i := i) (b := b) hk hs fun s1 hs1 hst =>
    (inner s1 hs1 hst).mono fun _ s2 h => ⟨h.1, h.2, False.elim⟩).mono ?_
  rintro a s' ⟨hr, ho, -⟩
  exact ⟨hr, ho⟩

/-- A token and what follows it, inside a node that is not keyed. -/
theorem within_bump_bare {p : Parse α} (hk : k.isKeyed = false) (hs : Ready n s)
    (hc : cursor s < s.tokens.size)
    (inner : ∀ s1, Ready fullPatience s1 → left s1 < left s → After p s1 fun _ s2 => Run i b s1 s2) :
    After (within k do bump; p) s fun _ s' => Run 0 (max i b) s s' ∧ Bare s s' := by
  refine within_bare hk hs fun s1 hs1 hst => ?_
  refine bump_then hs1.toSound (by rw [hst.tokens_eq, hst.cursor_eq]; exact hc) ?_
  rw [hst.left_eq]
  exact inner

/-- A token and what follows it, inside a keyed node. -/
theorem within_bump_keyed {p : Parse α} (hk : k ≠ .mappedTypeParam) (hs : Ready n s)
    (hc : cursor s < s.tokens.size)
    (inner : ∀ s1, Ready fullPatience s1 → left s1 < left s → After p s1 fun _ s2 => Run i b s1 s2) :
    After (within k do bump; p) s fun _ s' => Run 0 (max i b) s s' := by
  refine (within_keyed (i := 0) (b := max i b) hk hs fun s1 hs1 hst => ?_).mono fun _ _ h => h.1
  refine bump_then hs1.toSound (by rw [hst.tokens_eq, hst.cursor_eq]; exact hc) ?_
  rw [hst.left_eq]
  exact inner

/-- A step inside a keyed node that leaves a bare token there if it takes any. -/
theorem within_owning {p : Parse α} (hk : k ≠ .mappedTypeParam) (hk' : k ≠ .typeParam)
    (hs : Ready n s)
    (inner : ∀ s1, Ready n s1 → Still s s1 → After p s1 fun _ s2 =>
      Run i b s1 s2 ∧ Owns (grown s1 s2)) :
    After (within k p) s fun _ s' => Run i b s s' :=
  (within_spec (R := fun _ _ _ => True) hk hs fun s1 hs1 hst => (inner s1 hs1 hst).mono fun _ _ h =>
    ⟨h.1, proper_of_owns h.2 hk', trivial⟩).mono fun _ _ h => h.1

/-- A step inside a node that is not keyed, of which nothing else is asked. -/
theorem within_run {p : Parse α} (hk : k.isKeyed = false) (hs : Ready n s)
    (inner : ∀ s1, Ready n s1 → Still s s1 → After p s1 fun _ s2 => Run i b s1 s2) :
    After (within k p) s fun _ s' => Run i b s s' := by
  have hm : k ≠ .mappedTypeParam := fun h => by rw [h] at hk; exact absurd hk (by decide)
  refine (within_spec (i := i) (b := b) (R := fun _ _ _ => True) hm hs fun s1 hs1 hst =>
    (inner s1 hs1 hst).mono fun _ s2 h => ⟨h, proper_of_not_keyed hk, trivial⟩).mono ?_
  rintro a s' ⟨hr, -⟩
  exact hr

/-- A step inside a node that starts at a mark. -/
theorem withinFrom_spec {p : Parse α} {R : α → State → State → Prop} {base : State} {i0 b0 : Nat}
    (hk : k ≠ .mappedTypeParam) (hbase : Sound base) (h0 : Run i0 b0 base s) (hs : Ready n s)
    (inner : ∀ s1, Ready n s1 → Still s s1 → After p s1 fun a s2 =>
      Run i b s1 s2 ∧ Proper k (grown base s ++ grown s1 s2) ∧ R a s1 s2) :
    After (withinFrom base.row.size k p) s fun a s' => Run (i0 + i) (max (b0 + i) b) base s' ∧
      ∃ s1 s2, Still s s1 ∧ Run i b s1 s2 ∧ Closes k (grown base s ++ grown s1 s2) base s' ∧
        Poised s2 s' ∧ R a s1 s2 := by
  refine (withinFrom_walk (i := i) (b := b) (R := fun a s1 s2 => Run i b s1 s2 ∧ R a s1 s2) hbase h0.toWalk hs
    fun s1 hs1 hst => (inner s1 hs1 hst).mono ?_).mono ?_
  · rintro a s2 ⟨hr, hp, hR⟩
    exact ⟨hr.toWalk, hp, hr, hR⟩
  · rintro a s' ⟨s1, s2, hst, -, hw, hcloses, hst', hr, hR⟩
    refine ⟨⟨hw, ?_⟩, s1, s2, hst, hr, hcloses, hst', hR⟩
    rw [Hollow, hcloses.hollows_eq, if_neg (fun h => hk h.1), Nat.zero_add, hst'.cursor_eq]
    exact h0.hollow.join h0.toMoves hst hr.hollow hr.toMoves hr.sound

/-- A step that takes a bare token, inside a keyed node that starts at a mark. -/
theorem withinFrom_keyed {p : Parse α} {base : State} {i0 b0 : Nat} (hk : k ≠ .mappedTypeParam)
    (hbase : Sound base) (h0 : Run i0 b0 base s) (hs : Ready n s)
    (inner : ∀ s1, Ready n s1 → Still s s1 → After p s1 fun _ s2 => Run i b s1 s2 ∧ Bare s1 s2) :
    After (withinFrom base.row.size k p) s fun _ s' => Run 0 b base s' ∧ cursor s < cursor s' := by
  refine (withinFrom_spec (i := i) (b := b) (R := fun _ s1 s2 => Bare s1 s2) hk hbase h0 hs fun s1 hs1 hst =>
    (inner s1 hs1 hst).mono fun _ s2 h => ⟨h.1, proper_of_quiet (.inr ?_), h.2⟩).mono ?_
  · rw [Tree.bareAll_append]
    simp [h.2.bare]
  · rintro a s' ⟨hr, s1, s2, hst, hr2, -, hst', hb⟩
    have hlt : cursor s < cursor s' := by
      rw [hst'.cursor_eq, ← hst.cursor_eq]
      exact hb.cursor_lt
    refine ⟨{ hr with calm := ?_, moved := ?_ }, hlt⟩
    · intro hc
      have := h0.cursor_le
      omega
    · intro _
      rw [hst'.patience_eq]
      exact hr2.moved hb.cursor_lt

/-- A step inside a node that is not keyed and starts at a mark, where a bare token has been taken
before the step or is taken by it. -/
theorem withinFrom_bare {p : Parse α} {base : State} {i0 b0 : Nat} (hk : k.isKeyed = false)
    (hbase : Sound base) (h0 : Run i0 b0 base s) (hs : Ready n s)
    (inner : ∀ s1, Ready n s1 → Still s s1 → After p s1 fun _ s2 =>
      Run i b s1 s2 ∧ (Bare base s ∨ Bare s1 s2)) :
    After (withinFrom base.row.size k p) s fun _ s' =>
      Run 0 (max (b0 + i) b) base s' ∧ Bare base s' := by
  have hm : k ≠ .mappedTypeParam := fun h => by rw [h] at hk; exact absurd hk (by decide)
  refine (withinFrom_spec (i := i) (b := b) (R := fun _ s1 s2 => Bare base s ∨ Bare s1 s2) hm hbase
    h0 hs fun s1 hs1 hst => (inner s1 hs1 hst).mono fun _ s2 h =>
      ⟨h.1, proper_of_not_keyed hk, h.2⟩).mono ?_
  rintro a s' ⟨hr, s1, s2, hst, hr2, hcloses, hst', hb⟩
  have hlt : cursor base < cursor s' := by
    have h1 := h0.cursor_le
    have h2 := hr2.cursor_le
    rw [hst.cursor_eq] at h2
    rw [hst'.cursor_eq]
    rcases hb with hb | hb
    · have := hb.cursor_lt
      omega
    · have := hb.cursor_lt
      rw [hst.cursor_eq] at this
      omega
  refine ⟨hr.moving hlt, hlt, hcloses.bare hk ?_⟩
  rw [Tree.bareAll_append]
  rcases hb with hb | hb
  · simp [hb.bare]
  · simp [hb.bare]

/-- A token as a node of its own. -/
theorem bumpAs_spec (hk : k ≠ .mappedTypeParam) (hs : Ready n s) (hc : cursor s < s.tokens.size) :
    After (bumpAs k) s fun _ s' => Run 0 0 s s' ∧ cursor s < cursor s' :=
  within_keyed hk hs fun s1 hs1 hst => (bump_spec hs1.toSound).mono fun _ s2 h =>
    ⟨h.1, h.2.1 (by rw [hst.tokens_eq, hst.cursor_eq]; exact hc)⟩

/-- A token as a node of its own that is not keyed; a node without tokens where the text ends. -/
theorem bumpAs_starts (hk : k.isKeyed = false) (hs : Ready n s) :
    After (bumpAs k) s fun _ s' => Run 0 0 s s' ∧ Owns (grown s s') ∧
      (cursor s < s.tokens.size → Bare s s') :=
  within_starts hk hs fun _ hs1 hst => (bump_spec hs1.toSound).mono fun _ _ h =>
    ⟨h.1, h.2.2.1.owns, fun hc => h.2.1 (by rw [hst.tokens_eq, hst.cursor_eq]; exact hc)⟩

/-- A token as a node of its own that is not keyed. -/
theorem bumpAs_bare (hk : k.isKeyed = false) (hs : Ready n s) (hc : cursor s < s.tokens.size) :
    After (bumpAs k) s fun _ s' => Run 0 0 s s' ∧ Bare s s' :=
  (bumpAs_starts hk hs).mono fun _ _ h => ⟨h.1, h.2.2 hc⟩

end Nodes

/-! ## Reporting -/

section Reports

variable {s s' : State} {n : Nat}

/-- States that agree in all that runs are about. -/
structure Alike (s s' : State) : Prop extends Beside s s' where
  textSize_eq : s'.textSize = s.textSize
  placed_eq : s'.placed = s.placed
  row_eq : s'.row = s.row
  opened_eq : s'.opened = s.opened
  fault_eq : s'.fault = s.fault

theorem Alike.sound (h : Alike s s') (hs : Sound s) : Sound s' := by
  have hstop : placedStop s' = placedStop s := by
    rw [placedStop, placedStop, h.placed_eq, h.tokens_eq, h.textSize_eq]
  refine ⟨?_, ?_, ?_, ?_, ?_, ?_, ?_, ?_, ?_⟩
  · rw [h.placed_eq, h.pos_eq]
    exact hs.placed_le
  · rw [h.pos_eq, h.tokens_eq]
    exact hs.pos_le
  · rw [h.fault_eq]
    exact hs.no_fault
  · rw [h.patience_eq]
    exact hs.patience_le
  · rw [h.textSize_eq, h.tokens_eq]
    exact hs.tiled
  · rw [h.row_eq, h.tokens_eq, h.placed_eq]
    exact hs.leaves
  · rw [hstop, h.row_eq]
    exact hs.covered
  · rw [h.row_eq]
    exact hs.good
  · rw [h.row_eq, h.opened_eq]
    exact hs.inside

theorem Alike.walk {i b : Nat} {s1 s2 : State} (h : Alike s s1) (hr : Walk i b s1 s2)
    (h' : Alike s2 s') : Walk i b s s' where
  toMoves := h.toBeside.moves hr.toMoves h'.toBeside
  sound := h'.sound hr.sound
  opened_eq := h'.opened_eq.trans (hr.opened_eq.trans h.opened_eq)
  row_le := by
    rw [h'.row_eq, ← h.row_eq]
    exact hr.row_le

/-- A run between states is one between states like them. -/
theorem Alike.run {i b : Nat} {s1 s2 : State} (h : Alike s s1) (hr : Run i b s1 s2)
    (h' : Alike s2 s') : Run i b s s' where
  toWalk := h.walk hr.toWalk h'
  hollow := by
    have hh := hr.hollow
    rw [Hollow, grown, h'.row_eq, ← h.row_eq, h'.cursor_eq, ← h.tokens_eq, ← h.cursor_eq]
    exact hh

theorem Alike.refl (s : State) : Alike s s :=
  ⟨⟨Still.refl s, rfl, rfl⟩, rfl, rfl, rfl, rfl, rfl⟩

/-- A report changes nothing that matters to the parse. -/
theorem reportWith_spec (kind : DiagnosticKind) (args : List String) (hs : Sound s) :
    After (reportWith kind args) s fun _ s' => Run 0 0 s s' ∧ Still s s' ∧ s'.row = s.row ∧
      s'.pos = cursor s := by
  unfold reportWith currentSpan
  simp only [bind_assoc]
  refine (currentToken_spec s).bind ?_
  rintro t s1 ⟨h1, -⟩
  have hr1 := h1.run hs
  have key : ∀ s2, Alike s1 s2 → Run 0 0 s s2 ∧ Still s s2 ∧ s2.row = s.row ∧ s2.pos = cursor s := by
    intro s2 h2
    have hpos : s1.pos = cursor s := by
      obtain ⟨m, -, rfl⟩ := h1
      rfl
    exact ⟨(Alike.refl s).run hr1 h2, h1.still.trans h2.toStill, h2.row_eq.trans h1.row_eq,
      h2.pos_eq.trans hpos⟩
  have hend : ∀ span : Span, Alike s1 (if s1.lastReport == some span.start then s1 else { s1 with
      lastReport := some span.start
      diagnostics := s1.diagnostics.push (.detailed kind (some span) args) }) := by
    intro span
    split
    · exact Alike.refl s1
    · exact ⟨⟨⟨rfl, rfl, rfl⟩, rfl, rfl⟩, rfl, rfl, rfl, rfl, rfl⟩
  refine After.get ?_
  cases t with
  | none => exact key _ (hend _)
  | some t => exact key _ (hend _)

theorem expect_spec {k : Kind} (what : String) (hk : k ≠ error) (hs : Ready 1 s) :
    After (expect k what) s fun ok s' =>
      Run 1 0 s s' ∧ Takes ok s s' ∧ (ok = true ↔ kindHere s = k) := by
  unfold expect
  refine (eat_spec hk hs).bind ?_
  rintro ok s1 ⟨h1, htake, hiff⟩
  cases ok with
  | true => exact After.pure ⟨h1, htake, hiff⟩
  | false =>
    refine (reportWith_spec _ _ h1.sound).bind ?_
    rintro _ s2 ⟨h2, hst, hrow, -⟩
    obtain ⟨hst1, hrow1⟩ := htake.passed rfl
    refine After.pure ⟨h1.trans h2, ⟨fun h => (by cases h),
      fun _ => ⟨hst1.trans hst, hrow.trans hrow1⟩, hollows_of_row_eq (hrow.trans hrow1)⟩, hiff⟩

/-- An optional part, seen with the look that decides about it. -/
theorem whenAt_spec {k : Kind} {step : Parse Unit} {Q : State → Prop} (hs : Ready 1 s)
    (hpass : ∀ s1, Looks 1 s s1 → kindHere s ≠ k → Q s1)
    (hstep : ∀ s1, Looks 1 s s1 → kindHere s = k → After step s1 fun _ s' => Q s') :
    After (whenAt k step) s fun _ s' => Q s' := by
  unfold whenAt
  refine (at_spec k hs).bind ?_
  rintro yes s1 ⟨hl1, hyes⟩
  cases yes with
  | true => exact hstep s1 hl1 (hyes.1 rfl)
  | false => exact After.pure (hpass s1 hl1 fun hk => absurd (hyes.2 hk) (by decide))

/-- An optional part that starts with a token of its own. -/
theorem whenAt_bare {k : Kind} {step : Parse Unit} {i b : Nat} (hs : Ready (n + 1) s)
    (inner : ∀ s1, Ready n s1 → Still s s1 → kindHere s1 = k → After step s1 fun _ s2 =>
      Run i b s1 s2 ∧ Bare s1 s2) :
    After (whenAt k step) s fun _ s' =>
      Run 1 b s s' ∧ Quiet (grown s s') ∧ (kindHere s = k → Bare s s') ∧
        (kindHere s ≠ k → Still s s') := by
  refine whenAt_spec (hs.weaken (Nat.le_add_left 1 n)) ?_ ?_
  · intro s1 hl1 hk
    exact ⟨(hl1.run hs.toSound).mono (Nat.le_refl 1) (Nat.zero_le b), hl1.quiet,
      fun h => absurd h hk, fun _ => hl1.still⟩
  · intro s1 hl1 hk
    have h1 := hl1.run hs.toSound
    have hs1 : Ready n s1 := hl1.ready (by rw [Nat.add_comm]; exact hs)
    refine (inner s1 hs1 hl1.still (hl1.still.kind_eq.trans hk)).mono ?_
    rintro _ s2 ⟨h2, hbare⟩
    have hb := h1.toWalk.trans_bare hbare h2.toWalk
    exact ⟨(h1.trans_moved h2 hbare.cursor_lt).mono (by decide) (Nat.le_refl b), hb.quiet,
      fun _ => hb, fun h => absurd hk h⟩

/-- A report that gives up the current token, if there is one. -/
theorem reportAndBump_spec (kind : DiagnosticKind) (hs : Ready n s) :
    After (reportAndBump kind) s fun _ s' => Run 0 0 s s' ∧ Owns (grown s s') ∧
      (cursor s < s.tokens.size → cursor s < cursor s') := by
  unfold reportAndBump report
  refine (reportWith_spec kind [] hs.toSound).bind ?_
  rintro _ s1 ⟨h1, hst, hrow, hpos⟩
  refine After.get ?_
  have hsize : (s1.pos < s1.tokens.size) ↔ cursor s < s.tokens.size := by
    rw [hpos, hst.tokens_eq]
  split
  · rename_i hlt
    have hlt1 : cursor s1 < s1.tokens.size := by
      rw [hst.cursor_eq, hst.tokens_eq]
      exact hsize.1 hlt
    refine (bumpAs_bare (k := error) (n := 0) rfl ⟨h1.sound, Nat.zero_le _⟩ hlt1).mono ?_
    rintro _ s2 ⟨h2, hbare⟩
    have hb := h1.toWalk.trans_bare hbare h2.toWalk
    exact ⟨h1.trans h2, hb.quiet.owns, fun _ => hb.cursor_lt⟩
  · rename_i hge
    exact After.pure ⟨h1, (quiet_of_row_eq hrow).owns, fun hlt => absurd (hsize.2 hlt) hge⟩

end Reports

/-! ## Repeating -/

section Repeats

variable {s : State} {step : Parse Bool}

/-- A loop keeps what its step keeps, and the count that bounds it never runs out when the step
brings it down with every turn. -/
theorem iterate_spec {I : Nat → State → Prop} {Q : State → Prop} (h0 : ∀ s, ¬ I 0 s)
    (hstep : ∀ n s, I (n + 1) s → After step s fun more s' => if more then I n s' else Q s')
    (n : Nat) (hs : I n s) : After (iterate n step) s fun _ s' => Q s' := by
  induction n generalizing s with
  | zero => exact absurd hs (h0 s)
  | succ n ih =>
    unfold iterate
    refine (hstep n s hs).bind ?_
    intro more s1 h1
    cases more with
    | true => exact ih h1
    | false => exact After.pure h1

/-- A loop whose every turn but the last moves past a token. It costs what its last turn costs, for
the earlier ones have been made good by moving. -/
theorem repeatWhile_spec {J : Bool → State → Prop} {m i b : Nat} (hs : Ready m s)
    (hb : b + m ≤ fullPatience) (hJ : J true s)
    (hstep : ∀ s1, Run 0 b s s1 → Ready m s1 → J true s1 → After step s1 fun more s2 =>
      Run i b s1 s2 ∧ J more s2 ∧ (more = true → cursor s1 < cursor s2)) :
    After (repeatWhile step) s fun _ s' => Run i (b + i) s s' ∧ J false s' := by
  unfold repeatWhile
  refine After.get ?_
  refine iterate_spec (I := fun n s1 => Run 0 b s s1 ∧ Ready m s1 ∧ J true s1 ∧ left s1 < n)
    (fun _ h => Nat.not_lt_zero _ h.2.2.2) ?_ _
    ⟨(Run.refl hs.toSound).mono (Nat.zero_le _) (Nat.zero_le _), hs, hJ, ?_⟩
  · rintro n s1 ⟨h1, hs1, hJ1, hleft⟩
    refine (hstep s1 h1 hs1 hJ1).mono ?_
    rintro more s2 ⟨h2, hJ2, hmove⟩
    cases more with
    | true =>
      -- what the turns before have cost is made good by this one
      have hlt := hmove rfl
      have h12 := h1.trans_moved h2 hlt
      have hdown := h2.left_lt hlt
      exact ⟨h12, h12.ready hs (by omega) hb, hJ2, by omega⟩
    | false => exact ⟨(h1.trans h2).mono (by omega) (by omega), hJ2⟩
  · exact Nat.lt_succ_of_le (Nat.sub_le _ _)

/-- What makes a skip end where it is. -/
def Halts (stop : Kind → Bool) (s : State) : Prop :=
  stop (kindHere s) ∨ s.tokens.size ≤ cursor s ∨ s.failure.isSome

theorem Still.halts_iff {s' : State} {stop : Kind → Bool} (h : Still s s') :
    Halts stop s' ↔ Halts stop s := by
  unfold Halts
  rw [h.kind_eq, h.tokens_eq, h.cursor_eq, h.failure_eq]

/-- Where the text goes on and nothing has failed, only the token can make a skip halt. -/
theorem Halts.stops {stop : Kind → Bool} (h : Halts stop s) (hlt : cursor s < s.tokens.size)
    (hfail : s.failure = none) : stop (kindHere s) := by
  rcases h with h | h | h
  · exact h
  · exact absurd hlt (Nat.not_lt.2 h)
  · simp [hfail] at h

/-- The two looks that come before a skip and before each of its turns. -/
theorem unlessHalts_spec {α : Type} {stop : Kind → Bool} {a : α} {go : Parse α}
    {Q : α → State → Prop} (hs : Ready 1 s) (hhalt : ∀ s1, Looks 1 s s1 → Halts stop s → Q a s1)
    (hgo : ∀ s1, Looks 1 s s1 → ¬ Halts stop s → cursor s < s.tokens.size → After go s1 Q) :
    After (do
      if stop (← current) then return a
      if ← atEnd then return a
      go) s Q := by
  refine (current_spec hs).bind ?_
  rintro k s1 ⟨hl1, rfl⟩
  split
  · rename_i hstop
    exact After.pure (hhalt s1 hl1 (.inl hstop))
  rename_i hpass
  refine (atEnd_spec s1).bind ?_
  rintro e s2 ⟨hl2, hmore, hend⟩
  rw [hl1.still.tokens_eq, hl1.still.cursor_eq, hl1.still.failure_eq] at hmore hend
  have hl := hl1.trans hl2
  cases e with
  | true => exact After.pure (hhalt s2 hl (.inr (hend rfl)))
  | false =>
    obtain ⟨hlt, hfail⟩ := hmore rfl
    exact hgo s2 hl (fun h => hpass (h.stops hlt hfail)) hlt

/-- One turn of a skip takes the token it stands at, unless it halts there. -/
theorem skipTurn_spec {stop : Kind → Bool} (hs : Ready 1 s) :
    After (do
      if stop (← current) then return false
      if ← atEnd then return false
      bump
      return true) s fun more s' => Run 1 1 s s' ∧ Quiet (grown s s') ∧
        (more = true → cursor s < cursor s') ∧ (more = false → Still s s' ∧ Halts stop s) := by
  refine unlessHalts_spec hs ?_ ?_
  · intro s1 hl1 hhalt
    exact ⟨(hl1.run hs.toSound).mono (by decide) (by decide), hl1.quiet, fun h => (by cases h),
      fun _ => ⟨hl1.still, hhalt⟩⟩
  · intro s1 hl1 _ hlt
    have h1 := hl1.run hs.toSound
    refine (bump_spec h1.sound).bind ?_
    rintro _ s2 ⟨h2, hbare, -⟩
    have hb : Bare s1 s2 := hbare (by
      rw [hl1.still.tokens_eq, hl1.still.cursor_eq]
      exact hlt)
    have hb2 := h1.toWalk.trans_bare hb h2.toWalk
    exact After.pure ⟨(h1.trans h2).mono (by decide) (by decide), hb2.quiet,
      fun _ => hb2.cursor_lt, fun h => (by cases h)⟩

/-- Skipping takes at least one token, unless it need not. -/
theorem skipUntil_spec (stop : Kind → Bool) (hs : Ready 2 s) :
    After (skipUntil stop) s fun _ s' => Run 2 2 s s' ∧ Owns (grown s s') ∧
      (cursor s < cursor s' ∨ Still s s' ∧ Halts stop s) := by
  unfold skipUntil
  refine unlessHalts_spec (hs.weaken (by decide)) ?_ ?_
  · intro s1 hl1 hhalt
    exact ⟨(hl1.run hs.toSound).mono (by decide) (by decide), hl1.quiet.owns,
      .inr ⟨hl1.still, hhalt⟩⟩
  intro s1 hl1 hgo _
  have h1 := hl1.run hs.toSound
  refine (within_spec (k := error) (i := 1) (b := 2)
    (R := fun _ s2 s3 => Owns (grown s2 s3) ∧ cursor s2 < cursor s3) (by decide)
    (hl1.ready hs : Ready 1 s1) ?_).mono ?_
  · intro s2 hs2 hst2
    -- the first turn starts where the skip did, so it does not halt, and every later one has moved
    refine (repeatWhile_spec (i := 1) (b := 1) (J := fun more s3 => Owns (grown s2 s3) ∧
      (cursor s2 < cursor s3 ∨ more = true ∧ Still s2 s3)) hs2 (by decide)
      ⟨(quiet_of_row_eq rfl).owns, .inr ⟨rfl, Still.refl s2⟩⟩ ?_).mono ?_
    · rintro s3 h3 hs3 ⟨ho3, hmoved⟩
      refine (skipTurn_spec hs3).mono ?_
      rintro more s4 ⟨h4, hq4, hmore, hend⟩
      refine ⟨h4, ⟨h3.toWalk.owns_trans h4.toWalk ho3 hq4.owns, .inl ?_⟩, hmore⟩
      rcases hmoved with hlt | ⟨-, hst3⟩
      · exact Nat.lt_of_lt_of_le hlt h4.cursor_le
      cases more with
      | true => exact Nat.lt_of_le_of_lt h3.cursor_le (hmore rfl)
      | false => exact absurd ((hl1.still.trans (hst2.trans hst3)).halts_iff.1 (hend rfl).2) hgo
    · rintro _ s3 ⟨h3, ho3, hmoved⟩
      refine ⟨h3, proper_of_not_keyed rfl, ho3, ?_⟩
      rcases hmoved with hlt | ⟨h, -⟩
      · exact hlt
      · cases h
  · rintro _ s' ⟨h', s2, s3, hst2, -, hcloses, hst', ho, hlt⟩
    refine ⟨(h1.trans h').mono (by decide) (by decide), ?_, .inl ?_⟩
    · exact h1.toWalk.owns_trans h'.toWalk hl1.quiet.owns (hcloses.owns rfl ho)
    · rw [hst'.cursor_eq]
      rw [hst2.cursor_eq, hl1.still.cursor_eq] at hlt
      exact hlt

end Repeats

/-! ## Nesting -/

section Nesting

variable {α : Type} {s s' : State}

/-- Going deeper starts with full patience, unless the limit forbids it. -/
theorem enter_spec (hs : Sound s) :
    After enter s fun ok s' => Run 0 0 s s' ∧ cursor s' = cursor s ∧ s'.row = s.row ∧
      (ok = true → Ready fullPatience s') ∧ (ok = false → s'.failure.isSome) := by
  unfold enter
  refine After.get ?_
  split
  · refine After.set (After.pure ⟨⟨⟨⟨rfl, Nat.le_refl _, Nat.le_refl _, ?_, or_limit rfl,
      fun _ => Nat.le_refl _, fun h => absurd h (Nat.lt_irrefl _)⟩, ⟨hs.placed_le, hs.pos_le, hs.no_fault, hs.patience_le,
      hs.tiled, hs.leaves, hs.covered, hs.good, hs.inside⟩, rfl, List.prefix_refl _⟩, .inl ?_⟩,
      rfl, rfl, fun h => (by cases h), ?_⟩)
    · intro _
      simp
    · exact hollows_of_row_eq rfl
    · intro _
      simp
  · have hs' : Sound { s with depth := s.depth + 1, patience := fullPatience } :=
      ⟨hs.placed_le, hs.pos_le, hs.no_fault, Nat.le_refl _, hs.tiled, hs.leaves, hs.covered,
        hs.good, hs.inside⟩
    refine After.set (After.pure ⟨⟨⟨⟨rfl, Nat.le_refl _, Nat.le_refl _, id, fun _ => .inl,
      fun _ => hs.patience_le, fun h => absurd h (Nat.lt_irrefl _)⟩, hs', rfl, List.prefix_refl _⟩, .inl ?_⟩, rfl, rfl,
      fun _ => ⟨hs', Nat.le_refl _⟩, fun h => (by cases h)⟩)
    exact hollows_of_row_eq rfl

/-- Coming back makes good what the way there has cost. -/
theorem leave_spec {i b : Nat} (h : Run i b s s') (hs : Sound s) :
    After leave s' fun _ s'' => Run 0 0 s s'' ∧ cursor s'' = cursor s' ∧ s''.row = s'.row ∧
      s''.failure = s'.failure := by
  have hs' := h.sound
  refine ⟨⟨⟨⟨h.tokens_eq, h.pos_mono, h.cursor_le, h.failure_some, h.failure_limit,
    fun _ => hs.patience_le, fun _ => Nat.le_refl _⟩, ⟨hs'.placed_le, hs'.pos_le, hs'.no_fault, Nat.le_refl _, hs'.tiled,
    hs'.leaves, hs'.covered, hs'.good, hs'.inside⟩, h.opened_eq, h.row_le⟩, h.hollow⟩, rfl, rfl, rfl⟩

theorem Alike.grown_eq {s1 s2 : State} (h : Alike s s1) (h' : Alike s2 s') :
    grown s s' = grown s1 s2 := by
  rw [grown, grown, h'.row_eq, h.row_eq]

/-- Allowing conditional types changes nothing that matters to runs. -/
theorem allowingConditional_spec {step : Parse α} {R : α → State → State → Prop} {n : Nat}
    (hs : Ready n s)
    (inner : ∀ s1, Ready n s1 → Alike s s1 → After step s1 fun a s2 => R a s1 s2) :
    After (allowingConditional step) s fun a s' => ∃ s1 s2, Alike s s1 ∧ Alike s2 s' ∧ R a s1 s2 := by
  unfold allowingConditional
  refine After.get (After.modify ?_)
  have h1 : Alike s { s with inExtends := false } :=
    ⟨⟨⟨rfl, rfl, rfl⟩, rfl, rfl⟩, rfl, rfl, rfl, rfl, rfl⟩
  refine (inner _ ⟨h1.sound hs.toSound, hs.patience_ge⟩ h1).bind ?_
  intro a s2 hR
  refine After.modify (After.pure ⟨_, s2, h1, ?_, hR⟩)
  exact ⟨⟨⟨rfl, rfl, rfl⟩, rfl, rfl⟩, rfl, rfl, rfl, rfl, rfl⟩

/-- A run is one too when conditional types are allowed in it. -/
theorem allowingConditional_run {step : Parse α} {n i b : Nat} (hs : Ready n s)
    (inner : ∀ s1, Ready n s1 → Still s s1 → After step s1 fun _ s2 => Run i b s1 s2) :
    After (allowingConditional step) s fun _ s' => Run i b s s' := by
  refine (allowingConditional_spec hs fun s1 hs1 h1 => inner s1 hs1 h1.toStill).mono ?_
  rintro a s' ⟨s1, s2, h1, h2, hr⟩
  exact h1.run hr h2

end Nesting

end DeclKit.Parser

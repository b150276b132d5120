/-
A keyed node is found again by its range and kind.

Of two nodes of a tree either one lies inside the other or they lie side by side. Side by side they
have different ranges as soon as one of them is not empty. And a node inside a keyed node that owns a
token cannot reach as far as it: if it did, it would hold all tokens there are, the own one included.
What is left are keyed nodes without tokens. A type parameter of that sort has no parts, so nothing is
bound by it; of the parameters of mapped types one may be left without tokens, where the text ends.

The search for a range goes down one way only. A node that is not empty is always on it. An empty one is
passed by when another empty node stands behind it, or behind a node that ends with it.
-/
import DeclKit.Proofs.Tree.Cover
import DeclKit.Program.Basic
import Mathlib.Data.List.Pairwise

set_option autoImplicit false

namespace DeclKit

open DeclKit.Tree Node

/-! ## Where the nodes of a tree lie -/

mutual

/-- Every node of a tree covers its range, within what the tree covers. -/
theorem Tree.Covers.mem {a b : Nat} {above : List Tree} {t : Tree} {n : Node} (h : Covers a b t)
    (hn : n ∈ nodesOf above t) :
    Covers n.start n.stop n.tree ∧ a ≤ n.start ∧ n.stop ≤ b := by
  match t with
  | .token _ => exact absurd hn List.not_mem_nil
  | .node k s e cs =>
    rcases List.mem_cons.1 hn with rfl | hn
    · obtain ⟨rfl, rfl, hcs⟩ := h
      exact ⟨⟨rfl, rfl, hcs⟩, Nat.le_refl _, Nat.le_refl _⟩
    · exact CoversAll.mem h.2.2 hn

/-- Every node of several trees covers its range, within what the trees cover. -/
theorem Tree.CoversAll.mem {a b : Nat} {above ts : List Tree} {n : Node} (h : CoversAll a b ts)
    (hn : n ∈ nodesOfList above ts) :
    Covers n.start n.stop n.tree ∧ a ≤ n.start ∧ n.stop ≤ b := by
  match ts with
  | [] => exact absurd hn List.not_mem_nil
  | t :: ts =>
    obtain ⟨m, ht, hts⟩ := h
    rcases List.mem_append.1 hn with hn | hn
    · obtain ⟨hc, hs, he⟩ := Covers.mem ht hn
      exact ⟨hc, hs, Nat.le_trans he hts.le⟩
    · obtain ⟨hc, hs, he⟩ := CoversAll.mem hts hn
      exact ⟨hc, Nat.le_trans ht.le hs, he⟩

end

mutual

theorem Tree.Good.mem {above : List Tree} {t : Tree} {n : Node} (h : Good t)
    (hn : n ∈ nodesOf above t) : Good n.tree := by
  match t with
  | .token _ => exact absurd hn List.not_mem_nil
  | .node k s e cs =>
    rcases List.mem_cons.1 hn with rfl | hn
    · exact h
    · exact GoodAll.mem h.2 hn

theorem Tree.GoodAll.mem {above ts : List Tree} {n : Node} (h : GoodAll ts)
    (hn : n ∈ nodesOfList above ts) : Good n.tree := by
  match ts with
  | [] => exact absurd hn List.not_mem_nil
  | t :: ts =>
    rcases List.mem_append.1 hn with hn | hn
    · exact Good.mem h.1 hn
    · exact GoodAll.mem h.2 hn

end

/-! ## A node that reaches as far as the tree leaves no token bare -/

theorem bare_eq_nil {a : Nat} {t : Tree} (h : Covers a a t) : bare t = [] :=
  List.subset_nil.1 (h.tiles.eq_nil ▸ bare_subset t)

theorem bareAll_eq_nil {a : Nat} {ts : List Tree} (h : CoversAll a a ts) : bareAll ts = [] :=
  List.subset_nil.1 (h.tiles.eq_nil ▸ bareAll_subset ts)

mutual

theorem bare_of_reaching {a b : Nat} {above : List Tree} {t : Tree} {n : Node} (h : Covers a b t)
    (hab : a < b) (hn : n ∈ nodesOf above t) (hk : n.kind.isKeyed = true) (hs : n.start = a)
    (he : n.stop = b) : bare t = [] := by
  match t with
  | .token _ => exact absurd hn List.not_mem_nil
  | .node k s e cs =>
    rw [bare]
    rcases List.mem_cons.1 hn with rfl | hn
    · exact if_pos hk
    · split
      · rfl
      · exact bareAll_of_reaching h.2.2 hab hn hk hs he

/-- Several trees with a keyed node that reaches from end to end hold no token outside keyed nodes. -/
theorem bareAll_of_reaching {a b : Nat} {above ts : List Tree} {n : Node} (h : CoversAll a b ts)
    (hab : a < b) (hn : n ∈ nodesOfList above ts) (hk : n.kind.isKeyed = true) (hs : n.start = a)
    (he : n.stop = b) : bareAll ts = [] := by
  match ts with
  | [] => exact absurd hn List.not_mem_nil
  | t :: ts =>
    obtain ⟨m, ht, hts⟩ := h
    rw [bareAll]
    rcases List.mem_append.1 hn with hn | hn
    · -- the node lies in the first tree, so nothing is left for the others
      obtain rfl : m = b := Nat.le_antisymm hts.le (he ▸ (Covers.mem ht hn).2.2)
      rw [bare_of_reaching ht hab hn hk hs he, bareAll_eq_nil hts, List.nil_append]
    · -- it lies in the others, so the first tree is empty
      obtain rfl : m = a := Nat.le_antisymm (hs ▸ (CoversAll.mem hts hn).2.1) ht.le
      rw [bareAll_of_reaching hts hab hn hk hs he, bare_eq_nil ht, List.nil_append]

end

/-! ## Ranges of keyed nodes -/

/-- Two nodes have the same range. -/
def Node.SameRange (n m : Node) : Prop := n.start = m.start ∧ n.stop = m.stop

/-- A keyed node that is not empty. -/
def Node.isFilled (n : Node) : Bool := n.kind.isKeyed && decide (n.start < n.stop)

theorem Node.isFilled_iff {n : Node} :
    n.isFilled = true ↔ n.kind.isKeyed = true ∧ n.start < n.stop := by
  rw [isFilled, Bool.and_eq_true, decide_eq_true_iff]

/-- A keyed node that is not empty has another range than the keyed nodes inside it. -/
theorem not_sameRange_inside {k : Kind} {a b : Nat} {above above' cs : List Tree} {n : Node}
    (hcs : CoversAll a b cs) (hp : Proper k cs) (hk : k.isKeyed = true) (hab : a < b)
    (hn : n ∈ nodesOfList above' cs) (hnk : n.kind.isKeyed = true) :
    ¬ SameRange ⟨.node k a b cs, above⟩ n := by
  rintro ⟨hs, he⟩
  -- the inner node holds every token there is, the one that the outer node owns included
  have hbare := bareAll_of_reaching hcs hab hn hnk hs.symm he.symm
  rcases (hp hk).1 with htokens | hown
  · have htiles := hcs.tiles
    rw [htokens] at htiles
    exact absurd htiles (Nat.ne_of_lt hab)
  · exact hown hbare

mutual

/-- Keyed nodes of a tree that are not empty have different ranges. -/
theorem Tree.Covers.pairwise {a b : Nat} {above : List Tree} {t : Tree} (h : Covers a b t)
    (hg : Good t) :
    ((nodesOf above t).filter isFilled).Pairwise fun n m => ¬ SameRange n m := by
  match t with
  | .token _ => exact List.Pairwise.nil
  | .node k s e cs =>
    obtain ⟨rfl, rfl, hcs⟩ := h
    rw [nodesOf, List.filter_cons]
    split
    · rename_i hfill
      obtain ⟨hk, hlt⟩ := isFilled_iff.1 hfill
      refine List.pairwise_cons.2 ⟨fun m hm => ?_, CoversAll.pairwise hcs hg.2⟩
      obtain ⟨hm, hmf⟩ := List.mem_filter.1 hm
      exact not_sameRange_inside hcs hg.1 hk hlt hm (isFilled_iff.1 hmf).1
    · exact CoversAll.pairwise hcs hg.2

theorem Tree.CoversAll.pairwise {a b : Nat} {above ts : List Tree} (h : CoversAll a b ts)
    (hg : GoodAll ts) :
    ((nodesOfList above ts).filter isFilled).Pairwise fun n m => ¬ SameRange n m := by
  match ts with
  | [] => exact List.Pairwise.nil
  | t :: ts =>
    obtain ⟨c, ht, hts⟩ := h
    rw [nodesOfList, List.filter_append]
    refine List.pairwise_append.2 ⟨Covers.pairwise ht hg.1, CoversAll.pairwise hts hg.2, ?_⟩
    -- one ends before the other starts
    rintro n hn m hm ⟨hs, -⟩
    obtain ⟨hn, hnf⟩ := List.mem_filter.1 hn
    obtain ⟨hm, -⟩ := List.mem_filter.1 hm
    have hlt := (isFilled_iff.1 hnf).2
    have hle := (ht.mem hn).2.2
    have hge := (hts.mem hm).2.1
    omega

end

/-! ## Nodes with a key of their own -/

/-- A parameter of a mapped type that holds no token. -/
def Node.isHollow (n : Node) : Bool := n.kind == .mappedTypeParam && n.tree.tokens.isEmpty

mutual

theorem countP_isHollow (above : List Tree) (t : Tree) :
    (nodesOf above t).countP isHollow = hollows t := by
  match t with
  | .token _ => rfl
  | .node k s e cs =>
    rw [nodesOf, List.countP_cons, countP_isHollow_list, hollows, Nat.add_comm]
    congr 1
    simp [isHollow, Node.kind, Tree.kind, tokens]

theorem countP_isHollow_list (above ts : List Tree) :
    (nodesOfList above ts).countP isHollow = hollowsAll ts := by
  match ts with
  | [] => rfl
  | t :: ts =>
    rw [nodesOfList, List.countP_append, countP_isHollow, countP_isHollow_list, hollowsAll]

end

/-- A keyed node that is not empty, or a parameter of a mapped type. -/
def Node.hasOwnKey (n : Node) : Bool :=
  n.kind.isKeyed && (decide (n.start < n.stop) || n.kind == .mappedTypeParam)

/-- Two nodes have the same range and kind. -/
def Node.SameKey (n m : Node) : Prop := SameRange n m ∧ n.kind = m.kind

theorem Node.SameKey.hasOwnKey {n m : Node} (h : SameKey n m) (hn : n.hasOwnKey = true) :
    m.hasOwnKey = true := by
  obtain ⟨⟨hs, he⟩, hk⟩ := h
  rw [Node.hasOwnKey, ← hs, ← he, ← hk]
  exact hn

/-- A node with a key of its own is filled, or hollow. -/
theorem Node.isFilled_or_isHollow {n : Node} (hc : Covers n.start n.stop n.tree)
    (hn : n.hasOwnKey = true) : n.start < n.stop ∧ n.isFilled = true ∨
      n.start = n.stop ∧ n.isHollow = true := by
  rw [hasOwnKey, Bool.and_eq_true, Bool.or_eq_true, decide_eq_true_iff] at hn
  obtain ⟨hk, hn⟩ := hn
  by_cases hlt : n.start < n.stop
  · exact .inl ⟨hlt, isFilled_iff.2 ⟨hk, hlt⟩⟩
  · have heq : n.start = n.stop := Nat.le_antisymm hc.le (Nat.le_of_not_lt hlt)
    rw [← heq] at hc
    refine .inr ⟨heq, ?_⟩
    rw [isHollow, hc.tiles.eq_nil, Bool.and_eq_true]
    exact ⟨hn.resolve_left hlt, rfl⟩

section Whole

variable {a b : Nat} {above : List Tree} {t : Tree}

/-- Nodes with a key of their own have different keys. -/
theorem pairwise_not_sameKey (h : Covers a b t) (hg : Good t) (hh : hollows t ≤ 1) :
    ((nodesOf above t).filter hasOwnKey).Pairwise fun n m => ¬ SameKey n m := by
  refine List.pairwise_of_forall_sublist ?_
  rintro n m hsub hsame
  have hnodes : [n, m].Sublist (nodesOf above t) := hsub.trans List.filter_sublist
  have hn := List.mem_filter.1 (hsub.subset (List.mem_cons_self (a := n) (l := [m])))
  have hm := List.mem_filter.1 (hsub.subset (List.mem_cons_of_mem n (List.mem_singleton_self m)))
  obtain ⟨hs, he⟩ := hsame.1
  rcases isFilled_or_isHollow (h.mem hn.1).1 hn.2 with ⟨hlt, hnf⟩ | ⟨heq, hnf⟩
  · rcases isFilled_or_isHollow (h.mem hm.1).1 hm.2 with ⟨-, hmf⟩ | ⟨heq, -⟩
    · -- filled nodes differ in their ranges already
      have hfilled := hnodes.filter isFilled
      rw [List.filter_eq_self.2 (by simp [hnf, hmf])] at hfilled
      exact (h.pairwise hg).forall_sublist hfilled hsame.1
    · omega
  · rcases isFilled_or_isHollow (h.mem hm.1).1 hm.2 with ⟨hlt, -⟩ | ⟨-, hmf⟩
    · omega
    · -- two hollow parameters are one more than there can be
      have hcount : [n, m].countP isHollow ≤ (nodesOf above t).countP isHollow := hnodes.countP_le
      rw [countP_isHollow, List.countP_eq_length.2 (by simp [hnf, hmf])] at hcount
      exact absurd (Nat.le_trans hcount hh) (Nat.not_succ_le_self 1)

/-- A node with a key of its own is the only node with that key. -/
theorem eq_of_sameKey (h : Covers a b t) (hg : Good t) (hh : hollows t ≤ 1) {n m : Node}
    (hn : n ∈ nodesOf above t) (hm : m ∈ nodesOf above t) (hkey : n.hasOwnKey = true)
    (hsame : SameKey n m) : n = m := by
  have : Std.Symm fun n m : Node => ¬ SameKey n m :=
    ⟨fun n m hne h => hne ⟨⟨h.1.1.symm, h.1.2.symm⟩, h.2.symm⟩⟩
  by_contra hne
  exact (pairwise_not_sameKey h hg hh).forall (List.mem_filter.2 ⟨hn, hkey⟩)
    (List.mem_filter.2 ⟨hm, hsame.hasOwnKey hkey⟩) hne hsame

/-- A keyed node that is not empty is the only one of its range. -/
theorem eq_of_sameRange (h : Covers a b t) (hg : Good t) {n m : Node} (hn : n ∈ nodesOf above t)
    (hm : m ∈ nodesOf above t) (hnf : n.isFilled = true) (hmf : m.isFilled = true)
    (hsame : SameRange n m) : n = m := by
  have : Std.Symm fun n m : Node => ¬ SameRange n m :=
    ⟨fun n m hne h => hne ⟨h.1.symm, h.2.symm⟩⟩
  by_contra hne
  exact (h.pairwise hg).forall (List.mem_filter.2 ⟨hn, hnf⟩) (List.mem_filter.2 ⟨hm, hmf⟩) hne hsame

end Whole

/-! ## Nodes around a node -/

namespace Node

theorem ancestors_eq_cons (n : Node) : n.ancestors = n :: around n.above := rfl

theorem mem_ancestors_self (n : Node) : n ∈ n.ancestors := List.mem_cons_self

/-- The nodes around a node are around what it is around. -/
theorem ancestors_suffix {n m : Node} (h : m ∈ n.ancestors) : m.ancestors <:+ n.ancestors := by
  obtain ⟨t, above⟩ := n
  induction above generalizing t with
  | nil =>
    obtain rfl := List.mem_singleton.1 h
    exact List.suffix_refl _
  | cons p above ih =>
    rcases List.mem_cons.1 h with rfl | h
    · exact List.suffix_refl _
    · exact (ih p h).trans (List.suffix_cons _ _)

mutual

/-- A tree is around each of its nodes. -/
theorem mem_ancestors_of_mem {above : List Tree} {t : Tree} {n : Node} (hn : n ∈ nodesOf above t) :
    ⟨t, above⟩ ∈ n.ancestors := by
  match t with
  | .token _ => exact absurd hn List.not_mem_nil
  | .node k s e cs =>
    rcases List.mem_cons.1 hn with rfl | hn
    · exact mem_ancestors_self _
    · exact mem_ancestors_of_mem_list hn

theorem mem_ancestors_of_mem_list {p : Tree} {above ts : List Tree} {n : Node}
    (hn : n ∈ nodesOfList (p :: above) ts) : ⟨p, above⟩ ∈ n.ancestors := by
  match ts with
  | [] => exact absurd hn List.not_mem_nil
  | t :: ts =>
    rcases List.mem_append.1 hn with hn | hn
    · exact (ancestors_suffix (mem_ancestors_of_mem hn)).subset (List.mem_cons_of_mem _ List.mem_cons_self)
    · exact mem_ancestors_of_mem_list hn

end

theorem mem_nodesOfList {above ts : List Tree} {n : Node} :
    n ∈ nodesOfList above ts ↔ ∃ t ∈ ts, n ∈ nodesOf above t := by
  induction ts with
  | nil => simp [nodesOfList]
  | cons t ts ih => simp [nodesOfList, ih]

end Node

/-! ## Finding a node by its range -/

/-- A tree has what every token has and every node has whose parts have it. -/
@[elab_as_elim]
theorem Tree.inductionOn {motive : Tree → Prop} (token : ∀ t, motive (.token t))
    (node : ∀ k s e cs, (∀ c ∈ cs, motive c) → motive (.node k s e cs)) : ∀ t, motive t
  | .token t => token t
  | .node k s e cs => node k s e cs fun c hc =>
    have : sizeOf c < 1 + sizeOf cs := Nat.lt_add_left 1 (List.sizeOf_lt_of_mem hc)
    inductionOn token node c
termination_by t => sizeOf t
decreasing_by
  simp only [Tree.node.sizeOf_spec]
  omega

/-- Of the parts of a node this is the one that is looked into for a range. It shares bytes with the
range from its start on, or goes beyond the place where an empty range lies; or it ends before the range
and those behind it lie behind the range and are not empty; or it is the first part and lies behind the
range. So an empty part is not looked into when another empty part follows it. -/
def Tree.LooksInto (start stop : Nat) (p c : Tree) : Prop :=
  ∃ before behind, p.children = before ++ c :: behind ∧
    (c.start ≤ start ∧ start < c.stop ∧ c.start < stop ∨
      c.stop ≤ start ∧ (∀ d ∈ behind, start < d.stop ∧ stop ≤ d.start) ∨
      before = [] ∧ start < c.stop ∧ stop ≤ c.start)

/-- The node is met on the way into the tree that is taken for a range. -/
def Node.IsMet (start stop : Nat) (n : Node) : Prop :=
  ∀ m ∈ n.ancestors, ∀ p, m.parent? = some p → p.tree.LooksInto start stop m.tree

section Parts

variable {a b start stop : Nat} {above cs : List Tree}

/-- What a part of several trees covers, and what those in front of it and behind it cover. -/
theorem Tree.CoversAll.part {before behind : List Tree} {c : Tree}
    (h : CoversAll a b (before ++ c :: behind)) :
    CoversAll a c.start before ∧ Covers c.start c.stop c ∧ CoversAll c.stop b behind := by
  obtain ⟨m, hbefore, m', hc, hbehind⟩ := coversAll_append.1 h
  obtain rfl := hc.start_eq
  obtain rfl := hc.stop_eq
  exact ⟨hbefore, hc, hbehind⟩

theorem Tree.CoversAll.mem_list (h : CoversAll a b cs) {t : Tree} (ht : t ∈ cs) :
    a ≤ t.start ∧ t.stop ≤ b ∧ Covers t.start t.stop t := by
  obtain ⟨before, behind, rfl⟩ := List.append_of_mem ht
  obtain ⟨hbefore, hc, hbehind⟩ := h.part
  exact ⟨hbefore.le, hbehind.le, hc⟩

namespace Node

/-- Parts that end before the range are passed; what the last of them comes to is kept. -/
theorem coveringPart_append {xs : List Tree} (hxs : ∀ t ∈ xs, t.stop ≤ start)
    (before : Option (Option Node)) (ys : List Tree) :
    coveringPart start stop above before (xs ++ ys) =
      coveringPart start stop above ((xs.getLast?.map (covering start stop above)).or before) ys := by
  induction xs generalizing before with
  | nil => rfl
  | cons t xs ih =>
    rw [List.cons_append, coveringPart, if_pos (hxs t List.mem_cons_self),
      ih (fun t ht => hxs t (List.mem_cons_of_mem _ ht)), List.getLast?_cons]
    cases xs.getLast? <;> rfl

/-- The part that is looked into decides. -/
theorem coveringPart_of_looksInto {p c : Tree} (hp : CoversAll a b p.children)
    (h : p.LooksInto start stop c) :
    coveringPart start stop above none p.children = covering start stop above c := by
  obtain ⟨before, behind, hcs, hwhere⟩ := h
  rw [hcs] at hp ⊢
  obtain ⟨hbefore, hc, hbehind⟩ := hp.part
  have hpassed (hle : c.start ≤ start) : ∀ t ∈ before, t.stop ≤ start := fun t ht =>
    Nat.le_trans (hbefore.mem_list ht).2.1 hle
  rcases hwhere with ⟨hstart, hstop, hshared⟩ | ⟨hstop, hlater⟩ | ⟨rfl, hstop, hstart⟩
  · rw [coveringPart_append (hpassed hstart), coveringPart, if_neg (Nat.not_le.2 hstop),
      if_pos hshared]
  · have hall : ∀ t ∈ before ++ [c], t.stop ≤ start := by
      intro t ht
      rcases List.mem_append.1 ht with ht | ht
      · exact hpassed (Nat.le_trans hc.le hstop) t ht
      · exact List.mem_singleton.1 ht ▸ hstop
    rw [← List.singleton_append, ← List.append_assoc, coveringPart_append hall, List.getLast?_append,
      List.getLast?_singleton, Option.some_or, Option.map_some, Option.some_or]
    cases behind with
    | nil => rfl
    | cons d behind =>
      obtain ⟨hd, hd'⟩ := hlater d List.mem_cons_self
      rw [coveringPart, if_neg (Nat.not_le.2 hd), if_neg (Nat.not_lt.2 hd'), Option.getD_some]
  · rw [List.nil_append, coveringPart, if_neg (Nat.not_le.2 hstop), if_neg (Nat.not_lt.2 hstart),
      Option.getD_none]

/-- Only a tree that reaches around the range is looked into. -/
theorem covering_bounds {t : Tree} {m : Node} (h : covering start stop above t = some m) :
    t.isNode ∧ t.start ≤ start ∧ stop ≤ t.stop := by
  cases t with
  | token t => cases h
  | node k s e cs =>
    rw [covering] at h
    split at h
    · rename_i hin
      exact ⟨rfl, by simpa [Tree.start, Tree.stop] using hin⟩
    · cases h

/-- What is found among the parts of a node is found in the one that is looked into. -/
theorem exists_looksInto {p : Tree} {m : Node} (hp : CoversAll a b p.children)
    (h : coveringPart start stop above none p.children = some m) :
    ∃ c ∈ p.children, p.LooksInto start stop c ∧ covering start stop above c = some m := by
  -- the parts are those that end before the range, up to one that does not
  obtain ⟨xs, ys, hcs, hxs, hys⟩ : ∃ xs ys, p.children = xs ++ ys ∧ (∀ t ∈ xs, t.stop ≤ start) ∧
      ∀ y ∈ ys.head?, start < y.stop := by
    refine ⟨_, _, (List.takeWhile_append_dropWhile (p := (·.stop ≤ start))).symm, fun t ht => ?_,
      fun y hy => ?_⟩
    · simpa using List.all_eq_true.1 List.all_takeWhile t ht
    · have hnot := List.head?_dropWhile_not (p := (·.stop ≤ start)) p.children
      rw [hy] at hnot
      simpa using hnot
  have hmem {c : Tree} (hc : c ∈ xs ∨ c ∈ ys) : c ∈ p.children := hcs ▸ List.mem_append.2 hc
  rw [hcs, coveringPart_append hxs, Option.or_none] at h
  -- the last one that was passed, if those behind it lie behind the range
  have passed (hlater : ∀ d ∈ ys, start < d.stop ∧ stop ≤ d.start) {c : Tree}
      (hc : xs.getLast? = some c) : c ∈ p.children ∧ p.LooksInto start stop c := by
    obtain ⟨xs', rfl⟩ := List.getLast?_eq_some_iff.1 hc
    have hlast : c ∈ xs' ++ [c] := List.mem_append_right _ (List.mem_singleton_self c)
    exact ⟨hmem (.inl hlast), xs', ys, by rw [hcs, List.append_assoc, List.singleton_append],
      .inr (.inl ⟨hxs c hlast, hlater⟩)⟩
  cases ys with
  | nil =>
    rw [coveringPart, Option.join_eq_some_iff, Option.map_eq_some_iff] at h
    obtain ⟨c, hc, hm⟩ := h
    obtain ⟨hmem, hinto⟩ := passed (fun d hd => absurd hd List.not_mem_nil) hc
    exact ⟨c, hmem, hinto, hm⟩
  | cons y ys =>
    have hstop : start < y.stop := hys y rfl
    rw [coveringPart, if_neg (Nat.not_le.2 hstop)] at h
    split at h
    · rename_i hshared
      exact ⟨y, hmem (.inr List.mem_cons_self), ⟨xs, ys, hcs,
        .inl ⟨(covering_bounds h).2.1, hstop, hshared⟩⟩, h⟩
    rename_i hbehind
    have hlater : ∀ d ∈ y :: ys, start < d.stop ∧ stop ≤ d.start := by
      obtain ⟨-, hy, hrest⟩ := (hcs ▸ hp : CoversAll a b (xs ++ y :: ys)).part
      have hle := hy.le
      intro d hd
      rcases List.mem_cons.1 hd with rfl | hd
      · exact ⟨hstop, Nat.le_of_not_lt hbehind⟩
      · obtain ⟨hbehind, -, hd⟩ := hrest.mem_list hd
        have hle := hd.le
        exact ⟨by omega, by omega⟩
    cases hlast : xs.getLast? with
    | none =>
      rw [hlast, Option.map_none, Option.getD_none] at h
      rw [List.getLast?_eq_none_iff] at hlast
      exact ⟨y, hmem (.inr List.mem_cons_self), ⟨[], ys, by rw [hcs, hlast],
        .inr (.inr ⟨rfl, hstop, Nat.le_of_not_lt hbehind⟩)⟩, h⟩
    | some c =>
      rw [hlast, Option.map_some, Option.getD_some] at h
      obtain ⟨hmem, hinto⟩ := passed hlater hlast
      exact ⟨c, hmem, hinto, h⟩

end Node

end Parts

namespace Node

theorem mem_nodesOf_self {above : List Tree} {t : Tree} (ht : t.isNode) : ⟨t, above⟩ ∈ nodesOf above t := by
  cases t with
  | token t => cases ht
  | node k s e cs => exact List.mem_cons_self

/-- What is around the node that is found, up to the tree: nodes of the tree that reach around the range
and are met on the way. -/
theorem ancestors_covering {a b start stop : Nat} {above : List Tree} {t : Tree} {m : Node}
    (h : Covers a b t) (hm : covering start stop above t = some m) :
    ∃ inner, m.ancestors = inner ++ (Node.mk t above).ancestors ∧
      ∀ x ∈ inner, x ∈ nodesOf above t ∧ x.start ≤ start ∧ stop ≤ x.stop ∧
        ∀ p, x.parent? = some p → p.tree.LooksInto start stop x.tree := by
  induction t using Tree.inductionOn generalizing a b above with
  | token t => cases hm
  | node k s e cs ih =>
    obtain ⟨-, hin⟩ := covering_bounds hm
    rw [covering, if_pos (by simpa [Tree.start, Tree.stop] using hin), Option.some_inj] at hm
    cases hpart : coveringPart start stop (.node k s e cs :: above) none cs with
    | none =>
      rw [hpart, Option.getD_none] at hm
      exact ⟨[], by rw [← hm, List.nil_append], fun x hx => absurd hx List.not_mem_nil⟩
    | some m' =>
      rw [hpart, Option.getD_some] at hm
      subst hm
      obtain ⟨c, hc, hinto, hm⟩ := exists_looksInto (p := .node k s e cs) h.2.2 hpart
      obtain ⟨inner, hinner, hall⟩ := ih c hc (CoversAll.mem_list h.2.2 hc).2.2 hm
      obtain ⟨hnode, hbounds⟩ := covering_bounds hm
      have hlist {x : Node} (hx : x ∈ nodesOf (.node k s e cs :: above) c) :
          x ∈ nodesOf above (.node k s e cs) :=
        List.mem_cons_of_mem _ (mem_nodesOfList.2 ⟨c, hc, hx⟩)
      refine ⟨inner ++ [⟨c, .node k s e cs :: above⟩], by
        rw [hinner, List.append_assoc, List.singleton_append]; rfl, fun x hx => ?_⟩
      rcases List.mem_append.1 hx with hx | hx
      · obtain ⟨hmem, hrest⟩ := hall x hx
        exact ⟨hlist hmem, hrest⟩
      · obtain rfl := List.mem_singleton.1 hx
        refine ⟨hlist (mem_nodesOf_self hnode), hbounds.1, hbounds.2, fun p hp => ?_⟩
        obtain rfl := Option.some.inj hp
        exact hinto

/-- A node that reaches around the range and is met is around the node that is found, and what is
between them reaches around the range as well. -/
theorem ancestors_covering_of_isMet {a b start stop : Nat} {above : List Tree} {t : Tree} {n : Node}
    (h : Covers a b t) (hn : n ∈ nodesOf above t) (hs : n.start ≤ start) (he : stop ≤ n.stop)
    (hmet : n.IsMet start stop) :
    ∃ m inner, covering start stop above t = some m ∧ m.ancestors = inner ++ n.ancestors ∧
      ∀ x ∈ inner, x ∈ nodesOf n.above n.tree ∧ x.start ≤ start ∧ stop ≤ x.stop := by
  induction t using Tree.inductionOn generalizing a b above with
  | token t => exact absurd hn List.not_mem_nil
  | node k s e cs ih =>
    obtain ⟨-, hs', he'⟩ := h.mem hn
    obtain ⟨rfl, rfl, hcs⟩ := h
    have hin : (s ≤ start && stop ≤ e) = true := by
      rw [Bool.and_eq_true, decide_eq_true_iff, decide_eq_true_iff]
      exact ⟨Nat.le_trans hs' hs, Nat.le_trans he he'⟩
    rcases List.mem_cons.1 hn with rfl | hn
    · -- the node itself
      have hsome : (covering start stop above (.node k s e cs)).isSome := by rw [covering, if_pos hin]; rfl
      obtain ⟨m, hm⟩ := Option.isSome_iff_exists.1 hsome
      have hcovers : Covers s e (.node k s e cs) := ⟨rfl, rfl, hcs⟩
      obtain ⟨inner, hinner, hall⟩ := ancestors_covering hcovers hm
      exact ⟨m, inner, hm, hinner, fun x hx => ⟨(hall x hx).1, (hall x hx).2.1, (hall x hx).2.2.1⟩⟩
    · obtain ⟨c, hc, hn⟩ := mem_nodesOfList.1 hn
      have hinto := hmet ⟨c, .node k s e cs :: above⟩ (mem_ancestors_of_mem hn) _ rfl
      obtain ⟨m, inner, hm, hrest⟩ := ih c hc (hcs.mem_list hc).2.2 hn
      have hpart : coveringPart start stop (.node k s e cs :: above) none cs = some m :=
        (coveringPart_of_looksInto hcs hinto).trans hm
      exact ⟨m, inner, by rw [covering, if_pos hin, hpart, Option.getD_some], hrest⟩

/-- What is around the node that is found in a whole tree: the nodes that reach around the range and are
met on the way. -/
theorem mem_ancestors_covering {a b start stop : Nat} {t : Tree} {m : Node} (h : Covers a b t)
    (hm : covering start stop [] t = some m) (n : Node) :
    n ∈ m.ancestors ↔
      n ∈ nodesOf [] t ∧ n.start ≤ start ∧ stop ≤ n.stop ∧ n.IsMet start stop := by
  refine ⟨fun hn => ?_, fun ⟨hn, hs, he, hmet⟩ => ?_⟩
  · obtain ⟨inner, hinner, hall⟩ := ancestors_covering h hm
    obtain ⟨hnode, hbounds⟩ := covering_bounds hm
    have hmem : n ∈ nodesOf [] t ∧ n.start ≤ start ∧ stop ≤ n.stop := by
      rw [hinner] at hn
      rcases List.mem_append.1 hn with hn | hn
      · obtain ⟨hn, hs, he, -⟩ := hall n hn
        exact ⟨hn, hs, he⟩
      · obtain rfl := List.mem_singleton.1 hn
        exact ⟨mem_nodesOf_self hnode, hbounds⟩
    refine ⟨hmem.1, hmem.2.1, hmem.2.2, fun x hx p hp => ?_⟩
    have hx := (ancestors_suffix hn).subset hx
    rw [hinner] at hx
    rcases List.mem_append.1 hx with hx | hx
    · exact (hall x hx).2.2.2 p hp
    · obtain rfl := List.mem_singleton.1 hx
      cases hp
  · obtain ⟨m', inner, hm', hinner, -⟩ := ancestors_covering_of_isMet h hn hs he hmet
    obtain rfl : m' = m := Option.some.inj (hm'.symm.trans hm)
    rw [hinner]
    exact List.mem_append_right _ (mem_ancestors_self n)

/-- A whole tree is met. -/
theorem isMet_root {start stop : Nat} (t : Tree) : IsMet start stop ⟨t, []⟩ := by
  intro m hm p hp
  obtain rfl := List.mem_singleton.1 hm
  cases hp

/-- A node that is not empty is met on the way that is taken for its range. -/
theorem isMet_of_lt {a b : Nat} {above : List Tree} {t : Tree} {n : Node} (h : Covers a b t)
    (hn : n ∈ nodesOf above t) (hlt : n.start < n.stop) (htop : IsMet n.start n.stop ⟨t, above⟩) :
    n.IsMet n.start n.stop := by
  induction t using Tree.inductionOn generalizing a b above with
  | token t => exact absurd hn List.not_mem_nil
  | node k s e cs ih =>
    rcases List.mem_cons.1 hn with rfl | hn
    · exact htop
    · obtain ⟨c, hc, hn⟩ := mem_nodesOfList.1 hn
      obtain ⟨hle, hge, hcovers⟩ := h.2.2.mem_list hc
      obtain ⟨-, hs, he⟩ := hcovers.mem hn
      refine ih c hc hcovers hn fun m hm p hp => ?_
      rcases List.mem_cons.1 hm with rfl | hm
      · obtain rfl := Option.some.inj hp
        obtain ⟨before, behind, hcs⟩ := List.append_of_mem hc
        exact ⟨before, behind, hcs, .inl ⟨hs, Nat.lt_of_lt_of_le hlt he, Nat.lt_of_le_of_lt hs hlt⟩⟩
      · exact htop m hm p hp

/-- Whatever comes first, the only node that is accepted is found. -/
theorem find?_append_of_only {p : Node → Bool} {inner outer : List Node} {n : Node} (hn : p n = true)
    (honly : ∀ m ∈ inner, p m = true → m = n) : (inner ++ n :: outer).find? p = some n := by
  induction inner with
  | nil => rw [List.nil_append, List.find?_cons_of_pos hn]
  | cons m inner ih =>
    rw [List.cons_append, List.find?_cons]
    cases hm : p m with
    | true => rw [honly m List.mem_cons_self hm]
    | false => exact ih fun x hx => honly x (List.mem_cons_of_mem _ hx)

end Node

end DeclKit

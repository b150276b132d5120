/-
Which names a module makes visible.

From its roots a search goes on to what the declarations of the found names refer to, until nothing
new comes up. In whatever order the waiting names are taken, and however often one of them waits, it
comes to an end, and what it has found by then is the least set of names that contains the roots and
is closed under references. The rounds of `visibleNames` find the same set.
-/
import DeclKit.Emit.Reach
import Mathlib.Data.Finset.Card
import Mathlib.Data.Prod.Lex
import Mathlib.Order.Bounds.Basic

set_option autoImplicit false

namespace DeclKit.Emit

/-! ## Closed sets of names -/

section Closed

variable {refs : References} {roots : List String}

theorem References.mem_of {name m : String} :
    m ∈ refs.of name ↔ ∃ r ∈ refs, name ∈ r.1 ∧ m ∈ r.2 := by
  simp only [References.of, List.mem_flatMap, List.mem_filter, List.contains_iff_mem]
  exact ⟨fun ⟨r, ⟨hr, hname⟩, hm⟩ => ⟨r, hr, hname, hm⟩,
    fun ⟨r, hr, hname, hm⟩ => ⟨r, ⟨hr, hname⟩, hm⟩⟩

theorem References.mem_flatMap_of_mem_of {name m : String} (h : m ∈ refs.of name) :
    m ∈ refs.flatMap (·.2) := by
  obtain ⟨r, hr, -, hm⟩ := mem_of.1 h
  exact List.mem_flatMap.2 ⟨r, hr, hm⟩

/-- A set of names contains the roots and, with a name, all that its declarations refer to. -/
structure References.Closes (refs : References) (roots : List String) (names : Set String) :
    Prop where
  root : ∀ name ∈ roots, name ∈ names
  next : ∀ name ∈ names, ∀ m ∈ refs.of name, m ∈ names

end Closed

/-! ## Rounds -/

section Rounds

variable {refs : References} {roots : List String}

/-- What is not seen yet of all that is referred to. -/
def References.unseen (refs : References) (seen : List String) : List String :=
  (refs.flatMap (·.2)).filter fun m => !seen.contains m

/-- A round that finds something leaves less to be found. -/
theorem References.unseen_lt {seen fresh : List String} {m : String} (hm : m ∈ refs.unseen seen)
    (hfresh : m ∈ fresh) : (refs.unseen (seen ++ fresh)).length < (refs.unseen seen).length := by
  have hsplit : refs.unseen (seen ++ fresh) = (refs.unseen seen).filter (!fresh.contains ·) := by
    rw [unseen, unseen, List.filter_filter]
    refine List.filter_congr fun x _ => ?_
    rw [List.contains_eq_mem, List.contains_eq_mem, List.contains_eq_mem]
    by_cases hx : x ∈ seen <;> by_cases hy : x ∈ fresh <;> simp [hx, hy]
  rw [hsplit, List.length_filter_lt_length_iff_exists]
  exact ⟨m, hm, by simpa using hfresh⟩

/-- What a round finds is referred to by a declaration of the latest names, and is new. -/
theorem mem_fresh {latest seen : List String} {m : String} :
    m ∈ ((latest.flatMap refs.of).filter fun s => !seen.contains s).eraseDups ↔
      (∃ name ∈ latest, m ∈ refs.of name) ∧ m ∉ seen := by
  simp [List.mem_eraseDups]

/-- Names under which all is found but what the latest ones lead to. -/
structure References.Round (refs : References) (roots latest seen : List String) : Prop where
  root : ∀ name ∈ roots, name ∈ seen
  next : ∀ name ∈ seen, name ∉ latest → ∀ m ∈ refs.of name, m ∈ seen
  least : ∀ names, refs.Closes roots names → ∀ name ∈ seen, name ∈ names

theorem References.Round.step {latest seen fresh : List String}
    (h : refs.Round roots latest seen) (hlatest : ∀ name ∈ latest, name ∈ seen)
    (hfresh : ∀ m, m ∈ fresh ↔ (∃ name ∈ latest, m ∈ refs.of name) ∧ m ∉ seen) :
    refs.Round roots fresh (seen ++ fresh) where
  root name hname := List.mem_append_left _ (h.root name hname)
  next name hname hnot m hm := by
    obtain hname | hname := List.mem_append.1 hname
    · by_cases hmem : m ∈ seen
      · exact List.mem_append_left _ hmem
      · by_cases hlate : name ∈ latest
        · exact List.mem_append_right _ ((hfresh m).2 ⟨⟨name, hlate, hm⟩, hmem⟩)
        · exact absurd (h.next name hname hlate m hm) hmem
    · exact absurd hname hnot
  least names hnames m hm := by
    obtain hm | hm := List.mem_append.1 hm
    · exact h.least names hnames m hm
    · obtain ⟨⟨name, hlate, hm⟩, -⟩ := (hfresh m).1 hm
      exact hnames.next name (h.least names hnames name (hlatest name hlate)) m hm

/-- Enough rounds find the least closed set. The induction is on the rounds that are left: there are
more of them than names that have not been seen, and every round but the last sees a new one. -/
theorem reachFrom_least {n : Nat} {latest seen : List String} (h : refs.Round roots latest seen)
    (hlatest : ∀ name ∈ latest, name ∈ seen) (hn : (refs.unseen seen).length < n) :
    IsLeast {names | refs.Closes roots names} {name | name ∈ reachFrom refs n latest seen} := by
  induction n generalizing latest seen with
  | zero => omega
  | succ n ih =>
    rw [reachFrom]
    have hmem : ∀ m, m ∈ ((latest.flatMap refs.of).filter fun s => !seen.contains s).eraseDups ↔
        (∃ name ∈ latest, m ∈ refs.of name) ∧ m ∉ seen := fun m => mem_fresh
    generalize ((latest.flatMap refs.of).filter fun s => !seen.contains s).eraseDups = found at hmem
    cases found with
    | nil =>
      refine ⟨⟨h.root, fun name hname m hm => ?_⟩, fun names hnames => h.least names hnames⟩
      by_cases hlate : name ∈ latest
      · by_contra hnot
        exact absurd ((hmem m).2 ⟨⟨name, hlate, hm⟩, hnot⟩) List.not_mem_nil
      · exact h.next name hname hlate m hm
    | cons m fresh =>
      obtain ⟨⟨name, -, hname⟩, hnew⟩ := (hmem m).1 List.mem_cons_self
      have hunseen : m ∈ refs.unseen seen :=
        List.mem_filter.2 ⟨References.mem_flatMap_of_mem_of hname, by simpa using hnew⟩
      have hless := References.unseen_lt hunseen (List.mem_cons_self (l := fresh))
      exact ih (h.step hlatest hmem) (fun x hx => List.mem_append_right _ hx) (by omega)

/-- The rounds that begin with the roots. -/
theorem reachFrom_roots (refs : References) {roots latest : List String}
    (hlatest : ∀ name, name ∈ latest ↔ name ∈ roots) :
    IsLeast {names | refs.Closes roots names}
      {name | name ∈ reachFrom refs ((refs.flatMap (·.2)).length + 1) latest latest} := by
  refine reachFrom_least ⟨fun name hname => (hlatest name).2 hname, ?_, ?_⟩ (fun _ h => h) ?_
  · exact fun name hname hnot => absurd hname hnot
  · exact fun names hnames name hname => hnames.root name ((hlatest name).1 hname)
  · exact Nat.lt_succ_of_le (List.length_filter_le _ _)

end Rounds

/-! ## A search in any order -/

/-- The state of a search: the names that wait, and those that have been found. -/
structure Search where
  pending : List String
  visible : List String

namespace Search

variable {refs : References} {roots : List String} {s t : Search}

/-- One turn of a search: some waiting name is taken. If it is new, the names that its declarations
refer to and that are not found yet wait too, in any order and any number of times. -/
inductive Turn (refs : References) (s : Search) : Search → Prop where
  | known {name : String} {rest : List String} :
      s.pending.Perm (name :: rest) → name ∈ s.visible → Turn refs s ⟨rest, s.visible⟩
  | new {name : String} {rest more : List String} :
      s.pending.Perm (name :: rest) → name ∉ s.visible →
      (∀ m, m ∈ more ↔ m ∈ refs.of name ∧ m ∉ name :: s.visible) →
      Turn refs s ⟨rest ++ more, name :: s.visible⟩

/-- The names that can still be found. -/
def open_ (refs : References) (s : Search) : Finset String :=
  (s.pending ++ refs.flatMap (·.2)).toFinset \ s.visible.toFinset

theorem mem_open {name : String} : name ∈ s.open_ refs ↔
    (name ∈ s.pending ∨ name ∈ refs.flatMap (·.2)) ∧ name ∉ s.visible := by
  simp only [open_, Finset.mem_sdiff, List.mem_toFinset, List.mem_append]

/-- A turn finds a name, or leaves fewer that wait. -/
theorem Turn.decreases (h : Turn refs s t) :
    Prod.Lex (· < ·) (· < ·) ((t.open_ refs).card, t.pending.length)
      ((s.open_ refs).card, s.pending.length) := by
  cases h with
  | @known name rest hperm hname =>
    have hlength : s.pending.length = rest.length + 1 := hperm.length_eq
    have hsub : open_ refs ⟨rest, s.visible⟩ ⊆ s.open_ refs := fun m hm => by
      obtain ⟨hm, hnot⟩ := mem_open.1 hm
      exact mem_open.2 ⟨hm.imp_left fun hm => hperm.mem_iff.2 (List.mem_cons_of_mem _ hm), hnot⟩
    obtain hlt | heq := (Finset.card_le_card hsub).lt_or_eq
    · exact .left _ _ hlt
    · rw [heq]
      exact .right _ (by dsimp only; omega)
  | @new name rest more hperm hname hmore =>
    refine .left _ _ (Finset.card_lt_card (Finset.ssubset_iff_of_subset ?_ |>.2 ⟨name, ?_, ?_⟩))
    · intro m hm
      obtain ⟨hm, hnot⟩ := mem_open.1 hm
      refine mem_open.2 ⟨?_, fun hmem => hnot (List.mem_cons_of_mem _ hmem)⟩
      obtain hm | hm := hm
      · obtain hm | hm := List.mem_append.1 hm
        · exact .inl (hperm.mem_iff.2 (List.mem_cons_of_mem _ hm))
        · exact .inr (References.mem_flatMap_of_mem_of ((hmore m).1 hm).1)
      · exact .inr hm
    · exact mem_open.2 ⟨.inl (hperm.mem_iff.2 List.mem_cons_self), hname⟩
    · exact fun hmem => (mem_open.1 hmem).2 List.mem_cons_self

/-- So no search goes on for ever. -/
theorem wellFounded_turn (refs : References) : WellFounded fun t s : Search => Turn refs s t :=
  Subrelation.wf (fun h => h.decreases)
    (InvImage.wf (fun s : Search => ((s.open_ refs).card, s.pending.length))
      (WellFounded.prod_lex Nat.lt_wfRel.wf Nat.lt_wfRel.wf))

/-- A search in which no name waits is over, and any other one goes on. -/
theorem exists_turn (h : s.pending ≠ []) : ∃ t, Turn refs s t := by
  obtain ⟨name, rest, hpending⟩ := List.exists_cons_of_ne_nil h
  by_cases hname : name ∈ s.visible
  · exact ⟨_, .known (.of_eq hpending) hname⟩
  · have hmore : ∀ m, m ∈ (refs.of name).filter (fun m => decide (m ∉ name :: s.visible)) ↔
        m ∈ refs.of name ∧ m ∉ name :: s.visible := fun m => by simp
    exact ⟨_, .new (.of_eq hpending) hname hmore⟩

/-- What holds in the course of a search from given roots. -/
structure Sound (refs : References) (roots : List String) (s : Search) : Prop where
  root : ∀ name ∈ roots, name ∈ s.pending ∨ name ∈ s.visible
  next : ∀ name ∈ s.visible, ∀ m ∈ refs.of name, m ∈ s.pending ∨ m ∈ s.visible
  least : ∀ names, refs.Closes roots names →
    ∀ name, name ∈ s.pending ∨ name ∈ s.visible → name ∈ names

theorem Sound.start {pending : List String} (h : ∀ name, name ∈ pending ↔ name ∈ roots) :
    Sound refs roots ⟨pending, []⟩ where
  root name hname := .inl ((h name).2 hname)
  next _ hname := absurd hname List.not_mem_nil
  least _ hnames name hname :=
    hnames.root name ((h name).1 (hname.resolve_right List.not_mem_nil))

theorem Sound.turn (hs : Sound refs roots s) (h : Turn refs s t) : Sound refs roots t := by
  cases h with
  | @known name rest hperm hname =>
    have stays {m : String} (hm : m ∈ s.pending ∨ m ∈ s.visible) : m ∈ rest ∨ m ∈ s.visible := by
      obtain hm | hm := hm
      · obtain rfl | hm := List.mem_cons.1 (hperm.mem_iff.1 hm)
        · exact .inr hname
        · exact .inl hm
      · exact .inr hm
    refine ⟨fun m hm => stays (hs.root m hm), fun m hm k hk => stays (hs.next m hm k hk),
      fun names hnames m hm => hs.least names hnames m ?_⟩
    exact hm.imp_left fun hm => hperm.mem_iff.2 (List.mem_cons_of_mem _ hm)
  | @new name rest more hperm hname hmore =>
    have stays {m : String} (hm : m ∈ s.pending ∨ m ∈ s.visible) :
        m ∈ rest ++ more ∨ m ∈ name :: s.visible := by
      obtain hm | hm := hm
      · obtain rfl | hm := List.mem_cons.1 (hperm.mem_iff.1 hm)
        · exact .inr List.mem_cons_self
        · exact .inl (List.mem_append_left _ hm)
      · exact .inr (List.mem_cons_of_mem _ hm)
    have hmem : name ∈ s.pending := hperm.mem_iff.2 List.mem_cons_self
    refine ⟨fun m hm => stays (hs.root m hm), fun m hm k hk => ?_, fun names hnames m hm => ?_⟩
    · obtain rfl | hm := List.mem_cons.1 hm
      · by_cases hvisible : k ∈ m :: s.visible
        · exact .inr hvisible
        · exact .inl (List.mem_append_right _ ((hmore k).2 ⟨hk, hvisible⟩))
      · exact stays (hs.next m hm k hk)
    · obtain hm | hm := hm
      · obtain hm | hm := List.mem_append.1 hm
        · exact hs.least names hnames m (.inl (hperm.mem_iff.2 (List.mem_cons_of_mem _ hm)))
        · exact hnames.next name (hs.least names hnames name (.inl hmem)) m ((hmore m).1 hm).1
      · obtain rfl | hm := List.mem_cons.1 hm
        · exact hs.least names hnames m (.inl hmem)
        · exact hs.least names hnames m (.inr hm)

theorem Sound.run (hs : Sound refs roots s) (h : Relation.ReflTransGen (Turn refs) s t) :
    Sound refs roots t := by
  induction h with
  | refl => exact hs
  | tail _ hturn ih => exact ih.turn hturn

/-- A search that is over has found the least closed set. -/
theorem Sound.isLeast (hs : Sound refs roots s) (hover : s.pending = []) :
    IsLeast {names | refs.Closes roots names} {name | name ∈ s.visible} := by
  have found {m : String} (hm : m ∈ s.pending ∨ m ∈ s.visible) : m ∈ s.visible := by
    rw [hover] at hm
    exact hm.resolve_left List.not_mem_nil
  exact ⟨⟨fun name hname => found (hs.root name hname),
      fun name hname m hm => found (hs.next name hname m hm)⟩,
    fun names hnames name hname => hs.least names hnames name (.inr hname)⟩

end Search

end DeclKit.Emit

/-
Substitutions as they are stored.

Of the pairs that a substitution is made of, the first one for a parameter counts. Sorting the pairs by
parameter does not change which one that is, as pairs for one parameter stay in their order; nor does
dropping a pair behind another one for the same parameter. What is left has one pair for each parameter, in
the order of the parameters, and there is no other such list that puts in the same types. And no
substitution is stored for no pairs.

So the number of a substitution stands for the partial function that the substitution is: pairs that put in
the same types get one number, in whatever order they are given and whatever has been stored in between. One
more pair, and a restriction to some parameters, change this function as they say and nowhere else.
-/
import DeclKit.Proofs.Types.Intersection

set_option autoImplicit false

namespace DeclKit

/-! ## Lists that correspond -/

/-- Elements that are mapped to the same lists give one list. -/
theorem flatMap_congr_of_mem {α β : Type} {xs : List α} {f g : α → List β} (h : ∀ x ∈ xs, f x = g x) :
    xs.flatMap f = xs.flatMap g := by
  rw [List.flatMap_def, List.flatMap_def, List.map_congr_left h]

/-- Two lists of one length whose elements correspond one by one. The laws of substitutions are among what
a check carries along, and the program is compiled without libraries, so the relation stands here. -/
inductive Forall₂ {α β : Type} (R : α → β → Prop) : List α → List β → Prop
  | nil : Forall₂ R [] []
  | cons {x : α} {y : β} {xs : List α} {ys : List β} :
      R x y → Forall₂ R xs ys → Forall₂ R (x :: xs) (y :: ys)

namespace Forall₂

variable {α β : Type} {R S : α → β → Prop} {xs : List α} {ys : List β}

theorem length_eq (h : Forall₂ R xs ys) : xs.length = ys.length := by
  induction h with
  | nil => rfl
  | cons _ _ ih => rw [List.length_cons, List.length_cons, ih]

/-- What follows for each element of the first list follows for the lists. -/
theorem imp_of_mem (h : Forall₂ R xs ys) (hRS : ∀ x ∈ xs, ∀ y, R x y → S x y) : Forall₂ S xs ys := by
  induction h with
  | nil => exact .nil
  | cons hx _ ih =>
    exact .cons (hRS _ List.mem_cons_self _ hx) (ih fun x hx => hRS x (List.mem_cons_of_mem _ hx))

theorem imp (h : Forall₂ R xs ys) (hRS : ∀ x y, R x y → S x y) : Forall₂ S xs ys :=
  h.imp_of_mem fun x _ => hRS x

theorem flip (h : Forall₂ R xs ys) : Forall₂ (fun y x => R x y) ys xs := by
  induction h with
  | nil => exact .nil
  | cons hx _ ih => exact .cons hx ih

theorem append {zs : List α} {ws : List β} (h : Forall₂ R xs ys) (h' : Forall₂ R zs ws) :
    Forall₂ R (xs ++ zs) (ys ++ ws) := by
  induction h with
  | nil => exact h'
  | cons hx _ ih => exact .cons hx ih

/-- An element of the first list has its counterpart in the second one. -/
theorem exists_of_mem (h : Forall₂ R xs ys) {x : α} (hx : x ∈ xs) : ∃ y ∈ ys, R x y := by
  induction h with
  | nil => cases hx
  | cons hxy _ ih =>
    rcases List.mem_cons.1 hx with rfl | hx
    · exact ⟨_, List.mem_cons_self, hxy⟩
    · obtain ⟨y, hy, hxy⟩ := ih hx
      exact ⟨y, List.mem_cons_of_mem _ hy, hxy⟩

theorem of_mem_zip (h : Forall₂ R xs ys) {p : α × β} (hp : p ∈ xs.zip ys) : R p.1 p.2 := by
  induction h with
  | nil => cases hp
  | cons hx _ ih =>
    rw [List.zip_cons_cons] at hp
    rcases List.mem_cons.1 hp with rfl | hp
    · exact hx
    · exact ih hp

/-- Lists of one length correspond if the pairs of their elements do. -/
theorem of_forall_zip (hlength : xs.length = ys.length) (h : ∀ p ∈ xs.zip ys, R p.1 p.2) :
    Forall₂ R xs ys := by
  induction xs generalizing ys with
  | nil =>
    obtain rfl := List.length_eq_zero_iff.1 hlength.symm
    exact .nil
  | cons x xs ih =>
    cases ys with
    | nil => cases hlength
    | cons y ys =>
      rw [List.zip_cons_cons] at h
      exact .cons (h _ List.mem_cons_self)
        (ih (Nat.succ.inj hlength) fun p hp => h p (List.mem_cons_of_mem _ hp))

/-- Lists whose elements are equal one by one are equal. -/
theorem eq {zs : List α} (h : Forall₂ (fun x z => x = z) xs zs) : xs = zs := by
  induction h with
  | nil => rfl
  | cons hx _ ih => rw [hx, ih]

end Forall₂

/-! ## Looking up a parameter -/

namespace Mapper

variable {s : SymbolId}

theorem mem_of_mem_keepFirst {m : Mapper} {p : SymbolId × TypeId}
    (h : p ∈ keepFirst m) : p ∈ m := by
  induction m using keepFirst.induct with
  | case1 => simp [keepFirst] at h
  | case2 q => simpa [keepFirst] using h
  | case3 q r rest heq ih =>
    rw [keepFirst, if_pos heq] at h
    rcases List.mem_cons.1 (ih h) with rfl | hp
    · exact List.mem_cons_self
    · exact List.mem_cons_of_mem q (List.mem_cons_of_mem r hp)
  | case4 q r rest hne ih =>
    rw [keepFirst, if_neg hne] at h
    rcases List.mem_cons.1 h with rfl | hp
    · exact List.mem_cons_self
    · exact List.mem_cons_of_mem q (ih hp)

/-- A substitution puts in only types of the pairs that it was made of. -/
theorem mem_of_mem_ofPairs {pairs : List (SymbolId × TypeId)} {p : SymbolId × TypeId}
    (h : p ∈ ofPairs pairs) : p ∈ pairs :=
  List.mem_mergeSort.1 (mem_of_mem_keepFirst h)

theorem get?_keepFirst (m : Mapper) : (keepFirst m).get? s = m.get? s := by
  unfold get?
  congr 1
  induction m using keepFirst.induct with
  | case1 => rw [keepFirst]
  | case2 p => rw [keepFirst]
  | case3 p q rest heq ih =>
    rw [keepFirst, if_pos heq, ih, List.find?_cons, List.find?_cons, List.find?_cons, ← heq]
    cases p.1 == s <;> rfl
  | case4 p q rest hne ih =>
    rw [keepFirst, if_neg hne, List.find?_cons, List.find?_cons, ih]

/-- The pair that counts for a parameter stands before the others for it, in whatever order the
parameters are. -/
theorem find?_mergeSort (pairs : Mapper) :
    (pairs.mergeSort fun p q => p.1.index ≤ q.1.index).find? (·.1 == s) = pairs.find? (·.1 == s) := by
  have hsorted : (pairs.filter (·.1 == s)).Pairwise fun p q => decide (p.1.index ≤ q.1.index) = true := by
    refine List.pairwise_iff_forall_sublist.2 fun {p q} hpq => ?_
    have hmem {r : SymbolId × TypeId} (hr : r ∈ [p, q]) : r.1 = s :=
      beq_iff_eq.1 (List.mem_filter.1 (hpq.subset hr)).2
    rw [hmem List.mem_cons_self, hmem (List.mem_cons_of_mem _ List.mem_cons_self)]
    exact decide_eq_true (Nat.le_refl _)
  have hsub := List.sublist_mergeSort (fun a b c hab hbc => by simp at *; omega)
    (fun a b => by simp; omega) hsorted List.filter_sublist
  have hfilter := hsub.filter (·.1 == s)
  rw [List.filter_filter] at hfilter
  simp only [Bool.and_self] at hfilter
  have hperm := (List.mergeSort_perm pairs fun p q => p.1.index ≤ q.1.index).filter (·.1 == s)
  rw [← List.head?_filter, ← List.head?_filter, ← hfilter.eq_of_length hperm.length_eq.symm]

/-- What a substitution puts in for a parameter is what its first pair for it says. -/
theorem get?_ofPairs (pairs : List (SymbolId × TypeId)) : (ofPairs pairs).get? s = get? pairs s := by
  rw [ofPairs, get?_keepFirst, get?, find?_mergeSort, get?]

/-- That is the type that the pairs themselves have for it. -/
theorem get?_eq_lookup (m : Mapper) : m.get? s = m.lookup s := by
  induction m with
  | nil => rfl
  | cons p m ih =>
    obtain ⟨x, ty⟩ := p
    rw [List.lookup_cons, ← ih, get?, List.find?_cons]
    by_cases hx : x = s
    · simp [hx]
    · have hne : (x == s) = false := by simpa using hx
      have hne' : (s == x) = false := by simpa using Ne.symm hx
      simp only [hne, hne', get?]

theorem get?_append (m m' : Mapper) : get? (m ++ m') s = (get? m s).or (get? m' s) := by
  rw [get?, get?, get?, List.find?_append]
  cases m.find? (·.1 == s) <;> rfl

theorem get?_eq_none_iff {m : Mapper} : get? m s = none ↔ ∀ q ∈ m, q.1 ≠ s := by
  rw [get?, Option.map_eq_none_iff, List.find?_eq_none]
  simp only [beq_iff_eq]

/-- Pairs for other parameters do not count. -/
theorem get?_filter {m : Mapper} {p : SymbolId → Bool} (hs : p s = true) :
    get? (m.filter fun q => p q.1) s = get? m s := by
  have hfind : (m.filter fun q => p q.1).find? (·.1 == s) = m.find? (·.1 == s) := by
    rw [List.find?_filter]
    congr 1
    funext q
    by_cases hq : q.1 = s
    · simp [hq, hs]
    · simp [hq]
  rw [get?, get?, hfind]

/-- Pairs for the same parameters in the same order are looked up alike. -/
theorem get?_of_forall₂ {R : TypeId → TypeId → Prop} {m m' : Mapper}
    (h : Forall₂ (fun p q => p.1 = q.1 ∧ R p.2 q.2) m m') :
    (get? m s = none ∧ get? m' s = none) ∨
      ∃ x y, get? m s = some x ∧ get? m' s = some y ∧ R x y := by
  induction h with
  | nil => exact .inl ⟨rfl, rfl⟩
  | @cons p q m m' hpq _ ih =>
    by_cases hs : p.1 = s
    · refine .inr ⟨p.2, q.2, ?_, ?_, hpq.2⟩
      · simp [get?, hs]
      · simp [get?, hpq.1.symm.trans hs]
    · have hs' : ¬q.1 = s := hpq.1 ▸ hs
      simpa [get?, hs, hs'] using ih

/-- Pairs with other types in place of theirs. -/
theorem forall₂_zip {R : TypeId → TypeId → Prop} {m : Mapper} {ys : List TypeId}
    (h : Forall₂ R (m.map (·.2)) ys) :
    Forall₂ (fun p q => p.1 = q.1 ∧ R p.2 q.2) m ((m.map (·.1)).zip ys) := by
  induction m generalizing ys with
  | nil => exact .nil
  | cons p m ih =>
    cases h with
    | cons hp h => exact .cons ⟨rfl, hp⟩ (ih h)

/-- A pair that stands in front is the one that counts. -/
theorem get?_cons {m : Mapper} {p : SymbolId × TypeId} :
    get? (p :: m) s = if s = p.1 then some p.2 else get? m s := by
  by_cases hs : s = p.1
  · simp [get?, hs]
  · simp [get?, hs, Ne.symm hs]

theorem mem_of_get?_eq_some {m : Mapper} {ty : TypeId} (h : get? m s = some ty) : (s, ty) ∈ m := by
  obtain ⟨p, hp, rfl⟩ := Option.map_eq_some_iff.1 h
  have hs : p.1 = s := by simpa using List.find?_some hp
  exact hs ▸ List.mem_of_find?_eq_some hp

/-- One more pair changes what is put in for its parameter and for no other. -/
theorem get?_extended (m : Mapper) (x : SymbolId) (ty : TypeId) :
    get? (m.extended x ty) s = if s = x then some ty else get? m s := by
  rw [extended, get?_append, get?_cons]
  by_cases hs : s = x
  · have hnone : get? (m.filter (·.1 != x)) s = none := by
      rw [get?_eq_none_iff]
      intro q hq
      simpa [hs] using (List.mem_filter.1 hq).2
    rw [hnone, if_pos hs, if_pos hs, Option.none_or]
  · have hkept : get? (m.filter (·.1 != x)) s = get? m s :=
      get?_filter (p := fun T => T != x) (by simpa using hs)
    rw [hkept, if_neg hs, if_neg hs]
    exact Option.or_none

/-- For the parameters that are left out nothing is put in. -/
theorem get?_restricted (m : Mapper) (params : List SymbolId) :
    get? (m.restricted params) s = if s ∈ params then get? m s else none := by
  rw [restricted]
  by_cases hs : s ∈ params
  · rw [if_pos hs]
    exact get?_filter (p := fun T => params.contains T) (by simpa using hs)
  · rw [if_neg hs, get?_eq_none_iff]
    intro q hq heq
    have hmem : q.1 ∈ params := by simpa using (List.mem_filter.1 hq).2
    exact hs (heq ▸ hmem)

/-! ## One list for each partial function -/

/-- Each parameter has one pair, and the pairs stand in the order of the parameters. -/
def IsSorted (m : Mapper) : Prop := m.Pairwise fun p q => p.1.index < q.1.index

theorem IsSorted.get?_eq_none {m : Mapper} {p : SymbolId × TypeId} (h : IsSorted (p :: m)) :
    get? m p.1 = none := by
  rw [get?_eq_none_iff]
  intro q hq heq
  have hlt := (List.pairwise_cons.1 h).1 q hq
  rw [heq] at hlt
  exact Nat.lt_irrefl _ hlt

theorem IsSorted.get?_of_mem {m : Mapper} (hm : m.IsSorted) {x : SymbolId}
    {ty : TypeId} (h : (x, ty) ∈ m) : m.get? x = some ty := by
  induction m with
  | nil => cases h
  | cons p m ih =>
    obtain ⟨hfirst, hrest⟩ := List.pairwise_cons.1 hm
    rw [get?_cons]
    rcases List.mem_cons.1 h with rfl | h
    · rw [if_pos rfl]
    · rw [if_neg fun heq => absurd (hfirst _ h) (by rw [heq]; exact Nat.lt_irrefl _), ih hrest h]

theorem isSorted_keepFirst {m : Mapper} (h : m.Pairwise fun p q => p.1.index ≤ q.1.index) :
    IsSorted (keepFirst m) := by
  induction m using keepFirst.induct with
  | case1 => simp [keepFirst, IsSorted]
  | case2 p => simp [keepFirst, IsSorted]
  | case3 p q rest heq ih =>
    rw [keepFirst, if_pos heq]
    obtain ⟨hp, hrest⟩ := List.pairwise_cons.1 h
    refine ih (List.pairwise_cons.2 ⟨?_, (List.pairwise_cons.1 hrest).2⟩)
    intro r hr
    exact hp r (List.mem_cons_of_mem q hr)
  | case4 p q rest hne ih =>
    rw [keepFirst, if_neg hne]
    obtain ⟨hp, hrest⟩ := List.pairwise_cons.1 h
    refine List.pairwise_cons.2 ⟨?_, ih hrest⟩
    intro r hr
    -- the neighbour is for another parameter, and what follows is no smaller than the neighbour
    have hpq : p.1.index ≤ q.1.index := hp q List.mem_cons_self
    have hpq' : p.1.index ≠ q.1.index := fun heq => hne (congrArg SymbolId.mk heq)
    have hqr : q.1.index ≤ r.1.index := by
      rcases List.mem_cons.1 (mem_of_mem_keepFirst hr) with rfl | hr
      · exact Nat.le_refl _
      · exact (List.pairwise_cons.1 hrest).1 r hr
    omega

theorem isSorted_ofPairs (pairs : List (SymbolId × TypeId)) : IsSorted (ofPairs pairs) := by
  have hsorted : (pairs.mergeSort fun p q => p.1.index ≤ q.1.index).Pairwise
      fun p q => decide (p.1.index ≤ q.1.index) = true :=
    List.pairwise_mergeSort (fun a b c hab hbc => by simp at *; omega) (fun a b => by simp; omega) pairs
  exact isSorted_keepFirst (hsorted.imp fun h => of_decide_eq_true h)

/-- Sorted pairs are told apart by what they put in. The induction is on both lists at once: each first pair
is put in by the other list too, so none of the two comes before the other. -/
theorem IsSorted.eq_of_get?_eq {m m' : Mapper} (hm : IsSorted m) (hm' : IsSorted m')
    (h : ∀ s, get? m s = get? m' s) : m = m' := by
  induction m generalizing m' with
  | nil =>
    cases m' with
    | nil => rfl
    | cons q m' =>
      have hq := h q.1
      rw [get?_cons, if_pos rfl] at hq
      cases hq
  | cons p m ih =>
    cases m' with
    | nil =>
      have hp := h p.1
      rw [get?_cons, if_pos rfl] at hp
      cases hp
    | cons q m' =>
      obtain ⟨hpm, hm₀⟩ := List.pairwise_cons.1 hm
      obtain ⟨hqm, hm₀'⟩ := List.pairwise_cons.1 hm'
      have hp : p ∈ q :: m' := mem_of_get?_eq_some (by rw [← h, get?_cons, if_pos rfl])
      have hq : q ∈ p :: m := mem_of_get?_eq_some (by rw [h, get?_cons, if_pos rfl])
      have hpq : p = q := by
        rcases List.mem_cons.1 hp with heq | hp
        · exact heq
        rcases List.mem_cons.1 hq with heq | hq
        · exact heq.symm
        have hlt := hqm p hp
        have hgt := hpm q hq
        omega
      subst hpq
      congr 1
      apply ih hm₀ hm₀'
      intro s
      -- behind the first pair neither list has its parameter again
      by_cases hs : s = p.1
      · rw [hs, hm.get?_eq_none, hm'.get?_eq_none]
      · simpa only [get?_cons, if_neg hs] using h s

/-- Pairs are stored as one substitution exactly if they put in the same types. -/
theorem ofPairs_eq_iff {pairs pairs' : List (SymbolId × TypeId)} :
    ofPairs pairs = ofPairs pairs' ↔ ∀ s, get? pairs s = get? pairs' s := by
  constructor
  · intro heq s
    rw [← get?_ofPairs, heq, get?_ofPairs]
  · intro h
    apply (isSorted_ofPairs pairs).eq_of_get?_eq (isSorted_ofPairs pairs')
    intro s
    rw [get?_ofPairs, get?_ofPairs, h]

/-- Only no pairs put in nothing. -/
theorem forall_get?_eq_none {m : Mapper} : (∀ s, get? m s = none) ↔ m = [] := by
  constructor
  · intro h
    cases m with
    | nil => rfl
    | cons p m =>
      have hp := h p.1
      rw [get?_cons, if_pos rfl] at hp
      cases hp
  · rintro rfl s
    rfl

theorem ofPairs_ne_nil {pairs : List (SymbolId × TypeId)} (h : pairs ≠ []) : ofPairs pairs ≠ [] := by
  intro hnil
  refine h (forall_get?_eq_none.1 fun s => ?_)
  rw [← get?_ofPairs, hnil]
  rfl

end Mapper

/-! ## Numbers of substitutions -/

namespace TypeTable

variable {t u : TypeTable} {pairs pairs' : List (SymbolId × TypeId)}

section

variable {m : MapperId}

theorem mapper_of_hasMapper (hm : t.hasMapper m) (htu : t.Grows u) :
    u.mapper (some m) = t.mapper (some m) := by
  obtain ⟨pairs, hpairs⟩ := Option.isSome_iff_exists.1 hm
  rw [mapper, mapper, hpairs, htu.mappers _ _ hpairs]

theorem substitute?_of_hasMapper (hm : t.hasMapper m) (htu : t.Grows u) :
    u.substitute? (some m) = t.substitute? (some m) := by
  funext s
  rw [substitute?, substitute?, mapper_of_hasMapper hm htu]

theorem hasMapper_of_grows (hm : t.hasMapper m) (htu : t.Grows u) : u.hasMapper m := by
  obtain ⟨pairs, hpairs⟩ := Option.isSome_iff_exists.1 hm
  rw [hasMapper, htu.mappers _ _ hpairs]
  rfl

end

theorem run_makeMapper (h : pairs ≠ []) : (makeMapper pairs).run t =
    (some ((internMapper pairs).run t).1, ((internMapper pairs).run t).2) := by
  rw [makeMapper, if_neg (by simpa using h)]
  rfl

theorem grows_makeMapper : t.Grows ((makeMapper pairs).run t).2 := by
  by_cases h : pairs = []
  · subst h
    exact Grows.refl t
  · rw [run_makeMapper h]
    exact grows_internMapper

/-- A substitution of given pairs puts in what the pairs say, and there is none only for no pairs. -/
theorem substitute?_makeMapper (t : TypeTable) (pairs : List (SymbolId × TypeId)) :
    let r := (makeMapper pairs).run t
    (∀ T, r.2.substitute? r.1 T = Mapper.get? pairs T) ∧
      (pairs = [] ∨ ∃ m, r.1 = some m ∧ r.2.hasMapper m) := by
  unfold makeMapper
  split
  · rename_i hpairs
    rw [List.isEmpty_iff] at hpairs
    rw [hpairs]
    exact ⟨fun _ => rfl, .inl rfl⟩
  · have hget : ((internMapper pairs).run t).2.mappers.get? ((internMapper pairs).run t).1.index = _ :=
      internMapper_get?
    refine ⟨fun T => ?_, .inr ⟨((internMapper pairs).run t).1, rfl, ?_⟩⟩
    · rw [← Mapper.get?_ofPairs]
      show Mapper.get? (Option.getD (((internMapper pairs).run t).2.mappers.get?
        ((internMapper pairs).run t).1.index) []) T = _
      rw [hget, Option.getD_some]
    · show (((internMapper pairs).run t).2.mappers.get? ((internMapper pairs).run t).1.index).isSome = _
      rw [hget, Option.isSome_some]

/-- What it puts in stays so, however much is stored behind it. -/
theorem substitute?_of_makeMapper (h : ((makeMapper pairs).run t).2.Grows u) (s : SymbolId) :
    u.substitute? ((makeMapper pairs).run t).1 s = Mapper.get? pairs s := by
  obtain ⟨hputs, hsome⟩ := substitute?_makeMapper t pairs
  rw [← hputs]
  obtain rfl | ⟨m, hm, hstored⟩ := hsome
  · rfl
  · rw [hm, substitute?_of_hasMapper hstored h]

/-- Two substitutions of given pairs have one number exactly if they put in the same types, however much
has been stored between them. -/
theorem makeMapper_eq_iff (h : ((makeMapper pairs).run t).2.Grows u) :
    ((makeMapper pairs).run t).1 = ((makeMapper pairs').run u).1 ↔
      ∀ s, Mapper.get? pairs s = Mapper.get? pairs' s := by
  constructor
  · intro heq s
    -- what both put in can be read off the last table
    rw [← substitute?_of_makeMapper (h.trans grows_makeMapper) s, heq,
      substitute?_of_makeMapper (.refl _) s]
  · intro hall
    by_cases hpairs : pairs = []
    · have hpairs' : pairs' = [] := Mapper.forall_get?_eq_none.1 fun s => by rw [← hall, hpairs]; rfl
      rw [hpairs, hpairs']
      rfl
    · have hpairs' : pairs' ≠ [] := by
        rintro rfl
        exact hpairs (Mapper.forall_get?_eq_none.1 hall)
      rw [run_makeMapper hpairs] at h ⊢
      rw [run_makeMapper hpairs']
      have hget := h.mappers _ _ internMapper_get?
      rw [Mapper.ofPairs_eq_iff.2 hall] at hget
      exact congrArg (fun r => some (MapperId.mk r.1)) (Interner.intern_of_get? hget).symm

/-- With one more pair, a substitution puts in the type of the pair, and all else as it did. -/
theorem substitute?_extendMapper {m : Option MapperId} {x : SymbolId} {ty : TypeId}
    (h : ((extendMapper m x ty).run t).2.Grows u) (s : SymbolId) :
    u.substitute? ((extendMapper m x ty).run t).1 s =
      if s = x then some ty else t.substitute? m s :=
  (substitute?_of_makeMapper h s).trans (Mapper.get?_extended (t.mapper m) x ty)

/-- Restricted to some parameters, a substitution puts in for these what it did, and no more. -/
theorem substitute?_restrictMapper {m : Option MapperId} {params : List SymbolId}
    (h : ((restrictMapper m params).run t).2.Grows u) (s : SymbolId) :
    u.substitute? ((restrictMapper m params).run t).1 s =
      if s ∈ params then t.substitute? m s else none :=
  (substitute?_of_makeMapper h s).trans (Mapper.get?_restricted (t.mapper m) params)

/-! ## What is stored of substitutions -/

/-- Every substitution of the table is a list of sorted pairs, and has one at least. -/
def Arranged (t : TypeTable) : Prop :=
  ∀ (i : Nat) (m : Mapper), t.mappers.get? i = some m → m ≠ [] ∧ m.IsSorted

/-- In such a table the number of a substitution stands for what the substitution puts in. -/
theorem Arranged.eq_iff (ht : t.Arranged) {m m' : MapperId} (hm : t.hasMapper m)
    (hm' : t.hasMapper m') :
    m = m' ↔ ∀ s, t.substitute? (some m) s = t.substitute? (some m') s := by
  constructor
  · rintro rfl s
    rfl
  · intro h
    obtain ⟨x, hx⟩ := Option.isSome_iff_exists.1 hm
    obtain ⟨y, hy⟩ := Option.isSome_iff_exists.1 hm'
    have hxy : x = y := by
      apply (ht _ x hx).2.eq_of_get?_eq (ht _ y hy).2
      intro s
      have hs := h s
      rwa [substitute?, substitute?, mapper, mapper, hx, hy] at hs
    rw [hxy] at hx
    exact congrArg MapperId.mk (Interner.get?_inj hx hy)

/-- What a stored substitution holds is what it puts in. -/
theorem Arranged.substitute?_of_mem (ht : t.Arranged) {m : Option MapperId} {x : SymbolId} {ty : TypeId}
    (h : (x, ty) ∈ t.mapper m) : t.substitute? m x = some ty := by
  cases m with
  | none => cases h
  | some m =>
    rw [substitute?]
    rw [mapper] at h ⊢
    cases hget : t.mappers.get? m.index with
    | none =>
      rw [hget] at h
      cases h
    | some pairs =>
      rw [hget] at h
      exact Mapper.IsSorted.get?_of_mem (ht _ pairs hget).2 h

/-- A stored substitution puts in something. -/
theorem Arranged.exists_substitute? (ht : t.Arranged) {m : MapperId} (hm : t.hasMapper m) :
    ∃ s ty, t.substitute? (some m) s = some ty := by
  obtain ⟨pairs, hpairs⟩ := Option.isSome_iff_exists.1 hm
  have hne := (ht _ pairs hpairs).1
  obtain ⟨pair, hpair⟩ := List.exists_mem_of_ne_nil pairs hne
  refine ⟨pair.1, pair.2, ?_⟩
  rw [substitute?, mapper, hpairs]
  exact Mapper.IsSorted.get?_of_mem (ht _ pairs hpairs).2 hpair

/-- What puts in the same is the same, be it a substitution or none. -/
theorem Arranged.eq_of_substitute?_eq (ht : t.Arranged) {m m' : Option MapperId}
    (hm : ∀ i ∈ m, t.hasMapper i) (hm' : ∀ i ∈ m', t.hasMapper i)
    (h : ∀ s, t.substitute? m s = t.substitute? m' s) : m = m' := by
  cases m with
  | none =>
    cases m' with
    | none => rfl
    | some m' =>
      obtain ⟨s, ty, hs⟩ := ht.exists_substitute? (hm' m' rfl)
      cases (h s).trans hs
  | some m =>
    cases m' with
    | none =>
      obtain ⟨s, ty, hs⟩ := ht.exists_substitute? (hm m rfl)
      cases (h s).symm.trans hs
    | some m' => rw [(ht.eq_iff (hm m rfl) (hm' m' rfl)).2 h]

end TypeTable

namespace Stored

open TypeTable

/-- A step stores only substitutions of sorted pairs, and none for no pairs. -/
def Arranges {α : Type} (x : Stored α) : Prop :=
  ∀ t : TypeTable, t.Arranged → (x.run t).2.Arranged

variable {α β : Type} {nullChecks : Bool}

theorem arranges_pure (a : α) : Arranges (pure a : Stored α) := fun _ ht => ht

theorem arranges_bind {x : Stored α} {f : α → Stored β} (hx : Arranges x)
    (hf : ∀ a, Arranges (f a)) : Arranges (x >>= f) := fun t ht => hf _ _ (hx t ht)

theorem arranges_get_bind {f : TypeTable → Stored β} (hf : ∀ t, Arranges (f t)) :
    Arranges (get >>= f) := fun t ht => hf t t ht

theorem arranges_mapM {xs : List α} {f : α → Stored β} (hf : ∀ x, Arranges (f x)) :
    Arranges (xs.mapM f) := by
  induction xs with
  | nil => exact arranges_pure []
  | cons x xs ih =>
    rw [List.mapM_cons]
    exact arranges_bind (hf x) fun y => arranges_bind ih fun ys => arranges_pure (y :: ys)

theorem arranges_store (d : TypeData) : Arranges (store d) := fun _ ht => ht

theorem arranges_intern (k : TypeKind) : Arranges (intern k) := arranges_store _

theorem arranges_makeMapper (pairs : List (SymbolId × TypeId)) : Arranges (makeMapper pairs) := by
  unfold makeMapper
  split
  · exact arranges_pure none
  · rename_i hpairs
    refine arranges_bind (fun t ht i m hm => ?_) fun id => arranges_pure (some id)
    rcases Interner.get?_of_get?_intern hm with hm | ⟨-, rfl⟩
    · exact ht i m hm
    · refine ⟨Mapper.ofPairs_ne_nil fun hnil => ?_, Mapper.isSorted_ofPairs pairs⟩
      exact hpairs (List.isEmpty_iff.2 hnil)

theorem arranges_union (reduction : Bool) (ids : List TypeId) : Arranges (union reduction ids) := by
  refine arranges_get_bind fun t => ?_
  dsimp only
  split
  · exact arranges_pure _
  split
  · exact arranges_pure _
  split
  · exact arranges_pure _
  split
  · exact arranges_pure _
  · exact arranges_pure _
  · exact arranges_intern _

theorem arranges_widen (reduction : Bool) (id : TypeId) : Arranges (widen reduction id) := by
  refine arranges_get_bind fun t => ?_
  split
  · exact arranges_union reduction _
  · exact arranges_pure _

theorem arranges_template (head : String) (spans : List (TypeId × String)) :
    Arranges (template nullChecks head spans) := by
  unfold template
  generalize spans.length + 1 = n
  induction n generalizing spans with
  | zero => exact arranges_pure _
  | succ n ih =>
    rw [descend, templateStep]
    split
    · exact arranges_pure _
    split
    · exact arranges_pure _
    refine arranges_get_bind fun t => ?_
    split
    · exact arranges_bind (arranges_mapM fun m => ih _) fun ids => arranges_union nullChecks ids
    · refine arranges_get_bind fun t => ?_
      dsimp only
      split
      · exact arranges_intern _
      · split
        · exact arranges_pure _
        · exact arranges_intern _
      · exact arranges_intern _

theorem arranges_letteredMember (m : LetterMap) (id : TypeId) : Arranges (letteredMember m id) := by
  refine arranges_get_bind fun t => ?_
  split
  · exact arranges_intern _
  · exact arranges_pure _
  · exact arranges_pure _
  · exact arranges_pure _
  · split
    · exact arranges_pure _
    · exact arranges_intern _
  · exact arranges_intern _

theorem arranges_lettered (m : LetterMap) (id : TypeId) : Arranges (lettered nullChecks m id) := by
  refine arranges_get_bind fun t => ?_
  split
  · refine arranges_bind (arranges_mapM (arranges_letteredMember m)) fun ids => ?_
    exact arranges_union nullChecks ids
  · exact arranges_letteredMember m id

theorem arranges_attachAlias (id : TypeId) (a : AliasRef) : Arranges (attachAlias id a) := by
  refine arranges_get_bind fun t => ?_
  split
  · split
    · exact arranges_store _
    · exact arranges_pure id
  · exact arranges_pure id

theorem arranges_meet (ms : List TypeId) : Arranges (meet ms) := by
  unfold meet
  split
  · exact arranges_pure _
  · exact arranges_pure _
  · exact arranges_intern _

/-- Whatever step a check takes on its table, what is stored of a substitution is sorted pairs. -/
theorem Allowed.arranges {x : Stored α} (h : x.Allowed nullChecks) : x.Arranges := by
  cases h with
  | intern _ => exact arranges_intern _
  | union ids => exact arranges_union nullChecks ids
  | withUndefined id =>
    unfold TypeTable.withUndefined
    split
    · exact arranges_union nullChecks _
    · exact arranges_pure id
  | widen reduction id => exact arranges_widen reduction id
  | template head spans => exact arranges_template head spans
  | lettered m id => exact arranges_lettered m id
  | makeMapper pairs => exact arranges_makeMapper pairs
  | extendMapper m s id => exact arranges_get_bind fun t => arranges_makeMapper _
  | restrictMapper m params => exact arranges_get_bind fun t => arranges_makeMapper _
  | objectOf s => exact arranges_bind (fun _ ht => ht) fun id => arranges_intern _
  | attachAlias id a => exact arranges_attachAlias id a

end Stored

namespace TypeTable

/-- In whatever table a check has come to, its substitutions are sorted pairs, and none is empty. -/
theorem Later.arranged {nullChecks : Bool} {t u : TypeTable} (h : t.Later nullChecks u)
    (ht : t.Arranged) : u.Arranged := by
  induction h with
  | refl => exact ht
  | step _ hx ih => exact hx.arranges _ (ih ht)
  | written decl m _ ih => exact Stored.arranges_intern _ _ (ih ht)
  | meet _ _ _ _ ih ih' => exact Stored.arranges_meet _ _ (ih' (ih ht))

theorem arranged_initial : initial.Arranged := by
  have hmappers (ks : List TypeKind) (t : TypeTable) :
      ((ks.forM fun k => discard (intern k)).run t).2.mappers = t.mappers := by
    induction ks generalizing t with
    | nil => rfl
    | cons k ks ih => exact ih _
  intro i pairs h
  unfold initial at h
  rw [hmappers] at h
  cases h

end TypeTable

end DeclKit

/-
Intersections are stored in normal form.

The members of a stored intersection are no intersections, so opening the operands once is enough. What
stays after unions are multiplied out and `unknown` is dropped goes together: each member once, and
none of a kind that may not stand in an intersection. That is still so in a later table, when it has
become known which object types are empty.
-/
import DeclKit.Proofs.Types.Template

set_option autoImplicit false

namespace DeclKit

theorem List.nodup_eraseDups {α : Type} [BEq α] [LawfulBEq α] (as : List α) :
    as.eraseDups.Nodup := by
  induction h : as.length using Nat.strongRecOn generalizing as with
  | ind n ih =>
    cases as with
    | nil => exact List.nodup_nil
    | cons a as =>
      rw [List.eraseDups_cons, List.nodup_cons]
      refine ⟨fun ha => ?_, ih _ ?_ _ rfl⟩
      · have := (List.mem_filter.1 (List.mem_eraseDups.1 ha)).2
        rw [beq_self_eq_true] at this
        cases this
      · rw [← h, List.length_cons]
        exact Nat.lt_succ_of_le (List.length_filter_le _ as)

theorem List.eraseDups_of_nodup {α : Type} [BEq α] [LawfulBEq α] {as : List α} (h : as.Nodup) :
    as.eraseDups = as := by
  induction as with
  | nil => rfl
  | cons a as ih =>
    rw [List.nodup_cons] at h
    rw [List.eraseDups_cons, List.filter_eq_self.2 fun b hb => ?_, ih h.2]
    simpa using fun heq : b = a => h.1 (heq ▸ hb)

theorem List.eraseDups_sublist {α : Type} [BEq α] (as : List α) : as.eraseDups.Sublist as := by
  induction h : as.length using Nat.strongRecOn generalizing as with
  | ind n ih =>
    cases as with
    | nil => exact List.Sublist.refl []
    | cons a as =>
      rw [List.eraseDups_cons]
      refine ((ih _ ?_ _ rfl).trans List.filter_sublist).cons_cons a
      rw [← h, List.length_cons]
      exact Nat.lt_succ_of_le (List.length_filter_le _ as)

namespace TypeTable

variable {nullChecks : Bool} {t u : TypeTable}

/-! ## Opening the operands -/

/-- Opening a type once is enough: whatever becomes of its members, as long as those that are no
intersections stay. -/
theorem conjunctsStep_eq (ht : t.Normal nullChecks) {inner : TypeId → List TypeId}
    (hinner : ∀ m, (∀ ms, t.kind m ≠ .intersection ms) → inner m = [m]) (id : TypeId) :
    t.conjunctsStep inner id = t.conjunctsStep (fun m => [m]) id := by
  unfold conjunctsStep
  split
  · rename_i ms hk
    have hform := ht.intersection hk
    rw [List.flatMap_def, List.flatMap_def]
    refine congrArg List.flatten (List.map_congr_left fun m hm => hinner m fun ms' hk' => ?_)
    have := hform.plain m hm
    rw [hk'] at this
    cases this
  · rfl

/-- A type that is no intersection is its own only conjunct. -/
theorem conjunctsStep_of_not_intersection {inner : TypeId → List TypeId} {id : TypeId}
    (h : ∀ ms, t.kind id ≠ .intersection ms) : t.conjunctsStep inner id = [id] := by
  unfold conjunctsStep
  split
  · rename_i ms hk
    exact absurd hk (h ms)
  · rfl

theorem conjuncts_eq (ht : t.Normal nullChecks) (id : TypeId) :
    t.conjuncts id = t.conjunctsStep (fun m => [m]) id := by
  refine conjunctsStep_eq ht (fun m hm => ?_) id
  cases id.index with
  | zero => rfl
  | succ n => exact conjunctsStep_of_not_intersection hm

/-- The conjuncts are found in two steps, and the second goes no further. -/
theorem descend_conjunctsStep (ht : t.Normal nullChecks) (bottom : TypeId → List TypeId) (n : Nat)
    (id : TypeId) : descend t.conjunctsStep bottom (n + 2) id = t.conjuncts id := by
  rw [conjuncts_eq ht]
  exact conjunctsStep_eq ht (fun m hm => conjunctsStep_of_not_intersection hm) id

/-- No conjunct is an intersection. -/
theorem not_intersection_of_mem_conjuncts (ht : t.Normal nullChecks) {id m : TypeId}
    (hm : m ∈ t.conjuncts id) : ∀ ms, t.kind m ≠ .intersection ms := by
  intro ms hk
  rw [conjuncts_eq ht, conjunctsStep] at hm
  split at hm
  · rename_i ms' hid
    have hform := ht.intersection hid
    obtain ⟨n, hn, hm⟩ := List.mem_flatMap.1 hm
    rw [List.mem_singleton.1 hm] at hk
    have := hform.plain n hn
    rw [hk] at this
    cases this
  · rename_i hid
    rw [List.mem_singleton.1 hm] at hk
    exact hid ms hk

theorem not_intersection_of_mem_operands (ht : t.Normal nullChecks) {ids : List TypeId}
    {m : TypeId} (hm : m ∈ t.operands ids) : ∀ ms, t.kind m ≠ .intersection ms := by
  obtain ⟨id, -, hm⟩ := List.mem_flatMap.1 (List.mem_eraseDups.1 hm)
  exact not_intersection_of_mem_conjuncts ht hm

/-- Opening an operand brings up no unions. -/
theorem unions_conjuncts (ht : t.Normal nullChecks) (i : TypeId) :
    t.unions id (t.conjuncts i) ≤ t.unions id [i] := by
  rw [conjuncts_eq ht, conjunctsStep]
  split
  · rename_i ms hk
    refine Nat.le_trans (Nat.le_of_eq (List.countP_eq_zero.2 fun m hm => ?_)) (Nat.zero_le _)
    obtain ⟨n, hn, hm⟩ := List.mem_flatMap.1 hm
    have hplain := (ht.intersection hk).plain n hn
    rw [List.mem_singleton.1 hm, id_eq]
    cases hkn : t.kind n with
    | union ms' =>
      rw [hkn] at hplain
      cases hplain
    | _ => exact Bool.false_ne_true
  · exact Nat.le_refl _

/-- There are no more unions among the operands than there were among the types. -/
theorem unions_operands (ht : t.Normal nullChecks) (ids : List TypeId) :
    t.unions id (t.operands ids) ≤ t.unions id ids := by
  refine Nat.le_trans (List.eraseDups_sublist _).countP_le ?_
  induction ids with
  | nil => exact Nat.le_refl 0
  | cons i ids ih =>
    rw [List.flatMap_cons, List.countP_append, unions, ← List.singleton_append, List.countP_append]
    exact Nat.add_le_add (unions_conjuncts ht i) ih

/-- What the intersection of types comes to. Operands that settle it are absent where a union is
multiplied out or members are left, and a union is multiplied out where there is one. -/
theorem meeting_spec (t : TypeTable) (nullChecks : Bool) (ids : List TypeId) :
    match t.meeting nullChecks ids with
    | .type _ => True
    | .expand s => t.splitAtUnion? id ((t.operands ids).filter (· != .unknown)) = some s
    | .members ms =>
      (∀ i ∈ [TypeId.never, .error, .any], i ∉ t.operands ids) ∧
      t.splitAtUnion? id ((t.operands ids).filter (· != .unknown)) = none ∧
      t.isDisjoint nullChecks ((t.operands ids).filter (· != .unknown)) = false ∧
      ms = t.withoutImplied ((t.operands ids).filter (· != .unknown)) := by
  unfold meeting
  dsimp only
  by_cases hnever : (t.operands ids).contains .never
  · rw [if_pos hnever]
    trivial
  by_cases herror : (t.operands ids).contains .error
  · rw [if_neg hnever, if_pos herror]
    trivial
  by_cases hany : (t.operands ids).contains .any
  · rw [if_neg hnever, if_neg herror, if_pos hany]
    trivial
  rw [if_neg hnever, if_neg herror, if_neg hany]
  cases hsplit : t.splitAtUnion? id ((t.operands ids).filter (· != .unknown)) with
  | some s => rfl
  | none =>
    dsimp only
    by_cases hdisjoint : t.isDisjoint nullChecks ((t.operands ids).filter (· != .unknown))
    · rw [if_pos hdisjoint]
      trivial
    rw [if_neg hdisjoint]
    rw [List.contains_iff_mem] at hnever herror hany
    rw [List.forall_mem_cons, List.forall_mem_cons, List.forall_mem_singleton]
    exact ⟨⟨hnever, herror, hany⟩, rfl, Bool.eq_false_iff.2 hdisjoint, rfl⟩

/-- Where a union is multiplied out there are fewer unions left. -/
theorem unions_of_meeting (ht : t.Normal nullChecks) {ids : List TypeId} {s : UnionSplit TypeId}
    (h : t.meeting nullChecks ids = .expand s) {m : TypeId} (hm : m ∈ s.members) :
    t.unions id (s.withPart m) < t.unions id ids := by
  have hsplit := meeting_spec t nullChecks ids
  rw [h] at hsplit
  have hk := (splitAtUnion?_spec hsplit).2
  calc
    t.unions id (s.withPart m) < t.unions id ((t.operands ids).filter (· != .unknown)) :=
      unions_withPart hsplit (ht.not_union_of_mem hk hm)
    _ ≤ t.unions id (t.operands ids) := List.filter_sublist.countP_le
    _ ≤ t.unions id ids := unions_operands ht ids

/-! ## What stays -/

/-- Neighbours do not differ if no two elements do. -/
theorem hasDifference_eq_false_iff {α : Type} [DecidableEq α] {as : List α} :
    hasDifference as = false ↔ ∀ a ∈ as, ∀ b ∈ as, a = b := by
  induction as with
  | nil => simp [hasDifference]
  | cons a as ih =>
    cases as with
    | nil => simp [hasDifference]
    | cons b rest =>
      rw [hasDifference, Bool.or_eq_false_iff, ih, decide_eq_false_iff_not, Decidable.not_not]
      constructor
      · rintro ⟨rfl, hall⟩ x hx y hy
        exact hall x (List.mem_of_mem_cons_of_mem hx List.mem_cons_self) y
          (List.mem_of_mem_cons_of_mem hy List.mem_cons_self)
      · intro hall
        refine ⟨hall a List.mem_cons_self b (List.mem_cons_of_mem _ List.mem_cons_self), ?_⟩
        exact fun x hx y hy => hall x (List.mem_cons_of_mem _ hx) y (List.mem_cons_of_mem _ hy)

/-- Members that go together still do when some of them are left out. -/
theorem isDisjoint_of_subset {ms ms' : List TypeId} (h : t.isDisjoint nullChecks ms = false)
    (hsub : ms' ⊆ ms) : t.isDisjoint nullChecks ms' = false := by
  unfold isDisjoint at h ⊢
  simp only [Bool.or_eq_false_iff, hasDifference_eq_false_iff] at h ⊢
  obtain ⟨⟨⟨hdomains, hbeside⟩, hunits⟩, hmisfit⟩ := h
  have hdomain : ms'.filterMap t.domain? ⊆ ms.filterMap t.domain? := List.filterMap_subset _ hsub
  have hunit : ms'.filter t.isUnit ⊆ ms.filter t.isUnit := List.filter_subset _ hsub
  refine ⟨⟨⟨fun d hd e he => hdomains d (hdomain hd) e (hdomain he), ?_⟩,
    fun u hu v hv => hunits u (hunit hu) v (hunit hv)⟩, ?_⟩
  · cases hds : ms'.filterMap t.domain? with
    | nil => rfl
    | cons d ds =>
      have hd : d ∈ ms.filterMap t.domain? := hdomain (hds ▸ List.mem_cons_self)
      cases hes : ms.filterMap t.domain? with
      | nil =>
        rw [hes] at hd
        cases hd
      | cons e es =>
        obtain rfl : d = e := hdomains d hd e (hes ▸ List.mem_cons_self)
        rw [hes] at hbeside
        dsimp only at hbeside ⊢
        rw [Bool.or_eq_false_iff] at hbeside ⊢
        have hcontains : ms'.contains .object → ms.contains .object := by
          rw [List.contains_iff_mem, List.contains_iff_mem]
          exact fun h => hsub h
        have hany : ms'.any t.isObjectLike → ms.any t.isObjectLike := by
          rw [List.any_eq_true, List.any_eq_true]
          exact fun ⟨m, hm, h⟩ => ⟨m, hsub hm, h⟩
        refine ⟨Bool.eq_false_iff.2 fun h => ?_, Bool.eq_false_iff.2 fun h => ?_⟩
        · rw [hcontains h] at hbeside
          cases hbeside.1
        · rw [Bool.and_eq_true] at h
          rw [h.1, hany h.2] at hbeside
          cases hbeside.2
  · cases hus : ms'.filter t.isUnit with
    | nil => rfl
    | cons m more =>
      have hm : m ∈ ms.filter t.isUnit := hunit (hus ▸ List.mem_cons_self)
      cases hvs : ms.filter t.isUnit with
      | nil =>
        rw [hvs] at hm
        cases hm
      | cons n rest =>
        obtain rfl : m = n := hunits m hm n (hvs ▸ List.mem_cons_self)
        rw [hvs] at hmisfit
        dsimp only at hmisfit ⊢
        cases hk : t.kind m with
        | stringLiteral text =>
          rw [hk] at hmisfit
          dsimp only at hmisfit ⊢
          rw [Bool.not_eq_false', List.all_eq_true] at hmisfit ⊢
          exact fun i hi => hmisfit i (hsub hi)
        | _ => rfl

theorem withoutImplied_sublist (ms : List TypeId) : (t.withoutImplied ms).Sublist ms := by
  unfold withoutImplied
  split
  · exact List.filter_sublist
  split
  · exact List.filter_sublist
  · exact List.Sublist.refl ms

/-- What others imply is left out once and for all. -/
theorem withoutImplied_of_sublist (ht : t.Normal nullChecks) {ms ms' : List TypeId}
    (hsub : ms'.Sublist (t.withoutImplied ms)) : t.withoutImplied ms' = ms' := by
  have hall : ms' ⊆ ms := fun m hm => (withoutImplied_sublist ms).subset (hsub.subset hm)
  have hany {p : TypeId → Bool} (h : ms.any p = false) : ms'.any p = false := by
    rw [List.any_eq_false] at h ⊢
    exact fun m hm => h m (hall hm)
  have hstring (h : ∀ m ∈ ms', m ≠ .string) : ms'.filter (· != .string) = ms' :=
    List.filter_eq_self.2 fun m hm => bne_iff_ne.2 (h m hm)
  unfold withoutImplied at hsub
  unfold withoutImplied
  cases hunit : ms.any t.isUnit with
  | true =>
    rw [hunit, if_pos rfl] at hsub
    have himplied (m : TypeId) (hm : m ∈ ms') : t.isImpliedByLiteral m = false := by
      simpa using (List.mem_filter.1 (hsub.subset hm)).2
    split
    · exact List.filter_eq_self.2 fun m hm => by rw [himplied m hm]; rfl
    split
    · refine hstring fun m hm heq => ?_
      have hm := himplied m hm
      rw [isImpliedByLiteral, heq, show t.kind .string = .string from ht.kind_fixed rfl] at hm
      cases hm
    · rfl
  | false =>
    rw [hunit, if_neg Bool.false_ne_true] at hsub
    rw [hany hunit, if_neg Bool.false_ne_true]
    cases hpattern : ms.any t.isStringPattern with
    | true =>
      rw [hpattern, if_pos rfl] at hsub
      split
      · exact hstring fun m hm => bne_iff_ne.1 (List.mem_filter.1 (hsub.subset hm)).2
      · rfl
    | false => rw [hany hpattern, if_neg Bool.false_ne_true]

/-- Members that go together, each once. -/
structure Together (nullChecks : Bool) (t : TypeTable) (ms : List TypeId) : Prop where
  distinct : ms.Nodup
  plain : ∀ m ∈ ms, (t.kind m).inIntersection
  meets : t.Meets nullChecks ms

theorem Together.sublist (ht : t.Normal nullChecks) {ms ms' : List TypeId}
    (h : t.Together nullChecks ms) (hsub : ms'.Sublist ms) : t.Together nullChecks ms' where
  distinct := h.distinct.sublist hsub
  plain m hm := h.plain m (hsub.subset hm)
  meets := ⟨isDisjoint_of_subset h.meets.joint hsub.subset,
    withoutImplied_of_sublist ht (h.meets.unimplied.symm ▸ hsub)⟩

theorem Together.grows {ms : List TypeId} (h : t.Together nullChecks ms) (htu : t.Grows u) :
    u.Together nullChecks ms := by
  refine ⟨h.distinct, fun m hm => ?_, h.meets.grows h.plain htu⟩
  rw [htu.kind_eq_of rfl (h.plain m hm)]
  exact h.plain m hm

/-- The members that an intersection comes to go together. -/
theorem together_of_meeting (ht : t.Normal nullChecks) {ids ms : List TypeId}
    (h : t.meeting nullChecks ids = .members ms) : t.Together nullChecks ms := by
  have hspec := meeting_spec t nullChecks ids
  rw [h] at hspec
  obtain ⟨habsent, hnone, hjoint, rfl⟩ := hspec
  have hsub : (t.withoutImplied ((t.operands ids).filter (· != .unknown))).Sublist _ :=
    withoutImplied_sublist _
  refine ⟨((List.nodup_eraseDups _).sublist List.filter_sublist).sublist hsub, fun m hm => ?_,
    isDisjoint_of_subset hjoint hsub.subset, withoutImplied_of_sublist ht (List.Sublist.refl _)⟩
  -- what may not stand in an intersection is ruled out by its number, or by the tests for its kind
  obtain ⟨hmem, hunknown⟩ := List.mem_filter.1 (hsub.subset hm)
  have absent {i : TypeId} (hi : i ∈ [TypeId.never, .error, .any]) : m ≠ i := by
    rintro rfl
    exact habsent m hi hmem
  cases hk : t.kind m with
  | intersection ms => exact absurd hk (not_intersection_of_mem_operands ht hmem ms)
  | union ms => exact absurd hk (not_union_of_splitAtUnion? hnone m (hsub.subset hm) ms)
  | never => exact absurd (ht.eq_of_kind (i := 13) rfl rfl hk) (absent (by decide))
  | any => exact absurd (ht.eq_of_kind (i := 0) rfl rfl hk) (absent (by decide))
  | error => exact absurd (ht.eq_of_kind (i := 1) rfl rfl hk) (absent (by decide))
  | unknown => exact absurd (ht.eq_of_kind (i := 2) rfl rfl hk) (bne_iff_ne.1 hunknown)
  | _ => rfl

/-- Members that go together come to themselves. -/
theorem meeting_of_together (ht : t.Normal nullChecks) {ms : List TypeId}
    (h : t.Together nullChecks ms) : t.meeting nullChecks ms = .members ms := by
  have hconjuncts (m : TypeId) (hm : m ∈ ms) : t.conjuncts m = [m] := by
    rw [conjuncts_eq ht]
    refine conjunctsStep_of_not_intersection fun ms' hk => ?_
    have hplain := h.plain m hm
    rw [hk] at hplain
    cases hplain
  have hoperands : t.operands ms = ms := by
    rw [operands, List.flatMap_def, List.map_congr_left hconjuncts, ← List.flatMap_def,
      List.flatMap_singleton']
    exact List.eraseDups_of_nodup h.distinct
  have habsent {i : Nat} {k : TypeKind} (hi : intrinsics[i]? = some k) (hk : k.inIntersection = false) :
      (⟨i⟩ : TypeId) ∉ ms := by
    intro hm
    have hplain := h.plain _ hm
    rw [ht.kind_fixed hi, hk] at hplain
    cases hplain
  have hsplit : t.splitAtUnion? id ms = none := by
    rw [Option.eq_none_iff_forall_ne_some]
    intro s hs
    obtain ⟨hms, hk⟩ := splitAtUnion?_spec hs
    have hm : s.part ∈ ms := by
      rw [hms]
      exact List.mem_append_right _ List.mem_cons_self
    have hplain := h.plain _ hm
    rw [show t.kind s.part = _ from hk] at hplain
    cases hplain
  have hcontains {i : TypeId} (hi : i ∉ ms) : ¬ms.contains i := by rwa [List.contains_iff_mem]
  have hnever : TypeId.never ∉ ms := habsent (i := 13) rfl rfl
  have herror : TypeId.error ∉ ms := habsent (i := 1) rfl rfl
  have hany : TypeId.any ∉ ms := habsent (i := 0) rfl rfl
  have hunknown : TypeId.unknown ∉ ms := habsent (i := 2) rfl rfl
  have hkept : ms.filter (· != .unknown) = ms :=
    List.filter_eq_self.2 fun m hm => bne_iff_ne.2 fun heq => hunknown (heq ▸ hm)
  unfold meeting
  dsimp only
  rw [hoperands, if_neg (hcontains hnever), if_neg (hcontains herror), if_neg (hcontains hany), hkept,
    hsplit, h.meets.joint, h.meets.unimplied]
  rfl

end TypeTable

namespace Stored

open TypeTable

variable {nullChecks : Bool}

theorem grows_meet (t : TypeTable) (ms : List TypeId) : t.Grows ((meet ms).run t).2 := by
  unfold meet
  split
  · exact Grows.refl t
  · exact Grows.refl t
  · exact grows_store

theorem keeps_meet {t : TypeTable} {ms : List TypeId}
    (h : t.Normal nullChecks → t.Together nullChecks ms) :
    t.Keeps nullChecks ((meet ms).run t).2 := by
  unfold meet
  split
  · exact keeps_pure TypeId.unknown t
  · exact keeps_pure _ t
  · rename_i hnil hone
    refine TypeTable.keeps_intern fun ht => ⟨⟨?_, (h ht).distinct, (h ht).plain⟩, (h ht).meets⟩
    rcases ms with _ | ⟨m, _ | ⟨n, ms⟩⟩
    · exact absurd rfl hnil
    · exact absurd rfl (hone m)
    · exact Nat.le_add_left 2 ms.length

end Stored

/-! ## What is stored

Intersections and written types are stored by steps of their own. All other steps store types of other
kinds only, or types again that are there already. -/

/-- A kind of type that is not `string` written as a template. -/
def TypeKind.isProper : TypeKind → Bool
  | .template head spans => head != "" || spans != [(.string, "")]
  | _ => true

/-- A kind of type that any step may store. -/
def TypeKind.isOrdinary : TypeKind → Bool
  | .intersection _ | .written .. => false
  | k => k.isProper

/-- Every type in the table is of a kind with some property. -/
def TypeTable.Every (P : TypeKind → Prop) (t : TypeTable) : Prop :=
  ∀ (i : Nat) (d : TypeData), t.types.get? i = some d → P d.kind

namespace Stored

open TypeTable

variable {α β : Type} {nullChecks : Bool} {P : TypeKind → Prop}

/-- A step keeps a property of all kinds in the table. -/
def Stocks (P : TypeKind → Prop) {α : Type} (x : Stored α) : Prop :=
  ∀ t : TypeTable, t.Every P → (x.run t).2.Every P

theorem stocks_pure (a : α) : Stocks P (pure a : Stored α) := fun _ ht => ht

theorem stocks_bind {x : Stored α} {f : α → Stored β} (hx : Stocks P x) (hf : ∀ a, Stocks P (f a)) :
    Stocks P (x >>= f) := fun t ht => hf _ _ (hx t ht)

/-- A step that looks at the table first may rely on what is in it. -/
theorem stocks_get_bind {f : TypeTable → Stored β} (hf : ∀ t : TypeTable, t.Every P → Stocks P (f t)) :
    Stocks P (get >>= f) :=
  fun t ht => hf t ht t ht

theorem stocks_mapM {xs : List α} {f : α → Stored β} (hf : ∀ x, Stocks P (f x)) :
    Stocks P (xs.mapM f) := by
  induction xs with
  | nil => exact stocks_pure []
  | cons x xs ih =>
    rw [List.mapM_cons]
    exact stocks_bind (hf x) fun y => stocks_bind ih fun ys => stocks_pure (y :: ys)

theorem stocks_store {d : TypeData} (hd : P d.kind) : Stocks P (store d) := by
  intro t ht i e he
  rcases get?_of_store he with he | ⟨-, rfl⟩
  · exact ht i e he
  · exact hd

theorem stocks_intern {k : TypeKind} (hk : P k) : Stocks P (intern k) := stocks_store hk

theorem stocks_makeMapper (pairs : List (SymbolId × TypeId)) : Stocks P (makeMapper pairs) := by
  unfold makeMapper
  split
  · exact stocks_pure none
  · exact stocks_bind (fun _ ht => ht) fun id => stocks_pure (some id)

/-- A type that is stored again with an alias keeps its kind. -/
theorem stocks_attachAlias (id : TypeId) (a : AliasRef) : Stocks P (attachAlias id a) := by
  refine stocks_get_bind fun t ht => ?_
  split
  · rename_i d hd
    split
    · exact stocks_store (ht _ d hd)
    · exact stocks_pure id
  · exact stocks_pure id

/-- Members that go together are stored as an intersection or not at all. -/
theorem stocks_meet {ms : List TypeId} (h : P (.intersection ms)) : Stocks P (meet ms) := by
  unfold meet
  split
  · exact stocks_pure _
  · exact stocks_pure _
  · exact stocks_intern h

section

variable (hP : ∀ k : TypeKind, k.isOrdinary → P k)

include hP

theorem stocks_union (reduction : Bool) (ids : List TypeId) : Stocks P (union reduction ids) := by
  refine stocks_get_bind fun t _ => ?_
  dsimp only
  split
  · exact stocks_pure _
  split
  · exact stocks_pure _
  split
  · exact stocks_pure _
  split
  · exact stocks_pure _
  · exact stocks_pure _
  · exact stocks_intern (hP _ rfl)

theorem stocks_widen (reduction : Bool) (id : TypeId) : Stocks P (widen reduction id) := by
  refine stocks_get_bind fun t _ => ?_
  split
  · exact stocks_union hP reduction _
  · exact stocks_pure _

/-- What is flat is stored as a template only if it is not `string` alone. -/
theorem stocks_flatTemplate (head : String) (spans : List (TypeId × String)) :
    Stocks P (flatTemplate head spans) := by
  refine stocks_get_bind fun t _ => ?_
  dsimp only
  split
  · exact stocks_intern (hP _ rfl)
  · split
    · exact stocks_pure _
    · rename_i hstring
      refine stocks_intern (hP _ ?_)
      simp only [Bool.and_eq_true, beq_iff_eq, String.isEmpty_iff] at hstring
      simp only [TypeKind.isOrdinary, TypeKind.isProper, Bool.or_eq_true, bne_iff_ne, ne_eq,
        List.cons.injEq, and_true, Prod.mk.injEq]
      refine Decidable.or_iff_not_imp_left.2 fun hhead htail => hstring ⟨⟨htail.1, ?_⟩, htail.2⟩
      exact Decidable.not_not.1 hhead
  · rename_i hone
    refine stocks_intern (hP _ ?_)
    simp only [TypeKind.isOrdinary, TypeKind.isProper, Bool.or_eq_true, bne_iff_ne, ne_eq]
    exact .inr fun heq => hone _ _ heq

theorem stocks_template (head : String) (spans : List (TypeId × String)) :
    Stocks P (template nullChecks head spans) := by
  unfold template
  generalize spans.length + 1 = n
  induction n generalizing spans with
  | zero => exact stocks_pure _
  | succ n ih =>
    rw [descend, templateStep]
    split
    · exact stocks_pure _
    split
    · exact stocks_pure _
    refine stocks_get_bind fun t _ => ?_
    split
    · exact stocks_bind (stocks_mapM fun m => ih _) fun ids => stocks_union hP nullChecks ids
    · exact stocks_flatTemplate hP head spans

theorem stocks_letteredMember (m : LetterMap) (id : TypeId) : Stocks P (letteredMember m id) := by
  refine stocks_get_bind fun t _ => ?_
  split
  · exact stocks_intern (hP _ rfl)
  · exact stocks_pure _
  · exact stocks_pure _
  · exact stocks_pure _
  · split
    · exact stocks_pure _
    · exact stocks_intern (hP _ rfl)
  · exact stocks_intern (hP _ rfl)

theorem stocks_lettered (m : LetterMap) (id : TypeId) : Stocks P (lettered nullChecks m id) := by
  refine stocks_get_bind fun t _ => ?_
  split
  · exact stocks_bind (stocks_mapM (stocks_letteredMember hP m)) fun ids => stocks_union hP nullChecks ids
  · exact stocks_letteredMember hP m id

/-- Steps that a check can take on its table store types of ordinary kinds, apart from those that it
stores again with an alias. -/
theorem Allowed.stocks {x : Stored α} (h : x.Allowed nullChecks) : x.Stocks P := by
  cases h with
  | @intern k hk =>
    refine stocks_intern (hP k ?_)
    cases k with
    | template | intersection | written => cases hk
    | _ => rfl
  | union ids => exact stocks_union hP nullChecks ids
  | withUndefined id =>
    unfold TypeTable.withUndefined
    split
    · exact stocks_union hP nullChecks _
    · exact stocks_pure id
  | widen reduction id => exact stocks_widen hP reduction id
  | template head spans => exact stocks_template hP head spans
  | lettered m id => exact stocks_lettered hP m id
  | makeMapper pairs => exact stocks_makeMapper pairs
  | extendMapper m s id => exact stocks_get_bind fun t _ => stocks_makeMapper _
  | restrictMapper m params => exact stocks_get_bind fun t _ => stocks_makeMapper _
  | objectOf s => exact stocks_bind (fun _ ht => ht) fun id => stocks_intern (hP _ rfl)
  | attachAlias id a => exact stocks_attachAlias id a

end

end Stored

/-! ## Steps of a check

Each step of a table keeps it normal, and so does an intersection of members that went together in an
earlier table: their kinds are the same in every later one. -/

variable {nullChecks : Bool}

namespace Stored

/-- Every step that a check can take on its table keeps it normal. -/
theorem Allowed.keeps {α : Type} {x : Stored α} (h : x.Allowed nullChecks) :
    x.Keeps nullChecks := by
  cases h with
  | intern hplain => exact keeps_intern hplain
  | union ids => exact keeps_union nullChecks ids
  | withUndefined id => exact keeps_withUndefined nullChecks id
  | widen reduction id => exact keeps_widen reduction id
  | template head spans => exact keeps_template nullChecks head spans
  | lettered m id => exact keeps_lettered nullChecks m id
  | makeMapper pairs => exact keeps_makeMapper pairs
  | extendMapper m s id => exact keeps_get_bind fun t => keeps_makeMapper _ t
  | restrictMapper m params => exact keeps_get_bind fun t => keeps_makeMapper _ t
  | objectOf s => exact keeps_objectOf s
  | attachAlias id a => exact keeps_attachAlias id a

end Stored

namespace TypeTable

/-- What is in a table stays there, and a normal table stays normal, whatever steps are taken. -/
theorem Later.keeps {t u : TypeTable} (h : t.Later nullChecks u) : t.Keeps nullChecks u := by
  induction h with
  | refl t => exact Keeps.refl nullChecks t
  | step _ hx ih => exact ih.trans (hx.keeps _)
  | written decl m _ ih => exact ih.trans (keeps_intern fun _ => trivial)
  | @meet t u v ids ms kept _ hmeet _ hsub ih ih' =>
    refine ⟨(ih.trans ih').1.trans (Stored.grows_meet v kept), fun ht => ?_⟩
    -- the members have gone together in `u`, and they still do in `v`
    have htogether := (together_of_meeting (ih.2 ht) hmeet).grows ih'.1
    exact (Stored.keeps_meet fun hv => htogether.sublist hv hsub).2 (ih'.2 (ih.2 ht))

end TypeTable

end DeclKit

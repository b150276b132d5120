/-
Unions are stored in normal form.

Members are collected each once, and only types that may stand in a union are; a union among them is
opened, and its members are no unions again. What is left after the reduction is in order, nothing in
it covers anything else, and the numbers decide what has been covered, since `string`, `number`,
`bigint`, `void`, `null` and `undefined` have no second numbers.
-/
import DeclKit.Proofs.Types.Normal

set_option autoImplicit false

namespace DeclKit.TypeTable

variable {nullChecks : Bool} {t : TypeTable}

/-! ## Collecting -/

/-- A set of types that holds the members of the unions in it. -/
def Opened (t : TypeTable) (S : TypeId → Prop) : Prop :=
  ∀ id ms, S id → t.kind id = .union ms → ∀ m ∈ ms, S m

/-- What has been collected from types of a set: each member once, only what may stand in a union, and
only types of the set. -/
structure Collected (t : TypeTable) (S : TypeId → Prop) (p : UnionParts) : Prop where
  distinct : p.members.toList.Nodup
  plain : ∀ m ∈ p.members.toList, (t.kind m).inUnion
  within : ∀ m ∈ p.members.toList, S m

section

variable {S : TypeId → Prop}

theorem Collected.empty : Collected t S {} :=
  ⟨List.nodup_nil, fun _ hm => absurd hm List.not_mem_nil, fun _ hm => absurd hm List.not_mem_nil⟩

theorem Collected.add {p : UnionParts} {id : TypeId} (hp : Collected t S p)
    (hid : (t.kind id).inUnion) (hS : S id) : Collected t S (p.add id) := by
  unfold UnionParts.add
  split
  · exact hp
  · rename_i hnot
    have hnot : id ∉ p.members.toList := by simpa using hnot
    have hmem {m : TypeId} (hm : m ∈ (p.members.push id).toList) :
        m ∈ p.members.toList ∨ m = id := by simpa using hm
    refine ⟨?_, fun m hm => ?_, fun m hm => ?_⟩
    · rw [Array.toList_push, List.nodup_append]
      refine ⟨hp.distinct, by simp, fun a ha b hb heq => hnot ?_⟩
      rw [← List.mem_singleton.1 hb, ← heq]
      exact ha
    · rcases hmem hm with hm | rfl
      · exact hp.plain m hm
      · exact hid
    · rcases hmem hm with hm | rfl
      · exact hp.within m hm
      · exact hS

theorem Collected.foldl {f : UnionParts → TypeId → UnionParts} {ids : List TypeId}
    {p : UnionParts} (hf : ∀ p id, S id → Collected t S p → Collected t S (f p id))
    (hids : ∀ id ∈ ids, S id) (hp : Collected t S p) : Collected t S (ids.foldl f p) := by
  induction ids generalizing p with
  | nil => exact hp
  | cons id ids ih =>
    rw [List.forall_mem_cons] at hids
    exact ih hids.2 (hf p id hids.1 hp)

theorem Collected.step (hopened : t.Opened S) {inner : TypeId → UnionParts → UnionParts}
    (hinner : ∀ m p, S m → Collected t S p → Collected t S (inner m p)) {p : UnionParts}
    {id : TypeId} (hid : S id) (hp : Collected t S p) : Collected t S (t.collectStep inner id p) := by
  unfold collectStep
  split
  · rename_i ms hk
    exact hp.foldl (fun p m => hinner m p) (hopened id ms hid hk)
  · exact hp
  · exact ⟨hp.distinct, hp.plain, hp.within⟩
  · exact ⟨hp.distinct, hp.plain, hp.within⟩
  · exact ⟨hp.distinct, hp.plain, hp.within⟩
  · rename_i hunion hnever hany herror hunknown
    refine hp.add ?_ hid
    cases hk : t.kind id with
    | union ms => exact absurd hk (hunion ms)
    | never => exact absurd hk hnever
    | any => exact absurd hk hany
    | error => exact absurd hk herror
    | unknown => exact absurd hk hunknown
    | _ => rfl

theorem Collected.collectUnion (hopened : t.Opened S) {p : UnionParts} {id : TypeId} (hid : S id)
    (hp : Collected t S p) : Collected t S (t.collectUnion p id) := by
  have hdescend : ∀ n m p, S m → Collected t S p →
      Collected t S (descend t.collectStep (fun _ p => p) n m p) := by
    intro n
    induction n with
    | zero => exact fun m p _ hp => hp
    | succ n ih => exact fun m p hm hp => hp.step hopened ih hm
  exact hdescend _ _ _ hid hp

/-- All that is collected for a union. -/
theorem Collected.all (hopened : t.Opened S) {ids : List TypeId} (hids : ∀ id ∈ ids, S id) :
    Collected t S (ids.foldl t.collectUnion {}) :=
  Collected.foldl (fun _ _ hid hp => hp.collectUnion hopened hid) hids .empty

end

/-! ## Opening unions -/

/-- A type that is no union is collected without a look at other types. -/
theorem collectStep_of_not_union {id : TypeId} (h : (t.kind id).isUnion = false)
    (inner inner' : TypeId → UnionParts → UnionParts) :
    t.collectStep inner id = t.collectStep inner' id := by
  funext p
  unfold collectStep
  split
  · rename_i ms hk
    rw [hk] at h
    cases h
  all_goals rfl

/-- Members of a union are no unions, so they are collected without a further look. -/
theorem collectStep_collectStep (ht : t.Normal nullChecks) (id : TypeId)
    (inner inner' : TypeId → UnionParts → UnionParts) :
    t.collectStep (t.collectStep inner) id = t.collectStep (t.collectStep inner') id := by
  funext p
  rw [collectStep, collectStep]
  split
  · rename_i ms hk
    refine List.foldl_rel rfl fun m hm q q' hq => ?_
    rw [hq, collectStep_of_not_union (ht.not_union_of_mem hk hm) inner inner']
  all_goals rfl

/-- The members of a type are collected in two steps, and the second goes no further. -/
theorem descend_collectStep (ht : t.Normal nullChecks) (bottom : TypeId → UnionParts → UnionParts)
    (n : Nat) (id : TypeId) (p : UnionParts) :
    descend t.collectStep bottom (n + 2) id p = t.collectUnion p id := by
  unfold collectUnion
  obtain ⟨i⟩ := id
  cases i with
  | zero =>
    -- the first type is `any`
    have hk : (t.kind ⟨0⟩).isUnion = false := by
      rw [ht.kind_fixed rfl]
      rfl
    exact congrFun (collectStep_of_not_union hk _ _) p
  | succ i => exact congrFun (collectStep_collectStep ht _ _ _) p

/-! ## Reducing -/

/-- `null` and `undefined` are told by their numbers. -/
theorem isNullish_eq (ht : t.Normal nullChecks) (id : TypeId) :
    isNullish id = (t.kind id).isNullish := by
  rw [Bool.eq_iff_iff]
  constructor
  · intro h
    rcases Bool.or_eq_true_iff.1 h with h | h
    · rw [eq_of_beq h, show t.kind .null = .null from ht.kind_fixed rfl]
      rfl
    · rw [eq_of_beq h, show t.kind .undefined = .undefined from ht.kind_fixed rfl]
      rfl
  · intro h
    cases hk : t.kind id with
    | null => rw [ht.eq_of_kind (i := 4) rfl rfl hk]; rfl
    | undefined => rw [ht.eq_of_kind (i := 3) rfl rfl hk]; rfl
    | _ => rw [hk] at h; cases h

/-- What a member covers is dropped, for the types that cover others have fixed numbers. -/
theorem isCovered_of_covers (ht : t.Normal nullChecks) {members : List TypeId} {m n : TypeId}
    (hn : n ∈ members) (h : (t.kind n).covers (t.kind m)) : t.isCovered members m := by
  have found {i : Nat} {k : TypeKind} (hi : intrinsics[i]? = some k)
      (halias : carriesAlias k = false) (hk : t.kind n = k) : members.contains ⟨i⟩ = true := by
    rw [List.contains_iff_mem, ← ht.eq_of_kind hi halias hk]
    exact hn
  unfold TypeKind.covers at h
  unfold isCovered
  split at h
  · rename_i hk hm
    rw [hm]
    exact found (i := 5) rfl rfl hk
  · rename_i hk hm
    rw [hm]
    exact found (i := 5) rfl rfl hk
  · rename_i hk hm
    rw [hm]
    exact found (i := 5) rfl rfl hk
  · rename_i hk hm
    rw [hm]
    exact found (i := 6) rfl rfl hk
  · rename_i hk hm
    rw [hm]
    exact found (i := 7) rfl rfl hk
  · rename_i hk hm
    rw [hm]
    exact found (i := 12) rfl rfl hk
  · cases h

/-- Members that are nullish all or none. -/
def AllOrNone (ms : List TypeId) : Prop :=
  (∀ m ∈ ms, isNullish m) ∨ ∀ m ∈ ms, isNullish m = false

theorem AllOrNone.subset {ms ms' : List TypeId} (h : AllOrNone ms) (hsub : ms' ⊆ ms) :
    AllOrNone ms' := h.imp (fun h m hm => h m (hsub hm)) fun h m hm => h m (hsub hm)

/-- The members before they are put in order. -/
theorem reducedMembers_perm (t : TypeTable) (nullChecks : Bool) (members : List TypeId) :
    ∃ kept, kept.Sublist members ∧ (t.reducedMembers nullChecks members).Perm kept ∧
      (∀ m ∈ kept, t.isCovered members m = false) ∧ (nullChecks = false → AllOrNone kept) := by
  unfold reducedMembers
  extract_lets kept result
  have hkept : ∀ m ∈ kept, t.isCovered members m = false := fun m hm => by
    simpa using (List.mem_filter.1 hm).2
  have hperm := List.mergeSort_perm result fun a b => decide (a.index ≤ b.index)
  refine ⟨result, ?_, hperm, ?_, fun hnc => ?_⟩
  · unfold result
    split
    · exact List.filter_sublist.trans List.filter_sublist
    · exact List.filter_sublist
  · intro m hm
    unfold result at hm
    split at hm
    · exact hkept m (List.mem_filter.1 hm).1
    · exact hkept m hm
  · -- either some member is not nullish and the others are dropped, or all are
    unfold result
    split
    · refine .inr fun m hm => ?_
      simpa using (List.mem_filter.1 hm).2
    · rename_i hnone
      refine .inl fun m hm => ?_
      simp only [hnc, Bool.not_false, Bool.true_and, List.any_eq_true, not_exists, not_and] at hnone
      simpa using hnone m hm

/-- What is left of the members is in the order of the numbers, and each of them once. -/
theorem increasing_reducedMembers (t : TypeTable) (nullChecks : Bool) {members : List TypeId}
    (hdistinct : members.Nodup) :
    (t.reducedMembers nullChecks members).Pairwise (·.index < ·.index) := by
  obtain ⟨kept, hsub, hperm, -, -⟩ := reducedMembers_perm t nullChecks members
  have horder : (t.reducedMembers nullChecks members).Pairwise
      fun a b => decide (a.index ≤ b.index) = true :=
    List.pairwise_mergeSort (fun a b c hab hbc => by simp at *; omega)
      (fun a b => by simp; omega) _
  have hnodup := hperm.nodup_iff.2 (hdistinct.sublist hsub)
  refine (horder.and hnodup).imp fun {a b} ⟨hle, hne⟩ => ?_
  refine Nat.lt_of_le_of_ne (of_decide_eq_true hle) fun heq => hne ?_
  obtain ⟨i⟩ := a
  exact congrArg TypeId.mk heq

/-- What is left of the members makes a normal union. Without null checks, that takes a reduction
without null checks, or members that are nullish all or none. -/
theorem normalUnion_reducedMembers (ht : t.Normal nullChecks) {reduction : Bool}
    {members : List TypeId} (hdistinct : members.Nodup) (hplain : ∀ m ∈ members, (t.kind m).inUnion)
    (hnullish : nullChecks = false → reduction = false ∨ AllOrNone members)
    (hlen : 2 ≤ (t.reducedMembers reduction members).length) :
    t.NormalUnion nullChecks (t.reducedMembers reduction members) := by
  obtain ⟨kept, hsub, hperm, hcovered, hkept⟩ := reducedMembers_perm t reduction members
  have hmem {m : TypeId} (hm : m ∈ t.reducedMembers reduction members) : m ∈ kept :=
    hperm.mem_iff.1 hm
  refine ⟨hlen, increasing_reducedMembers t reduction hdistinct,
    fun m hm => hplain m (hsub.subset (hmem hm)), fun m hm n hn h => ?_,
    fun hnc m hm hnull n hn => ?_⟩
  · have := isCovered_of_covers ht (hsub.subset (hmem hn)) h
    rw [hcovered m (hmem hm)] at this
    cases this
  · have hall : AllOrNone kept := (hnullish hnc).elim hkept fun h => h.subset hsub.subset
    rw [← isNullish_eq ht] at hnull ⊢
    rcases hall with hall | hnone
    · exact hall n (hmem hn)
    · rw [hnone m (hmem hm)] at hnull
      cases hnull

/-- Without null checks the members of a union are nullish all or none. -/
theorem Normal.allOrNone (ht : t.Normal false) {id : TypeId} {ms : List TypeId}
    (hk : t.kind id = .union ms) : AllOrNone ms := by
  by_cases hsome : ∃ m ∈ ms, isNullish m = true
  · obtain ⟨m, hm, hnull⟩ := hsome
    refine .inl fun n hn => ?_
    rw [isNullish_eq ht] at hnull ⊢
    exact (ht.union hk hm).nullish rfl m hm hnull n hn
  · refine .inr fun m hm => ?_
    rw [← Bool.not_eq_true]
    exact fun hnull => hsome ⟨m, hm, hnull⟩

/-! ## Widening -/

/-- A type that is neither nullish nor a union. Widening may make `boolean` of it. -/
def Solid (t : TypeTable) (id : TypeId) : Prop :=
  isNullish id = false ∧ ∀ ms, t.kind id = .union ms → ms = [.false_, .true_]

theorem solid_of_kind (ht : t.Normal nullChecks) {i : Nat} {k : TypeKind}
    (hi : intrinsics[i]? = some k) (hnull : isNullish ⟨i⟩ = false)
    (hk : ∀ ms, k = .union ms → ms = [.false_, .true_]) : t.Solid ⟨i⟩ := by
  refine ⟨hnull, ?_⟩
  rw [ht.kind_fixed hi]
  exact hk

theorem opened_solid (ht : t.Normal nullChecks) : t.Opened t.Solid := by
  intro id ms hid hk m hm
  rw [hid.2 ms hk, List.mem_cons, List.mem_singleton] at hm
  rcases hm with rfl | rfl
  · exact solid_of_kind ht (i := 8) rfl rfl (by simp)
  · exact solid_of_kind ht (i := 9) rfl rfl (by simp)

theorem solid_widenMember (ht : t.Normal nullChecks) {id : TypeId} (h : t.Solid id) :
    t.Solid (t.widenMember true id) := by
  unfold widenMember
  split
  · exact solid_of_kind ht (i := 5) rfl rfl (by simp)
  · exact solid_of_kind ht (i := 6) rfl rfl (by simp)
  · exact solid_of_kind ht (i := 7) rfl rfl (by simp)
  · exact solid_of_kind ht (i := 10) rfl rfl (by simp)
  · exact solid_of_kind ht (i := 10) rfl rfl (by simp)
  · exact h
  · exact h
  · exact h

theorem opened_isNullish (ht : t.Normal nullChecks) : t.Opened (isNullish ·) := by
  intro id ms hid hk
  rw [isNullish_eq ht, hk] at hid
  cases hid

/-- With null checks a nullish type is not widened. -/
theorem widenMember_of_isNullish (ht : t.Normal nullChecks) {id : TypeId} (h : isNullish id) :
    t.widenMember true id = id := by
  rw [isNullish_eq ht] at h
  unfold widenMember
  split <;> simp_all [TypeKind.isNullish]

end DeclKit.TypeTable

/-! ## Storing -/

namespace DeclKit.Stored

open TypeTable

variable {nullChecks : Bool}

/-- A union is stored in normal form if it is reduced for the null checks of the table, or made of
types of a set whose members are nullish all or none. -/
theorem keeps_union_of {t : TypeTable} {reduction : Bool} {ids : List TypeId}
    (h : t.Normal nullChecks → ∃ S, t.Opened S ∧ (∀ id ∈ ids, S id) ∧
      (nullChecks = false → reduction = false ∨
        (∀ m, S m → isNullish m) ∨ ∀ m, S m → isNullish m = false)) :
    t.Keeps nullChecks ((union reduction ids).run t).2 := by
  refine run_get_bind ?_
  dsimp only
  split
  · exact keeps_pure TypeId.error t
  split
  · exact keeps_pure TypeId.any t
  split
  · exact keeps_pure TypeId.unknown t
  split
  · exact keeps_pure TypeId.never t
  · exact keeps_pure _ t
  · rename_i hnil hone
    refine TypeTable.keeps_intern fun ht => ?_
    obtain ⟨S, hopened, hids, hnullish⟩ := h ht
    have hcollected := Collected.all hopened hids
    refine normalUnion_reducedMembers ht hcollected.distinct hcollected.plain (fun hnc => ?_) ?_
    · refine (hnullish hnc).imp_right fun hall => ?_
      exact hall.imp (fun h m hm => h m (hcollected.within m hm))
        fun h m hm => h m (hcollected.within m hm)
    -- neither empty nor a single member
    rcases hms : t.reducedMembers reduction (ids.foldl t.collectUnion {}).members.toList with
      _ | ⟨m, _ | ⟨n, ms⟩⟩
    · exact absurd hms hnil
    · exact absurd hms (hone m)
    · exact Nat.le_add_left 2 ms.length

theorem keeps_union (nullChecks : Bool) (ids : List TypeId) :
    Keeps nullChecks (union nullChecks ids) := by
  intro t
  refine keeps_union_of fun _ => ⟨fun _ => True, ?_, fun id _ => trivial, .inl⟩
  exact fun _ _ _ _ _ _ => trivial

theorem keeps_withUndefined (nullChecks : Bool) (id : TypeId) :
    Keeps nullChecks (withUndefined nullChecks id) := by
  unfold withUndefined
  split
  · exact keeps_union nullChecks _
  · exact keeps_pure id

/-- Widening keeps a table normal also if it is wrong about null checks: a member that is not nullish
does not become so, and one that is stays. -/
theorem keeps_widen (reduction : Bool) (id : TypeId) : Keeps nullChecks (widen reduction id) := by
  refine keeps_get_bind fun t => ?_
  split
  case h_2 => exact keeps_pure _ t
  case h_1 ms hk =>
    by_cases hsame : reduction = nullChecks
    · rw [hsame]
      exact keeps_union nullChecks _ t
    refine keeps_union_of fun ht => ?_
    cases nullChecks with
    | true => exact ⟨fun _ => True, fun _ _ _ _ _ _ => trivial, fun _ _ => trivial, nofun⟩
    | false =>
      rw [Bool.not_eq_false] at hsame
      rw [hsame]
      rcases ht.allOrNone hk with hall | hnone
      · refine ⟨(isNullish ·), opened_isNullish ht, fun n hn => ?_, fun _ => .inr (.inl fun _ h => h)⟩
        obtain ⟨m, hm, rfl⟩ := List.mem_map.1 hn
        rw [widenMember_of_isNullish ht (hall m hm)]
        exact hall m hm
      · refine ⟨t.Solid, opened_solid ht, fun n hn => ?_, fun _ => .inr (.inr fun _ h => h.1)⟩
        obtain ⟨m, hm, rfl⟩ := List.mem_map.1 hn
        refine solid_widenMember ht ⟨hnone m hm, fun ms' hk' => ?_⟩
        have := ht.not_union_of_mem hk hm
        rw [hk'] at this
        cases this

end DeclKit.Stored

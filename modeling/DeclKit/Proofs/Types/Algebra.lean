/-
The laws of unions.

What a union comes to depends only on the set of types that its operands open into: neither their order
nor how often one of them is given matters, and `never` opens into nothing. A union that has been worked
out before may stand among the operands in place of its own: either it swallows every other operand as
well, or it opens into the members that survived its reduction, and what a reduction drops would be
dropped again, because what covers another member or makes `null` and `undefined` superfluous survives,
unless something that does the same covers it.
-/
import DeclKit.Proofs.Types.Order
import DeclKit.Proofs.Typing.Reachable

set_option autoImplicit false

namespace DeclKit

/-! ## What covers another kind -/

namespace TypeKind

/-- A kind that covers another one is covered by none. -/
theorem not_covers_of_covers {k l : TypeKind} (h : l.covers k) (m : TypeKind) :
    m.covers l = false := by
  unfold covers at h
  split at h
  case h_7 => cases h
  all_goals
    unfold covers
    split
    all_goals first | rfl | contradiction

/-- Neither `null` nor `undefined` covers anything. -/
theorem not_isNullish_of_covers {k l : TypeKind} (h : l.covers k) : l.isNullish = false := by
  unfold covers at h
  split at h
  case h_7 => cases h
  all_goals rfl

end TypeKind

namespace TypeTable

variable {nullChecks : Bool} {t u : TypeTable}

/-! ## Opening the operands -/

/-- What a type brings into a union: the members of a union, nothing for `never`, and any other type
itself. -/
def atoms (t : TypeTable) (id : TypeId) : List TypeId :=
  match t.kind id with
  | .union ms => ms
  | .never => []
  | _ => [id]

/-- What several types bring into a union. -/
def atomsOf (t : TypeTable) (ids : List TypeId) : List TypeId := ids.flatMap t.atoms

/-- A type that may be brought into a union, if only to swallow it. -/
def IsAtom (t : TypeTable) (id : TypeId) : Prop :=
  (t.kind id).isUnion = false ∧ t.kind id ≠ .never

theorem isAtom_of_inUnion {id : TypeId} (h : (t.kind id).inUnion) : t.IsAtom id := by
  unfold IsAtom
  cases hk : t.kind id with
  | union | never => simp [hk, TypeKind.inUnion] at h
  | _ => simp [TypeKind.isUnion]

theorem atoms_of_isAtom {id : TypeId} (h : t.IsAtom id) : t.atoms id = [id] := by
  unfold atoms
  split
  · rename_i ms hk
    simp [IsAtom, hk, TypeKind.isUnion] at h
  · rename_i hk
    exact absurd hk h.2
  · rfl

theorem isAtom_of_mem_atoms (ht : t.Normal nullChecks) {id m : TypeId} (hm : m ∈ t.atoms id) :
    t.IsAtom m := by
  unfold atoms at hm
  split at hm
  · rename_i ms hk
    exact isAtom_of_inUnion ((ht.union hk hm).plain m hm)
  · cases hm
  · rename_i hunion hnever
    obtain rfl := List.mem_singleton.1 hm
    refine ⟨?_, hnever⟩
    cases hk : t.kind m with
    | union ms => exact absurd hk (hunion ms)
    | _ => rfl

theorem isAtom_of_mem_atomsOf (ht : t.Normal nullChecks) {ids : List TypeId} :
    ∀ m ∈ t.atomsOf ids, t.IsAtom m := by
  intro m hm
  obtain ⟨id, -, hm⟩ := List.mem_flatMap.1 hm
  exact isAtom_of_mem_atoms ht hm

/-- Collects one type that is no union. -/
def collectAtom (t : TypeTable) (p : UnionParts) (m : TypeId) : UnionParts :=
  match t.kind m with
  | .any => { p with hasAny := true }
  | .error => { p with hasError := true }
  | .unknown => { p with hasUnknown := true }
  | _ => p.add m

theorem collectStep_of_isAtom {m : TypeId} (hm : t.IsAtom m)
    (inner : TypeId → UnionParts → UnionParts) (p : UnionParts) :
    t.collectStep inner m p = t.collectAtom p m := by
  obtain ⟨hunion, hnever⟩ := hm
  unfold collectStep collectAtom
  cases hk : t.kind m with
  | union ms => simp [hk, TypeKind.isUnion] at hunion
  | never => exact absurd hk hnever
  | _ => rfl

/-- The members of a type are collected one by one. -/
theorem collectUnion_eq_foldl (ht : t.Normal nullChecks) (p : UnionParts) (id : TypeId) :
    t.collectUnion p id = (t.atoms id).foldl t.collectAtom p := by
  rw [← descend_collectStep ht (fun _ p => p) 0 id p, descend]
  have hatom (hid : t.IsAtom id) : t.collectStep (descend t.collectStep (fun _ p => p) 1) id p =
      (t.atoms id).foldl t.collectAtom p := by
    rw [collectStep_of_isAtom hid, atoms_of_isAtom hid]
    rfl
  cases hk : t.kind id with
  | union ms =>
    -- the members of a union are no unions, so each of them takes one step
    simp only [collectStep, atoms, hk]
    refine List.foldl_rel rfl fun m hm q q' hq => ?_
    rw [hq, descend, collectStep_of_isAtom (isAtom_of_inUnion ((ht.union hk hm).plain m hm))]
  | never => simp only [collectStep, atoms, hk, List.foldl_nil]
  | _ => exact hatom ⟨by rw [hk]; rfl, by rw [hk]; exact TypeKind.noConfusion⟩

theorem foldl_collectUnion (ht : t.Normal nullChecks) (p : UnionParts) (ids : List TypeId) :
    ids.foldl t.collectUnion p = (t.atomsOf ids).foldl t.collectAtom p := by
  induction ids generalizing p with
  | nil => rfl
  | cons id ids ih =>
    rw [List.foldl_cons, ih, collectUnion_eq_foldl ht, ← List.foldl_append]
    rfl

/-! ## What has been collected -/

/-- What has been collected of some types: those that may stand in a union are members, and each of the
others has swallowed the union. -/
structure Sums (t : TypeTable) (atoms : List TypeId) (p : UnionParts) : Prop where
  mem : ∀ m, m ∈ p.members.toList ↔ m ∈ atoms ∧ (t.kind m).inUnion
  any : p.hasAny = true ↔ ∃ m ∈ atoms, t.kind m = .any
  error : p.hasError = true ↔ ∃ m ∈ atoms, t.kind m = .error
  unknown : p.hasUnknown = true ↔ ∃ m ∈ atoms, t.kind m = .unknown

theorem sums_empty : t.Sums [] {} := by constructor <;> simp

theorem mem_add_iff {p : UnionParts} {m n : TypeId} :
    m ∈ (p.add n).members.toList ↔ m ∈ p.members.toList ∨ m = n := by
  unfold UnionParts.add
  split
  · rename_i hmem
    have hmem : n ∈ p.members.toList := by simpa using hmem
    exact ⟨.inl, fun h => h.elim id fun heq => heq ▸ hmem⟩
  · simp

/-- A type that may stand in a union is added to the members and changes nothing else. -/
theorem collectAtom_of_inUnion {m : TypeId} (hm : (t.kind m).inUnion) (p : UnionParts) :
    t.collectAtom p m = p.add m := by
  unfold collectAtom
  split
  · rename_i hk
    simp [hk, TypeKind.inUnion] at hm
  · rename_i hk
    simp [hk, TypeKind.inUnion] at hm
  · rename_i hk
    simp [hk, TypeKind.inUnion] at hm
  · rfl

theorem Sums.collectAtom {atoms : List TypeId} {p : UnionParts} (h : t.Sums atoms p) {m : TypeId}
    (hm : t.IsAtom m) : t.Sums (atoms ++ [m]) (t.collectAtom p m) := by
  have hflag (k : TypeKind) : (∃ n ∈ atoms ++ [m], t.kind n = k) ↔
      (∃ n ∈ atoms, t.kind n = k) ∨ t.kind m = k := by
    simp [or_and_right, exists_or]
  by_cases hin : (t.kind m).inUnion
  · have hadd : (p.add m).hasAny = p.hasAny ∧ (p.add m).hasError = p.hasError ∧
        (p.add m).hasUnknown = p.hasUnknown := by
      unfold UnionParts.add
      split <;> exact ⟨rfl, rfl, rfl⟩
    have hkind {k : TypeKind} (hk : k.inUnion = false) : t.kind m ≠ k := fun heq => by
      rw [heq, hk] at hin
      cases hin
    rw [collectAtom_of_inUnion hin]
    refine ⟨fun n => ?_, ?_, ?_, ?_⟩
    · rw [mem_add_iff, h.mem, List.mem_append, List.mem_singleton, or_and_right]
      exact or_congr_right ⟨fun heq => ⟨heq, heq ▸ hin⟩, And.left⟩
    · rw [hadd.1, h.any, hflag, or_iff_left (hkind rfl)]
    · rw [hadd.2.1, h.error, hflag, or_iff_left (hkind rfl)]
    · rw [hadd.2.2, h.unknown, hflag, or_iff_left (hkind rfl)]
  · -- a type that swallows the union raises its own flag, and is no member
    have hmem (n : TypeId) : n ∈ p.members.toList ↔ n ∈ atoms ++ [m] ∧ (t.kind n).inUnion := by
      rw [h.mem, List.mem_append, List.mem_singleton, or_and_right]
      exact (or_iff_left fun (hn : n = m ∧ _) => hin (hn.1 ▸ hn.2)).symm
    obtain ⟨hunion, hnever⟩ := hm
    unfold TypeTable.collectAtom
    cases hk : t.kind m with
    | any | error | unknown =>
      refine ⟨hmem, ?_, ?_, ?_⟩ <;> rw [hflag] <;> simp [hk, h.any, h.error, h.unknown]
    | union ms => simp [hk, TypeKind.isUnion] at hunion
    | never => exact absurd hk hnever
    | _ => simp [hk, TypeKind.inUnion] at hin

/-- A type of one of the fixed kinds is the one with the fixed number. -/
theorem Normal.kind_eq_iff (ht : t.Normal nullChecks) {i : Nat} {k : TypeKind} {id : TypeId}
    (hi : intrinsics[i]? = some k) (halias : carriesAlias k = false) :
    t.kind id = k ↔ id = ⟨i⟩ :=
  ⟨ht.eq_of_kind hi halias, fun h => h ▸ ht.kind_fixed hi⟩

theorem Sums.foldl {atoms more : List TypeId} {p : UnionParts}
    (h : t.Sums atoms p) (hmore : ∀ m ∈ more, t.IsAtom m) :
    t.Sums (atoms ++ more) (more.foldl t.collectAtom p) := by
  induction more generalizing atoms p with
  | nil => rwa [List.append_nil]
  | cons m more ih =>
    rw [List.forall_mem_cons] at hmore
    rw [← List.singleton_append, ← List.append_assoc]
    exact ih (h.collectAtom hmore.1) hmore.2

/-- All that is collected for a union. -/
theorem sums_foldl_collectUnion (ht : t.Normal nullChecks) (ids : List TypeId) :
    t.Sums (t.atomsOf ids) (ids.foldl t.collectUnion {}) := by
  rw [foldl_collectUnion ht]
  exact sums_empty.foldl (isAtom_of_mem_atomsOf ht)

/-! ## What survives -/

/-- A type survives the reduction of a union: no other one covers it, and without null checks it is not
one of `null` and `undefined` unless all are. -/
structure Survives (nullChecks : Bool) (t : TypeTable) (ms : List TypeId) (m : TypeId) : Prop where
  mem : m ∈ ms
  uncovered : ∀ n ∈ ms, ¬(t.kind n).covers (t.kind m)
  nullish : nullChecks = false → (t.kind m).isNullish → ∀ n ∈ ms, (t.kind n).isNullish

/-- What survives depends only on which types there are. -/
theorem Survives.congr {ms ms' : List TypeId} (h : ∀ n, n ∈ ms ↔ n ∈ ms') {m : TypeId}
    (hm : t.Survives nullChecks ms m) : t.Survives nullChecks ms' m where
  mem := (h m).1 hm.mem
  uncovered n hn := hm.uncovered n ((h n).2 hn)
  nullish hnc hnull n hn := hm.nullish hnc hnull n ((h n).2 hn)

theorem isCovered_iff (ht : t.Normal nullChecks) {ms : List TypeId} {m : TypeId} :
    t.isCovered ms m = true ↔ ∃ n ∈ ms, (t.kind n).covers (t.kind m) := by
  have found {i : Nat} {k : TypeKind} (hi : intrinsics[i]? = some k) (hcovers : k.covers (t.kind m))
      (h : ms.contains ⟨i⟩ = true) : ∃ n ∈ ms, (t.kind n).covers (t.kind m) := by
    refine ⟨⟨i⟩, List.contains_iff_mem.1 h, ?_⟩
    rwa [ht.kind_fixed hi]
  refine ⟨fun h => ?_, fun ⟨n, hn, h⟩ => isCovered_of_covers ht hn h⟩
  unfold isCovered at h
  -- one primitive type for each kind of literals, and `undefined` is covered by `void`
  split at h
  · rename_i hk
    exact found (i := 5) rfl (by rw [hk]; rfl) h
  · rename_i hk
    exact found (i := 5) rfl (by rw [hk]; rfl) h
  · rename_i hk
    exact found (i := 5) rfl (by rw [hk]; rfl) h
  · rename_i hk
    exact found (i := 6) rfl (by rw [hk]; rfl) h
  · rename_i hk
    exact found (i := 7) rfl (by rw [hk]; rfl) h
  · rename_i hk
    exact found (i := 12) rfl (by rw [hk]; rfl) h
  · cases h

/-- What covers another type survives. -/
theorem survives_of_covers {ms : List TypeId} {m n : TypeId} (hn : n ∈ ms)
    (h : (t.kind n).covers (t.kind m)) : t.Survives nullChecks ms n where
  mem := hn
  uncovered o _ := by
    rw [TypeKind.not_covers_of_covers h]
    exact Bool.false_ne_true
  nullish _ hnull := by
    rw [TypeKind.not_isNullish_of_covers h] at hnull
    cases hnull

/-- A type that is not nullish survives, or what covers it does. -/
theorem exists_survives_not_isNullish (reduction : Bool) {ms : List TypeId} {n : TypeId}
    (hn : n ∈ ms) (hnull : (t.kind n).isNullish = false) :
    ∃ o, t.Survives reduction ms o ∧ (t.kind o).isNullish = false := by
  by_cases hcovered : ∃ o ∈ ms, (t.kind o).covers (t.kind n)
  · obtain ⟨o, ho, h⟩ := hcovered
    exact ⟨o, survives_of_covers ho h, TypeKind.not_isNullish_of_covers h⟩
  · refine ⟨n, ⟨hn, fun o ho h => hcovered ⟨o, ho, h⟩, fun _ h => ?_⟩, hnull⟩
    rw [hnull] at h
    cases h

theorem mem_reducedMembers_iff (ht : t.Normal nullChecks) {reduction : Bool} {ms : List TypeId}
    {m : TypeId} : m ∈ t.reducedMembers reduction ms ↔ t.Survives reduction ms m := by
  have hkept (n : TypeId) : n ∈ ms.filter (fun m => !t.isCovered ms m) ↔
      n ∈ ms ∧ ∀ o ∈ ms, ¬(t.kind o).covers (t.kind n) := by
    rw [List.mem_filter, Bool.not_eq_true', ← Bool.not_eq_true, isCovered_iff ht]
    simp only [not_exists, not_and]
  unfold reducedMembers
  extract_lets kept result
  rw [List.mem_mergeSort]
  unfold result
  split
  · -- something that is not nullish is kept, so what is nullish is not
    rename_i hsome
    obtain ⟨hnc, hsome⟩ := Bool.and_eq_true_iff.1 hsome
    obtain ⟨n, hn, hnull⟩ := List.any_eq_true.1 hsome
    rw [Bool.not_eq_true', isNullish_eq ht] at hnull
    rw [List.mem_filter, hkept, Bool.not_eq_true', isNullish_eq ht]
    refine ⟨fun ⟨⟨hm, hcov⟩, hnot⟩ => ⟨hm, hcov, fun _ h => ?_⟩,
      fun h => ⟨⟨h.mem, h.uncovered⟩, ?_⟩⟩
    · rw [hnot] at h
      cases h
    · rw [← Bool.not_eq_true]
      intro hm
      have := h.nullish (by simpa using hnc) hm n ((hkept n).1 hn).1
      rw [hnull] at this
      cases this
  · rename_i hnone
    rw [hkept]
    refine ⟨fun ⟨hm, hcov⟩ => ⟨hm, hcov, fun hnc _ n hn => ?_⟩, fun h => ⟨h.mem, h.uncovered⟩⟩
    rw [← Bool.not_eq_false]
    intro hnull
    obtain ⟨o, ho, hnot⟩ := exists_survives_not_isNullish reduction hn hnull
    refine hnone ?_
    rw [hnc, Bool.not_false, Bool.true_and, List.any_eq_true]
    refine ⟨o, (hkept o).2 ⟨ho.mem, ho.uncovered⟩, ?_⟩
    rw [isNullish_eq ht, hnot]
    rfl

/-- The members that are left are those that survive, in the order of their numbers. -/
theorem reducedMembers_congr (ht : t.Normal nullChecks) {reduction : Bool} {ms ms' : List TypeId}
    (hms : ms.Nodup) (hms' : ms'.Nodup)
    (h : ∀ m, t.Survives reduction ms m ↔ t.Survives reduction ms' m) :
    t.reducedMembers reduction ms = t.reducedMembers reduction ms' := by
  have hsorted := increasing_reducedMembers t reduction hms
  have hsorted' := increasing_reducedMembers t reduction hms'
  have hperm : (t.reducedMembers reduction ms).Perm (t.reducedMembers reduction ms') := by
    refine (List.perm_ext_iff_of_nodup (hsorted.imp fun hlt heq => ?_)
      (hsorted'.imp fun hlt heq => ?_)).2 fun m => ?_
    · exact absurd hlt (heq ▸ Nat.lt_irrefl _)
    · exact absurd hlt (heq ▸ Nat.lt_irrefl _)
    · rw [mem_reducedMembers_iff ht, mem_reducedMembers_iff ht, h]
  exact hperm.eq_of_pairwise (fun a b _ _ hab hba => absurd (Nat.lt_trans hab hba) (Nat.lt_irrefl _))
    hsorted hsorted'

/-- What survives a reduction stands for all that it was made of: a later reduction, of more types,
keeps the same. -/
theorem survives_append_iff {ms kept more : List TypeId}
    (hkept : ∀ m, m ∈ kept ↔ t.Survives nullChecks ms m) {m : TypeId} :
    t.Survives nullChecks (kept ++ more) m ↔ t.Survives nullChecks (ms ++ more) m := by
  have hsub {n : TypeId} (hn : n ∈ kept ++ more) : n ∈ ms ++ more := by
    obtain hn | hn := List.mem_append.1 hn
    · exact List.mem_append_left _ ((hkept n).1 hn).mem
    · exact List.mem_append_right _ hn
  constructor
  · intro h
    refine ⟨hsub h.mem, fun n hn hcovers => ?_, fun hnc hnull n hn => ?_⟩
    · obtain hn | hn := List.mem_append.1 hn
      · -- a dropped type that covers another one was not dropped
        have hn := (hkept n).2 (survives_of_covers hn hcovers)
        exact h.uncovered n (List.mem_append_left _ hn) hcovers
      · exact h.uncovered n (List.mem_append_right _ hn) hcovers
    · obtain hn | hn := List.mem_append.1 hn
      · rw [← Bool.not_eq_false]
        intro hnot
        obtain ⟨o, ho, honot⟩ := exists_survives_not_isNullish nullChecks hn hnot
        have := h.nullish hnc hnull o (List.mem_append_left _ ((hkept o).2 ho))
        rw [honot] at this
        cases this
      · exact h.nullish hnc hnull n (List.mem_append_right _ hn)
  · intro h
    refine ⟨?_, fun n hn => h.uncovered n (hsub hn), fun hnc hnull n hn =>
      h.nullish hnc hnull n (hsub hn)⟩
    obtain hm | hm := List.mem_append.1 h.mem
    · refine List.mem_append_left _ ((hkept m).2 ⟨hm, fun n hn => ?_, fun hnc hnull n hn => ?_⟩)
      · exact h.uncovered n (List.mem_append_left _ hn)
      · exact h.nullish hnc hnull n (List.mem_append_left _ hn)
    · exact List.mem_append_right _ hm

/-! ## What a union comes to -/

/-- The union of members that have been reduced. -/
def ofMembers : List TypeId → Stored TypeId
  | [] => return .never
  | [m] => return m
  | ms => intern (.union ms)

/-- The type that swallows a union, by what the operands open into. -/
def swallower? (ms : List TypeId) : Option TypeId :=
  if .error ∈ ms then some .error
  else if .any ∈ ms then some .any
  else if .unknown ∈ ms then some .unknown
  else none

theorem swallower?_eq_none {ms : List TypeId} :
    swallower? ms = none ↔ .error ∉ ms ∧ .any ∉ ms ∧ .unknown ∉ ms := by
  unfold swallower?
  repeat' split
  all_goals simp_all

/-- A union is swallowed by the first of three types that is there. -/
theorem swallower?_eq_some {ms : List TypeId} {id : TypeId} (h : swallower? ms = some id) :
    (id = .error ∧ .error ∈ ms) ∨ (id = .any ∧ .error ∉ ms ∧ .any ∈ ms) ∨
      (id = .unknown ∧ .error ∉ ms ∧ .any ∉ ms ∧ .unknown ∈ ms) := by
  unfold swallower? at h
  split at h
  case isTrue herror => exact .inl ⟨(Option.some.inj h).symm, herror⟩
  case isFalse herror =>
    split at h
    case isTrue hany => exact .inr (.inl ⟨(Option.some.inj h).symm, herror, hany⟩)
    case isFalse hany =>
      split at h
      case isTrue hunknown => exact .inr (.inr ⟨(Option.some.inj h).symm, herror, hany, hunknown⟩)
      case isFalse => cases h

theorem swallower?_congr {ms ms' : List TypeId} (h : ∀ m, m ∈ ms ↔ m ∈ ms') :
    swallower? ms = swallower? ms' := by
  simp only [swallower?, h]

/-- A type that swallows a union is one of the operands, and of a kind that brings itself into it. -/
theorem isAtom_of_swallower? (ht : t.Normal nullChecks) {ms : List TypeId} {id : TypeId}
    (h : swallower? ms = some id) : t.IsAtom id := by
  have hfixed {i : Nat} {k : TypeKind} (hi : intrinsics[i]? = some k) (hunion : k.isUnion = false)
      (hnever : k ≠ .never) : t.IsAtom ⟨i⟩ := by
    rw [IsAtom, ht.kind_fixed hi]
    exact ⟨hunion, hnever⟩
  obtain ⟨rfl, -⟩ | ⟨rfl, -⟩ | ⟨rfl, -⟩ := swallower?_eq_some h
  · exact hfixed (i := 1) rfl rfl nofun
  · exact hfixed (i := 0) rfl rfl nofun
  · exact hfixed (i := 2) rfl rfl nofun

/-- Types that do not swallow a union leave it to the others. -/
theorem swallower?_append_of_none {ms : List TypeId} (h : swallower? ms = none)
    (more : List TypeId) : swallower? (ms ++ more) = swallower? more := by
  obtain ⟨herror, hany, hunknown⟩ := swallower?_eq_none.1 h
  simp only [swallower?, List.mem_append, herror, hany, hunknown, false_or]

/-- The type that swallows a union stands for all that it swallows. -/
theorem swallower?_append_of_some {ms : List TypeId} {id : TypeId} (h : swallower? ms = some id)
    (more : List TypeId) : swallower? (id :: more) = swallower? (ms ++ more) := by
  have hne : TypeId.error ≠ .any ∧ TypeId.error ≠ .unknown ∧ TypeId.any ≠ .unknown := by decide
  obtain ⟨rfl, herror⟩ | ⟨rfl, herror, hany⟩ | ⟨rfl, herror, hany, hunknown⟩ := swallower?_eq_some h
  · simp [swallower?, herror]
  · simp [swallower?, herror, hany, hne]
  · simp [swallower?, herror, hany, hunknown, hne]

theorem swallower?_cons_ne_none {ms : List TypeId} {id : TypeId} (h : swallower? ms = some id)
    (more : List TypeId) : swallower? (id :: more) ≠ none := by
  rw [swallower?_append_of_some h, ne_eq, swallower?_eq_none, List.mem_append, List.mem_append,
    List.mem_append]
  intro hnone
  rw [swallower?_eq_none.2 ⟨fun hm => hnone.1 (.inl hm), fun hm => hnone.2.1 (.inl hm),
    fun hm => hnone.2.2 (.inl hm)⟩] at h
  cases h

/-- Among types that a union opens into and that do not swallow it, all may be members. -/
theorem inUnion_of_swallower?_eq_none (ht : t.Normal nullChecks) {ms : List TypeId}
    (h : swallower? ms = none) {m : TypeId} (hm : m ∈ ms) (hatom : t.IsAtom m) :
    (t.kind m).inUnion := by
  obtain ⟨herror, hany, hunknown⟩ := swallower?_eq_none.1 h
  obtain ⟨hunion, hnever⟩ := hatom
  cases hk : t.kind m with
  | union ns => simp [hk, TypeKind.isUnion] at hunion
  | never => exact absurd hk hnever
  | error =>
    obtain rfl := ht.eq_of_kind (i := 1) rfl rfl hk
    exact absurd hm herror
  | any =>
    obtain rfl := ht.eq_of_kind (i := 0) rfl rfl hk
    exact absurd hm hany
  | unknown =>
    obtain rfl := ht.eq_of_kind (i := 2) rfl rfl hk
    exact absurd hm hunknown
  | _ => rfl

section

variable {reduction : Bool} {ids : List TypeId}

/-- A union is the type that swallows it, or is made of the members that are left. -/
theorem run_union (ht : t.Normal nullChecks) (reduction : Bool) (ids : List TypeId) :
    (union reduction ids).run t = match swallower? (t.atomsOf ids) with
      | some id => (id, t)
      | none => (ofMembers (t.reducedMembers reduction
          (ids.foldl t.collectUnion {}).members.toList)).run t := by
  have hp := sums_foldl_collectUnion ht ids
  have hflag {flag : Bool} {i : Nat} {k : TypeKind} (hi : intrinsics[i]? = some k)
      (halias : carriesAlias k = false) (h : flag = true ↔ ∃ m ∈ t.atomsOf ids, t.kind m = k) :
      ⟨i⟩ ∈ t.atomsOf ids ↔ flag = true := by
    rw [h]
    simp only [ht.kind_eq_iff hi halias, exists_eq_right]
  have herror : TypeId.error ∈ t.atomsOf ids ↔ _ := hflag (i := 1) rfl rfl hp.error
  have hany : TypeId.any ∈ t.atomsOf ids ↔ _ := hflag (i := 0) rfl rfl hp.any
  have hunknown : TypeId.unknown ∈ t.atomsOf ids ↔ _ := hflag (i := 2) rfl rfl hp.unknown
  simp only [swallower?, herror, hany, hunknown]
  show (if _ then _ else if _ then _ else if _ then _ else _ : Stored TypeId).run t = _
  cases (ids.foldl t.collectUnion {}).hasError with
  | true => rfl
  | false =>
    cases (ids.foldl t.collectUnion {}).hasAny with
    | true => rfl
    | false =>
      cases (ids.foldl t.collectUnion {}).hasUnknown with
      | true => rfl
      | false => rfl

/-- What survives of the members that have been collected survives of the operands. -/
theorem survives_collected_iff (ht : t.Normal nullChecks)
    (h : swallower? (t.atomsOf ids) = none) {m : TypeId} :
    t.Survives reduction (ids.foldl t.collectUnion {}).members.toList m ↔
      t.Survives reduction (t.atomsOf ids) m := by
  have hmem (n : TypeId) :
      n ∈ (ids.foldl t.collectUnion {}).members.toList ↔ n ∈ t.atomsOf ids := by
    rw [(sums_foldl_collectUnion ht ids).mem]
    exact ⟨And.left, fun hn =>
      ⟨hn, inUnion_of_swallower?_eq_none ht h hn (isAtom_of_mem_atomsOf ht n hn)⟩⟩
  exact ⟨Survives.congr hmem, Survives.congr fun n => (hmem n).symm⟩

end

/-! ## Types with one union -/

/-- Two collections of types come to one union. -/
structure Unites (nullChecks : Bool) (t : TypeTable) (ms ms' : List TypeId) : Prop where
  swallower : swallower? ms = swallower? ms'
  survivors : swallower? ms = none →
    ∀ m, t.Survives nullChecks ms m ↔ t.Survives nullChecks ms' m

theorem Unites.of_mem_iff {ms ms' : List TypeId} (h : ∀ m, m ∈ ms ↔ m ∈ ms') :
    t.Unites nullChecks ms ms' :=
  ⟨swallower?_congr h, fun _ _ => ⟨Survives.congr h, Survives.congr fun n => (h n).symm⟩⟩

theorem Unites.run_union (ht : t.Normal nullChecks) {reduction : Bool} {ids ids' : List TypeId}
    (h : t.Unites reduction (t.atomsOf ids) (t.atomsOf ids')) :
    (union reduction ids).run t = (union reduction ids').run t := by
  rw [TypeTable.run_union ht, TypeTable.run_union ht, ← h.swallower]
  cases hs : swallower? (t.atomsOf ids) with
  | some id => rfl
  | none =>
    have hdistinct (ids : List TypeId) : (ids.foldl t.collectUnion {}).members.toList.Nodup :=
      (Collected.all (S := fun _ => True) (fun _ _ _ _ _ _ => trivial) fun _ _ => trivial).distinct
    dsimp only
    rw [reducedMembers_congr ht (hdistinct ids) (hdistinct ids')]
    intro m
    rw [survives_collected_iff ht hs, survives_collected_iff ht (h.swallower ▸ hs)]
    exact h.survivors hs m

/-- A union opens into its members. -/
theorem atoms_of_run_ofMembers (ht : t.Normal nullChecks) {ms : List TypeId} {a : TypeId}
    (hms : ∀ m ∈ ms, (t.kind m).inUnion) (h : (ofMembers ms).run t = (a, t)) : t.atoms a = ms := by
  unfold ofMembers at h
  split at h
  · obtain rfl : TypeId.never = a := congrArg Prod.fst h
    rw [atoms, show t.kind .never = .never from ht.kind_fixed rfl]
  · rename_i m
    obtain rfl : m = a := congrArg Prod.fst h
    exact atoms_of_isAtom (isAtom_of_inUnion (hms m List.mem_cons_self))
  · have hk : t.kind a = .union ms := by
      have hget := store_get? (t := t) (d := { kind := .union ms })
      rw [show (store { kind := .union ms }).run t = (a, t) from h] at hget
      exact kind_of_get? hget
    rw [atoms, hk]

/-- A union that nothing swallows opens into what survived of its operands. -/
theorem mem_atoms_of_run_union (ht : t.Normal nullChecks) {reduction : Bool} {ids : List TypeId}
    {a : TypeId} (h : (union reduction ids).run t = (a, t)) (hs : swallower? (t.atomsOf ids) = none)
    (m : TypeId) : m ∈ t.atoms a ↔ t.Survives reduction (t.atomsOf ids) m := by
  rw [run_union ht, hs] at h
  rw [← survives_collected_iff ht hs, ← mem_reducedMembers_iff ht,
    ← atoms_of_run_ofMembers ht (fun n hn => ?_) h]
  have hn := ((survives_collected_iff ht hs).1 ((mem_reducedMembers_iff ht).1 hn)).mem
  exact inUnion_of_swallower?_eq_none ht hs hn (isAtom_of_mem_atomsOf ht n hn)

/-- A union that has been worked out in the table opens into what survived of its operands, or into the
type that swallowed them. So it comes to the same as they do, whatever more there is. -/
theorem unites_of_run_union (ht : t.Normal nullChecks) {reduction : Bool} {ids : List TypeId}
    {a : TypeId} (h : (union reduction ids).run t = (a, t)) (more : List TypeId) :
    t.Unites reduction (t.atoms a ++ more) (t.atomsOf ids ++ more) := by
  cases hs : swallower? (t.atomsOf ids) with
  | some id =>
    rw [run_union ht, hs] at h
    obtain rfl : id = a := congrArg Prod.fst h
    rw [atoms_of_isAtom (isAtom_of_swallower? ht hs), List.singleton_append]
    exact ⟨swallower?_append_of_some hs more,
      fun hnone => absurd hnone (swallower?_cons_ne_none hs more)⟩
  | none =>
    -- the union opens into what has survived, and nothing in that swallows a union
    have hkept := mem_atoms_of_run_union ht h hs
    have hnone : swallower? (t.atoms a) = none := by
      rw [swallower?_eq_none] at hs ⊢
      exact ⟨fun hm => hs.1 ((hkept _).1 hm).mem, fun hm => hs.2.1 ((hkept _).1 hm).mem,
        fun hm => hs.2.2 ((hkept _).1 hm).mem⟩
    refine ⟨?_, fun _ _ => survives_append_iff hkept⟩
    rw [swallower?_append_of_none hnone, swallower?_append_of_none hs]

/-! ## Later tables -/

section

variable {ids : List TypeId}

theorem kind_eq_of_given {id : TypeId} (hid : t.Given (.type id)) (htu : t.Grows u) :
    u.kind id = t.kind id := congrArg TypeData.kind (data_eq_of_grows hid htu)

theorem atoms_eq_of_given {id : TypeId} (hid : t.Given (.type id)) (htu : t.Grows u) :
    u.atoms id = t.atoms id := by
  rw [atoms, atoms, kind_eq_of_given hid htu]

theorem atomsOf_eq_of_given (hids : ∀ id ∈ ids, t.Given (.type id)) (htu : t.Grows u) :
    u.atomsOf ids = t.atomsOf ids :=
  flatMap_congr_of_mem fun id hid => atoms_eq_of_given (hids id hid) htu

theorem given_of_inUnion {id : TypeId} (h : (t.kind id).inUnion) : t.Given (.type id) := by
  refine given_of_get? (get?_of_kind rfl fun hk => ?_)
  rw [hk] at h
  cases h

/-- What types open into are types of the table too. -/
theorem given_of_mem_atoms (ht : t.Normal nullChecks) {id m : TypeId} (hid : t.Given (.type id))
    (hm : m ∈ t.atoms id) : t.Given (.type m) := by
  unfold atoms at hm
  split at hm
  · rename_i ms hk
    exact given_of_inUnion ((ht.union hk hm).plain m hm)
  · cases hm
  · rwa [List.mem_singleton.1 hm]

/-- The same is collected of types in every later table. -/
theorem foldl_collectUnion_of_given (ht : t.Normal nullChecks) (hu : u.Normal nullChecks)
    (htu : t.Grows u) (hids : ∀ id ∈ ids, t.Given (.type id)) (p : UnionParts) :
    ids.foldl u.collectUnion p = ids.foldl t.collectUnion p := by
  rw [foldl_collectUnion ht, foldl_collectUnion hu, atomsOf_eq_of_given hids htu]
  refine List.foldl_rel rfl fun m hm p q hpq => ?_
  obtain ⟨id, hid, hm⟩ := List.mem_flatMap.1 hm
  rw [hpq, collectAtom, collectAtom, kind_eq_of_given (given_of_mem_atoms ht (hids id hid) hm) htu]

theorem reducedMembers_eq_of_grows (htu : t.Grows u) (reduction : Bool) {ms : List TypeId}
    (hms : ∀ m ∈ ms, (t.kind m).inUnion) :
    u.reducedMembers reduction ms = t.reducedMembers reduction ms := by
  have hkept : ms.filter (fun m => !u.isCovered ms m) = ms.filter fun m => !t.isCovered ms m := by
    refine List.filter_congr fun m hm => ?_
    rw [isCovered, isCovered, htu.kind_eq_of rfl (hms m hm)]
  rw [reducedMembers, reducedMembers, hkept]

/-- A type that is stored again, at any later time, gets its number again. -/
theorem run_store_again {d : TypeData} (htu : ((store d).run t).2.Grows u) :
    (store d).run u = (((store d).run t).1, u) := by
  have hget := Interner.intern_of_get? (htu.types _ _ store_get?)
  show ((⟨(u.types.intern d).1⟩, { u with types := (u.types.intern d).2 }) : TypeId × TypeTable) = _
  rw [hget]

theorem run_ofMembers_again {ms : List TypeId} (htu : ((ofMembers ms).run t).2.Grows u) :
    (ofMembers ms).run u = (((ofMembers ms).run t).1, u) := by
  rcases ms with _ | ⟨m, _ | ⟨n, ms⟩⟩
  · rfl
  · rfl
  · exact run_store_again (d := { kind := .union (m :: n :: ms) }) htu

/-- A union that is worked out again, at any later time, is the same type. -/
theorem run_union_again (ht : t.Normal nullChecks) (hu : u.Normal nullChecks) {reduction : Bool}
    (hids : ∀ id ∈ ids, t.Given (.type id)) (hgrows : t.Grows u)
    (htu : ((union reduction ids).run t).2.Grows u) :
    (union reduction ids).run u = (((union reduction ids).run t).1, u) := by
  rw [run_union ht] at htu ⊢
  rw [run_union hu, atomsOf_eq_of_given hids hgrows]
  cases hs : swallower? (t.atomsOf ids) with
  | some id => rfl
  | none =>
    rw [hs] at htu
    dsimp only at htu ⊢
    rw [foldl_collectUnion_of_given ht hu hgrows hids, reducedMembers_eq_of_grows hgrows]
    · exact run_ofMembers_again htu
    · exact fun m hm => (((sums_foldl_collectUnion ht ids).mem m).1 hm).2

end

/-! ## The laws -/

/-- The laws of unions, in every table that a check can reach and for both readings of `null` and
`undefined`. Neither the order of the operands nor how often one of them is given matters, and `never`
adds nothing. A union is the same type whenever it is worked out again; it is its own union; and among
operands it stands for its own. -/
theorem union_laws (ht : initial.Later nullChecks t) {xs : List TypeId}
    (hxs : ∀ id ∈ xs, t.Given (.type id)) :
    (∀ zs, (∀ id, id ∈ zs ↔ id ∈ xs) →
      (union nullChecks zs).run t = (union nullChecks xs).run t) ∧
    (union nullChecks (.never :: xs)).run t = (union nullChecks xs).run t ∧
    ∀ u, ((union nullChecks xs).run t).2.Later nullChecks u →
      let id := ((union nullChecks xs).run t).1
      (union nullChecks xs).run u = (id, u) ∧
      (union nullChecks [id]).run u = (id, u) ∧
      ∀ ys, (union nullChecks (id :: ys)).run u = (union nullChecks (xs ++ ys)).run u := by
  have htn : t.Normal nullChecks := ht.keeps.2 (normal_initial nullChecks)
  refine ⟨fun zs h => ?_, ?_, fun u hu => ?_⟩
  · refine Unites.run_union htn (.of_mem_iff fun m => ?_)
    simp only [atomsOf, List.mem_flatMap, h]
  · have hnever : t.atoms .never = [] := by
      rw [atoms, show t.kind .never = .never from htn.kind_fixed rfl]
    refine Unites.run_union htn (.of_mem_iff fun m => ?_)
    rw [atomsOf, List.flatMap_cons, hnever, List.nil_append, ← atomsOf]
  · intro id
    have hstep := Stored.keeps_union nullChecks xs t
    have hgrows := hstep.1.trans hu.keeps.1
    have hun : u.Normal nullChecks := hu.keeps.2 (hstep.2 htn)
    have hagain := run_union_again htn hun hxs hgrows hu.keeps.1
    have hnested (ys : List TypeId) :
        (union nullChecks (id :: ys)).run u = (union nullChecks (xs ++ ys)).run u := by
      refine Unites.run_union hun ?_
      rw [atomsOf, List.flatMap_cons, atomsOf, List.flatMap_append]
      exact unites_of_run_union hun hagain _
    refine ⟨hagain, ?_, hnested⟩
    rw [hnested, List.append_nil, hagain]

/-- Behind an alias `boolean` has a second number. The union of that type with `undefined` and `void` may
stand for the three beside `null`, in a check that tells `null` and `undefined` apart. -/
theorem union_laws_aliased :
    let s : Setting := ⟨⟨{}, { strict := true }, #[], [], {}, [], [], []⟩, fun _ => []⟩
    let r := ((Check.attachAlias .boolean ⟨⟨0⟩, []⟩).run s).run {}
    let t := r.2.table
    let xs := [r.1, .undefined, .void]
    let v := (union s.nullChecks xs).run t
    initial.Later s.nullChecks t ∧ (∀ id ∈ xs, t.Given (.type id)) ∧
      (union s.nullChecks [.void, r.1, .undefined, r.1]).run t = v ∧
      (union s.nullChecks [v.1]).run v.2 = v ∧
      (union s.nullChecks [v.1, .null]).run v.2 = (union s.nullChecks (xs ++ [.null])).run v.2 := by
  intro s r t xs v
  have hreach : r.2.Reachable s := .step (Check.attachAlias .boolean ⟨⟨0⟩, []⟩) .start
  have hboolean : ({} : Checker).table.types.get? TypeId.boolean.index =
      some { kind := .union [.false_, .true_] } := by
    dsimp only
    rw [initial_get?]
    rfl
  obtain ⟨d, hd, -⟩ := Checker.stores_attachAlias (s := s) hboolean rfl ⟨⟨0⟩, []⟩
  have hn := hreach.normal
  have hgiven : ∀ id ∈ xs, t.Given (.type id) := by
    intro id hid
    simp only [xs, List.mem_cons, List.not_mem_nil, or_false] at hid
    obtain rfl | rfl | rfl := hid
    · exact given_of_get? hd
    · exact given_of_get? (hn.fixed 3 _ rfl)
    · exact given_of_get? (hn.fixed 12 _ rfl)
  obtain ⟨hset, -, hlater⟩ := union_laws hreach.later hgiven
  obtain ⟨-, hself, hnested⟩ := hlater v.2 (.refl v.2)
  refine ⟨hreach.later, hgiven, hset _ fun id => ?_, hself, hnested [.null]⟩
  simp only [xs, List.mem_cons, List.not_mem_nil, or_false]
  grind

end TypeTable

end DeclKit

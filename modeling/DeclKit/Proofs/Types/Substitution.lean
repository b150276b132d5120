/-
Substitution on the types of a table.

For a type that is built of others all the way down, a substitution says what it becomes: a parameter
what is put in for it, a union the union of what its members become, a template what the words make
that its types stand for, and so on. All of that is read off one table. It is at most one type, and a
later table has it if this one does not.
-/
import DeclKit.Proofs.Types.Expansion
import DeclKit.Types.Instance

set_option autoImplicit false

namespace DeclKit

/-! ## Kinds and their parts -/

namespace TypeKind

/-- A kind has no parts, or is the kind of a parameter, or is built of its parts. -/
theorem isStructural_cases {k : TypeKind} (h : k.isStructural) :
    k.isFixed ∨ (∃ s, k = .param s) ∨ k.isBuilt := by
  rw [isStructural, Bool.or_eq_true, Bool.or_eq_true] at h
  rcases h with (h | h) | h
  · exact .inl h
  · refine .inr (.inl ?_)
    cases k with
    | param s => exact ⟨s, rfl⟩
    | _ => cases h
  · exact .inr (.inr h)

theorem not_isBuilt_of_isFixed {k : TypeKind} (h : k.isFixed) : k.isBuilt = false := by
  cases k with
  | interface s args => rw [isBuilt, show args.isEmpty = true from h, Bool.not_true]
  | union | template | tuple => cases h
  | _ => rfl

theorem isStructural_of_isBuilt {k : TypeKind} (h : k.isBuilt) : k.isStructural := by
  rw [isStructural, h, Bool.or_true]

theorem isStructural_of_isFixed {k : TypeKind} (h : k.isFixed) : k.isStructural := by
  rw [isStructural, h, Bool.true_or, Bool.true_or]

theorem parts_of_isFixed {k : TypeKind} (h : k.isFixed) : k.parts = [] := by
  cases k with
  | interface s args => exact List.isEmpty_iff.1 h
  | union | template | tuple => cases h
  | _ => rfl

section

variable {elements : List TupleElement} {rs rs' : List TypeId}

theorem types_zip (h : rs.length = elements.length) :
    ((elements.zip rs).map fun (e, type) => { e with type }).map TupleElement.type = rs := by
  rw [List.map_map]
  exact List.map_snd_zip (Nat.le_of_eq h)

theorem all_zip (h : elements.all (·.kind != .variadic)) :
    ((elements.zip rs).map fun (e, type) => { e with type }).all (·.kind != .variadic) := by
  rw [List.all_eq_true] at h ⊢
  intro e he
  obtain ⟨⟨e, r⟩, hp, rfl⟩ := List.mem_map.1 he
  exact h e (List.of_mem_zip hp).1

theorem zip_zip (h : rs.length = elements.length) :
    ((((elements.zip rs).map fun (e, type) => { e with type }).zip rs').map
      fun (e, type) => { e with type }) = (elements.zip rs').map fun (e, type) => { e with type } := by
  induction elements generalizing rs rs' with
  | nil => rfl
  | cons e elements ih =>
    obtain _ | ⟨r, rs⟩ := rs
    · cases h
    obtain _ | ⟨r', rs'⟩ := rs'
    · rfl
    · simp only [List.zip_cons_cons, List.map_cons]
      rw [ih (Nat.succ.inj h)]

end

variable {k : TypeKind} {rs rs' : List TypeId}

/-- A type that is stored as it stands when it is built again. -/
def isRestored : TypeKind → Bool
  | .union _ | .template .. => false
  | k => k.isBuilt

theorem isBuilt_of_isRestored (h : k.isRestored) : k.isBuilt := by
  cases k with
  | interface | tuple => exact h
  | _ => cases h

theorem parts_withParts (hk : k.isRestored) (h : rs.length = k.parts.length) :
    (k.withParts rs).parts = rs := by
  cases k with
  | interface s args => rfl
  | tuple elements readonly => exact types_zip (h.trans (List.length_map _))
  | _ => cases hk

theorem isRestored_withParts (hk : k.isRestored) (h : rs.length = k.parts.length) :
    (k.withParts rs).isRestored := by
  cases k with
  | interface s args =>
    have hargs : args.isEmpty = false := by simpa [isRestored, isBuilt] using hk
    show (!rs.isEmpty) = true
    rw [List.isEmpty_eq_false_iff] at hargs
    rw [Bool.not_eq_true', List.isEmpty_eq_false_iff, ← List.length_pos_iff, h]
    exact List.length_pos_iff.2 hargs
  | tuple elements readonly => exact all_zip hk
  | _ => cases hk

theorem withParts_withParts (hk : k.isRestored) (h : rs.length = k.parts.length) :
    (k.withParts rs).withParts rs' = k.withParts rs' := by
  cases k with
  | interface s args => rfl
  | tuple elements readonly =>
    exact congrArg (TypeKind.tuple · readonly) (zip_zip (h.trans (List.length_map _)))
  | _ => cases hk

end TypeKind

namespace TypeTable

variable {nullChecks : Bool} {t u v : TypeTable} {id r : TypeId}

/-! ## Types that are built all the way down -/

/-- A type is built, in fewer than so many steps, of types without parts and of type parameters, by
unions, templates, instances of interfaces and tuples without variadic elements. No alias is on the
way. -/
inductive Plain (t : TypeTable) : Nat → TypeId → Prop
  | mk {n : Nat} {id : TypeId} {k : TypeKind} :
      t.types.get? id.index = some { kind := k } → k.isStructural →
      (∀ p ∈ k.parts, Plain t n p) → Plain t (n + 1) id

namespace Plain

variable {n : Nat}

theorem mono (h : t.Plain n id) {l : Nat} (hl : n ≤ l) : t.Plain l id := by
  induction h generalizing l with
  | mk hid hk _ ih =>
    cases l with
    | zero => exact absurd hl (Nat.not_succ_le_zero _)
    | succ l => exact .mk hid hk fun p hp => ih p hp (Nat.le_of_succ_le_succ hl)

theorem grows (h : t.Plain n id) (htu : t.Grows u) : u.Plain n id := by
  induction h with
  | mk hid hk _ ih => exact .mk (htu.types _ _ hid) hk ih

theorem given (h : t.Plain n id) : t.Given (.type id) := by
  cases h with
  | mk hid _ _ => exact given_of_get? hid

/-- What is known about a type of a known kind. -/
theorem inv {k : TypeKind} {a : Option AliasRef} (h : t.Plain n id)
    (hid : t.types.get? id.index = some ⟨k, a⟩) :
    a = none ∧ k.isStructural ∧ ∃ l, n = l + 1 ∧ ∀ p ∈ k.parts, t.Plain l p := by
  cases h with
  | mk hid' hk hparts =>
    obtain ⟨rfl, rfl⟩ := TypeData.mk.inj (Option.some.inj (hid'.symm.trans hid))
    exact ⟨rfl, hk, _, rfl, hparts⟩

end Plain

/-- A type is built all the way down, in however many steps. -/
def IsPlain (t : TypeTable) (id : TypeId) : Prop := ∃ n, t.Plain n id

namespace IsPlain

theorem mk {k : TypeKind} (hid : t.types.get? id.index = some { kind := k }) (hk : k.isStructural)
    (hparts : ∀ p ∈ k.parts, t.IsPlain p) : t.IsPlain id := by
  have bound (ps : List TypeId) (h : ∀ p ∈ ps, t.IsPlain p) : ∃ n, ∀ p ∈ ps, t.Plain n p := by
    induction ps with
    | nil => exact ⟨0, fun p hp => absurd hp List.not_mem_nil⟩
    | cons p ps ih =>
      rw [List.forall_mem_cons] at h
      obtain ⟨n, hn⟩ := h.1
      obtain ⟨l, hl⟩ := ih h.2
      refine ⟨max n l, List.forall_mem_cons.2 ⟨hn.mono (Nat.le_max_left n l), fun q hq => ?_⟩⟩
      exact (hl q hq).mono (Nat.le_max_right n l)
  obtain ⟨n, hn⟩ := bound k.parts hparts
  exact ⟨n + 1, .mk hid hk hn⟩

theorem of_isFixed {k : TypeKind} (hid : t.types.get? id.index = some { kind := k })
    (hk : k.isFixed) : t.IsPlain id := by
  refine mk hid (TypeKind.isStructural_of_isFixed hk) fun p hp => ?_
  rw [TypeKind.parts_of_isFixed hk] at hp
  cases hp

theorem grows (h : t.IsPlain id) (htu : t.Grows u) : u.IsPlain id :=
  let ⟨n, hn⟩ := h
  ⟨n, hn.grows htu⟩

theorem given (h : t.IsPlain id) : t.Given (.type id) :=
  let ⟨_, hn⟩ := h
  hn.given

theorem parts (h : t.IsPlain id) {p : TypeId} (hp : p ∈ (t.kind id).parts) : t.IsPlain p := by
  obtain ⟨n, hn⟩ := h
  cases hn with
  | mk hid _ hparts =>
    rw [kind_of_get? hid] at hp
    exact ⟨_, hparts p hp⟩

/-- A type that is built all the way down is stored without an alias. -/
theorem get? (h : t.IsPlain id) : t.types.get? id.index = some { kind := t.kind id } := by
  obtain ⟨n, hn⟩ := h
  cases hn with
  | mk hid _ _ => rw [kind_of_get? hid, hid]

theorem isStructural (h : t.IsPlain id) : (t.kind id).isStructural := by
  obtain ⟨n, hn⟩ := h
  cases hn with
  | mk hid hk _ =>
    rw [kind_of_get? hid]
    exact hk

end IsPlain

/-! ## What swallows a union -/

/-- The types that swallow a union. -/
def swallowers : List TypeId := [.error, .any, .unknown]

theorem swallower?_eq_none_iff {ms : List TypeId} :
    swallower? ms = none ↔ ∀ id ∈ ms, id ∉ swallowers := by
  rw [swallower?_eq_none]
  constructor
  · rintro ⟨herror, hany, hunknown⟩ id hid hswallows
    simp only [swallowers, List.mem_cons, List.not_mem_nil, or_false] at hswallows
    rcases hswallows with rfl | rfl | rfl
    · exact herror hid
    · exact hany hid
    · exact hunknown hid
  · intro h
    exact ⟨fun hid => h _ hid (by decide), fun hid => h _ hid (by decide),
      fun hid => h _ hid (by decide)⟩

theorem mem_swallowers_of_swallower? {ms : List TypeId} (h : swallower? ms = some id) :
    id ∈ swallowers := by
  obtain ⟨rfl, -⟩ | ⟨rfl, -⟩ | ⟨rfl, -⟩ := swallower?_eq_some h
  · exact List.mem_cons_self
  · exact List.mem_cons_of_mem _ List.mem_cons_self
  · exact List.mem_cons_of_mem _ (List.mem_cons_of_mem _ List.mem_cons_self)

theorem isFixed_of_mem_swallowers (ht : t.Normal nullChecks) (h : id ∈ swallowers) :
    t.types.get? id.index = some { kind := t.kind id } ∧ (t.kind id).isFixed ∧
      (t.kind id).inUnion = false ∧ t.IsAtom id := by
  have hfixed {i : Nat} {k : TypeKind} (hi : intrinsics[i]? = some k) (hk : k.isFixed)
      (hin : k.inUnion = false) (hunion : k.isUnion = false) (hnever : k ≠ .never) :
      t.types.get? i = some { kind := t.kind ⟨i⟩ } ∧ (t.kind ⟨i⟩).isFixed ∧
        (t.kind ⟨i⟩).inUnion = false ∧ t.IsAtom ⟨i⟩ := by
    rw [IsAtom, ht.kind_fixed hi]
    exact ⟨ht.fixed i k hi, hk, hin, hunion, hnever⟩
  simp only [swallowers, List.mem_cons, List.not_mem_nil, or_false] at h
  rcases h with rfl | rfl | rfl
  · exact hfixed (i := 1) rfl rfl rfl rfl (by decide)
  · exact hfixed (i := 0) rfl rfl rfl rfl (by decide)
  · exact hfixed (i := 2) rfl rfl rfl rfl (by decide)

theorem not_mem_swallowers_of_inUnion (ht : t.Normal nullChecks) (h : (t.kind id).inUnion) :
    id ∉ swallowers := by
  intro hswallows
  rw [(isFixed_of_mem_swallowers ht hswallows).2.2.1] at h
  cases h

/-- What a type brings into a union may stand there, unless the type swallows the union. -/
theorem inUnion_of_mem_atoms (ht : t.Normal nullChecks) (hid : id ∉ swallowers) {y : TypeId}
    (hy : y ∈ t.atoms id) : (t.kind y).inUnion := by
  have hatom := isAtom_of_mem_atoms ht hy
  refine inUnion_of_swallower?_eq_none ht ?_ (List.mem_singleton_self y) hatom
  rw [swallower?_eq_none_iff, List.forall_mem_singleton]
  unfold atoms at hy
  split at hy
  · rename_i ms hk
    exact not_mem_swallowers_of_inUnion ht ((ht.union hk hy).plain y hy)
  · cases hy
  · rwa [List.mem_singleton.1 hy]

theorem swallower?_atomsOf (ht : t.Normal nullChecks) {ids : List TypeId}
    (hids : ∀ id ∈ ids, id ∉ swallowers) : swallower? (t.atomsOf ids) = none := by
  rw [swallower?_eq_none_iff]
  intro m hm
  obtain ⟨id, hid, hm⟩ := List.mem_flatMap.1 hm
  exact not_mem_swallowers_of_inUnion ht (inUnion_of_mem_atoms ht (hids id hid) hm)

/-! ## Results of unions -/

section

variable {ids : List TypeId} {a : TypeId}

/-- A union that has just been worked out is worked out again without a change. -/
theorem run_union_settled (ht : t.Normal nullChecks) (hids : ∀ id ∈ ids, t.Given (.type id)) :
    let r := (union nullChecks ids).run t
    (union nullChecks ids).run r.2 = (r.1, r.2) :=
  have hkeeps := Stored.keeps_union nullChecks ids t
  run_union_again ht (hkeeps.2 ht) hids hkeeps.1 (.refl _)

theorem not_mem_swallowers_of_run_union (ht : t.Normal nullChecks)
    (h : (union nullChecks ids).run t = (a, t)) (hids : ∀ id ∈ ids, id ∉ swallowers) :
    a ∉ swallowers := by
  intro ha
  have hself : a ∈ t.atoms a := by
    rw [atoms_of_isAtom (isFixed_of_mem_swallowers ht ha).2.2.2]
    exact List.mem_singleton_self a
  have hnone := swallower?_atomsOf ht hids
  have hmem := ((mem_atoms_of_run_union ht h hnone a).1 hself).mem
  exact swallower?_eq_none_iff.1 hnone a hmem ha

/-- Types of which none covers another are the members of their union. -/
theorem mem_atoms_of_uncovered (ht : t.Normal true) (h : (union true ids).run t = (a, t))
    (hids : ∀ id ∈ ids, (t.kind id).inUnion)
    (huncovered : ∀ m ∈ ids, ∀ n ∈ ids, (t.kind n).covers (t.kind m) = false) (m : TypeId) :
    m ∈ t.atoms a ↔ m ∈ ids := by
  have hatoms : t.atomsOf ids = ids := by
    rw [atomsOf, flatMap_congr_of_mem fun id hid => atoms_of_isAtom (isAtom_of_inUnion (hids id hid)),
      List.flatMap_singleton']
  have hnone := swallower?_atomsOf ht fun id hid => not_mem_swallowers_of_inUnion ht (hids id hid)
  rw [mem_atoms_of_run_union ht h hnone, hatoms]
  refine ⟨fun hm => hm.mem, fun hm => ⟨hm, fun n hn hcovers => ?_, fun h => by cases h⟩⟩
  rw [huncovered m hm n hn] at hcovers
  cases hcovers

/-- A union of types is one of the types that swallow it, `never`, one of the members, or it is stored
with members that are brought into it. -/
theorem run_union_cases (ht : t.Normal nullChecks) (ids : List TypeId) :
    let r := (union nullChecks ids).run t
    r.1 ∈ swallowers ∨ r.1 = .never ∨ r.1 ∈ t.atomsOf ids ∨
      ∃ ms, r.2.types.get? r.1.index = some { kind := .union ms } ∧ ∀ m ∈ ms, m ∈ t.atomsOf ids := by
  intro r
  have hrun : r = _ := run_union ht nullChecks ids
  cases hs : swallower? (t.atomsOf ids) with
  | some id =>
    rw [hs] at hrun
    rw [hrun]
    exact .inl (mem_swallowers_of_swallower? hs)
  | none =>
    rw [hs] at hrun
    dsimp only at hrun
    have hsub : ∀ m ∈ t.reducedMembers nullChecks (ids.foldl t.collectUnion {}).members.toList,
        m ∈ t.atomsOf ids := fun m hm =>
      ((survives_collected_iff ht hs).1 ((mem_reducedMembers_iff ht).1 hm)).mem
    generalize t.reducedMembers nullChecks (ids.foldl t.collectUnion {}).members.toList = ms at *
    right
    rcases ms with _ | ⟨m, _ | ⟨n, ms⟩⟩
    · rw [hrun]
      exact .inl rfl
    · rw [hrun]
      exact .inr (.inl (hsub m (List.mem_singleton_self m)))
    · rw [hrun]
      exact .inr (.inr ⟨_, store_get?, hsub⟩)

/-- The union of types of the table is a type of the table. -/
theorem given_run_union (ht : t.Normal nullChecks) (hids : ∀ id ∈ ids, t.Given (.type id)) :
    ((union nullChecks ids).run t).2.Given (.type ((union nullChecks ids).run t).1) := by
  have hkeeps := Stored.keeps_union nullChecks ids t
  have hr := hkeeps.2 ht
  rcases run_union_cases ht ids with h | h | h | ⟨ms, h, -⟩
  · exact given_of_get? (isFixed_of_mem_swallowers hr h).1
  · rw [h]
    exact given_of_get? (hr.fixed 13 _ rfl)
  · obtain ⟨id, hid, hm⟩ := List.mem_flatMap.1 h
    exact (given_of_mem_atoms ht (hids id hid) hm).mono hkeeps.1
  · exact given_of_get? h

theorem IsPlain.of_mem_atoms (h : t.IsPlain id) {y : TypeId}
    (hy : y ∈ t.atoms id) : t.IsPlain y := by
  unfold atoms at hy
  split at hy
  · rename_i ms hk
    exact h.parts (by rwa [hk])
  · cases hy
  · rwa [List.mem_singleton.1 hy]

/-- A union takes one step more than its members. -/
theorem Plain.of_atoms {n : Nat} (h : t.IsPlain id) (hatoms : ∀ y ∈ t.atoms id, t.Plain n y) :
    t.Plain (n + 1) id := by
  have hget := h.get?
  unfold atoms at hatoms
  split at hatoms
  · rename_i ms hk
    rw [hk] at hget
    exact .mk hget rfl hatoms
  · rename_i hk
    rw [hk] at hget
    exact .mk hget rfl fun p hp => absurd hp List.not_mem_nil
  · exact (hatoms id (List.mem_singleton_self id)).mono (Nat.le_succ n)

/-- The union of types that are built all the way down is such a type. -/
theorem IsPlain.of_run_union (ht : t.Normal nullChecks) (h : (union nullChecks ids).run t = (a, t))
    (hids : ∀ id ∈ ids, t.IsPlain id) : t.IsPlain a := by
  have hcases := run_union_cases ht ids
  rw [h] at hcases
  have hatoms : ∀ m ∈ t.atomsOf ids, t.IsPlain m := by
    intro m hm
    obtain ⟨id, hid, hm⟩ := List.mem_flatMap.1 hm
    exact (hids id hid).of_mem_atoms hm
  rcases hcases with hr | hr | hr | ⟨ms, hr, hms⟩
  · obtain ⟨hget, hfixed, -⟩ := isFixed_of_mem_swallowers ht hr
    exact .of_isFixed hget hfixed
  · rw [show a = .never from hr]
    exact .of_isFixed (ht.fixed 13 _ rfl) rfl
  · exact hatoms a hr
  · exact .mk hr rfl fun m hm => hatoms m (hms m hm)

theorem nodup_of_increasing {ms : List TypeId} (h : ms.Pairwise (·.index < ·.index)) : ms.Nodup :=
  h.imp fun {a b} (hlt : a.index < b.index) heq => Nat.ne_of_lt hlt (congrArg TypeId.index heq)

/-- Of a stored union nothing is dropped. -/
theorem NormalUnion.reducedMembers_eq (ht : t.Normal nullChecks) {ms : List TypeId}
    (h : t.NormalUnion nullChecks ms) : t.reducedMembers nullChecks ms = ms := by
  have hdistinct := nodup_of_increasing h.increasing
  have hsorted := increasing_reducedMembers t nullChecks hdistinct
  have hperm : (t.reducedMembers nullChecks ms).Perm ms := by
    refine (List.perm_ext_iff_of_nodup (nodup_of_increasing hsorted) hdistinct).2 fun m => ?_
    rw [mem_reducedMembers_iff ht]
    exact ⟨fun hm => hm.mem, fun hm => ⟨hm, h.uncovered m hm, fun hnc => h.nullish hnc m hm⟩⟩
  exact hperm.eq_of_pairwise (fun a b _ _ hab hba => absurd (Nat.lt_trans hab hba) (Nat.lt_irrefl _))
    hsorted h.increasing

/-- A stored union is the union of its members, however they are brought into it. -/
theorem run_union_of_atomsOf (ht : t.Normal nullChecks) {ms : List TypeId}
    (hget : t.types.get? id.index = some { kind := .union ms }) (hatoms : t.atomsOf ids = ms) :
    (union nullChecks ids).run t = (id, t) := by
  have hform : t.NormalUnion nullChecks ms := ht.forms _ _ hget
  have hnone : swallower? (t.atomsOf ids) = none := by
    rw [hatoms, swallower?_eq_none_iff]
    exact fun m hm => not_mem_swallowers_of_inUnion ht (hform.plain m hm)
  have hcollected := sums_foldl_collectUnion ht ids
  rw [hatoms] at hcollected
  have hdistinct : (ids.foldl t.collectUnion {}).members.toList.Nodup :=
    (Collected.all (S := fun _ => True) (fun _ _ _ _ _ _ => trivial) fun _ _ => trivial).distinct
  have hmem (m : TypeId) : m ∈ (ids.foldl t.collectUnion {}).members.toList ↔ m ∈ ms := by
    rw [hcollected.mem]
    exact ⟨And.left, fun hm => ⟨hm, hform.plain m hm⟩⟩
  have hreduced : t.reducedMembers nullChecks (ids.foldl t.collectUnion {}).members.toList = ms := by
    refine (reducedMembers_congr ht hdistinct (nodup_of_increasing hform.increasing) fun m => ?_).trans
      (hform.reducedMembers_eq ht)
    exact ⟨Survives.congr hmem, Survives.congr fun n => (hmem n).symm⟩
  rw [run_union ht, hnone]
  dsimp only
  rw [hreduced]
  obtain _ | ⟨m, _ | ⟨n, ms⟩⟩ := ms
  · exact absurd hform.several (Nat.not_succ_le_zero 1)
  · exact absurd hform.several (Nat.not_succ_le_self 1)
  · exact run_store_of_get? hget

/-- A stored union is its own union. -/
theorem run_union_stored (ht : t.Normal nullChecks) {ms : List TypeId}
    (hget : t.types.get? id.index = some { kind := .union ms }) :
    (union nullChecks [id]).run t = (id, t) := by
  refine run_union_of_atomsOf ht hget ?_
  rw [atomsOf, List.flatMap_singleton, atoms, kind_of_get? hget]

/-- A type that is built all the way down is its own union. -/
theorem IsPlain.run_union_self (ht : t.Normal nullChecks) (h : t.IsPlain id) :
    (union nullChecks [id]).run t = (id, t) := by
  have hget := h.get?
  by_cases hin : (t.kind id).inUnion
  · exact run_union_singleton ht hin
  have swallowed (hswallows : id ∈ swallowers) (hs : swallower? [id] = some id) :
      (union nullChecks [id]).run t = (id, t) := by
    rw [run_union ht, atomsOf, List.flatMap_singleton,
      atoms_of_isAtom (isFixed_of_mem_swallowers ht hswallows).2.2.2, hs]
  cases hk : t.kind id with
  | union ms =>
    rw [hk] at hget
    exact run_union_stored ht hget
  | never =>
    have hatoms : t.atomsOf [id] = [] := by rw [atomsOf, List.flatMap_singleton, atoms, hk]
    obtain rfl := ht.eq_of_kind (i := 13) rfl rfl hk
    rw [run_union ht, foldl_collectUnion ht, hatoms]
    show (ofMembers (t.reducedMembers nullChecks [])).run t = _
    rw [show t.reducedMembers nullChecks [] = [] by simp [reducedMembers]]
    rfl
  | any =>
    obtain rfl := ht.eq_of_kind (i := 0) rfl rfl hk
    exact swallowed (by decide) (by decide)
  | error =>
    obtain rfl := ht.eq_of_kind (i := 1) rfl rfl hk
    exact swallowed (by decide) (by decide)
  | unknown =>
    obtain rfl := ht.eq_of_kind (i := 2) rfl rfl hk
    exact swallowed (by decide) (by decide)
  | _ => exact absurd (by rw [hk]; rfl) hin

end

theorem UnionOfWords.given (ht : t.Normal nullChecks) {L : TemplateWord → Prop}
    (h : t.UnionOfWords nullChecks L id) : t.Given (.type id) := by
  obtain ⟨ids, hmakes, hunion⟩ := h
  have hgiven := given_run_union ht hmakes.given
  rwa [hunion] at hgiven

/-! ## Words of plain types -/

/-- A type in a word that another word stands for comes from what a type in that word stands for. -/
theorem Expands.exists_of_mem_right {g : TypeId → TemplateWord → Prop} {w x : TemplateWord}
    (h : Expands g w x) {i : TypeId} (hi : .inr i ∈ x) :
    ∃ j y, .inr j ∈ w ∧ g j y ∧ .inr i ∈ y := by
  induction h with
  | nil => cases hi
  | char _ ih =>
    obtain ⟨j, y, hj, hy, hi⟩ := ih (by simpa using hi)
    exact ⟨j, y, List.mem_cons_of_mem _ hj, hy, hi⟩
  | @type j y _ _ hy _ ih =>
    rcases List.mem_append.1 hi with hi | hi
    · exact ⟨j, y, List.mem_cons_self, hy, hi⟩
    · obtain ⟨j, y, hj, hy, hi⟩ := ih hi
      exact ⟨j, y, List.mem_cons_of_mem _ hj, hy, hi⟩

theorem IsPlain.of_mem_partWord (h : t.IsPlain id) {i : TypeId} (hi : .inr i ∈ t.partWord id) :
    t.IsPlain i := by
  unfold partWord at hi
  split at hi
  · simp [textWord] at hi
  split at hi
  · rename_i head spans hk
    obtain ⟨s, hs, rfl⟩ := mem_templateWord.1 hi
    refine h.parts ?_
    rw [hk]
    exact List.mem_map_of_mem hs
  · obtain rfl : i = id := by simpa using hi
    exact h

theorem IsPlain.of_contributes (h : t.IsPlain id) {w : TemplateWord} (hw : t.Contributes id w)
    {i : TypeId} (hi : .inr i ∈ w) : t.IsPlain i := by
  obtain ⟨m, hm, rfl⟩ := hw
  exact (h.of_mem_atoms hm).of_mem_partWord hi

theorem isStructural_wordKind (w : TemplateWord) : (wordKind w).isStructural := by
  rcases wordKind_cases w with ⟨s, hk, -⟩ | ⟨hk, -⟩ | ⟨head, spans, hk, -⟩ <;> rw [hk] <;> rfl

/-- The parts of what a word makes stand in the word. -/
theorem mem_of_mem_parts_wordKind {w : TemplateWord} {p : TypeId} (hp : p ∈ (wordKind w).parts) :
    .inr p ∈ w := by
  rcases wordKind_cases w with ⟨s, hk, -⟩ | ⟨hk, -⟩ | ⟨head, spans, hk, rfl, -⟩
  · rw [hk] at hp
    cases hp
  · rw [hk] at hp
    cases hp
  · rw [hk] at hp
    obtain ⟨s, hs, rfl⟩ := List.mem_map.1 hp
    exact mem_templateWord.2 ⟨s, hs, rfl⟩

theorem Makes.isPlain {L : TemplateWord → Prop} {ids : List TypeId} (h : t.Makes L ids)
    (hL : ∀ w, L w → ∀ i, .inr i ∈ w → t.IsPlain i) : ∀ id ∈ ids, t.IsPlain id := by
  intro m hm
  obtain ⟨w, hw, hget⟩ := h.only m hm
  exact .mk hget (isStructural_wordKind w) fun p hp => hL w hw p (mem_of_mem_parts_wordKind hp)

theorem Makes.not_mem_swallowers (ht : t.Normal nullChecks) {L : TemplateWord → Prop}
    {ids : List TypeId} (h : t.Makes L ids) : ∀ id ∈ ids, id ∉ swallowers :=
  fun m hm => not_mem_swallowers_of_inUnion ht (h.inUnion m hm)

/-- What words of plain types make is plain. -/
theorem UnionOfWords.isPlain (ht : t.Normal nullChecks) {L : TemplateWord → Prop}
    (h : t.UnionOfWords nullChecks L id) (hL : ∀ w, L w → ∀ i, .inr i ∈ w → t.IsPlain i) :
    t.IsPlain id := by
  obtain ⟨ids, hmakes, hunion⟩ := h
  exact .of_run_union ht hunion (hmakes.isPlain hL)

theorem UnionOfWords.not_mem_swallowers (ht : t.Normal nullChecks) {L : TemplateWord → Prop}
    (h : t.UnionOfWords nullChecks L id) : id ∉ swallowers := by
  obtain ⟨ids, hmakes, hunion⟩ := h
  exact not_mem_swallowers_of_run_union ht hunion (hmakes.not_mem_swallowers ht)

/-! ## Building again -/

/-- A type is what is built like one of a kind, of other parts. -/
def Rebuilt (nullChecks : Bool) (t : TypeTable) (k : TypeKind) (parts : List TypeId) (r : TypeId) :
    Prop :=
  match k.withParts parts with
  | .union ms => (union nullChecks ms).run t = (r, t)
  | .template head spans =>
    t.UnionOfWords nullChecks (Expands t.Contributes (templateWord head spans)) r
  | k => t.types.get? r.index = some { kind := k }

section

variable {k : TypeKind} {rs : List TypeId}

theorem rebuilt_iff_of_isRestored (hk : k.isRestored) :
    t.Rebuilt nullChecks k rs r ↔ t.types.get? r.index = some { kind := k.withParts rs } := by
  cases k with
  | interface | tuple => exact Iff.rfl
  | _ => cases hk

/-- Either a union, or a template, or stored as it stands. -/
theorem isBuilt_cases (hk : k.isBuilt) :
    (∃ ms, k = .union ms) ∨ (∃ head spans, k = .template head spans) ∨ k.isRestored := by
  cases k with
  | union ms => exact .inl ⟨ms, rfl⟩
  | template head spans => exact .inr (.inl ⟨head, spans, rfl⟩)
  | interface | tuple => exact .inr (.inr hk)
  | _ => cases hk

theorem Rebuilt.given (ht : t.Normal nullChecks) (hk : k.isBuilt) (h : t.Rebuilt nullChecks k rs r)
    (hrs : ∀ p ∈ rs, t.Given (.type p)) : t.Given (.type r) := by
  rcases isBuilt_cases hk with ⟨ms, rfl⟩ | ⟨head, spans, rfl⟩ | hk
  · have hgiven := given_run_union ht hrs
    rwa [show (union nullChecks rs).run t = (r, t) from h] at hgiven
  · exact UnionOfWords.given ht h
  · exact given_of_get? ((rebuilt_iff_of_isRestored hk).1 h)

theorem Rebuilt.unique (ht : t.Normal nullChecks) (hk : k.isBuilt) {r' : TypeId}
    (h : t.Rebuilt nullChecks k rs r) (h' : t.Rebuilt nullChecks k rs r') : r = r' := by
  rcases isBuilt_cases hk with ⟨ms, rfl⟩ | ⟨head, spans, rfl⟩ | hk
  · exact congrArg Prod.fst (Eq.trans (Eq.symm h) h')
  · exact UnionOfWords.unique ht h h'
  · have heq := Interner.get?_inj ((rebuilt_iff_of_isRestored hk).1 h)
      ((rebuilt_iff_of_isRestored hk).1 h')
    obtain ⟨i⟩ := r
    exact congrArg TypeId.mk heq

theorem mem_zip_texts {head : String} {spans : List (TypeId × String)} {i : TypeId}
    (h : .inr i ∈ templateWord head (rs.zip (spans.map (·.2)))) : i ∈ rs := by
  obtain ⟨s, hs, rfl⟩ := mem_templateWord.1 h
  exact (List.of_mem_zip hs).1

theorem Rebuilt.grows (ht : t.Normal nullChecks) (hk : k.isBuilt) (h : t.Rebuilt nullChecks k rs r)
    (hrs : ∀ p ∈ rs, t.Given (.type p)) (htu : t.Keeps nullChecks u) :
    u.Rebuilt nullChecks k rs r := by
  rcases isBuilt_cases hk with ⟨ms, rfl⟩ | ⟨head, spans, rfl⟩ | hk
  · have hrun : (union nullChecks rs).run t = (r, t) := h
    have hagain := run_union_again ht (htu.2 ht) hrs htu.1 (by rw [hrun]; exact htu.1)
    rw [hrun] at hagain
    exact hagain
  · refine (UnionOfWords.grows ht h htu).congr fun w => (Expands.congr fun i hi x => ?_).symm
    exact contributes_iff_of_grows ht htu.1 (hrs i (mem_zip_texts hi)) x
  · rw [rebuilt_iff_of_isRestored hk] at h ⊢
    exact htu.1.types _ _ h

/-- What is stored when a type is built again is what is built of the parts. -/
theorem rebuilt_run_rebuild (ht : t.Normal nullChecks) (hk : k.isBuilt)
    (hrs : ∀ p ∈ rs, t.Given (.type p)) (herror : .error ∉ rs ∨ k.isRestored) :
    let r := (rebuild nullChecks k rs).run t
    t.Later nullChecks r.2 ∧ r.2.Rebuilt nullChecks k rs r.1 := by
  rcases isBuilt_cases hk with ⟨ms, rfl⟩ | ⟨head, spans, rfl⟩ | hk
  · have hlater : t.Later nullChecks ((union nullChecks rs).run t).2 := .step (.refl t) (.union rs)
    exact ⟨hlater, run_union_again ht (hlater.keeps.2 ht) hrs hlater.keeps.1 (.refl _)⟩
  · have hlater : t.Later nullChecks
        ((template nullChecks head (rs.zip (spans.map (·.2)))).run t).2 :=
      .step (.refl t) (.template head _)
    have herror' : ∀ s ∈ rs.zip (spans.map (·.2)), s.1 ≠ .error := by
      rintro s hs heq
      refine herror.elim (fun h => h ?_) fun h => by cases h
      exact heq ▸ (List.of_mem_zip hs).1
    refine ⟨hlater, (unionOfWords_template ht head (fun s hs => hrs _ (List.of_mem_zip hs).1)
      herror').congr fun w => (Expands.congr fun i hi x => ?_).symm⟩
    exact contributes_iff_of_grows ht hlater.keeps.1 (hrs i (mem_zip_texts hi)) x
  · have hrun : rebuild nullChecks k rs = intern (k.withParts rs) := by
      cases k with
      | interface | tuple => rfl
      | _ => cases hk
    have hplain : (k.withParts rs).isPlain := by
      cases k with
      | interface | tuple => rfl
      | _ => cases hk
    intro r
    rw [rebuilt_iff_of_isRestored hk]
    unfold r
    rw [hrun]
    exact ⟨.step (.refl t) (.intern hplain), store_get?⟩

end

/-! ## What a substitution makes of a type -/

/-- What a type becomes when types are put in for type parameters. -/
inductive Becomes (nullChecks : Bool) (σ : SymbolId → Option TypeId) (t : TypeTable) :
    TypeId → TypeId → Prop
  | fixed {id : TypeId} {k : TypeKind} :
      t.types.get? id.index = some { kind := k } → k.isFixed → Becomes nullChecks σ t id id
  | param {id : TypeId} {s : SymbolId} :
      t.types.get? id.index = some { kind := .param s } → t.Given (.type ((σ s).getD id)) →
      Becomes nullChecks σ t id ((σ s).getD id)
  | built {id r : TypeId} {k : TypeKind} {rs : List TypeId} :
      t.types.get? id.index = some { kind := k } → k.isBuilt → rs.length = k.parts.length →
      (∀ p ∈ k.parts.zip rs, Becomes nullChecks σ t p.1 p.2) → t.Rebuilt nullChecks k rs r →
      Becomes nullChecks σ t id r

/-- A substitution puts in plain types, and none of those that swallow a union. -/
structure Mild (t : TypeTable) (σ : SymbolId → Option TypeId) : Prop where
  isPlain : ∀ s x, σ s = some x → t.IsPlain x
  not_swallower : ∀ s x, σ s = some x → x ∉ swallowers

theorem Mild.grows {σ : SymbolId → Option TypeId} (h : t.Mild σ) (htu : t.Grows u) : u.Mild σ where
  isPlain s x hx := (h.isPlain s x hx).grows htu
  not_swallower := h.not_swallower

theorem eq_of_forall₂ {α β γ : Type} {R : α → β → Prop} {R' : α → γ → Prop} {S : β → γ → Prop}
    {xs : List α} {ys : List β} {zs : List γ} (h : Forall₂ R xs ys) (h' : Forall₂ R' xs zs)
    (hS : ∀ x y z, R x y → R' x z → S y z) : Forall₂ S ys zs := by
  induction h generalizing zs with
  | nil =>
    cases h'
    exact .nil
  | cons hxy _ ih =>
    cases h' with
    | cons hxz h' => exact .cons (hS _ _ _ hxy hxz) (ih h')

/-- What holds of one of two lists. -/
theorem forall_of_forall₂ {α β : Type} {R : α → β → Prop} {P : β → Prop} {xs : List α} {ys : List β}
    (h : Forall₂ R xs ys) (hP : ∀ x ∈ xs, ∀ y, R x y → P y) : ∀ y ∈ ys, P y := by
  intro y hy
  obtain ⟨x, hx, hxy⟩ := h.flip.exists_of_mem hy
  exact hP x hx y hxy

namespace Becomes

variable {σ : SymbolId → Option TypeId} {k : TypeKind} {rs : List TypeId}

theorem of_forall₂ (hid : t.types.get? id.index = some { kind := k })
    (hk : k.isBuilt) (hrs : Forall₂ (t.Becomes nullChecks σ) k.parts rs)
    (hr : t.Rebuilt nullChecks k rs r) : t.Becomes nullChecks σ id r := by
  exact .built hid hk hrs.length_eq.symm (fun p hp => hrs.of_mem_zip hp) hr

/-- Induction on what becomes of a type, part by part. -/
@[elab_as_elim]
theorem induct {motive : ∀ id r, t.Becomes nullChecks σ id r → Prop}
    (fixed : ∀ {id k} (hid : t.types.get? id.index = some { kind := k }) (hk : k.isFixed),
      motive id id (.fixed hid hk))
    (param : ∀ {id s} (hid : t.types.get? id.index = some { kind := .param s })
      (hr : t.Given (.type ((σ s).getD id))), motive id ((σ s).getD id) (.param hid hr))
    (built : ∀ {id r k rs} (hid : t.types.get? id.index = some { kind := k }) (hk : k.isBuilt)
      (hparts : Forall₂ (fun p q => ∃ h : t.Becomes nullChecks σ p q, motive p q h) k.parts rs)
      (hr : t.Rebuilt nullChecks k rs r),
      motive id r (of_forall₂ hid hk (hparts.imp fun _ _ ⟨h, _⟩ => h) hr))
    (h : t.Becomes nullChecks σ id r) : motive id r h := by
  induction h with
  | fixed hid hk => exact fixed hid hk
  | param hid hr => exact param hid hr
  | built hid hk hlength hparts hr ih =>
    exact built hid hk (Forall₂.of_forall_zip hlength.symm fun p hp => ⟨hparts _ hp, ih _ hp⟩) hr

/-- What a type of a known kind has become. -/
theorem inv (h : t.Becomes nullChecks σ id r) (hid : t.types.get? id.index = some { kind := k }) :
    (k.isFixed ∧ r = id) ∨ (∃ s, k = .param s ∧ r = (σ s).getD id) ∨
      (k.isBuilt ∧ ∃ rs, Forall₂ (t.Becomes nullChecks σ) k.parts rs ∧
        t.Rebuilt nullChecks k rs r) := by
  have same {k' : TypeKind} (hid' : t.types.get? id.index = some { kind := k' }) : k' = k :=
    congrArg TypeData.kind (Option.some.inj (hid'.symm.trans hid))
  cases h with
  | fixed hid' hk =>
    obtain rfl := same hid'
    exact .inl ⟨hk, rfl⟩
  | param hid' _ =>
    obtain rfl := same hid'
    exact .inr (.inl ⟨_, rfl, rfl⟩)
  | built hid' hk hlength hparts hr =>
    obtain rfl := same hid'
    exact .inr (.inr ⟨hk, _, Forall₂.of_forall_zip hlength.symm hparts, hr⟩)

theorem eq_of_isFixed (h : t.Becomes nullChecks σ id r)
    (hid : t.types.get? id.index = some { kind := k }) (hk : k.isFixed) : r = id := by
  rcases h.inv hid with ⟨-, hr⟩ | ⟨s, rfl, -⟩ | ⟨hbuilt, -⟩
  · exact hr
  · cases hk
  · rw [TypeKind.not_isBuilt_of_isFixed hk] at hbuilt
    cases hbuilt

theorem eq_of_param {s : SymbolId} (h : t.Becomes nullChecks σ id r)
    (hid : t.types.get? id.index = some { kind := .param s }) : r = (σ s).getD id := by
  rcases h.inv hid with ⟨hk, -⟩ | ⟨s', hs, hr⟩ | ⟨hk, -⟩
  · cases hk
  · rwa [TypeKind.param.inj hs]
  · cases hk

theorem exists_rebuilt (h : t.Becomes nullChecks σ id r)
    (hid : t.types.get? id.index = some { kind := k }) (hk : k.isBuilt) :
    ∃ rs, Forall₂ (t.Becomes nullChecks σ) k.parts rs ∧ t.Rebuilt nullChecks k rs r := by
  rcases h.inv hid with ⟨hfixed, -⟩ | ⟨s, rfl, -⟩ | ⟨-, hr⟩
  · rw [TypeKind.not_isBuilt_of_isFixed hfixed] at hk
    cases hk
  · cases hk
  · exact hr

/-- What a type becomes is a type of the table. -/
theorem given (ht : t.Normal nullChecks) (h : t.Becomes nullChecks σ id r) : t.Given (.type r) := by
  induction h using induct with
  | fixed hid _ => exact given_of_get? hid
  | param _ hr => exact hr
  | built hid hk hparts hr =>
    exact hr.given ht hk (forall_of_forall₂ hparts fun _ _ _ hp => hp.2)

/-- A type becomes the same in every later table. -/
theorem grows (ht : t.Normal nullChecks) (h : t.Becomes nullChecks σ id r)
    (htu : t.Keeps nullChecks u) : u.Becomes nullChecks σ id r := by
  induction h using induct with
  | fixed hid hk => exact .fixed (htu.1.types _ _ hid) hk
  | param hid hr => exact .param (htu.1.types _ _ hid) (hr.mono htu.1)
  | built hid hk hparts hr =>
    have hgiven := forall_of_forall₂ hparts fun _ _ _ hp => hp.1.given ht
    exact .of_forall₂ (htu.1.types _ _ hid) hk (hparts.imp fun _ _ hp => hp.2)
      (hr.grows ht hk hgiven htu)

/-- A type becomes one type. -/
theorem unique (ht : t.Normal nullChecks) {r' : TypeId} (h : t.Becomes nullChecks σ id r)
    (h' : t.Becomes nullChecks σ id r') : r = r' := by
  induction h using induct generalizing r' with
  | fixed hid hk => exact (h'.eq_of_isFixed hid hk).symm
  | param hid hr => exact (h'.eq_of_param hid).symm
  | built hid hk hparts hr =>
    obtain ⟨rs', hrs', hr'⟩ := h'.exists_rebuilt hid hk
    have heq := eq_of_forall₂ hparts hrs' fun _ _ _ hp hp' => hp.2 hp'
    obtain rfl := heq.eq
    exact hr.unique ht hk hr'

theorem not_mem_swallowers (ht : t.Normal nullChecks) (hσ : t.Mild σ)
    (h : t.Becomes nullChecks σ id r) (hid : id ∉ swallowers) : r ∉ swallowers := by
  induction h using induct with
  | fixed _ _ => exact hid
  | @param id s _ _ =>
    cases hs : σ s with
    | none => exact hid
    | some x => exact hσ.not_swallower s x hs
  | @built id r k rs hget hk hparts hr =>
    rcases isBuilt_cases hk with ⟨ms, rfl⟩ | ⟨head, spans, rfl⟩ | hk
    · have hform : t.NormalUnion nullChecks ms := ht.forms _ _ hget
      refine not_mem_swallowers_of_run_union ht hr (forall_of_forall₂ hparts fun m hm _ hp => ?_)
      exact hp.2 (not_mem_swallowers_of_inUnion ht (hform.plain m hm))
    · exact UnionOfWords.not_mem_swallowers ht hr
    · refine not_mem_swallowers_of_inUnion ht ?_
      rw [kind_of_get? ((rebuilt_iff_of_isRestored hk).1 hr)]
      cases k with
      | interface | tuple => rfl
      | _ => cases hk

theorem ne_error (ht : t.Normal nullChecks) (hσ : t.Mild σ) (h : t.Becomes nullChecks σ id r)
    (hid : id ≠ .error) : r ≠ .error := by
  rintro rfl
  by_cases hswallows : id ∈ swallowers
  · obtain ⟨hget, hfixed, -⟩ := isFixed_of_mem_swallowers ht hswallows
    exact hid (h.eq_of_isFixed hget hfixed).symm
  · exact h.not_mem_swallowers ht hσ hswallows List.mem_cons_self

theorem isPlain (ht : t.Normal nullChecks) (hσ : t.Mild σ) (h : t.Becomes nullChecks σ id r)
    (hid : t.IsPlain id) : t.IsPlain r := by
  induction h using induct with
  | fixed _ _ => exact hid
  | @param id s _ _ =>
    cases hs : σ s with
    | none => exact hid
    | some x => exact hσ.isPlain s x hs
  | @built id r k rs hget hk hparts hr =>
    have hrs : ∀ q ∈ rs, t.IsPlain q := forall_of_forall₂ hparts fun p hp _ hq =>
      hq.2 (hid.parts (by rwa [kind_of_get? hget]))
    rcases isBuilt_cases hk with ⟨ms, rfl⟩ | ⟨head, spans, rfl⟩ | hk
    · exact .of_run_union ht hr hrs
    · refine UnionOfWords.isPlain ht hr fun w hw i hi => ?_
      obtain ⟨j, y, hj, hy, hi⟩ := hw.exists_of_mem_right hi
      exact (hrs j (mem_zip_texts hj)).of_contributes hy hi
    · have hlength : rs.length = k.parts.length := hparts.length_eq.symm
      refine .mk ((rebuilt_iff_of_isRestored hk).1 hr) ?_ fun q hq => hrs q ?_
      · exact TypeKind.isStructural_of_isBuilt
          (TypeKind.isBuilt_of_isRestored (TypeKind.isRestored_withParts hk hlength))
      · rwa [TypeKind.parts_withParts hk hlength] at hq

end Becomes

/-! ## Whatever is built becomes something -/

section

variable {σ : SymbolId → Option TypeId}

/-- A wrong type is no part of a union or a template. -/
theorem error_not_mem_parts (ht : t.Normal nullChecks) {k : TypeKind}
    (hid : t.types.get? id.index = some { kind := k }) (hk : k.isBuilt) :
    .error ∉ k.parts ∨ k.isRestored := by
  have herror : t.kind .error = .error := ht.kind_fixed rfl
  rcases isBuilt_cases hk with ⟨ms, rfl⟩ | ⟨head, spans, rfl⟩ | hk
  · have hform : t.NormalUnion nullChecks ms := ht.forms _ _ hid
    refine .inl fun hmem => ?_
    have hplain := hform.plain _ hmem
    rw [herror] at hplain
    cases hplain
  · have hform : t.NormalTemplate spans := ht.forms _ _ hid
    refine .inl fun hmem => ?_
    obtain ⟨s, hs, heq⟩ := List.mem_map.1 hmem
    have hplain := hform.plain s hs
    rw [heq, herror] at hplain
    cases hplain
  · exact .inr hk

/-- What types become is there in some later table, if each of them becomes something in one. -/
theorem exists_becomes_all {ids : List TypeId} (ht : t.Normal nullChecks)
    (h : ∀ id ∈ ids, ∀ u, t.Later nullChecks u →
      ∃ v, u.Later nullChecks v ∧ ∃ r, v.Becomes nullChecks σ id r) (u : TypeTable)
    (htu : t.Later nullChecks u) :
    ∃ v, u.Later nullChecks v ∧ ∃ rs, Forall₂ (v.Becomes nullChecks σ) ids rs := by
  induction ids generalizing u with
  | nil => exact ⟨u, .refl u, [], .nil⟩
  | cons id ids ih =>
    rw [List.forall_mem_cons] at h
    obtain ⟨v, huv, r, hr⟩ := h.1 u htu
    obtain ⟨w, hvw, rs, hrs⟩ := ih h.2 v (htu.trans huv)
    have hv : v.Normal nullChecks := (htu.trans huv).keeps.2 ht
    exact ⟨w, huv.trans hvw, r :: rs, .cons (hr.grows hv hvw.keeps) hrs⟩

/-- What a plain type becomes is there in some later table. By induction on how it is built. -/
theorem Plain.exists_becomes {n : Nat} (ht : t.Normal nullChecks) (hσ : t.Mild σ) (h : t.Plain n id)
    (u : TypeTable) (htu : t.Later nullChecks u) :
    ∃ v, u.Later nullChecks v ∧ ∃ r, v.Becomes nullChecks σ id r := by
  induction h generalizing u with
  | @mk n id k hid hk hparts ih =>
    have hu : u.Normal nullChecks := htu.keeps.2 ht
    have hid' := htu.keeps.1.types _ _ hid
    rcases TypeKind.isStructural_cases hk with hfixed | ⟨s, rfl⟩ | hbuilt
    · exact ⟨u, .refl u, id, .fixed hid' hfixed⟩
    · refine ⟨u, .refl u, _, .param hid' ?_⟩
      cases hs : σ s with
      | none => exact given_of_get? hid'
      | some x => exact ((hσ.isPlain s x hs).given).mono htu.keeps.1
    · obtain ⟨v, huv, rs, hrs⟩ := exists_becomes_all ht ih u htu
      have hv : v.Normal nullChecks := huv.keeps.2 hu
      have hσv : v.Mild σ := hσ.grows (htu.trans huv).keeps.1
      have herror : .error ∉ rs ∨ k.isRestored := by
        refine (error_not_mem_parts ht hid hbuilt).imp_left fun hmild herror => ?_
        obtain ⟨p, hp, hq⟩ := hrs.flip.exists_of_mem herror
        exact hq.ne_error hv hσv (fun heq => hmild (heq ▸ hp)) rfl
      have hgiven := forall_of_forall₂ hrs fun _ _ _ hq => hq.given hv
      obtain ⟨hlater, hrebuilt⟩ := rebuilt_run_rebuild hv hbuilt hgiven herror
      refine ⟨_, huv.trans hlater, _, .of_forall₂ ?_ hbuilt ?_ hrebuilt⟩
      · exact (huv.trans hlater).keeps.1.types _ _ hid'
      · exact hrs.imp fun _ _ hq => hq.grows hv hlater.keeps

theorem exists_becomes_of_isPlain {ids : List TypeId} (ht : t.Normal nullChecks) (hσ : t.Mild σ)
    (h : ∀ id ∈ ids, t.IsPlain id) :
    ∃ u, t.Later nullChecks u ∧ ∃ rs, Forall₂ (u.Becomes nullChecks σ) ids rs := by
  refine exists_becomes_all ht (fun id hid u htu => ?_) t (.refl t)
  obtain ⟨n, hn⟩ := h id hid
  exact hn.exists_becomes ht hσ u htu

end

end TypeTable

end DeclKit

/-
Sessions with a table of types, and the questions that end in every one of them.

In a session each call may refer to numbers that were handed out before. That alone puts the table in
order: all that a type mentions has a smaller number. A question that a type passes on to what it
mentions therefore ends without a bound of its own; `Local` says that a question is of that sort, and
then it does not matter how often it may be passed on nor what is answered after that.
-/
import DeclKit.Proofs.Types.Order
import DeclKit.Types.Union
import Mathlib

set_option autoImplicit false

namespace DeclKit

namespace TypeTable

/-! ## Questions that are passed on -/

section

variable {α : Type} {t : TypeTable} {step : (TypeId → α) → TypeId → α}

/-- A question that a type passes on at most to what it mentions. -/
def Local (t : TypeTable) (step : (TypeId → α) → TypeId → α) : Prop :=
  ∀ id f g, (∀ m ∈ t.mentions id, f m = g m) → step f id = step g id

/-- In an ordered table a question ends before its bound: neither the bound nor what would be
answered there matters. By induction on the number of the type. -/
theorem Ordered.descend_eq (ht : t.Ordered) (hs : t.Local step) {bottom bottom' : TypeId → α}
    {id : TypeId} (hid : t.Given (.type id)) {n n' : Nat} (h : id.index < n)
    (h' : id.index < n') : descend step bottom n id = descend step bottom' n' id := by
  induction hk : id.index using Nat.strongRecOn generalizing id n n' with
  | ind k ih =>
    obtain ⟨n, rfl⟩ := Nat.exists_eq_add_one_of_ne_zero (Nat.ne_of_gt (Nat.zero_lt_of_lt h))
    obtain ⟨n', rfl⟩ := Nat.exists_eq_add_one_of_ne_zero (Nat.ne_of_gt (Nat.zero_lt_of_lt h'))
    rw [descend, descend]
    refine hs id _ _ fun m hm => ?_
    have hlt := ht.smaller id hid m hm
    have hm := ht.given_of_mem (ht.known id hid) hm
    exact ih m.index (hk ▸ hlt) hm (by omega) (by omega) rfl

end

variable {t : TypeTable}

/-- An operand of a type is mentioned by it. -/
theorem mem_mentions {id m : TypeId} (h : .type m ∈ refs (t.kind id)) : m ∈ t.mentions id :=
  List.mem_flatMap.2 ⟨_, List.mem_append_left _ h, List.mem_singleton.2 rfl⟩

/-- So is what its substitution or its shape leads to. -/
theorem mem_mentions_of_leadsTo {id m : TypeId} {r : Ref} (h : r ∈ refs (t.kind id))
    (hm : m ∈ t.leadsTo r) : m ∈ t.mentions id :=
  List.mem_flatMap.2 ⟨r, List.mem_append_left _ h, hm⟩

/-- What is referred to in a part of the operands is mentioned. -/
theorem mem_mentions_of_part {β : Type} [HasRefs β] {id m : TypeId} {k : TypeKind} {x : β}
    {xs : List β} (hk : t.kind id = k) (hx : x ∈ xs) (hm : .type m ∈ refs x)
    (hrefs : refs k = refs xs) : m ∈ t.mentions id := by
  refine mem_mentions ?_
  rw [hk, hrefs]
  exact List.mem_flatMap.2 ⟨x, hx, hm⟩

/-- What a substitution puts in is what it leads to. -/
theorem mem_leadsTo_of_substitute? {m : Option MapperId} {p : SymbolId} {ty : TypeId}
    (h : t.substitute? m p = some ty) : ∃ id, m = some id ∧ ty ∈ t.leadsTo (.mapper id) := by
  obtain ⟨q, hq, rfl⟩ := Option.map_eq_some_iff.1 h
  cases m with
  | none => cases hq
  | some id => exact ⟨id, rfl, List.mem_map_of_mem (List.mem_of_find?_eq_some hq)⟩

theorem mem_leadsTo_of_shape {s : ShapeId} {m : TypeId} (h : .type m ∈ refs (t.shape s)) :
    m ∈ t.leadsTo (.shape s) := List.mem_filterMap.2 ⟨_, h, rfl⟩

/-! ### The types in a shape -/

section

variable {s : Shape}

theorem mem_refs_property {p : Property} (h : p ∈ s.properties) : .type p.type ∈ refs s := by
  simp only [refs, List.mem_append, List.mem_flatMap, List.mem_singleton]
  exact .inl (.inl (.inl ⟨p, h, rfl⟩))

theorem mem_refs_index {i : IndexInfo} (h : i ∈ s.indexes) : .type i.type ∈ refs s := by
  simp only [refs, List.mem_append, List.mem_flatMap, List.mem_singleton]
  exact .inr ⟨i, h, .inr rfl⟩

theorem mem_refs_signature {c : Signature} {r : Ref} (h : c ∈ s.calls ++ s.constructs)
    (hr : r ∈ refs c) : r ∈ refs s := by
  have hc : r ∈ refs (s.calls ++ s.constructs) := List.mem_flatMap.2 ⟨c, h, hr⟩
  simp only [refs, List.flatMap_append, List.mem_append] at hc ⊢
  exact .inl (hc.elim (fun h => .inl (.inr h)) .inr)

theorem mem_refs_returns {c : Signature} (h : c ∈ s.calls ++ s.constructs) :
    .type c.returns ∈ refs s :=
  mem_refs_signature h (List.mem_append_right _ List.mem_cons_self)

theorem mem_refs_param {c : Signature} {p : SignatureParam} (h : c ∈ s.calls ++ s.constructs)
    (hp : p ∈ c.params) : .type p.type ∈ refs s :=
  mem_refs_signature h (List.mem_append_left _ (List.mem_flatMap.2 ⟨p, hp, List.mem_cons_self⟩))

end

/-! ### The questions -/

/-- Whether a type waits is asked of the members of unions and intersections, of the types of a
template and of what a letter map is applied to. -/
theorem local_waitsStep : t.Local t.waitsStep := by
  intro id f g h
  unfold waitsStep
  cases hk : t.kind id with
  | union ms | intersection ms =>
    refine any_eq_of_mem fun m hm => h m ?_
    exact mem_mentions_of_part hk hm List.mem_cons_self rfl
  | template head spans =>
    refine any_eq_of_mem fun s hs => h s.1 ?_
    exact mem_mentions_of_part hk hs (List.mem_append_left _ List.mem_cons_self) rfl
  | lettered map ty =>
    exact h ty (mem_mentions (hk ▸ List.mem_cons_self))
  | _ => rfl

/-- Whether a type mentions a type parameter is asked of all its operands, of what its substitution
puts in and of the types in its shape. -/
theorem local_genericStep (free : NodeKey → List SymbolId) : t.Local (t.genericStep free) := by
  intro id f g h
  unfold genericStep
  cases hk : t.kind id with
  | union ms | intersection ms | interface s ms =>
    refine any_eq_of_mem fun m hm => h m ?_
    exact mem_mentions_of_part hk hm List.mem_cons_self rfl
  | template head spans =>
    refine any_eq_of_mem fun s hs => h s.1 ?_
    exact mem_mentions_of_part hk hs (List.mem_append_left _ List.mem_cons_self) rfl
  | lettered map ty =>
    exact h ty (mem_mentions (hk ▸ List.mem_cons_self))
  | tuple es readonly =>
    refine any_eq_of_mem fun e he => h e.type ?_
    exact mem_mentions_of_part hk he List.mem_cons_self rfl
  | written decl m =>
    refine any_eq_of_mem fun p _ => ?_
    cases hsub : t.substitute? m p with
    | none => rfl
    | some ty =>
      obtain ⟨i, rfl, hty⟩ := mem_leadsTo_of_substitute? hsub
      exact h ty (mem_mentions_of_leadsTo (hk ▸ List.mem_cons_self) hty)
  | computed s =>
    have hs {m : TypeId} (hm : .type m ∈ refs (t.shape s)) : f m = g m :=
      h m (mem_mentions_of_leadsTo (hk ▸ List.mem_cons_self) (mem_leadsTo_of_shape hm))
    refine congrArg₂ or (congrArg₂ or ?_ ?_) ?_
    · exact any_eq_of_mem fun p hp => hs (mem_refs_property hp)
    · exact any_eq_of_mem fun i hi => hs (mem_refs_index hi)
    · refine any_eq_of_mem fun c hc => congrArg₂ or (hs (mem_refs_returns hc)) ?_
      exact any_eq_of_mem fun p hp => hs (mem_refs_param hc hp)
  | _ => rfl

theorem local_collectStep : t.Local t.collectStep := by
  intro id f g h
  unfold collectStep
  cases hk : t.kind id with
  | union ms =>
    funext p
    refine List.foldl_ext _ _ p fun q m hm => congrFun (h m ?_) q
    exact mem_mentions_of_part hk hm List.mem_cons_self rfl
  | _ => rfl

theorem local_conjunctsStep : t.Local t.conjunctsStep := by
  intro id f g h
  unfold conjunctsStep
  cases hk : t.kind id with
  | intersection ms =>
    refine List.flatMap_congr fun m hm => h m ?_
    exact mem_mentions_of_part hk hm List.mem_cons_self rfl
  | _ => rfl

end TypeTable

/-! ## Sessions -/

/-- A call that stores something. -/
inductive StoreCall where
  | type (d : TypeData)
  | mapper (pairs : List (SymbolId × TypeId))
  | shape (s : Shape)

instance : HasRefs StoreCall where
  refs
    | .type d => refs d
    | .mapper pairs => refs pairs
    | .shape s => refs s

/-- A table, and the numbers that have been handed out by it. -/
structure Session where
  table : TypeTable := {}
  issued : List Ref := []

namespace Session

open TypeTable

/-- Makes a call. -/
def call (s : Session) : StoreCall → Session
  | .type d => ⟨((store d).run s.table).2, .type ((store d).run s.table).1 :: s.issued⟩
  | .mapper pairs =>
    ⟨((internMapper pairs).run s.table).2, .mapper ((internMapper pairs).run s.table).1 :: s.issued⟩
  | .shape x => ⟨((addShape x).run s.table).2, .shape ((addShape x).run s.table).1 :: s.issued⟩

/-- What a session can become when each call refers only to numbers handed out before. -/
inductive Later (s : Session) : Session → Prop where
  | refl : Later s s
  | call {u : Session} {c : StoreCall} : Later s u → (∀ r ∈ refs c, r ∈ u.issued) →
      Later s (u.call c)

variable {s u : Session}

theorem grows_call (c : StoreCall) : s.table.Grows (s.call c).table := by
  cases c with
  | type d => exact grows_store
  | mapper pairs => exact grows_internMapper
  | shape x => exact grows_addShape

/-- The number that a call hands out has been given. -/
theorem given_of_mem_call {c : StoreCall} (hs : ∀ r ∈ s.issued, s.table.Given r) :
    ∀ r ∈ (s.call c).issued, (s.call c).table.Given r := by
  have hold : ∀ r ∈ s.issued, (s.call c).table.Given r := fun r hr => (hs r hr).mono (grows_call c)
  cases c with
  | type d => exact List.forall_mem_cons.2 ⟨store_given, hold⟩
  | mapper pairs => exact List.forall_mem_cons.2 ⟨internMapper_given, hold⟩
  | shape x => exact List.forall_mem_cons.2 ⟨addShape_given, hold⟩

theorem ordered_call {c : StoreCall} (hs : s.table.Ordered) (hc : s.table.Knows c) :
    (s.call c).table.Ordered := by
  cases c with
  | type d => exact hs.store hc
  | mapper pairs => exact hs.internMapper hc
  | shape x => exact hs.addShape hc

theorem Later.grows (h : Later s u) : s.table.Grows u.table := by
  induction h with
  | refl => exact Grows.refl _
  | call _ _ ih => exact ih.trans (grows_call _)

/-- The table of a session is in order, and has given all that was handed out. -/
theorem Later.ordered (h : Later {} s) :
    s.table.Ordered ∧ ∀ r ∈ s.issued, s.table.Given r := by
  induction h with
  | refl => exact ⟨ordered_empty, fun r hr => absurd hr List.not_mem_nil⟩
  | call _ hc ih =>
    obtain ⟨hordered, hgiven⟩ := ih
    exact ⟨ordered_call hordered fun r hr => hgiven r (hc r hr), given_of_mem_call hgiven⟩

/-- Two calls give one number exactly when they store the same type, however much has been stored
between them. -/
theorem Later.store_eq_iff {d e : TypeData} (h : Later (s.call (.type d)) u) :
    ((store d).run s.table).1 = ((store e).run u.table).1 ↔ d = e := by
  have hd : u.table.types.get? ((store d).run s.table).1.index = some d := h.grows.types _ _ store_get?
  have hagain : ((store d).run u.table).1 = ((store d).run s.table).1 := store_again h.grows
  constructor
  · intro heq
    have he := store_get? (t := u.table) (d := e)
    rw [← heq] at he
    exact Option.some.inj (((grows_store (t := u.table)).types _ _ hd).symm.trans he)
  · rintro rfl
    exact hagain.symm

/-- Interning is well-founded, stable and injective. In a session in which each call refers only to
numbers handed out before, whatever a stored type mentions has a smaller number; numbers that were
handed out lead to what was stored, and still do after any later calls; two calls give one number
exactly when they store the same type; and so the questions that a type passes on to its parts end on
every type, since with a bound above its number neither the bound nor what is answered there matters. -/
theorem interning_wellFounded (h : Later {} s) :
    (∀ id, s.table.Given (.type id) → ∀ m ∈ s.table.mentions id, m.index < id.index) ∧
    (∀ u, Later s u →
      (∀ id, .type id ∈ s.issued →
        ∃ d, s.table.types.get? id.index = some d ∧ u.table.types.get? id.index = some d) ∧
      (∀ id, .mapper id ∈ s.issued →
        ∃ m, s.table.mappers.get? id.index = some m ∧ u.table.mappers.get? id.index = some m) ∧
      (∀ id, .shape id ∈ s.issued →
        ∃ x, s.table.shapes[id.index]? = some x ∧ u.table.shapes[id.index]? = some x)) ∧
    (∀ d u, Later (s.call (.type d)) u →
      u.table.types.get? ((store d).run s.table).1.index = some d ∧
      ∀ e, ((store d).run s.table).1 = ((store e).run u.table).1 ↔ d = e) ∧
    (∀ pairs u, Later (s.call (.mapper pairs)) u →
      u.table.mappers.get? ((internMapper pairs).run s.table).1.index =
        some (Mapper.ofPairs pairs)) ∧
    (∀ x u, Later (s.call (.shape x)) u →
      u.table.shapes[((addShape x).run s.table).1.index]? = some x) ∧
    ∀ id, s.table.Given (.type id) → ∀ n, id.index < n →
      (∀ bottom, descend s.table.waitsStep bottom n id = s.table.isDeferred id) ∧
      (∀ free bottom,
        descend (s.table.genericStep free) bottom n id = s.table.isGeneric free id) ∧
      (∀ bottom p, descend s.table.collectStep bottom n id p = s.table.collectUnion p id) ∧
      ∀ bottom, descend s.table.conjunctsStep bottom n id = s.table.conjuncts id := by
  obtain ⟨hordered, hgiven⟩ := h.ordered
  refine ⟨hordered.smaller, fun u hu => ⟨fun id hid => ?_, fun id hid => ?_, fun id hid => ?_⟩,
    fun d u hu => ⟨hu.grows.types _ _ store_get?, fun e => hu.store_eq_iff⟩,
    fun pairs u hu => hu.grows.mappers _ _ internMapper_get?,
    fun x u hu => hu.grows.shapes _ _ addShape_get?, fun id hid n hn => ?_⟩
  · have hget := get?_of_given (hgiven _ hid)
    exact ⟨_, hget, hu.grows.types _ _ hget⟩
  · have hget := mappers_get?_of_given (hgiven _ hid)
    exact ⟨_, hget, hu.grows.mappers _ _ hget⟩
  · have hget := shapes_get?_of_given (hgiven _ hid)
    exact ⟨_, hget, hu.grows.shapes _ _ hget⟩
  · have hbound := Nat.lt_succ_self id.index
    have hsize : id.index < s.table.types.size + 1 := Nat.lt_succ_of_lt hid
    exact ⟨fun _ => hordered.descend_eq local_waitsStep hid hn hbound,
      fun free _ => hordered.descend_eq (local_genericStep free) hid hn hsize,
      fun _ p => congrFun (hordered.descend_eq local_collectStep hid hn hbound) p,
      fun _ => hordered.descend_eq local_conjunctsStep hid hn hbound⟩

/-- The keys of `string` have a greater number than `string`. -/
theorem interning_wellFounded_keys :
    let string := ((store { kind := .string }).run ({} : Session).table).1
    let s := ({} : Session).call (.type { kind := .string })
    let u := s.call (.type { kind := .keys string })
    Later {} u ∧ string.index < ((store { kind := .keys string }).run s.table).1.index := by
  intro string s u
  have hs : Later {} s := .call .refl fun r hr => absurd hr List.not_mem_nil
  have hu : Later {} u := by
    refine .call hs fun r hr => ?_
    obtain rfl : r = .type string := by simpa [refs] using hr
    exact List.mem_cons_self
  refine ⟨hu, (interning_wellFounded hu).1 _ store_given _ ?_⟩
  have hkind : u.table.kind ((store { kind := .keys string }).run s.table).1 = .keys string :=
    congrArg TypeData.kind (data_of_get? store_get?)
  refine mem_mentions ?_
  rw [hkind]
  exact List.mem_cons_self

end Session

end DeclKit

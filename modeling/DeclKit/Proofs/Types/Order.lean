/-
What is in a table of types refers to what was there before.

A value refers to stored types, substitutions and shapes by their numbers. A table that has given all
numbers of a value knows the value, and so does every later table. If each thing that is stored is
known at the time, then all that a type mentions, also through its substitution or its shape, has a
smaller number than the type.
-/
import DeclKit.Proofs.Types.Mapper
import Std.Data.HashMap

set_option autoImplicit false

namespace DeclKit

/-! ## What a value refers to -/

/-- A number of something stored. -/
inductive Ref where
  | type (id : TypeId)
  | mapper (id : MapperId)
  | shape (id : ShapeId)
deriving DecidableEq

/-- Values that refer to what is stored. -/
class HasRefs (α : Type) where
  refs : α → List Ref

export HasRefs (refs)

section

variable {α β : Type} [HasRefs α] [HasRefs β]

instance : HasRefs TypeId := ⟨fun id => [.type id]⟩
instance : HasRefs MapperId := ⟨fun id => [.mapper id]⟩
instance : HasRefs ShapeId := ⟨fun id => [.shape id]⟩
instance : HasRefs SymbolId := ⟨fun _ => []⟩
instance : HasRefs String := ⟨fun _ => []⟩
instance : HasRefs (List α) := ⟨fun as => as.flatMap refs⟩
instance : HasRefs (Option α) := ⟨fun a => a.toList.flatMap refs⟩
instance : HasRefs (α × β) := ⟨fun p => refs p.1 ++ refs p.2⟩

end

instance : HasRefs AliasRef := ⟨fun a => refs a.args⟩
instance : HasRefs TupleElement := ⟨fun e => refs e.type⟩
instance : HasRefs Property := ⟨fun p => refs p.type⟩
instance : HasRefs SignatureParam := ⟨fun p => refs p.type⟩
instance : HasRefs Signature := ⟨fun s => refs s.params ++ refs s.returns⟩
instance : HasRefs IndexInfo := ⟨fun i => refs i.key ++ refs i.type⟩

instance : HasRefs Shape :=
  ⟨fun s => refs s.properties ++ refs s.calls ++ refs s.constructs ++ refs s.indexes⟩

instance : HasRefs TypeKind where
  refs
    | .template _ spans => refs spans
    | .lettered _ ty | .keys ty => refs ty
    | .union ms | .intersection ms => refs ms
    | .interface _ args => refs args
    | .tuple es _ => refs es
    | .access object index => refs object ++ refs index
    | .written _ m | .conditional _ m | .mapped _ m => refs m
    | .computed s => refs s
    | _ => []

instance : HasRefs TypeData := ⟨fun d => refs d.kind ++ refs d.aliased⟩

/-! ## The pairs of a substitution -/

namespace TypeTable

/-! ## What a table knows -/

/-- The table has given this number. -/
def Given (t : TypeTable) : Ref → Prop
  | .type id => id.index < t.types.size
  | .mapper id => id.index < t.mappers.size
  | .shape id => id.index < t.shapes.size

/-- The table has given all numbers in a value. -/
def Knows {α : Type} [HasRefs α] (t : TypeTable) (a : α) : Prop := ∀ r ∈ refs a, t.Given r

/-- The types that a number leads to at once. -/
def leadsTo (t : TypeTable) : Ref → List TypeId
  | .type id => [id]
  | .mapper id => (t.mapper (some id)).map (·.2)
  | .shape id => (refs (t.shape id)).filterMap fun
    | .type id => some id
    | _ => none

/-- The types that occur in the data of a type: its operands, the arguments of its alias, what its
substitution puts in, and the types in its shape. -/
def mentions (t : TypeTable) (id : TypeId) : List TypeId := (refs (t.data id)).flatMap t.leadsTo

section

variable {t u : TypeTable}

theorem get?_of_given {id : TypeId} (h : t.Given (.type id)) :
    t.types.get? id.index = some (t.data id) := by
  obtain ⟨d, hd⟩ := Option.isSome_iff_exists.1 (Interner.get?_isSome.2 h)
  rw [data, hd, Option.getD_some]

theorem mappers_get?_of_given {id : MapperId} (h : t.Given (.mapper id)) :
    t.mappers.get? id.index = some (t.mapper (some id)) := by
  obtain ⟨m, hm⟩ := Option.isSome_iff_exists.1 (Interner.get?_isSome.2 h)
  rw [mapper, hm, Option.getD_some]

theorem shapes_get?_of_given {id : ShapeId} (h : t.Given (.shape id)) :
    t.shapes[id.index]? = some (t.shape id) := by
  rw [shape, Array.getD_eq_getD_getElem?, Array.getElem?_eq_getElem h, Option.getD_some]

theorem given_of_get? {id : TypeId} {d : TypeData} (h : t.types.get? id.index = some d) :
    t.Given (.type id) := Interner.get?_isSome.1 (by rw [h]; rfl)

theorem given_of_mappers_get? {id : MapperId} {m : Mapper}
    (h : t.mappers.get? id.index = some m) : t.Given (.mapper id) :=
  Interner.get?_isSome.1 (by rw [h]; rfl)

/-- What has been given stays given. -/
theorem Given.mono {r : Ref} (h : t.Given r) (htu : t.Grows u) : u.Given r := by
  cases r with
  | type id => exact given_of_get? (htu.types _ _ (get?_of_given h))
  | mapper id => exact given_of_mappers_get? (htu.mappers _ _ (mappers_get?_of_given h))
  | shape id => exact (Array.getElem?_eq_some_iff.1 (htu.shapes _ _ (shapes_get?_of_given h))).1

theorem Knows.mono {α : Type} [HasRefs α] {a : α} (h : t.Knows a) (htu : t.Grows u) : u.Knows a :=
  fun r hr => (h r hr).mono htu

theorem data_eq_of_grows {id : TypeId} (h : t.Given (.type id)) (htu : t.Grows u) :
    u.data id = t.data id := data_of_get? (htu.types _ _ (get?_of_given h))

/-- What a number leads to stays the same. -/
theorem leadsTo_eq_of_grows {r : Ref} (h : t.Given r) (htu : t.Grows u) :
    u.leadsTo r = t.leadsTo r := by
  cases r with
  | type id => rfl
  | mapper id =>
    have := htu.mappers _ _ (mappers_get?_of_given h)
    rw [leadsTo, leadsTo, show u.mapper (some id) = t.mapper (some id) by
      rw [mapper, this, Option.getD_some]]
  | shape id =>
    have := htu.shapes _ _ (shapes_get?_of_given h)
    rw [leadsTo, leadsTo, show u.shape id = t.shape id by
      rw [shape, Array.getD_eq_getD_getElem?, this, Option.getD_some]]

/-- A type that is kept mentions what it has mentioned. -/
theorem mentions_eq_of_grows {id : TypeId} (h : t.Given (.type id)) (hk : t.Knows (t.data id))
    (htu : t.Grows u) : u.mentions id = t.mentions id := by
  rw [mentions, mentions, data_eq_of_grows h htu]
  refine flatMap_congr_of_mem fun r hr => ?_
  exact leadsTo_eq_of_grows (hk r hr) htu

end

/-! ## New numbers -/

section

variable {t : TypeTable} {d : TypeData} {pairs : List (SymbolId × TypeId)} {s : Shape}

theorem store_given : ((store d).run t).2.Given (.type ((store d).run t).1) :=
  given_of_get? store_get?

theorem internMapper_given :
    ((internMapper pairs).run t).2.Given (.mapper ((internMapper pairs).run t).1) :=
  given_of_mappers_get? internMapper_get?

theorem addShape_given : ((addShape s).run t).2.Given (.shape ((addShape s).run t).1) :=
  (Array.getElem?_eq_some_iff.1 addShape_get?).1

/-- Storing a type gives at most one number, the next one. -/
theorem given_of_store {r : Ref} (h : ((store d).run t).2.Given r) :
    t.Given r ∨ r = .type ⟨t.types.size⟩ ∧ ((store d).run t).2.data ⟨t.types.size⟩ = d := by
  cases r with
  | mapper id => exact .inl h
  | shape id => exact .inl h
  | type id =>
    rcases get?_of_store (get?_of_given h) with hold | ⟨hid, hd⟩
    · exact .inl (given_of_get? hold)
    · obtain ⟨i⟩ := id
      subst hid
      exact .inr ⟨rfl, hd⟩

theorem given_of_internMapper {r : Ref} (h : ((internMapper pairs).run t).2.Given r) :
    t.Given r ∨ ∃ id, r = .mapper id ∧
      ((internMapper pairs).run t).2.mapper (some id) = Mapper.ofPairs pairs := by
  cases r with
  | type id => exact .inl h
  | shape id => exact .inl h
  | mapper id =>
    rcases Interner.get?_of_get?_intern (mappers_get?_of_given h) with hold | ⟨-, hm⟩
    · exact .inl (given_of_mappers_get? hold)
    · exact .inr ⟨id, rfl, hm⟩

theorem given_of_addShape {r : Ref} (h : ((addShape s).run t).2.Given r) :
    t.Given r ∨ ∃ id, r = .shape id ∧ ((addShape s).run t).2.shape id = s := by
  cases r with
  | type id => exact .inl h
  | mapper id => exact .inl h
  | shape id =>
    have hpush : (t.shapes.push s)[id.index]? = _ := shapes_get?_of_given h
    rw [Array.getElem?_push] at hpush
    split at hpush
    · exact .inr ⟨id, rfl, (Option.some.inj hpush).symm⟩
    · exact .inl (Array.getElem?_eq_some_iff.1 hpush).1

end

/-! ## The order of a table -/

/-- What is in the table refers to what was there before. -/
structure Ordered (t : TypeTable) : Prop where
  known : ∀ id, t.Given (.type id) → t.Knows (t.data id)
  leadsTo : ∀ r, t.Given r → ∀ id ∈ t.leadsTo r, t.Given (.type id)
  smaller : ∀ id, t.Given (.type id) → ∀ m ∈ t.mentions id, m.index < id.index

section

variable {t u : TypeTable}

/-- What is mentioned by data that the table knows has been given. -/
theorem Ordered.given_of_mem {α : Type} [HasRefs α] {a : α} (ht : t.Ordered) (ha : t.Knows a)
    {id : TypeId} (h : id ∈ (refs a).flatMap t.leadsTo) : t.Given (.type id) := by
  obtain ⟨r, hr, hid⟩ := List.mem_flatMap.1 h
  exact ht.leadsTo r (ha r hr) id hid

/-- A table that has grown is in order if the new types refer to what was there, and the new
substitutions and shapes to what is there now. -/
theorem Ordered.of_grows (ht : t.Ordered) (htu : t.Grows u)
    (htypes : ∀ id, u.Given (.type id) → t.Given (.type id) ∨
      id.index = t.types.size ∧ t.Knows (u.data id))
    (hleads : ∀ r, u.Given r → t.Given r ∨ ∀ id ∈ u.leadsTo r, u.Given (.type id)) :
    u.Ordered where
  known id h := by
    rcases htypes id h with hold | ⟨-, hk⟩
    · rw [data_eq_of_grows hold htu]
      exact (ht.known id hold).mono htu
    · exact hk.mono htu
  leadsTo r h id hid := by
    rcases hleads r h with hold | hnew
    · rw [leadsTo_eq_of_grows hold htu] at hid
      exact (ht.leadsTo r hold id hid).mono htu
    · exact hnew id hid
  smaller id h m hm := by
    rcases htypes id h with hold | ⟨hnext, hk⟩
    · rw [mentions_eq_of_grows hold (ht.known id hold) htu] at hm
      exact ht.smaller id hold m hm
    · -- the new type has the next number, and all that it mentions has been given before
      rw [hnext]
      refine ht.given_of_mem hk ?_
      rwa [mentions, flatMap_congr_of_mem fun r hr => leadsTo_eq_of_grows (hk r hr) htu] at hm

theorem Ordered.store {d : TypeData} (ht : t.Ordered) (hd : t.Knows d) :
    ((store d).run t).2.Ordered := by
  refine ht.of_grows grows_store (fun id h => ?_) fun r h => ?_
  · rcases given_of_store h with hold | ⟨heq, hnew⟩
    · exact .inl hold
    · obtain rfl := Ref.type.inj heq
      refine .inr ⟨rfl, ?_⟩
      rw [hnew]
      exact hd
  · rcases given_of_store h with hold | ⟨rfl, -⟩
    · exact .inl hold
    · refine .inr fun id hid => ?_
      obtain rfl := List.mem_singleton.1 hid
      exact h

theorem Ordered.internMapper {pairs : List (SymbolId × TypeId)} (ht : t.Ordered)
    (hp : t.Knows pairs) : ((internMapper pairs).run t).2.Ordered := by
  refine ht.of_grows grows_internMapper (fun id h => .inl h) fun r h => ?_
  rcases given_of_internMapper h with hold | ⟨m, rfl, hm⟩
  · exact .inl hold
  · refine .inr fun id hid => ?_
    rw [TypeTable.leadsTo, hm] at hid
    obtain ⟨p, hmem, rfl⟩ := List.mem_map.1 hid
    have href : Ref.type p.2 ∈ refs pairs := List.mem_flatMap.2
      ⟨p, Mapper.mem_of_mem_ofPairs hmem, List.mem_append_right _ List.mem_cons_self⟩
    exact (hp _ href).mono grows_internMapper

theorem Ordered.addShape {s : Shape} (ht : t.Ordered) (hs : t.Knows s) :
    ((addShape s).run t).2.Ordered := by
  refine ht.of_grows grows_addShape (fun id h => .inl h) fun r h => ?_
  rcases given_of_addShape h with hold | ⟨i, rfl, hi⟩
  · exact .inl hold
  · refine .inr fun id hid => ?_
    rw [TypeTable.leadsTo, hi] at hid
    obtain ⟨r, hr, hid⟩ := List.mem_filterMap.1 hid
    cases r with
    | type m =>
      obtain rfl := Option.some.inj hid
      exact (hs _ hr).mono grows_addShape
    | mapper m => cases hid
    | shape m => cases hid

theorem ordered_empty : ({} : TypeTable).Ordered where
  known _ h := absurd h (Nat.not_lt_zero _)
  leadsTo r h := by cases r <;> exact absurd h (Nat.not_lt_zero _)
  smaller _ h := absurd h (Nat.not_lt_zero _)

end

end TypeTable

end DeclKit

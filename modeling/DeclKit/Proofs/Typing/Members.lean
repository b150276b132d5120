/-
Members are found again.

The members of a type are put together when they are first looked up, and remembered. From then on they
are read off, by whatever operation and however much has been stored since. The array of which a tuple
is a special case is not remembered, but it is stored under one number, so it is the same type whenever
it is asked for.
-/
import DeclKit.Proofs.Types.Substitution
import DeclKit.Proofs.Typing.Answers

set_option autoImplicit false

namespace DeclKit

namespace Check

variable {s : Setting} {c : Checker} {α β : Type}

/-! ## Steps that are taken again -/

/-- A step that is taken again, at any later time, gives the same and changes nothing. -/
def Settles (s : Setting) (c : Checker) (x : Check α) : Prop :=
  ∀ d : Checker, ((x.run s).run c).2.table.Later s.nullChecks d.table →
    (x.run s).run d = (((x.run s).run c).1, d)

theorem Settles.pure (a : α) : Settles s c (pure a) := fun _ _ => rfl

theorem Settles.bind {x : Check α} {f : α → Check β} (hx : Settles s c x)
    (hf : Settles s ((x.run s).run c).2 (f ((x.run s).run c).1)) : Settles s c (x >>= f) := by
  intro d hd
  rw [run_bind, hx d (.trans ((f _).later s _) hd)]
  exact hf d hd

/-- Steps in a row settle if each of them does whenever it is taken. -/
theorem Settles.mapM {f : α → Check β} {xs : List α}
    (h : ∀ x ∈ xs, ∀ d : Checker, c.table.Later s.nullChecks d.table → Settles s d (f x)) :
    Settles s c (xs.mapM f) := by
  induction xs generalizing c with
  | nil => exact .pure []
  | cons x xs ih =>
    rw [List.forall_mem_cons] at h
    rw [List.mapM_cons]
    refine (h.1 c (.refl _)).bind (Settles.bind (ih fun y hy d hd => ?_) (.pure _))
    exact h.2 y hy d (.trans ((f x).later s c) hd)

/-- What steps in a row give is what each of them gives, in the table that there is then. -/
theorem exists_of_mem_mapM {f : α → Check β} {xs : List α} {R : TypeTable → α → β → Prop}
    (hmono : ∀ {t u : TypeTable} {x : α} {y : β}, t.Grows u → R t x y → R u x y)
    (h : ∀ x ∈ xs, ∀ d : Checker, c.table.Later s.nullChecks d.table →
      R (((f x).run s).run d).2.table x (((f x).run s).run d).1) :
    ∀ y ∈ (((xs.mapM f).run s).run c).1, ∃ x ∈ xs, R (((xs.mapM f).run s).run c).2.table x y := by
  induction xs generalizing c with
  | nil => exact fun y hy => absurd hy List.not_mem_nil
  | cons x xs ih =>
    rw [List.forall_mem_cons] at h
    have hfirst := h.1 c (.refl _)
    have hlater := (f x).later s c
    rw [List.mapM_cons, run_bind, run_bind, run_pure]
    generalize ((f x).run s).run c = first at *
    have hgrows := ((xs.mapM f).later s first.2).keeps.1
    have hrest := ih (c := first.2) fun y hy d hd => h.2 y hy d (hlater.trans hd)
    generalize ((xs.mapM f).run s).run first.2 = rest at *
    intro y hy
    rcases List.mem_cons.1 hy with rfl | hy
    · exact ⟨x, List.mem_cons_self, hmono hgrows hfirst⟩
    · obtain ⟨z, hz, hR⟩ := hrest y hy
      exact ⟨z, List.mem_cons_of_mem x hz, hR⟩

/-- What has been stored has its kind. -/
theorem kind_run_intern (k : TypeKind) (h : k.isPlain) :
    (((intern k h).run s).run c).2.table.kind (((intern k h).run s).run c).1 = k :=
  TypeTable.kind_of_get? (t := ((TypeTable.store { kind := k }).run c.table).2) TypeTable.store_get?

theorem settles_intern (k : TypeKind) (h : k.isPlain) : Settles s c (intern k h) := by
  intro d hd
  have hagain : (TypeTable.store { kind := k }).run d.table = _ :=
    TypeTable.run_store_again (t := c.table) hd.keeps.1
  have hrun (c : Checker) : ((intern k h).run s).run c =
      (((TypeTable.store { kind := k }).run c.table).1,
        { c with table := ((TypeTable.store { kind := k }).run c.table).2 }) := rfl
  rw [hrun, hrun, hagain]

theorem settles_union (hc : c.table.Normal s.nullChecks) {ids : List TypeId}
    (hids : ∀ id ∈ ids, c.table.Given (.type id)) : Settles s c (union ids) := by
  intro d hd
  have hlater := ((union ids).later s c).trans hd
  rw [run_union] at hd
  have hagain := TypeTable.run_union_again hc (hlater.keeps.2 hc) hids hlater.keeps.1 hd.keeps.1
  rw [run_union, run_union, hagain]

/-- Only where `undefined` is a type of its own does it have to be added. -/
theorem run_withUndefined (id : TypeId) (s : Setting) :
    (withUndefined id).run s = (if s.nullChecks then union [id, .undefined] else pure id).run s := by
  show Checker.store (if s.nullChecks then _ else _) = _
  split <;> rfl

theorem settles_withUndefined (hc : c.table.Normal s.nullChecks) {id : TypeId}
    (hid : c.table.Given (.type id)) : Settles s c (withUndefined id) := by
  have hundefined : c.table.Given (.type .undefined) :=
    TypeTable.given_of_get? (hc.fixed 3 _ rfl)
  unfold Settles
  rw [run_withUndefined]
  split
  · exact settles_union hc (by simp [hid, hundefined])
  · exact Settles.pure id

/-! ## Steps that look at no members anew -/

/-- A step comes to a result of a kind, and no members are looked at for the first time on the way. -/
def Yields (s : Setting) (c : Checker) (x : Check α) (P : α → Prop) : Prop :=
  P ((x.run s).run c).1 ∧ ((x.run s).run c).2.shapes = c.shapes

variable {P : α → Prop} {Q : β → Prop}

theorem Yields.pure {a : α} (h : P a) : Yields s c (pure a) P := ⟨h, rfl⟩

theorem Yields.bind {x : Check α} {f : α → Check β} (hx : Yields s c x P)
    (hf : P ((x.run s).run c).1 → Yields s ((x.run s).run c).2 (f ((x.run s).run c).1) Q) :
    Yields s c (x >>= f) Q := by
  obtain ⟨hresult, hshapes⟩ := hf hx.1
  exact ⟨hresult, hshapes.trans hx.2⟩

/-- A step whose run is known leaves the rest. -/
theorem Yields.after {x : Check α} {f : α → Check β} {a : α} (hx : (x.run s).run c = (a, c))
    (hf : Yields s c (f a) Q) : Yields s c (x >>= f) Q := by
  unfold Yields
  rw [run_bind, hx]
  exact hf

theorem Yields.bind_some {x : Check (Option α)} {f : Option α → Check β}
    (hx : Yields s c x (·.isSome))
    (hf : ∀ a, Yields s ((x.run s).run c).2 (f (some a)) Q) : Yields s c (x >>= f) Q := by
  refine hx.bind fun hsome => ?_
  obtain ⟨a, ha⟩ := Option.isSome_iff_exists.1 hsome
  rw [ha]
  exact hf a

theorem Yields.bind_ok {ε : Type} {x : Check (Except ε α)} {f : Except ε α → Check β}
    (hx : Yields s c x (·.isOk))
    (hf : ∀ a, Yields s ((x.run s).run c).2 (f (.ok a)) Q) : Yields s c (x >>= f) Q := by
  refine hx.bind fun hok => ?_
  cases ha : ((x.run s).run c).1 with
  | error e =>
    rw [ha] at hok
    cases hok
  | ok a => exact hf a

/-- Steps that only store something look at no members. -/
theorem yields_storedBy (step : Bool → Stored α)
    (h : ∀ nullChecks, (step nullChecks).Allowed nullChecks) :
    Yields s c (storedBy step h) fun _ => True := ⟨trivial, rfl⟩

theorem Yields.mapM {f : α → Check β} {xs : List α}
    (h : ∀ x ∈ xs, ∀ d : Checker, Yields s d (f x) fun _ => True) :
    Yields s c (xs.mapM f) fun _ => True := by
  induction xs generalizing c with
  | nil => exact .pure trivial
  | cons x xs ih =>
    rw [List.forall_mem_cons] at h
    rw [List.mapM_cons]
    exact (h.1 c).bind fun _ => (ih h.2).bind fun _ => .pure trivial

end Check

/-! ## Members that are remembered -/

namespace Typing

open Check TypeTable

variable {ops : Operations} {s : Setting} {c : Checker} {id : TypeId} {sh : Shape}

theorem run_shape?_of_hasShape (h : c.HasShape id sh) :
    ((shape? ops id).run s).run c = (some sh, c) := run_lookUp_of_hasShape h

/-- A type has its members once and for all. -/
theorem hasShape_unique {sh' : Shape} (h : c.HasShape id sh) (h' : c.HasShape id sh') : sh = sh' := by
  have hrun : ((shape? Operations.blind id).run Setting.strict).run c = (some sh, c) :=
    run_shape?_of_hasShape h
  rw [run_shape?_of_hasShape h'] at hrun
  exact (Option.some.inj (Prod.mk.inj hrun).1).symm

/-- Members that have been looked up are known. -/
theorem hasShape_of_run_shape? (h : (((shape? ops id).run s).run c).1 = some sh) :
    (((shape? ops id).run s).run c).2.HasShape id sh ∨ sh = {} := by
  unfold shape? lookUp at h ⊢
  dsimp only [StateT.run] at h ⊢
  split at h
  · rename_i hshape
    obtain rfl := Option.some.inj h
    exact .inl (.inl hshape)
  · -- a shape that was not stored would have no members
    rename_i i hnone hk
    obtain rfl : c.table.shape i = sh := Option.some.inj h
    rw [TypeTable.shape, Array.getD_eq_getD_getElem?]
    cases hi : c.table.shapes[i.index]? with
    | none => exact .inr rfl
    | some known => exact .inl (.inr ⟨hnone, i, hk, hi⟩)
  · split at h
    · obtain rfl := Option.some.inj h
      exact .inl (.inl Std.HashMap.getElem?_insert_self)
    · cases h

/-- The members of an object type are known as soon as it is stored. -/
theorem hasShape_run_objectOf (sh : Shape) :
    let r := ((Check.objectOf sh).run s).run c
    (r.2.table.kind r.1).hasMembers ∧ (c.shapes[r.1]? = none → r.2.HasShape r.1 sh) := by
  intro r
  have hkind : r.2.table.kind r.1 = .computed ((addShape sh).run c.table).1 :=
    kind_of_get? (t := r.2.table) store_get?
  refine ⟨by rw [hkind]; rfl, fun hnone => .inr ⟨hnone, _, hkind, ?_⟩⟩
  exact addShape_get? (t := c.table)

/-! ## Looking members up -/

/-- The members of a value of such a type are the members of the type. -/
theorem run_apparent_of_hasMembers (hk : (c.table.kind id).hasMembers) :
    ((apparent ops id).run s).run c = (id, c) := by
  unfold apparent
  rw [run_kind_bind]
  cases hkind : c.table.kind id with
  | interface | written | computed | functionValue => rfl
  | _ =>
    rw [hkind] at hk
    cases hk

theorem run_property?_of_hasShape (hk : (c.table.kind id).hasMembers) (h : c.HasShape id sh)
    (name : String) :
    ((ops.next.next.property? id name).run s).run c = (sh.property? name, c) := by
  show ((property? ops.next id name).run s).run c = _
  unfold property?
  rw [run_kind_bind]
  have hlook : ((ops.next.shape? id).run s).run c = (some sh, c) := run_shape?_of_hasShape h
  cases hkind : c.table.kind id with
  | interface | written | computed | functionValue =>
    dsimp only
    rw [run_bind, hlook]
    rfl
  | _ =>
    rw [hkind] at hk
    cases hk

theorem run_index?_of_hasShape (hk : (c.table.kind id).hasMembers) (h : c.HasShape id sh)
    (key : TypeId) :
    ((ops.next.next.index? id key).run s).run c =
      ((sh.index? key).or (if key == .number then sh.index? .string else none), c) := by
  show ((index? ops.next id key).run s).run c = _
  unfold index?
  rw [run_kind_bind]
  have hlook : ((ops.next.shape? id).run s).run c = (some sh, c) := run_shape?_of_hasShape h
  have hself : ((ops.next.apparent id).run s).run c = (id, c) := run_apparent_of_hasMembers hk
  cases hkind : c.table.kind id with
  | interface | written | computed | functionValue =>
    dsimp only
    rw [run_bind, hself]
    dsimp only
    rw [run_bind, hlook]
    rfl
  | _ =>
    rw [hkind] at hk
    cases hk

/-- What a type has by the members in a shape: each property of them, and something under the keys of
each index signature, where a string index can be used with numbers too. -/
structure Holds (s : Setting) (c : Checker) (ops : Operations) (id : TypeId) (sh : Shape) : Prop where
  property : ∀ p ∈ sh.properties, Yields s c (ops.property? id p.name) (·.isSome)
  index : ∀ i ∈ sh.indexes, ∀ key, key = i.key ∨ key = .number ∧ i.key = .string →
    Yields s c (ops.index? id key) (·.isSome)

/-- A type whose members are known holds them, and so does one without members. -/
theorem holds_of_hasShape (hk : (c.table.kind id).hasMembers) (h : c.HasShape id sh ∨ sh = {}) :
    Holds s c ops.next.next id sh := by
  rcases h with h | rfl
  case inr => constructor <;> simp
  refine ⟨fun p hp => ?_, fun i hi key hkey => ?_⟩
  · unfold Yields
    rw [run_property?_of_hasShape hk h]
    refine ⟨show (sh.property? p.name).isSome from ?_, rfl⟩
    rw [Shape.property?, List.find?_isSome]
    exact ⟨p, hp, beq_self_eq_true p.name⟩
  · unfold Yields
    rw [run_index?_of_hasShape hk h]
    refine ⟨?_, rfl⟩
    have hfound : (sh.index? i.key).isSome := by
      rw [Shape.index?, List.find?_isSome]
      exact ⟨i, hi, beq_self_eq_true i.key⟩
    rcases hkey with rfl | ⟨rfl, hstring⟩
    · simp [hfound]
    · rw [hstring] at hfound
      simp [hfound]

/-! ## Tuples -/

section

variable {es : List TupleElement} {readonly : Bool} {e : TupleElement}

/-- An element whose type is known holds that type, or nothing if it may be missing. -/
theorem elementType_eq (h : e.kind ≠ .variadic) :
    elementType ops e = if e.kind = .optional then withUndefined e.type else pure e.type := by
  unfold elementType
  cases hk : e.kind with
  | variadic => exact absurd hk h
  | _ => rfl

theorem settles_elementType (hc : c.table.Normal s.nullChecks) (h : e.kind ≠ .variadic)
    (he : c.table.Given (.type e.type)) : Settles s c (elementType ops e) := by
  rw [elementType_eq h]
  split
  · exact settles_withUndefined hc he
  · exact Settles.pure e.type

theorem given_elementType (hc : c.table.Normal s.nullChecks) (h : e.kind ≠ .variadic)
    (he : c.table.Given (.type e.type)) :
    (((elementType ops e).run s).run c).2.table.Given
      (.type (((elementType ops e).run s).run c).1) := by
  rw [elementType_eq h]
  split
  · rw [run_withUndefined]
    split
    · have hundefined : c.table.Given (.type .undefined) := given_of_get? (hc.fixed 3 _ rfl)
      exact given_run_union hc (by simp [he, hundefined])
    · exact he
  · exact he

theorem yields_elementType (h : e.kind ≠ .variadic) :
    Yields s c (elementType ops e) fun _ => True := by
  rw [elementType_eq h]
  split
  · exact yields_storedBy _ _
  · exact Yields.pure trivial

theorem yields_elementUnion (h : ∀ e ∈ es, e.kind ≠ .variadic) :
    Yields s c (elementUnion ops es) fun _ => True :=
  (Yields.mapM fun e he _ => yields_elementType (h e he)).bind fun _ => yields_storedBy _ _

theorem given_elementTypes (hc : c.table.Normal s.nullChecks) (h : ∀ e ∈ es, e.kind ≠ .variadic)
    (hes : ∀ e ∈ es, c.table.Given (.type e.type)) :
    ∀ id ∈ (((es.mapM (elementType ops)).run s).run c).1,
      (((es.mapM (elementType ops)).run s).run c).2.table.Given (.type id) := by
  intro id hid
  obtain ⟨-, -, hgiven⟩ := exists_of_mem_mapM (R := fun t _ id => t.Given (.type id))
    (fun htu ht => ht.mono htu)
    (fun e he d hd => given_elementType (hd.keeps.2 hc) (h e he) ((hes e he).mono hd.keeps.1)) id hid
  exact hgiven

/-- The array of a tuple whose elements are known can be asked for in any operation. -/
theorem arrayOfTuple_eq (h : ∀ e ∈ es, e.kind ≠ .variadic) (ops ops' : Operations)
    (readonly : Bool) : arrayOfTuple ops es readonly = arrayOfTuple ops' es readonly := by
  have hall : es.mapM (elementType ops) = es.mapM (elementType ops') := by
    induction es with
    | nil => rfl
    | cons e es ih =>
      rw [List.forall_mem_cons] at h
      rw [List.mapM_cons, List.mapM_cons, ih h.2, elementType_eq h.1, elementType_eq h.1]
  unfold arrayOfTuple elementUnion
  rw [hall]

/-- The array of a tuple is one type, whenever it is asked for. -/
theorem settles_arrayOfTuple (hc : c.table.Normal s.nullChecks) (h : ∀ e ∈ es, e.kind ≠ .variadic)
    (hes : ∀ e ∈ es, c.table.Given (.type e.type)) :
    Settles s c (arrayOfTuple ops es readonly) := by
  have hunion : Settles s c (elementUnion ops es) := by
    refine Settles.bind (Settles.mapM fun e he d hd => ?_) (settles_union ?_ ?_)
    · exact settles_elementType (hd.keeps.2 hc) (h e he) ((hes e he).mono hd.keeps.1)
    · exact ((es.mapM (elementType ops)).later s c).keeps.2 hc
    · exact given_elementTypes hc h hes
  refine hunion.bind (Settles.bind (x := program) (fun _ _ => rfl) ?_)
  split
  · exact settles_intern _ _
  · exact Settles.pure _

/-- The array of a tuple has members of its own, unless there are no arrays. -/
theorem arrayOfTuple_cases (ops : Operations) (es : List TupleElement) (readonly : Bool) :
    let r := ((arrayOfTuple ops es readonly).run s).run c
    r.1 = .error ∨ (r.2.table.kind r.1).hasMembers := by
  intro r
  let element := ((elementUnion ops es).run s).run c
  have hrun : r = ((arrayType element.1 readonly).run s).run element.2 := rfl
  unfold arrayType at hrun
  rw [run_bind] at hrun
  split at hrun
  · rename_i symbol _
    rw [hrun]
    exact .inr (congrArg TypeKind.hasMembers
      (kind_run_intern (.interface symbol [element.1]) rfl))
  · rw [hrun]
    exact .inl rfl

/-- An element that stands at one place is found under the number of that place. -/
theorem yields_tupleProperty?_of_place {name : String}
    (h : ((placeOf? name).bind (es[·]?)).filter (·.kind.isFixed) = some e) :
    Yields s c (tupleProperty? ops es readonly name) (·.isSome) := by
  unfold tupleProperty?
  rw [h]
  dsimp only
  split
  · exact (yields_storedBy _ _).bind fun _ => Yields.pure rfl
  · exact Yields.pure rfl

/-- A tuple holds what its array does. -/
theorem holds_tuple {array : TypeId} (hk : c.table.kind id = .tuple es readonly)
    (h : ∀ e ∈ es, e.kind ≠ .variadic)
    (harray : ((arrayOfTuple ops es readonly).run s).run c = (array, c))
    (hholds : Holds s c ops array sh) : Holds s c ops.next id sh where
  property p hp := by
    show Yields s c (property? ops id p.name) _
    unfold property?
    refine Yields.after (congrArg (·, c) hk) ?_
    dsimp only
    cases hplace : ((placeOf? p.name).bind (es[·]?)).filter (·.kind.isFixed) with
    | some e => exact yields_tupleProperty?_of_place hplace
    | none =>
      unfold tupleProperty?
      rw [hplace]
      dsimp only
      split
      · split
        · exact Yields.bind (P := fun _ => True) ⟨trivial, rfl⟩ fun _ => Yields.pure rfl
        · exact Yields.pure rfl
      · exact Yields.after harray (hholds.property p hp)
  index i hi key hkey := by
    show Yields s c (index? ops id key) _
    unfold index?
    refine Yields.after (congrArg (·, c) hk) ?_
    dsimp only
    split
    · exact (yields_elementUnion h).bind fun _ => Yields.pure rfl
    · exact Yields.after harray (hholds.index i hi key hkey)

end

end Typing

end DeclKit

/-
Normal forms of the types in a table.

Unions, intersections and templates are stored flat and reduced. What they are made of is looked up in
the table, so it matters that a kind is not hidden behind a second number: an alias gives a type another
number, but only types of the kinds that carry aliases, and the types with fixed numbers are the only
ones of their kinds. The steps that store something as it stands keep a table normal; so do those that
put such steps together.

Nothing that is in a table is ever changed or removed, so a number leads to the same type, substitution
or shape for as long as a check lasts. The only table that has another type under a number is one that
has not given the number yet.
-/
import DeclKit.Types.Instance

set_option autoImplicit false

/-! ## Tables that grow -/

namespace DeclKit.TypeTable

/-- All that is in one table is in another under the same number. -/
structure Grows (t u : TypeTable) : Prop where
  types : ∀ (i : Nat) d, t.types.get? i = some d → u.types.get? i = some d
  mappers : ∀ (i : Nat) m, t.mappers.get? i = some m → u.mappers.get? i = some m
  shapes : ∀ (i : Nat) (s : Shape), t.shapes[i]? = some s → u.shapes[i]? = some s

variable {t u v : TypeTable}

theorem Grows.refl (t : TypeTable) : t.Grows t :=
  ⟨fun _ _ h => h, fun _ _ h => h, fun _ _ h => h⟩

theorem Grows.trans (h : t.Grows u) (h' : u.Grows v) : t.Grows v :=
  ⟨fun i d hd => h'.types i d (h.types i d hd), fun i m hm => h'.mappers i m (h.mappers i m hm),
    fun i s hs => h'.shapes i s (h.shapes i s hs)⟩

/-! ## Types by number -/

theorem data_of_get? {id : TypeId} {d : TypeData} (h : t.types.get? id.index = some d) :
    t.data id = d := by
  rw [data, h, Option.getD_some]

theorem kind_of_get? {id : TypeId} {d : TypeData} (h : t.types.get? id.index = some d) :
    t.kind id = d.kind := congrArg TypeData.kind (data_of_get? h)

/-- A number that is not that of an empty union leads to a type. -/
theorem get?_of_kind {id : TypeId} {k : TypeKind} (h : t.kind id = k) (hk : k ≠ .union []) :
    t.types.get? id.index = some (t.data id) := by
  cases hget : t.types.get? id.index with
  | some d => rw [data_of_get? hget]
  | none =>
    refine absurd ?_ hk
    rw [← h, kind, data, hget, Option.getD_none]

/-- So it keeps its kind. -/
theorem Grows.kind_eq {id : TypeId} {k : TypeKind} (htu : t.Grows u) (h : t.kind id = k)
    (hk : k ≠ .union []) : u.kind id = k := by
  rw [kind_of_get? (htu.types _ _ (get?_of_kind h hk))]
  exact h

/-! ## Storing -/

variable {d : TypeData} {pairs : List (SymbolId × TypeId)} {s : Shape}

theorem grows_store : t.Grows ((store d).run t).2 :=
  ⟨fun i e h => t.types.get?_intern_of_get? d e i h, fun _ _ h => h, fun _ _ h => h⟩

/-- The number that a type gets leads back to it. -/
theorem store_get? : ((store d).run t).2.types.get? ((store d).run t).1.index = some d :=
  t.types.get?_intern d

/-- A type that has been stored gets the same number again, however much has been stored since. -/
theorem store_again (h : Grows ((store d).run t).2 u) :
    ((store d).run u).1 = ((store d).run t).1 :=
  congrArg (fun p => TypeId.mk p.1) (Interner.intern_of_get? (h.types _ _ store_get?))

/-- Beside what was there, only the stored type can be new, and then it has the next number. -/
theorem get?_of_store {i : Nat} {e : TypeData} (h : ((store d).run t).2.types.get? i = some e) :
    t.types.get? i = some e ∨ i = t.types.size ∧ e = d :=
  Interner.get?_of_get?_intern h

theorem grows_internMapper : t.Grows ((internMapper pairs).run t).2 :=
  ⟨fun _ _ h => h, fun i m h => t.mappers.get?_intern_of_get? _ m i h, fun _ _ h => h⟩

theorem internMapper_get? :
    ((internMapper pairs).run t).2.mappers.get? ((internMapper pairs).run t).1.index =
      some (Mapper.ofPairs pairs) :=
  t.mappers.get?_intern _

theorem grows_addShape : t.Grows ((addShape s).run t).2 := by
  refine ⟨fun _ _ h => h, fun _ _ h => h, fun i u h => ?_⟩
  have hi := (Array.getElem?_eq_some_iff.1 h).1
  show (t.shapes.push s)[i]? = some u
  rw [Array.getElem?_push, if_neg (Nat.ne_of_lt hi), h]

theorem addShape_get? : ((addShape s).run t).2.shapes[((addShape s).run t).1.index]? = some s :=
  Array.getElem?_push_size

end DeclKit.TypeTable

namespace DeclKit

/-! ## What may stand in a type -/

namespace TypeKind

/-- A kind that may stand in a union: it neither is one, nor vanishes in it, nor swallows it. -/
def inUnion : TypeKind → Bool
  | .union _ | .never | .any | .unknown | .error => false
  | _ => true

/-- A kind that may stand in an intersection. -/
def inIntersection : TypeKind → Bool
  | .intersection _ | .union _ | .never | .any | .error | .unknown => false
  | _ => true

/-- A kind that may stand in a template: no literal, whose text is known, no template, and nothing that
settles or multiplies out the whole. -/
def inTemplate : TypeKind → Bool
  | .union _ | .never | .error | .template .. => false
  | .stringLiteral _ | .numberLiteral _ | .bigintLiteral _ | .true_ | .false_ | .null
  | .undefined => false
  | _ => true

/-- A kind of which every value is one of the other kind. -/
def covers : TypeKind → TypeKind → Bool
  | .string, .stringLiteral _ | .string, .template .. | .string, .lettered .. => true
  | .number, .numberLiteral _ => true
  | .bigint, .bigintLiteral _ => true
  | .void, .undefined => true
  | _, _ => false

/-- One of `null` and `undefined`. -/
def isNullish : TypeKind → Bool
  | .null | .undefined => true
  | _ => false

/-- The kind of a union. -/
def isUnion : TypeKind → Bool
  | .union _ => true
  | _ => false

theorem isUnion_of_inUnion {k : TypeKind} (h : k.inUnion) : k.isUnion = false := by
  cases k with
  | union => cases h
  | _ => rfl

/-- A kind that a letter map has to wait for. -/
def waitsUnder (m : LetterMap) : TypeKind → Bool
  | .stringLiteral _ | .any | .error | .never | .union _ => false
  | .lettered inner _ => inner != m
  | _ => true

end TypeKind

namespace TypeTable

/-! ## Normal tables -/

/-- A union has at least two members in the order of their numbers, none of which covers another;
without null checks `null` and `undefined` stand beside each other only. -/
structure NormalUnion (nullChecks : Bool) (t : TypeTable) (ms : List TypeId) : Prop where
  several : 2 ≤ ms.length
  increasing : ms.Pairwise (·.index < ·.index)
  plain : ∀ m ∈ ms, (t.kind m).inUnion
  uncovered : ∀ m ∈ ms, ∀ n ∈ ms, ¬(t.kind n).covers (t.kind m)
  nullish : nullChecks = false → ∀ m ∈ ms, (t.kind m).isNullish → ∀ n ∈ ms, (t.kind n).isNullish

/-- An intersection has at least two members, each once. -/
structure NormalIntersection (t : TypeTable) (ms : List TypeId) : Prop where
  several : 2 ≤ ms.length
  distinct : ms.Nodup
  plain : ∀ m ∈ ms, (t.kind m).inIntersection

/-- The members of an intersection have a value in common, as far as that can be seen, and none of them is
implied by the others. -/
structure Meets (nullChecks : Bool) (t : TypeTable) (ms : List TypeId) : Prop where
  joint : t.isDisjoint nullChecks ms = false
  unimplied : t.withoutImplied ms = ms

/-- A template has at least one type. -/
structure NormalTemplate (t : TypeTable) (spans : List (TypeId × String)) : Prop where
  nonempty : spans ≠ []
  plain : ∀ s ∈ spans, (t.kind s.1).inTemplate

/-- A type of this kind is in normal form. -/
def NormalKind (nullChecks : Bool) (t : TypeTable) : TypeKind → Prop
  | .union ms => t.NormalUnion nullChecks ms
  | .intersection ms => t.NormalIntersection ms ∧ t.Meets nullChecks ms
  | .template _ spans => t.NormalTemplate spans
  | .lettered m id => (t.kind id).waitsUnder m
  | _ => True

/-- Every type in the table is in normal form, the fixed numbers have their types, and only kinds that
carry an alias have one. -/
structure Normal (nullChecks : Bool) (t : TypeTable) : Prop where
  fixed : ∀ (i : Nat) k, intrinsics[i]? = some k → t.types.get? i = some { kind := k }
  aliased : ∀ (i : Nat) d, t.types.get? i = some d → d.aliased.isSome → carriesAlias d.kind
  forms : ∀ (i : Nat) d, t.types.get? i = some d → t.NormalKind nullChecks d.kind

section

variable {nullChecks : Bool} {t u : TypeTable}

/-- A type that may stand in another one is in the table, so it keeps its kind. -/
theorem Grows.kind_eq_of {p : TypeKind → Bool} (htu : t.Grows u) (hp : p (.union []) = false)
    {id : TypeId} (h : p (t.kind id) = true) : u.kind id = t.kind id := by
  refine htu.kind_eq rfl fun heq => ?_
  rw [heq, hp] at h
  cases h

theorem NormalUnion.grows {ms : List TypeId} (h : t.NormalUnion nullChecks ms) (htu : t.Grows u) :
    u.NormalUnion nullChecks ms := by
  have hkind : ∀ m ∈ ms, u.kind m = t.kind m := fun m hm => htu.kind_eq_of rfl (h.plain m hm)
  refine ⟨h.several, h.increasing, fun m hm => ?_, fun m hm n hn => ?_, fun hnc m hm hnull n hn => ?_⟩
  · rw [hkind m hm]
    exact h.plain m hm
  · rw [hkind m hm, hkind n hn]
    exact h.uncovered m hm n hn
  · rw [hkind m hm] at hnull
    rw [hkind n hn]
    exact h.nullish hnc m hm hnull n hn

theorem NormalIntersection.grows {ms : List TypeId} (h : t.NormalIntersection ms)
    (htu : t.Grows u) : u.NormalIntersection ms := by
  refine ⟨h.several, h.distinct, fun m hm => ?_⟩
  rw [htu.kind_eq_of rfl (h.plain m hm)]
  exact h.plain m hm

theorem any_eq_of_mem {β : Type} {xs : List β} {f g : β → Bool} (h : ∀ x ∈ xs, f x = g x) :
    xs.any f = xs.any g := by
  rw [Bool.eq_iff_iff, List.any_eq_true, List.any_eq_true]
  exact exists_congr fun x => and_congr_right fun hx => by rw [h x hx]

theorem filterMap_eq_of_mem {β γ : Type} {xs : List β} {f g : β → Option γ} (h : ∀ x ∈ xs, f x = g x) :
    xs.filterMap f = xs.filterMap g := by
  induction xs with
  | nil => rfl
  | cons x xs ih =>
    rw [List.forall_mem_cons] at h
    rw [List.filterMap_cons, List.filterMap_cons, h.1, ih h.2]

/-- Whether members go together depends on their kinds alone. -/
theorem isDisjoint_congr {ms : List TypeId} (h : ∀ m ∈ ms, u.kind m = t.kind m) :
    u.isDisjoint nullChecks ms = t.isDisjoint nullChecks ms := by
  have hdomain : ms.filterMap u.domain? = ms.filterMap t.domain? :=
    filterMap_eq_of_mem fun m hm => by rw [domain?, domain?, h m hm]
  have hunit : ms.filter u.isUnit = ms.filter t.isUnit :=
    List.filter_congr fun m hm => by rw [isUnit, isUnit, h m hm]
  have hobject : ms.any u.isObjectLike = ms.any t.isObjectLike :=
    any_eq_of_mem fun m hm => by rw [isObjectLike, isObjectLike, h m hm]
  have htext (text : String) : ms.all (u.fitsText text) = ms.all (t.fitsText text) := by
    rw [List.all_eq_not_any_not, List.all_eq_not_any_not]
    exact congrArg not (any_eq_of_mem fun m hm => by rw [fitsText, fitsText, h m hm])
  unfold isDisjoint
  rw [hdomain, hunit, hobject]
  refine congrArg (Bool.or _) ?_
  cases hms : ms.filter t.isUnit with
  | nil => rfl
  | cons m more =>
    have hm : m ∈ ms := (List.mem_filter.1 (hms ▸ List.mem_cons_self)).1
    dsimp only
    rw [h m hm]
    simp only [htext]

theorem withoutImplied_congr {ms : List TypeId} (h : ∀ m ∈ ms, u.kind m = t.kind m) :
    u.withoutImplied ms = t.withoutImplied ms := by
  have hunit : ms.any u.isUnit = ms.any t.isUnit :=
    any_eq_of_mem fun m hm => by rw [isUnit, isUnit, h m hm]
  have hpattern : ms.any u.isStringPattern = ms.any t.isStringPattern :=
    any_eq_of_mem fun m hm => by rw [isStringPattern, isStringPattern, h m hm]
  have himplied : (ms.filter fun m => !u.isImpliedByLiteral m) =
      ms.filter fun m => !t.isImpliedByLiteral m :=
    List.filter_congr fun m hm => by rw [isImpliedByLiteral, isImpliedByLiteral, h m hm]
  rw [withoutImplied, withoutImplied, hunit, hpattern, himplied]

theorem Meets.grows {ms : List TypeId} (h : t.Meets nullChecks ms)
    (hplain : ∀ m ∈ ms, (t.kind m).inIntersection) (htu : t.Grows u) : u.Meets nullChecks ms := by
  have hkind : ∀ m ∈ ms, u.kind m = t.kind m := fun m hm => htu.kind_eq_of rfl (hplain m hm)
  exact ⟨(isDisjoint_congr hkind).trans h.joint, (withoutImplied_congr hkind).trans h.unimplied⟩

theorem NormalTemplate.grows {spans : List (TypeId × String)} (h : t.NormalTemplate spans)
    (htu : t.Grows u) : u.NormalTemplate spans := by
  refine ⟨h.nonempty, fun s hs => ?_⟩
  rw [htu.kind_eq_of rfl (h.plain s hs)]
  exact h.plain s hs

theorem NormalKind.grows {k : TypeKind} (h : t.NormalKind nullChecks k) (htu : t.Grows u) :
    u.NormalKind nullChecks k := by
  cases k with
  | union ms => exact NormalUnion.grows h htu
  | intersection ms => exact ⟨NormalIntersection.grows h.1 htu, Meets.grows h.2 h.1.plain htu⟩
  | template head spans => exact NormalTemplate.grows h htu
  | lettered m id =>
    have hwaits : (t.kind id).waitsUnder m := h
    show (u.kind id).waitsUnder m
    rwa [htu.kind_eq_of rfl hwaits]
  | _ => trivial

theorem normalKind_of_isPlain {k : TypeKind} (h : k.isPlain) : t.NormalKind nullChecks k := by
  cases k with
  | union | intersection | template | lettered => cases h
  | _ => trivial

/-! ### Fixed numbers -/

theorem Normal.kind_fixed (ht : t.Normal nullChecks) {i : Nat} {k : TypeKind}
    (hi : intrinsics[i]? = some k) : t.kind ⟨i⟩ = k := kind_of_get? (ht.fixed i k hi)

/-- A type with a fixed number is the only one of its kind, unless the kind carries aliases. -/
theorem Normal.eq_of_kind (ht : t.Normal nullChecks) {i : Nat} {k : TypeKind} {id : TypeId}
    (hi : intrinsics[i]? = some k) (halias : carriesAlias k = false) (h : t.kind id = k) :
    id = ⟨i⟩ := by
  have hk : k ≠ .union [] := by
    rintro rfl
    cases halias
  have hget := get?_of_kind h hk
  rcases hd : t.data id with ⟨k', a⟩
  obtain rfl : k' = k := by
    rw [← h, kind, hd]
  have hnone : a = none := by
    rw [← Option.not_isSome_iff_eq_none]
    intro hsome
    have := ht.aliased _ _ (hd ▸ hget) hsome
    rw [halias] at this
    cases this
  rw [hd, hnone] at hget
  obtain ⟨j⟩ := id
  exact congrArg TypeId.mk (Interner.get?_inj hget (ht.fixed i _ hi))

/-- A type found under a number keeps its kind and its form. -/
theorem Normal.form (ht : t.Normal nullChecks) {id : TypeId} {k : TypeKind} (h : t.kind id = k)
    (hk : k ≠ .union []) : t.NormalKind nullChecks k := by
  have := ht.forms _ _ (get?_of_kind h hk)
  rwa [show (t.data id).kind = k from h] at this

/-- A union is in normal form if it has a member; a type that is not in the table counts as a union
without members. -/
theorem Normal.union (ht : t.Normal nullChecks) {id m : TypeId} {ms : List TypeId}
    (h : t.kind id = .union ms) (hm : m ∈ ms) : t.NormalUnion nullChecks ms :=
  ht.form h (by simp [List.ne_nil_of_mem hm])

theorem Normal.intersection (ht : t.Normal nullChecks) {id : TypeId} {ms : List TypeId}
    (h : t.kind id = .intersection ms) : t.NormalIntersection ms := (ht.form h (by simp)).1

theorem Normal.meets (ht : t.Normal nullChecks) {id : TypeId} {ms : List TypeId}
    (h : t.kind id = .intersection ms) : t.Meets nullChecks ms := (ht.form h (by simp)).2

/-- What a stored letter map is applied to has to be waited for. -/
theorem Normal.lettered (ht : t.Normal nullChecks) {id type : TypeId} {m : LetterMap}
    (h : t.kind id = .lettered m type) : (t.kind type).waitsUnder m := ht.form h (by simp)

/-- The members of a union are no unions. -/
theorem Normal.not_union_of_mem (ht : t.Normal nullChecks) {id m : TypeId} {ms : List TypeId}
    (h : t.kind id = .union ms) (hm : m ∈ ms) : (t.kind m).isUnion = false := by
  have := (ht.union h hm).plain m hm
  cases hk : t.kind m with
  | union ms' =>
    rw [hk] at this
    cases this
  | _ => rfl

end

/-! ## Steps that keep a table normal -/

/-- One table has grown into another that is normal if the first one was. -/
def Keeps (nullChecks : Bool) (t u : TypeTable) : Prop :=
  t.Grows u ∧ (t.Normal nullChecks → u.Normal nullChecks)

section

variable {nullChecks : Bool} {t u v : TypeTable}

theorem Keeps.refl (nullChecks : Bool) (t : TypeTable) : t.Keeps nullChecks t :=
  ⟨Grows.refl t, fun ht => ht⟩

theorem Keeps.trans (h : t.Keeps nullChecks u) (h' : u.Keeps nullChecks v) :
    t.Keeps nullChecks v := ⟨h.1.trans h'.1, fun ht => h'.2 (h.2 ht)⟩

/-- A stored type has to be in normal form, and may have an alias only if its kind carries one. -/
theorem keeps_store {d : TypeData} (hform : t.Normal nullChecks → t.NormalKind nullChecks d.kind)
    (halias : d.aliased.isSome → carriesAlias d.kind) :
    t.Keeps nullChecks ((store d).run t).2 := by
  refine ⟨grows_store, fun ht => ⟨fun i k hi => ?_, fun i e he => ?_, fun i e he => ?_⟩⟩
  · exact grows_store.types _ _ (ht.fixed i k hi)
  · rcases get?_of_store he with hold | ⟨-, rfl⟩
    · exact ht.aliased i e hold
    · exact halias
  · rcases get?_of_store he with hold | ⟨-, rfl⟩
    · exact (ht.forms i e hold).grows grows_store
    · exact (hform ht).grows grows_store

theorem keeps_intern {k : TypeKind} (hform : t.Normal nullChecks → t.NormalKind nullChecks k) :
    t.Keeps nullChecks ((intern k).run t).2 := keeps_store hform fun h => nomatch h

theorem keeps_internMapper (pairs : List (SymbolId × TypeId)) :
    t.Keeps nullChecks ((internMapper pairs).run t).2 :=
  ⟨grows_internMapper, fun ht => ⟨ht.fixed, ht.aliased, fun i d hd =>
    (ht.forms i d hd).grows grows_internMapper⟩⟩

theorem keeps_addShape (s : Shape) : t.Keeps nullChecks ((addShape s).run t).2 :=
  ⟨grows_addShape, fun ht => ⟨ht.fixed, ht.aliased, fun i d hd =>
    (ht.forms i d hd).grows grows_addShape⟩⟩

end

end TypeTable

namespace Stored

open TypeTable

/-- A step that keeps every table normal. -/
def Keeps (nullChecks : Bool) {α : Type} (x : Stored α) : Prop :=
  ∀ t : TypeTable, t.Keeps nullChecks (x.run t).2

variable {nullChecks : Bool} {α β : Type}

theorem keeps_pure (a : α) : Keeps nullChecks (pure a : Stored α) :=
  fun t => TypeTable.Keeps.refl nullChecks t

theorem keeps_bind {x : Stored α} {f : α → Stored β} (hx : Keeps nullChecks x)
    (hf : ∀ a, Keeps nullChecks (f a)) : Keeps nullChecks (x >>= f) :=
  fun t => (hx t).trans (hf _ _)

/-- A step that looks at the table goes on from that table. -/
theorem run_get_bind {f : TypeTable → Stored β} {t : TypeTable}
    (h : t.Keeps nullChecks ((f t).run t).2) : t.Keeps nullChecks ((get >>= f).run t).2 := h

theorem keeps_get_bind {f : TypeTable → Stored β}
    (hf : ∀ t : TypeTable, t.Keeps nullChecks ((f t).run t).2) : Keeps nullChecks (get >>= f) :=
  fun t => run_get_bind (hf t)

theorem keeps_mapM {xs : List α} {f : α → Stored β} (hf : ∀ x, Keeps nullChecks (f x)) :
    Keeps nullChecks (xs.mapM f) := by
  induction xs with
  | nil => exact keeps_pure []
  | cons x xs ih =>
    rw [List.mapM_cons]
    exact keeps_bind (hf x) fun y => keeps_bind ih fun ys => keeps_pure (y :: ys)

/-- Steps run alike one after another if each runs like its counterpart in every state that comes up. -/
theorem run_mapM_congr {σ : Type} {R : σ → σ → Prop} (hrefl : ∀ a, R a a)
    (htrans : ∀ {a b c}, R a b → R b c → R a c) {f g : α → StateM σ β} {xs : List α}
    (hg : ∀ x a, R a ((g x).run a).2) {a : σ}
    (h : ∀ x ∈ xs, ∀ b, R a b → (f x).run b = (g x).run b) :
    (xs.mapM f).run a = (xs.mapM g).run a := by
  induction xs generalizing a with
  | nil => rfl
  | cons x xs ih =>
    rw [List.forall_mem_cons] at h
    obtain ⟨hx, hxs⟩ := h
    have htail := ih (a := ((g x).run a).2) fun y hy b hb => hxs y hy b (htrans (hg x a) hb)
    rw [List.mapM_cons, List.mapM_cons, StateT.run_bind, StateT.run_bind, hx a (hrefl a)]
    exact congrArg (fun r : List β × σ => (((g x).run a).1 :: r.1, r.2)) htail

theorem keeps_intern {k : TypeKind} (h : k.isPlain) : Keeps nullChecks (intern k) :=
  fun _ => TypeTable.keeps_intern fun _ => normalKind_of_isPlain h

theorem keeps_makeMapper (pairs : List (SymbolId × TypeId)) :
    Keeps nullChecks (makeMapper pairs) := by
  unfold makeMapper
  split
  · exact keeps_pure none
  · exact keeps_bind (fun _ => keeps_internMapper pairs) fun id => keeps_pure (some id)

theorem keeps_objectOf (s : Shape) : Keeps nullChecks (objectOf s) :=
  keeps_bind (fun _ => keeps_addShape s) fun _ => keeps_intern rfl

/-- An alias is attached to a type that is in normal form already. -/
theorem keeps_attachAlias (id : TypeId) (a : AliasRef) : Keeps nullChecks (attachAlias id a) := by
  refine keeps_get_bind fun t => ?_
  split
  · rename_i d hd
    split
    · rename_i hcarries
      exact TypeTable.keeps_store (fun ht => ht.forms _ d hd) fun _ => hcarries
    · exact keeps_pure id t
  · exact keeps_pure id t

end Stored

/-! ## The first table

It holds the types with fixed numbers and nothing else. They are different types, so each gets the next
number, and the one union among them is `boolean`. -/

namespace TypeTable

/-- Different types that are stored one after another stand in the table in that order. -/
theorem items_forM_intern {ks : List TypeKind} {t : TypeTable}
    (h : (t.types.items.toList ++ ks.map (TypeData.mk · none)).Nodup) :
    ((ks.forM fun k => discard (intern k)).run t).2.types.items.toList =
      t.types.items.toList ++ ks.map (TypeData.mk · none) := by
  induction ks generalizing t with
  | nil => exact (List.append_nil _).symm
  | cons k ks ih =>
    have hfresh : ∀ i, t.types.get? i ≠ some ⟨k, none⟩ := by
      intro i hi
      refine (List.nodup_append.1 h).2.2 ⟨k, none⟩ ?_ ⟨k, none⟩ List.mem_cons_self rfl
      exact Array.mem_toList_iff.2 (Array.mem_of_getElem? hi)
    have hitems : ((intern k).run t).2.types.items.toList = t.types.items.toList ++ [⟨k, none⟩] := by
      rw [← Array.toList_push, ← (Interner.intern_of_forall_ne hfresh).2]
      rfl
    have hcons : t.types.items.toList ++ (k :: ks).map (TypeData.mk · none) =
        ((intern k).run t).2.types.items.toList ++ ks.map (TypeData.mk · none) := by
      rw [hitems, List.append_assoc]
      rfl
    rw [hcons] at h ⊢
    exact ih h

theorem nodup_intrinsics : intrinsics.Nodup := by decide

theorem initial_get? (i : Nat) :
    initial.types.get? i = (intrinsics[i]?).map (TypeData.mk · none) := by
  have hnodup : (intrinsics.map (TypeData.mk · none)).Nodup :=
    List.pairwise_map.2 (nodup_intrinsics.imp fun hne heq => hne (congrArg TypeData.kind heq))
  have hitems : initial.types.items.toList = intrinsics.map (TypeData.mk · none) := by
    unfold initial
    rw [items_forM_intern]
    · rfl
    · exact hnodup
  rw [Interner.get?, ← Array.getElem?_toList, hitems, List.getElem?_map]

/-- The table that holds only the types with fixed numbers is normal. -/
theorem normal_initial (nullChecks : Bool) : initial.Normal nullChecks := by
  have hfixed : ∀ (i : Nat) k, intrinsics[i]? = some k →
      initial.types.get? i = some { kind := k } := by
    intro i k hi
    rw [initial_get?, hi]
    rfl
  refine ⟨hfixed, fun i d hd halias => ?_, fun i d hd => ?_⟩
  · rw [initial_get?] at hd
    obtain ⟨k, -, rfl⟩ := Option.map_eq_some_iff.1 hd
    cases halias
  · rw [initial_get?] at hd
    obtain ⟨k, hk, rfl⟩ := Option.map_eq_some_iff.1 hd
    have hmem := List.mem_of_getElem? hk
    cases k with
    | union ms =>
      obtain rfl : ms = [.false_, .true_] := by simpa [intrinsics] using hmem
      have hfalse : initial.kind .false_ = .false_ := kind_of_get? (hfixed 8 _ rfl)
      have htrue : initial.kind .true_ = .true_ := kind_of_get? (hfixed 9 _ rfl)
      refine ⟨Nat.le_refl 2, by decide, ?_, ?_, fun _ => ?_⟩
      · simp [hfalse, htrue, TypeKind.inUnion]
      · simp [hfalse, htrue, TypeKind.covers]
      · simp [hfalse, htrue, TypeKind.isNullish]
    | intersection ms => simp [intrinsics] at hmem
    | template head spans => simp [intrinsics] at hmem
    | lettered map type => simp [intrinsics] at hmem
    | _ => trivial

end TypeTable

end DeclKit

/-
What stands under a key of a type can be looked up.

The keys of a type are worked out from its members, and what it holds under a key is looked up among
them by another way: a property by its name, where a number among the keys is written out again, and an
index signature by its keys. The two ways agree on every type whose index signatures are for strings,
numbers or symbols, and whose properties with numbers for names are called what the numbers are written
as.
-/
import DeclKit.Proofs.Typing.Members
import Mathlib

set_option autoImplicit false

namespace DeclKit

/-! ## Places -/

namespace Text

theorem digits?_of_isDigit {cs : List Char} (h : ∀ c ∈ cs, c.isDigit) (acc : Nat) :
    digits? 10 acc cs = some (Nat.ofDigitChars 10 cs acc) := by
  induction cs generalizing acc with
  | nil => rfl
  | cons c cs ih =>
    rw [List.forall_mem_cons] at h
    have hdigit := h.1
    have hvalue : digitValue? 10 c = some (c.toNat - '0'.toNat) := by
      have hle : c.toNat ≤ '9'.toNat := by
        simp only [Char.isDigit, Bool.and_eq_true, decide_eq_true_eq] at hdigit
        exact hdigit.2
      unfold digitValue?
      rw [if_pos hdigit]
      exact if_pos (Nat.lt_of_le_of_lt (Nat.sub_le_sub_right hle _) (by decide))
    rw [digits?, hvalue, Nat.ofDigitChars_cons, Nat.mul_comm 10 acc]
    exact ih h.2 _

/-- A number is read back from its decimal digits. -/
theorem unsigned?_radixDigits {n bound : Nat} (h : n < bound) :
    unsigned? 10 bound (radixDigits 10 n).toList = some n := by
  have hdigits : ∀ c ∈ Nat.toDigits 10 n, c.isDigit := fun c hc =>
    Nat.isDigit_of_mem_toDigits (by decide) (by decide) hc
  have hvalue := digits?_of_isDigit hdigits 0
  rw [Nat.ofDigitChars_toDigits (by decide) (by decide)] at hvalue
  have hempty : (Nat.toDigits 10 n).isEmpty = false := by
    rw [List.isEmpty_eq_false_iff]
    exact Nat.toDigits_ne_nil
  rw [radixDigits, String.toList_ofList]
  unfold unsigned?
  split
  · rename_i hplus
    exact absurd (hdigits '+' (hplus ▸ List.mem_cons_self)) (by decide)
  · dsimp only
    rw [hempty, hvalue, if_neg (by decide)]
    exact if_pos h

end Text

namespace Typing

theorem placeOf?_radixDigits {n : Nat} (h : n < Nat.pow 2 64) :
    placeOf? (Text.radixDigits 10 n) = some n := by
  unfold placeOf?
  rw [Text.unsigned?_radixDigits h]
  exact Option.filter_eq_some_iff.2 ⟨rfl, beq_self_eq_true _⟩

end Typing

/-! ## Keys of shapes -/

/-- The kind of the key that a property stands under. -/
def Property.keyKind (p : Property) : TypeKind :=
  match Double.ofText? p.name with
  | some d => if p.numeric then .numberLiteral d.unsignedZero else .stringLiteral p.name
  | none => .stringLiteral p.name

/-- The types of which all values can stand under an index signature. -/
def TypeTable.indexable : List TypeId := [.string, .number, .symbol]

/-- The members stand under keys that lead back to them: index signatures are for strings, numbers or
symbols, and a property with a number for a name is called what the number is written as. -/
structure Shape.Canonical (sh : Shape) : Prop where
  indexes : ∀ i ∈ sh.indexes, i.key ∈ TypeTable.indexable
  numeric : ∀ p ∈ sh.properties, ∀ d, p.keyKind = .numberLiteral d → d.text = p.name

namespace Property

theorem keyKind_cases (p : Property) :
    (∃ d, p.keyKind = .numberLiteral d) ∨ p.keyKind = .stringLiteral p.name := by
  unfold keyKind
  split
  · split
    · exact .inl ⟨_, rfl⟩
    · exact .inr rfl
  · exact .inr rfl

theorem inUnion_keyKind (p : Property) : p.keyKind.inUnion := by
  rcases p.keyKind_cases with ⟨d, hd⟩ | hd <;> rw [hd] <;> rfl

theorem keyKind_ne (p : Property) : p.keyKind ≠ .union [] := by
  intro h
  have hin := p.inUnion_keyKind
  rw [h] at hin
  cases hin

end Property

theorem Shape.canonical_empty : Shape.Canonical {} := by constructor <;> simp

namespace TypeTable

variable {nullChecks : Bool} {t u : TypeTable} {sh : Shape} {k : TypeId}

/-- A type is a key of a member: of an index signature, where a string index can be used with numbers
too, or of a property. -/
def IsKey (t : TypeTable) (sh : Shape) (k : TypeId) : Prop :=
  (∃ i ∈ sh.indexes, k = i.key ∨ k = .number ∧ i.key = .string) ∨
    ∃ p ∈ sh.properties, t.kind k = p.keyKind

theorem IsKey.mono (h : t.IsKey sh k) (htu : t.Grows u) : u.IsKey sh k := by
  rcases h with h | ⟨p, hp, hk⟩
  · exact .inl h
  · exact .inr ⟨p, hp, htu.kind_eq hk p.keyKind_ne⟩

theorem kind_of_mem_indexable (ht : t.Normal nullChecks) (h : k ∈ indexable) :
    t.kind k = .string ∨ t.kind k = .number ∨ t.kind k = .symbol := by
  simp only [indexable, List.mem_cons, List.not_mem_nil, or_false] at h
  rcases h with rfl | rfl | rfl
  · exact .inl (ht.kind_fixed (i := 5) rfl)
  · exact .inr (.inl (ht.kind_fixed (i := 6) rfl))
  · exact .inr (.inr (ht.kind_fixed (i := 11) rfl))

theorem inUnion_of_mem_indexable (ht : t.Normal nullChecks) (h : k ∈ indexable) :
    (t.kind k).inUnion := by
  rcases kind_of_mem_indexable ht h with hk | hk | hk <;> rw [hk] <;> rfl

/-- A key of members that stand under keys leading back to them may stand in a union. -/
theorem IsKey.inUnion (h : t.IsKey sh k) (ht : t.Normal nullChecks) (hsh : sh.Canonical) :
    (t.kind k).inUnion := by
  rcases h with ⟨i, hi, rfl | ⟨rfl, -⟩⟩ | ⟨p, -, hk⟩
  · exact inUnion_of_mem_indexable ht (hsh.indexes i hi)
  · exact inUnion_of_mem_indexable ht (by decide)
  · rw [hk]
    exact p.inUnion_keyKind

end TypeTable

namespace Typing

open Check TypeTable

variable {ops : Operations} {s : Setting} {c : Checker} {id k : TypeId} {sh : Shape}

/-- The union of types that do not swallow it is a type that opens into what they open into. -/
theorem atoms_run_union (hc : c.table.Normal s.nullChecks) {ids : List TypeId}
    (hids : ∀ id ∈ ids, c.table.Given (.type id) ∧ id ∉ swallowers) :
    let r := ((Check.union ids).run s).run c
    r.2.table.Given (.type r.1) ∧ r.1 ∉ swallowers ∧
      ∀ k ∈ r.2.table.atoms r.1, ∃ id ∈ ids, k ∈ c.table.atoms id := by
  have hgiven : ∀ id ∈ ids, c.table.Given (.type id) := fun id hid => (hids id hid).1
  have hswallow : ∀ id ∈ ids, id ∉ swallowers := fun id hid => (hids id hid).2
  rw [Check.run_union]
  have hkeeps := Stored.keeps_union s.nullChecks ids c.table
  have hr := hkeeps.2 hc
  have hagain := run_union_settled hc hgiven
  refine ⟨given_run_union hc hgiven, not_mem_swallowers_of_run_union hr hagain hswallow,
    fun k hk => ?_⟩
  have hmem := ((mem_atoms_of_run_union hr hagain (swallower?_atomsOf hr hswallow) k).1 hk).mem
  rw [atomsOf_eq_of_given hgiven hkeeps.1] at hmem
  exact List.mem_flatMap.1 hmem

/-- The key of a property is stored with the kind of key that the property stands under. -/
theorem kind_run_propertyKey (p : Property) :
    let r := ((propertyKey p).run s).run c
    r.2.table.kind r.1 = p.keyKind ∧ r.2.shapes = c.shapes := by
  unfold propertyKey Property.keyKind
  cases Double.ofText? p.name with
  | none => exact ⟨kind_run_intern (.stringLiteral p.name) rfl, rfl⟩
  | some d =>
    cases p.numeric with
    | true => exact ⟨kind_run_intern (.numberLiteral d.unsignedZero) rfl, rfl⟩
    | false => exact ⟨kind_run_intern (.stringLiteral p.name) rfl, rfl⟩

theorem kind_of_mem_mapM_propertyKey (ps : List Property) :
    ∀ k ∈ (((ps.mapM propertyKey).run s).run c).1,
      ∃ p ∈ ps, (((ps.mapM propertyKey).run s).run c).2.table.kind k = p.keyKind := by
  refine exists_of_mem_mapM (R := fun t (p : Property) k => t.kind k = p.keyKind) ?_ fun p _ d _ => ?_
  · intro t u p k htu hk
    exact htu.kind_eq hk p.keyKind_ne
  · exact (kind_run_propertyKey p).1

theorem shapes_run_shapeKeys (sh : Shape) : (((shapeKeys sh).run s).run c).2.shapes = c.shapes :=
  (Yields.mapM fun p _ d => ⟨trivial, (kind_run_propertyKey (s := s) (c := d) p).2⟩).2

/-- The keys of an index signature are keys of that member. -/
theorem isKey_of_mem_indexKeys {t : TypeTable}
    (hk : k ∈ sh.indexes.flatMap fun i =>
      if i.key == .string then [TypeId.string, .number] else [i.key]) : t.IsKey sh k := by
  obtain ⟨i, hi, hk⟩ := List.mem_flatMap.1 hk
  refine .inl ⟨i, hi, ?_⟩
  split at hk
  · rename_i hstring
    rw [beq_iff_eq] at hstring
    rcases List.mem_pair.1 hk with rfl | rfl
    · exact .inl hstring.symm
    · exact .inr ⟨rfl, hstring⟩
  · exact .inl (List.mem_singleton.1 hk)

/-- The keys of a shape are keys of its members. -/
theorem isKey_of_shapeKeys (hc : c.table.Normal s.nullChecks) (hsh : sh.Canonical) :
    let r := ((shapeKeys sh).run s).run c
    r.2.table.Given (.type r.1) ∧ r.1 ∉ swallowers ∧
      ∀ k ∈ r.2.table.atoms r.1, r.2.table.IsKey sh k := by
  have ht := ((sh.properties.mapM propertyKey).later s c).keeps.2 hc
  have hnames := kind_of_mem_mapM_propertyKey (s := s) (c := c) sh.properties
  unfold shapeKeys
  rw [run_bind]
  -- the run is put out of sight, so that no step looks into it
  generalize ((sh.properties.mapM propertyKey).run s).run c = names at *
  have hoperand : ∀ k ∈ (sh.indexes.flatMap fun i =>
      if i.key == .string then [.string, .number] else [i.key]) ++ names.1,
      names.2.table.IsKey sh k := by
    intro k hk
    rcases List.mem_append.1 hk with hk | hk
    · exact isKey_of_mem_indexKeys hk
    · exact .inr (hnames k hk)
  generalize (sh.indexes.flatMap fun i =>
    if i.key == .string then [.string, .number] else [i.key]) ++ names.1 = operands at *
  -- each operand stands in the union by itself
  have hin : ∀ k ∈ operands, (names.2.table.kind k).inUnion :=
    fun k hk => (hoperand k hk).inUnion ht hsh
  obtain ⟨hgiven, hswallow, hatoms⟩ := atoms_run_union ht fun k hk =>
    ⟨given_of_inUnion (hin k hk), not_mem_swallowers_of_inUnion ht (hin k hk)⟩
  refine ⟨hgiven, hswallow, fun k hk => ?_⟩
  obtain ⟨operand, hmem, hk⟩ := hatoms k hk
  rw [atoms_of_isAtom (isAtom_of_inUnion (hin operand hmem)), List.mem_singleton] at hk
  rw [hk]
  exact (hoperand operand hmem).mono ((Check.union operands).later s names.2).keeps.1

/-! ## Looking up under a key -/

/-- What stands under the name of a property is found. -/
theorem yields_accessByName {name : String}
    (h : Yields s c (ops.property? id name) (·.isSome)) :
    Yields s c (accessByName ops id name) (·.isOk) :=
  h.bind_some fun _ => Yields.pure rfl

/-- What stands under the key of a member is found. -/
theorem yields_accessKnown (ht : c.table.Normal s.nullChecks) (hholds : Holds s c ops id sh)
    (hsh : sh.Canonical) (hk : c.table.IsKey sh k) :
    Yields s c (accessKnown ops id k) (·.isOk) := by
  unfold accessKnown
  rcases hk with ⟨i, hi, hk⟩ | ⟨p, hp, hk⟩
  · have hmem : k ∈ indexable := by
      rcases hk with rfl | ⟨rfl, -⟩
      · exact hsh.indexes i hi
      · decide
    rcases kind_of_mem_indexable ht hmem with hkind | hkind | hkind
    all_goals
      refine Yields.after (congrArg (·, c) hkind) ?_
      exact (hholds.index i hi k hk).bind_some fun _ => Yields.pure rfl
  · have hname := yields_accessByName (hholds.property p hp)
    rcases p.keyKind_cases with ⟨d, hd⟩ | hd
    · refine Yields.after (congrArg (·, c) (hk.trans hd)) ?_
      rw [← hsh.numeric p hp d hd] at hname
      exact hname
    · exact Yields.after (congrArg (·, c) (hk.trans hd)) hname

/-- Types that members are looked up in, and that do not wait for keys of their own. -/
def isLookedInto : TypeKind → Bool
  | .tuple .. => true
  | k => k.hasMembers

theorem run_mappedAccess? (hid : isLookedInto (c.table.kind id)) (k : TypeId) :
    ((mappedAccess? ops id k).run s).run c = (none, c) := by
  unfold mappedAccess?
  rw [run_kind_bind]
  cases hkind : c.table.kind id with
  | mapped =>
    rw [hkind] at hid
    cases hid
  | _ => rfl

/-- What is found when both types are known, or under each of several keys, is found in any case. -/
theorem yields_access (hid : isLookedInto (c.table.kind id))
    (hunion : ∀ keys, c.table.kind k = .union keys →
      Yields s c (accessUnion (ops.access id ·) keys) (·.isOk))
    (hknown : (c.table.kind k).isUnion = false → Yields s c (accessKnown ops id k) (·.isOk)) :
    Yields s c (access ops id k) (·.isOk) := by
  unfold access
  split
  · exact Yields.pure rfl
  split
  · exact Yields.pure rfl
  refine Yields.after (a := c.table.isDeferred k) rfl ?_
  refine Yields.after (a := c.table.kind k) rfl ?_
  split
  · exact hunion _ (by assumption)
  rename_i hwaits
  refine Yields.after (a := c.table.isDeferred id) rfl ?_
  split
  · -- what has to wait is stored as it stands
    exact Yields.after (run_mappedAccess? hid k) ⟨rfl, rfl⟩
  · rename_i hnow
    rw [Bool.or_eq_true, not_or, Bool.not_eq_true] at hnow
    have hsingle : (c.table.kind k).isUnion = false := by
      cases hk : c.table.kind k with
      | union keys => exact absurd hnow.1 (hwaits keys hk)
      | _ => rfl
    refine Yields.after (a := c.table.kind id) rfl ?_
    split
    · rename_i hk
      rw [hk] at hid
      cases hid
    · exact hknown hsingle

/-- Under an error nothing else is found. -/
theorem yields_access_error (ops : Operations) (id : TypeId) :
    Yields s c (access ops id .error) (·.isOk) := by
  unfold access
  split
  · exact Yields.pure rfl
  · exact Yields.pure rfl

/-- What stands under each of several keys stands under all of them together. -/
theorem yields_accessUnion {ask : TypeId → Check (Except AccessFailure TypeId)} {keys : List TypeId}
    (h : ∀ k ∈ keys, ∀ d : Checker, c.table.Later s.nullChecks d.table → d.shapes = c.shapes →
      Yields s d (ask k) (·.isOk)) :
    Yields s c (accessUnion ask keys) (·.isOk) := by
  have hall : Yields s c (accessAll ask keys) (·.isOk) := by
    induction keys generalizing c with
    | nil => exact Yields.pure rfl
    | cons k keys ih =>
      rw [List.forall_mem_cons] at h
      have hfirst := h.1 c (.refl _) rfl
      have hrest := ih fun l hl d hd hshapes =>
        h.2 l hl d (((ask k).later s c).trans hd) (hshapes.trans hfirst.2)
      exact hfirst.bind_ok fun t => hrest.bind_ok fun ts => Yields.pure rfl
  exact hall.bind_ok fun ts => Yields.bind (P := fun _ => True) ⟨trivial, rfl⟩ fun _ => Yields.pure rfl

/-! ## Keys of types -/

/-- The keys of a type with members of its own are those of its members. -/
theorem run_keysOf_of_hasMembers (hk : (c.table.kind id).hasMembers) :
    ((keysOf ops.next id).run s).run c =
      ((shape? ops id >>= fun found => found.elim (pure .never) shapeKeys).run s).run c := by
  have hself : ((ops.next.apparent id).run s).run c = (id, c) := run_apparent_of_hasMembers hk
  have hshape : ops.next.shape? = shape? ops := rfl
  unfold keysOf
  rw [run_kind_bind]
  cases hkind : c.table.kind id with
  | interface | written | computed | functionValue =>
    dsimp only
    rw [run_bind, hself, hshape, run_bind, run_bind]
    cases (((shape? ops id).run s).run c).1 <;> rfl
  | _ =>
    rw [hkind] at hk
    cases hk

theorem run_keysOf_of_hasShape (ops : Operations) (hk : (c.table.kind id).hasMembers)
    (h : c.HasShape id sh) :
    ((keysOf ops.next id).run s).run c = ((shapeKeys sh).run s).run c := by
  rw [run_keysOf_of_hasMembers hk, run_bind, run_shape?_of_hasShape h]
  rfl

/-- The keys of a type with members of its own are the keys of members that are known by then. -/
theorem isKey_of_keysOf (ops : Operations) (id : TypeId) (hc : c.table.Normal s.nullChecks)
    (hk : (c.table.kind id).hasMembers) :
    let r := ((keysOf ops.next id).run s).run c
    ∃ sh, (r.2.HasShape id sh ∨ sh = {}) ∧ (sh.Canonical → r.2.table.Given (.type r.1) ∧
      r.1 ∉ swallowers ∧ ∀ k ∈ r.2.table.atoms r.1, r.2.table.IsKey sh k) := by
  intro r
  let found := ((shape? ops id).run s).run c
  have ht : found.2.table.Normal s.nullChecks := ((shape? ops id).later s c).keeps.2 hc
  have hrun : r = ((found.1.elim (pure .never) shapeKeys).run s).run found.2 :=
    run_keysOf_of_hasMembers hk
  cases hfound : found.1 with
  | none =>
    rw [hfound] at hrun
    have hnever : found.2.table.kind .never = .never := ht.kind_fixed (i := 13) rfl
    refine ⟨{}, .inr rfl, fun _ => ?_⟩
    rw [hrun]
    refine ⟨given_of_get? (ht.fixed 13 _ rfl), show TypeId.never ∉ swallowers by decide,
      fun k hk => ?_⟩
    have hk : k ∈ found.2.table.atoms .never := hk
    rw [atoms, hnever] at hk
    cases hk
  | some sh =>
    rw [hfound] at hrun
    have hrun : r = ((shapeKeys sh).run s).run found.2 := hrun
    refine ⟨sh, ?_, fun hsh => hrun ▸ isKey_of_shapeKeys ht hsh⟩
    refine (hasShape_of_run_shape? hfound).imp_left fun hshape => ?_
    rw [hrun]
    exact hshape.mono ((shapeKeys sh).later s _).keeps.1 (shapes_run_shapeKeys sh)

/-! ## Keys of tuples -/

/-- A type is the number of a place at which a tuple has an element. -/
def IsPlace (t : TypeTable) (es : List TupleElement) (k : TypeId) : Prop :=
  ∃ n, t.kind k = .stringLiteral (Text.radixDigits 10 n) ∧ ∃ e, es[n]? = some e ∧ e.kind.isFixed

variable {es : List TupleElement} {readonly : Bool} {t u : TypeTable}

theorem IsPlace.mono (h : IsPlace t es k) (htu : t.Grows u) : IsPlace u es k := by
  obtain ⟨n, hk, he⟩ := h
  exact ⟨n, htu.kind_eq hk (by simp), he⟩

theorem IsPlace.inUnion (h : IsPlace t es k) : (t.kind k).inUnion := by
  obtain ⟨n, hk, -⟩ := h
  rw [hk]
  rfl

theorem isPlace_of_tupleKeys (es : List TupleElement) :
    ∀ k ∈ (((tupleKeys es).run s).run c).1, IsPlace (((tupleKeys es).run s).run c).2.table es k := by
  intro k hk
  obtain ⟨n, hn, hplace⟩ := exists_of_mem_mapM
    (R := fun t n k => t.kind k = .stringLiteral (Text.radixDigits 10 n))
    (fun htu hk => htu.kind_eq hk (by simp))
    (fun n _ _ _ => kind_run_intern (.stringLiteral (Text.radixDigits 10 n)) rfl) k hk
  rw [List.mem_range] at hn
  have hlt : n < es.length := Nat.lt_of_lt_of_le hn (List.takeWhile_prefix _).length_le
  have hmem := List.getElem_mem hn
  rw [(List.takeWhile_prefix (·.kind.isFixed) (l := es)).getElem hn] at hmem
  exact ⟨n, hplace, es[n], List.getElem?_eq_getElem hlt,
    List.mem_takeWhile_imp (p := fun e : TupleElement => e.kind.isFixed) hmem⟩

theorem run_keysOf_error (ops : Operations) (hc : c.table.Normal s.nullChecks) :
    ((keysOf ops .error).run s).run c = (.error, c) := by
  have hkind : c.table.kind .error = .error := hc.kind_fixed (i := 1) rfl
  unfold keysOf
  rw [run_kind_bind, hkind]
  rfl

/-- A union with an error in it is an error. -/
theorem run_union_error (hc : c.table.Normal s.nullChecks) (ids : List TypeId) :
    (((Check.union (ids ++ [.error])).run s).run c).1 = .error := by
  have hkind : c.table.kind .error = .error := hc.kind_fixed (i := 1) rfl
  have hmem : TypeId.error ∈ c.table.atomsOf (ids ++ [.error]) := by
    refine List.mem_flatMap.2 ⟨.error, List.mem_append_right _ List.mem_cons_self, ?_⟩
    rw [atoms, hkind]
    exact List.mem_cons_self
  rw [Check.run_union, TypeTable.run_union hc,
    show swallower? (c.table.atomsOf (ids ++ [.error])) = some .error from if_pos hmem]

theorem run_keysOf_tuple (hk : c.table.kind id = .tuple es readonly) :
    ((keysOf ops.next.next id).run s).run c =
      ((tupleKeys es >>= fun places => arrayOfTuple ops.next.next es readonly >>= fun array =>
        keysOf ops.next array >>= fun rest => Check.union (places ++ [rest])).run s).run c := by
  unfold keysOf
  rw [run_kind_bind, hk]
  rfl

/-- The keys of a tuple are the numbers of its places and the keys of its array. -/
theorem isKey_of_keysOf_tuple (ops : Operations) (hc : c.table.Normal s.nullChecks)
    (hk : c.table.kind id = .tuple es readonly) (h : ∀ e ∈ es, e.kind ≠ .variadic)
    (hes : ∀ e ∈ es, c.table.Given (.type e.type)) :
    let r := ((keysOf ops.next.next id).run s).run c
    ∃ array, (∀ (ops : Operations) (d : Checker), r.2.table.Later s.nullChecks d.table →
        ((arrayOfTuple ops es readonly).run s).run d = (array, d)) ∧
      (r.1 = .error ∨ (r.2.table.kind array).hasMembers ∧
        ∃ sh, (r.2.HasShape array sh ∨ sh = {}) ∧ (sh.Canonical → r.2.table.Given (.type r.1) ∧
          ∀ k ∈ r.2.table.atoms r.1, r.2.table.IsKey sh k ∨ IsPlace r.2.table es k)) := by
  rw [run_keysOf_tuple hk, run_bind, run_bind, run_bind]
  have hplaces := (tupleKeys es).later s c
  have hplace := isPlace_of_tupleKeys (s := s) (c := c) es
  generalize ((tupleKeys es).run s).run c = places at *
  have ht₁ := hplaces.keeps.2 hc
  have harray := (arrayOfTuple ops.next.next es readonly).later s places.2
  have hsettles : Settles s places.2 (arrayOfTuple ops.next.next es readonly) :=
    settles_arrayOfTuple ht₁ h fun e he => (hes e he).mono hplaces.keeps.1
  unfold Settles at hsettles
  have hcases := arrayOfTuple_cases (s := s) (c := places.2) ops.next.next es readonly
  generalize ((arrayOfTuple ops.next.next es readonly).run s).run places.2 = array at *
  have ht₂ := harray.keeps.2 ht₁
  have hrest := (keysOf ops.next array.1).later s array.2
  have hkeys := isKey_of_keysOf ops array.1 ht₂
  have herrors := run_keysOf_error ops.next ht₂
  have harrays : array.1 = .error →
      ((keysOf ops.next array.1).run s).run array.2 = (.error, array.2) :=
    fun herror => by rw [herror, herrors]
  generalize ((keysOf ops.next array.1).run s).run array.2 = rest at *
  have ht := hrest.keeps.2 ht₂
  have hunion := (Check.union (places.1 ++ [rest.1])).later s rest.2
  refine ⟨array.1, fun ops' d hd => ?_, ?_⟩
  · rw [arrayOfTuple_eq h ops' ops.next.next]
    exact hsettles d (hrest.trans (hunion.trans hd))
  rcases hcases with herror | hmembers
  · -- without arrays the keys are an error
    rw [harrays herror]
    exact .inl (run_union_error ht₂ places.1)
  obtain ⟨sh, hshape, hkeys⟩ := hkeys hmembers
  have hgrows := hunion.keeps.1
  refine .inr ⟨?_, sh, hshape.imp_left fun h => h.mono hgrows (by rw [Check.run_union]), fun hsh => ?_⟩
  · rwa [(hrest.keeps.1.trans hgrows).kind_eq_of (p := TypeKind.hasMembers) rfl hmembers]
  obtain ⟨hrestGiven, hrestSwallow, hatoms⟩ := hkeys hsh
  have hplace : ∀ k ∈ places.1, IsPlace rest.2.table es k := fun k hk =>
    (hplace k hk).mono (harray.keeps.1.trans hrest.keeps.1)
  have hoperands : ∀ k ∈ places.1 ++ [rest.1],
      rest.2.table.Given (.type k) ∧ k ∉ swallowers := by
    intro k hk
    rcases List.mem_append.1 hk with hk | hk
    · exact ⟨given_of_inUnion (hplace k hk).inUnion,
        not_mem_swallowers_of_inUnion ht (hplace k hk).inUnion⟩
    · exact List.mem_singleton.1 hk ▸ ⟨hrestGiven, hrestSwallow⟩
  obtain ⟨hgiven, -, hunited⟩ := atoms_run_union ht hoperands
  refine ⟨hgiven, fun k hk => ?_⟩
  obtain ⟨operand, hmem, hk⟩ := hunited k hk
  rcases List.mem_append.1 hmem with hmem | hmem
  · rw [atoms_of_isAtom (isAtom_of_inUnion (hplace operand hmem).inUnion),
      List.mem_singleton] at hk
    exact .inr (hk ▸ (hplace operand hmem).mono hgrows)
  · rw [List.mem_singleton.1 hmem] at hk
    exact .inl ((hatoms k hk).mono hgrows)

/-- The element at a place of a tuple is found under the number of the place, if that is no larger than
numbers can be. -/
theorem yields_accessKnown_place (hid : c.table.kind id = .tuple es readonly)
    (hlength : es.length ≤ Nat.pow 2 64) (hk : IsPlace c.table es k) :
    Yields s c (accessKnown ops.next id k) (·.isOk) := by
  obtain ⟨n, hk, e, he, hfixed⟩ := hk
  have hn : n < Nat.pow 2 64 :=
    Nat.lt_of_lt_of_le (List.getElem?_eq_some_iff.1 he).1 hlength
  have hplace : ((placeOf? (Text.radixDigits 10 n)).bind (es[·]?)).filter (·.kind.isFixed) =
      some e := by
    rw [placeOf?_radixDigits hn, Option.bind_some, he]
    exact Option.filter_eq_some_iff.2 ⟨rfl, hfixed⟩
  unfold accessKnown
  refine Yields.after (congrArg (·, c) hk) (yields_accessByName ?_)
  exact Yields.after (congrArg (·, c) hid) (yields_tupleProperty?_of_place hplace)

/-! ## The keys lead to something -/

/-- If each key leads to something at any later time, so do all of them together. -/
theorem yields_access_atoms (ht : c.table.Normal s.nullChecks) (hid : isLookedInto (c.table.kind id))
    {key : TypeId}
    (h : ∀ k ∈ c.table.atoms key, ∀ (ops : Operations) (d : Checker),
      c.table.Later s.nullChecks d.table → d.shapes = c.shapes →
      Yields s d (accessKnown ops.next.next.next id k) (·.isOk)) (ops : Operations) :
    (∀ k ∈ c.table.atoms key, Yields s c (access ops.next.next.next id k) (·.isOk)) ∧
      Yields s c (access ops.next.next.next.next id key) (·.isOk) := by
  have hsingle : ∀ k ∈ c.table.atoms key, ∀ d : Checker, c.table.Later s.nullChecks d.table →
      d.shapes = c.shapes → Yields s d (access ops.next.next.next id k) (·.isOk) := by
    intro k hk d hd hshapes
    have hinto : isLookedInto (d.table.kind id) := by
      rwa [hd.keeps.1.kind_eq_of (p := isLookedInto) rfl hid]
    obtain ⟨hunion, -⟩ := isAtom_of_mem_atoms ht hk
    refine yields_access hinto (fun keys hkeys => ?_) fun _ => h k hk ops d hd hshapes
    have hkind : d.table.kind k = c.table.kind k := by
      refine hd.keeps.1.kind_eq rfl fun hempty => ?_
      rw [hempty] at hunion
      cases hunion
    rw [← hkind, hkeys] at hunion
    cases hunion
  refine ⟨fun k hk => hsingle k hk c (.refl _) rfl, yields_access hid (fun keys hkeys => ?_) ?_⟩
  · refine yields_accessUnion fun k hk d hd hshapes => hsingle k ?_ d hd hshapes
    rwa [atoms, hkeys]
  · intro hunion
    by_cases hnever : c.table.kind key = .never
    · exact Yields.after (congrArg (·, c) hnever) ⟨rfl, rfl⟩
    · refine h key ?_ ops.next c (.refl _) rfl
      rw [atoms_of_isAtom ⟨hunion, hnever⟩]
      exact List.mem_singleton_self key

/-- The type that the members of a type are looked up in: of a tuple it is its array. -/
def memberType (ops : Operations) (id : TypeId) : Check TypeId := do
  match ← kind id with
  | .tuple elements readonly => arrayOfTuple ops elements readonly
  | _ => return id

theorem run_memberType_of_hasMembers (ops : Operations) (hk : (c.table.kind id).hasMembers) :
    ((memberType ops id).run s).run c = (id, c) := by
  unfold memberType
  rw [run_kind_bind]
  cases hkind : c.table.kind id with
  | tuple =>
    rw [hkind] at hk
    cases hk
  | _ => rfl

/-- A type with members of its own, or a tuple of known elements, no more than there are numbers. -/
def HasKeys (t : TypeTable) (id : TypeId) : Prop :=
  (t.kind id).hasMembers ∨ ∃ es readonly, t.kind id = .tuple es readonly ∧
    es.length ≤ Nat.pow 2 64 ∧ ∀ e ∈ es, e.kind ≠ .variadic ∧ t.Given (.type e.type)

theorem HasKeys.isLookedInto (h : HasKeys t id) : isLookedInto (t.kind id) := by
  rcases h with h | ⟨es, readonly, h, -⟩
  · cases hk : t.kind id with
    | interface | written | computed | functionValue | tuple => rfl
    | _ =>
      rw [hk] at h
      cases h
  · rw [h]
    rfl

/-- Each key of a type leads to something, now and later, unless the keys are an error. -/
theorem yields_accessKnown_keysOf (hc : c.table.Normal s.nullChecks) (hid : HasKeys c.table id)
    (ops ops' : Operations) :
    let r := ((keysOf ops.next.next id).run s).run c
    (∀ sh, r.2.HasShape (((memberType ops' id).run s).run r.2).1 sh → sh.Canonical) →
      r.1 = .error ∨ ∀ k ∈ r.2.table.atoms r.1, ∀ (ops : Operations) (d : Checker),
        r.2.table.Later s.nullChecks d.table → d.shapes = r.2.shapes →
        Yields s d (accessKnown ops.next.next.next id k) (·.isOk) := by
  intro r hcanonical
  have hlater := (keysOf ops.next.next id).later s c
  have hr : r.2.table.Normal s.nullChecks := hlater.keeps.2 hc
  rcases hid with hid | ⟨es, readonly, hid, hlength, hes⟩
  · have hid' : (r.2.table.kind id).hasMembers := by
      rwa [hlater.keeps.1.kind_eq_of (p := TypeKind.hasMembers) rfl hid]
    have hself := run_memberType_of_hasMembers (s := s) ops' hid'
    obtain ⟨sh, hshape, hkeys⟩ := isKey_of_keysOf ops.next id hc hid
    have hsh : sh.Canonical := by
      rcases hshape with hshape | rfl
      · exact hcanonical sh (by rwa [hself])
      · exact Shape.canonical_empty
    refine .inr fun k hk ops d hd hshapes => ?_
    have hmembers : (d.table.kind id).hasMembers := by
      rwa [hd.keeps.1.kind_eq_of (p := TypeKind.hasMembers) rfl hid']
    have hholds : Holds s d ops.next.next.next id sh :=
      holds_of_hasShape hmembers (hshape.imp_left fun h => h.mono hd.keeps.1 hshapes)
    exact yields_accessKnown (hd.keeps.2 hr) hholds hsh (((hkeys hsh).2.2 k hk).mono hd.keeps.1)
  · have htuple : r.2.table.kind id = .tuple es readonly := hlater.keeps.1.kind_eq hid (by simp)
    obtain ⟨array, harray, hkeys⟩ := isKey_of_keysOf_tuple ops hc hid
      (fun e he => (hes e he).1) fun e he => (hes e he).2
    have hholder : ((memberType ops' id).run s).run r.2 = (array, r.2) := by
      unfold memberType
      rw [run_kind_bind, htuple]
      exact harray ops' r.2 (.refl _)
    rcases hkeys with herror | ⟨hmembers, sh, hshape, hkeys⟩
    · exact .inl herror
    refine .inr fun k hk ops d hd hshapes => ?_
    have hsh : sh.Canonical := by
      rcases hshape with hshape | rfl
      · exact hcanonical sh (by rwa [hholder])
      · exact Shape.canonical_empty
    have htuple' : d.table.kind id = .tuple es readonly := hd.keeps.1.kind_eq htuple (by simp)
    rcases (hkeys hsh).2 k hk with hkey | hplace
    · have hmembers' : (d.table.kind array).hasMembers := by
        rwa [hd.keeps.1.kind_eq_of (p := TypeKind.hasMembers) rfl hmembers]
      have hholds : Holds s d ops.next.next array sh :=
        holds_of_hasShape hmembers' (hshape.imp_left fun h => h.mono hd.keeps.1 hshapes)
      exact yields_accessKnown (hd.keeps.2 hr)
        (holds_tuple htuple' (fun e he => (hes e he).1) (harray _ d hd) hholds) hsh
        (hkey.mono hd.keeps.1)
    · exact yields_accessKnown_place htuple' hlength (hplace.mono hd.keeps.1)

/-- What a type holds under its keys can be looked up. In every state that a check can reach, for every
interface, written, computed or function type and every tuple type of known elements: if the members of
the type, those of its array if it is a tuple, stand under keys that lead back to them, then under each
of its keys, and under all of them together, the type is found to hold something. -/
theorem access_keysOf (hc : c.Reachable s) (hid : HasKeys c.table id) :
    let ops := Operations.standard
    let r := ((ops.keysOf id).run s).run c
    let members := (((memberType ops id).run s).run r.2).1
    (∀ sh, r.2.HasShape members sh → sh.Canonical) →
      (∀ k ∈ r.2.table.atoms r.1, (((ops.access id k).run s).run r.2).1.isOk) ∧
        (((ops.access id r.1).run s).run r.2).1.isOk := by
  intro ops r members hcanonical
  have hlater := (ops.keysOf id).later s c
  have hr : r.2.table.Normal s.nullChecks := hlater.keeps.2 hc.normal
  rcases yields_accessKnown_keysOf hc.normal hid (Operations.level 9997) ops hcanonical with
    herror | hkeys
  · have herror : r.1 = .error := herror
    have hkind : r.2.table.kind .error = .error := hr.kind_fixed (i := 1) rfl
    have hok := (yields_access_error (s := s) (c := r.2) (Operations.level 9999) id).1
    rw [herror, atoms, hkind]
    exact ⟨fun k hk => List.mem_singleton.1 hk ▸ hok, hok⟩
  · have hinto : isLookedInto (r.2.table.kind id) := by
      rw [hlater.keeps.1.kind_eq_of (p := isLookedInto) rfl hid.isLookedInto]
      exact hid.isLookedInto
    exact ⟨fun k hk => ((yields_access_atoms hr hinto hkeys (Operations.level 9996)).1 k hk).1,
      ((yields_access_atoms hr hinto hkeys (Operations.level 9995)).2).1⟩

/-- An object with a property and an index signature for numbers holds something under both. -/
theorem access_keysOf_record :
    let s := Setting.strict
    let sh : Shape :=
      { properties := [{ name := "a", type := .string }], indexes := [⟨.number, .string, false⟩] }
    let made := ((Check.objectOf sh).run s).run {}
    let ops := Operations.standard
    let r := ((ops.keysOf made.1).run s).run made.2
    let members := (((memberType ops made.1).run s).run r.2).1
    made.2.Reachable s ∧ HasKeys made.2.table made.1 ∧
      (∀ sh, r.2.HasShape members sh → sh.Canonical) ∧
      (∀ k ∈ r.2.table.atoms r.1, (((ops.access made.1 k).run s).run r.2).1.isOk) ∧
      (((ops.access made.1 r.1).run s).run r.2).1.isOk := by
  intro s sh made ops r members
  have hreach : made.2.Reachable s := .step _ .start
  obtain ⟨hmembers, hshape⟩ := hasShape_run_objectOf (s := s) (c := {}) sh
  have hshape : made.2.HasShape made.1 sh := hshape Std.HashMap.getElem?_empty
  have hid : HasKeys made.2.table made.1 := .inl hmembers
  have hcanonical : ∀ sh, r.2.HasShape members sh → sh.Canonical := by
    have hlater := (ops.keysOf made.1).later s made.2
    have hmembers' : (r.2.table.kind made.1).hasMembers := by
      rwa [hlater.keeps.1.kind_eq_of (p := TypeKind.hasMembers) rfl hmembers]
    have hshapes : r.2.shapes = made.2.shapes := by
      have hrun : r = ((shapeKeys sh).run s).run made.2 :=
        run_keysOf_of_hasShape (Operations.level 9998) hmembers hshape
      rw [hrun, shapes_run_shapeKeys]
    intro sh' hsh'
    have hself := run_memberType_of_hasMembers (s := s) ops hmembers'
    rw [show members = made.1 from (Prod.ext_iff.1 hself).1] at hsh'
    rw [hasShape_unique hsh' (hshape.mono hlater.keeps.1 hshapes)]
    refine ⟨by simp [sh, indexable], fun p hp d hd => ?_⟩
    -- the name is not written as a number
    rw [List.mem_singleton.1 hp, Property.keyKind] at hd
    split at hd <;> cases hd
  exact ⟨hreach, hid, hcanonical, access_keysOf hreach hid hcanonical⟩

end Typing

end DeclKit

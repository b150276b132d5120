/-
Type operators: intersections, keys and indexed access.

An operator is worked out as soon as its operands are known, and is stored as it stands while they
wait for a substitution.
-/
import DeclKit.Text.PropertyName
import DeclKit.Typing.Members

set_option autoImplicit false

namespace DeclKit

namespace Typing

open Check

/-- A written or computed object type without members. -/
def isEmptyObject (ops : Operations) (id : TypeId) : Check Bool := do
  match ← kind id with
  | .written .. | .computed _ => return (← ops.shape? id).any (·.isEmpty)
  | _ => return false

/-- The empty object types among members, when other object types stand beside them. -/
def emptyObjects (ops : Operations) (members : List TypeId) : Check (List TypeId) := do
  let t ← table
  let objects := (members.filter fun m => t.isObjectLike m || m == .object).length
  if objects ≤ 1 then return []
  let empty ← members.filterM (isEmptyObject ops)
  return if empty.length < objects then empty else []

section

variable (ops : Operations) {s : Setting} {c : Checker} {t : TypeTable} {ms : List TypeId}

/-- Unless it was computed, a type is an empty object type if it is written without members. -/
theorem isHollow_of_isEmptyObject {id : TypeId} (hc : c.Faithful s.nullChecks) (ht : c.Tidy s)
    (hcomputed : c.table.isComputed id = false) :
    let r := ((isEmptyObject ops id).run s).run c
    r.2.depthReported = false → r.1 = c.table.isHollow s.program id := by
  intro r
  have hrun : r = ((Check.run (match c.table.kind id with
      | .written .. | .computed _ => do return (← ops.shape? id).any (·.isEmpty)
      | _ => return false : Check Bool) s).run c) := rfl
  rw [hrun, TypeTable.isHollow]
  cases hk : c.table.kind id with
  | written decl m => exact fun hd => (ops.tells id s c hc ht hd).hollow decl m hk
  | computed i =>
    rw [TypeTable.isComputed, hk] at hcomputed
    cases hcomputed
  | _ => exact fun _ => rfl

theorem isHollow_of_isComputed {p : Program} {id : TypeId} (h : t.isComputed id = true) :
    t.isHollow p id = false := by
  unfold TypeTable.isComputed at h
  unfold TypeTable.isHollow
  split at h
  · rename_i hk
    rw [hk]
  · cases h

/-- Of the members that were not computed those that are written without members are found. By induction
on the members that are left; `found` are those found before. -/
theorem exists_filterAuxM_isEmptyObject (htc : t.Grows c.table) (hc : c.Faithful s.nullChecks)
    (ht : c.Tidy s) (hplain : ∀ m ∈ ms, (t.kind m).inIntersection) (found : List TypeId) :
    let r := ((ms.filterAuxM (isEmptyObject ops) found).run s).run c
    ∃ empty : List TypeId, r.1 = empty.reverse ++ found ∧ empty.Sublist ms ∧ (r.2.depthReported = false →
      (empty.filter fun m => !t.isComputed m) = ms.filter (t.isHollow s.program)) := by
  induction ms generalizing c found with
  | nil => exact ⟨[], rfl, .slnil, fun _ => rfl⟩
  | cons m ms ih =>
    let x := isEmptyObject ops m
    let first := (x.run s).run c
    have hm := hplain m List.mem_cons_self
    have hkind : c.table.kind m = t.kind m := htc.kind_eq_of rfl hm
    obtain ⟨empty, hr, hsub, hhollow⟩ := ih (htc.trans (x.later s c).keeps.1) (x.faithful s c hc)
      (x.tidy s c hc ht) (fun m' hm' => hplain m' (List.mem_cons_of_mem m hm'))
      (cond first.1 (m :: found) found)
    have hquiet := (((ms.filterAuxM (isEmptyObject ops) (cond first.1 (m :: found) found)).retains s
      first.2).quiet)
    have hfirst : t.isComputed m = false → first.2.depthReported = false →
        first.1 = t.isHollow s.program m := by
      intro hcomputed hd
      rw [TypeTable.isHollow, ← hkind, ← TypeTable.isHollow]
      refine isHollow_of_isEmptyObject ops hc ht ?_ hd
      rw [TypeTable.isComputed, hkind, ← TypeTable.isComputed, hcomputed]
    refine ⟨cond first.1 (m :: empty) empty, ?_, ?_, fun hd => ?_⟩
    · show (((ms.filterAuxM (isEmptyObject ops) (cond first.1 (m :: found) found)).run s).run first.2).1 = _
      rw [hr]
      cases first.1 with
      | false => rfl
      | true => rw [cond_true, cond_true, List.reverse_cons, List.append_assoc, List.singleton_append]
    · cases first.1 with
      | false => exact hsub.cons m
      | true => exact hsub.cons_cons m
    · rw [List.filter_cons, ← hhollow hd]
      cases hm : t.isComputed m with
      | true =>
        rw [isHollow_of_isComputed hm]
        cases first.1 with
        | false => rfl
        | true => rw [cond_true, List.filter_cons, hm]; rfl
      | false =>
        rw [← hfirst hm (hquiet hd)]
        cases first.1 with
        | false => rfl
        | true => rw [cond_true, List.filter_cons, hm]; rfl

/-- The empty object types that are found among members. -/
theorem exists_emptyObjects (hc : c.Faithful s.nullChecks) (ht : c.Tidy s)
    (hplain : ∀ m ∈ ms, (c.table.kind m).inIntersection) :
    let r := ((emptyObjects ops ms).run s).run c
    let objects := (ms.filter fun m => c.table.isObjectLike m || m == .object).length
    r.2.depthReported = false → ∃ empty : List TypeId, empty.Sublist ms ∧
      (empty.filter fun m => !c.table.isComputed m) = ms.filter (c.table.isHollow s.program) ∧
      r.1 = if 1 < objects ∧ empty.length < objects then empty else [] := by
  intro r objects
  have hrun : r = ((Check.run (if objects ≤ 1 then return [] else do
      let empty ← ms.filterM (isEmptyObject ops)
      return if empty.length < objects then empty else [] : Check (List TypeId)) s).run c) := rfl
  rw [hrun]
  split
  · rename_i hone
    refine fun _ => ⟨ms.filter (c.table.isHollow s.program), List.filter_sublist, ?_, ?_⟩
    · rw [List.filter_filter]
      refine List.filter_congr fun m _ => ?_
      cases hm : c.table.isComputed m with
      | false => rfl
      | true => rw [isHollow_of_isComputed hm]; rfl
    · rw [if_neg fun h => Nat.not_lt.2 hone h.1]
      rfl
  · rename_i hmany
    obtain ⟨empty, hfound, hsub, hhollow⟩ :=
      exists_filterAuxM_isEmptyObject ops (.refl c.table) hc ht hplain []
    refine fun hd => ⟨empty, hsub, hhollow hd, ?_⟩
    have hempty : (((ms.filterM (isEmptyObject ops)).run s).run c).1 = empty := by
      show (((ms.filterAuxM (isEmptyObject ops) []).run s).run c).1.reverse = empty
      rw [hfound, List.append_nil, List.reverse_reverse]
    show (if (((ms.filterM (isEmptyObject ops)).run s).run c).1.length < objects then
      (((ms.filterM (isEmptyObject ops)).run s).run c).1 else []) = _
    rw [hempty]
    simp only [Nat.lt_of_not_le hmany, true_and]

/-- Without computed object types among the members these are those that are superfluous. -/
theorem emptyObjects_eq_superfluous (hc : c.Faithful s.nullChecks) (ht : c.Tidy s)
    (hplain : ∀ m ∈ ms, (c.table.kind m).inIntersection)
    (hcomputed : ∀ m ∈ ms, c.table.isComputed m = false) :
    let r := ((emptyObjects ops ms).run s).run c
    r.2.depthReported = false → r.1 = c.table.superfluous s.program ms := by
  intro r hd
  obtain ⟨empty, hsub, hhollow, hr⟩ := exists_emptyObjects ops hc ht hplain hd
  have hempty : empty = ms.filter (c.table.isHollow s.program) := by
    rw [← hhollow]
    refine (List.filter_eq_self.2 fun m hm => ?_).symm
    rw [hcomputed m (hsub.subset hm)]
    rfl
  rw [show r.1 = _ from hr, hempty]
  rfl

/-- What is left of an intersection without its empty object types has none that are superfluous. -/
theorem trims_emptyObjects (ops : Operations) (ms : List TypeId) : (emptyObjects ops ms).Trims ms := by
  intro s c hc ht hplain hd hcomputed
  obtain ⟨empty, -, hhollow, hr⟩ := exists_emptyObjects ops hc ht hplain hd
  by_cases hdrop : 1 < (ms.filter fun m => c.table.isObjectLike m || m == .object).length ∧
      empty.length < (ms.filter fun m => c.table.isObjectLike m || m == .object).length
  · rw [if_pos hdrop] at hr
    rw [hr] at hcomputed ⊢
    -- all that is superfluous has been dropped
    have hnone : (ms.filter fun m => !empty.contains m).filter (c.table.isHollow s.program) = [] := by
      rw [List.filter_eq_nil_iff]
      intro m hm hempty
      obtain ⟨hms, hkept⟩ := List.mem_filter.1 hm
      have hmem : m ∈ empty.filter fun m => !c.table.isComputed m :=
        hhollow ▸ List.mem_filter.2 ⟨hms, hempty⟩
      rw [Bool.not_eq_true', List.contains_eq_mem, decide_eq_false_iff_not] at hkept
      exact hkept (List.mem_filter.1 hmem).1
    rw [TypeTable.superfluous, hnone]
    exact ite_self _
  · rw [if_neg hdrop] at hr
    have hkept : (ms.filter fun m => !(((emptyObjects ops ms).run s).run c).1.contains m) = ms := by
      rw [hr]
      exact List.filter_eq_self.2 fun m _ => rfl
    rw [hkept] at hcomputed ⊢
    exact (emptyObjects_eq_superfluous ops hc ht hplain hcomputed hd).symm.trans hr

end

/-- The intersection of types, given the intersections that it asks for: a union among the types is
multiplied out. -/
def intersectionStep (ops : Operations) (inner : List TypeId → Check TypeId) (ids : List TypeId) :
    Check TypeId :=
  Check.intersection ids (fun s => do union (← s.members.mapM fun v => inner (s.withPart v)))
    (emptyObjects ops) (trims_emptyObjects ops)

/-- The intersection of types. -/
def intersection (ops : Operations) : List TypeId → Check TypeId :=
  intersectionStep ops ops.intersection

/-! ## Keys -/

/-- The types of all keys. -/
def allKeys : Check TypeId := union [.string, .number, .symbol]

/-- The key that a property stands under. -/
def propertyKey (p : Property) : Check TypeId :=
  match Double.ofText? p.name with
  | some d => if p.numeric then numberLiteral d else stringLiteral p.name
  | none => stringLiteral p.name

/-- The keys of a shape. A string index can be used with numbers too. -/
def shapeKeys (s : Shape) : Check TypeId := do
  let indexKeys := s.indexes.flatMap fun i => if i.key == .string then [.string, .number] else [i.key]
  let names ← s.properties.mapM propertyKey
  union (indexKeys ++ names)

/-- A mapped type as written. -/
structure MappedParts where
  file : SourceId
  key : SymbolId
  constraint : Option Node
  nameType : Option Node
  template : Option Node
  readonly : Option MappedModifier
  optional : Option MappedModifier

/-- The parts of a mapped type. -/
def mappedParts? (p : Program) (decl : NodeKey) : Option MappedParts := do
  let n ← (p.node? decl).filter (·.kind == .mappedType)
  let param ← n.child? .mappedTypeParam
  let key ← p.paramOf? decl.file param
  return {
    file := decl.file, key
    constraint := param.typeAt? 0
    nameType := param.typeAt? 1
    template := n.annotatedType?
    readonly := n.readonlyModifier
    optional := n.optionalModifier }

/-- The keys of a mapped type that waits: what its keys run through, unless they are renamed. -/
def mappedKeys (ops : Operations) (id : TypeId) (decl : NodeKey) (m : Option MapperId) :
    Check TypeId := do
  match (mappedParts? (← program) decl).filter (·.nameType.isNone) with
  | some parts => ops.instantiate (← ops.typeOf? parts.file parts.constraint) m
  | none => intern (.keys id)

/-- The numbers of the first elements of a tuple, up to one that can be repeated. -/
def tupleKeys (elements : List TupleElement) : Check (List TypeId) :=
  (List.range (elements.takeWhile (·.kind.isFixed)).length).mapM fun i =>
    stringLiteral (Text.radixDigits 10 i)

/-- The keys of a type. -/
def keysOf (ops : Operations) (id : TypeId) : Check TypeId := do
  match ← kind id with
  | .any | .never => allKeys
  | .error => return .error
  | .unknown | .null | .undefined | .void | .anyObject => return .never
  | .union members => ops.intersection (← members.mapM ops.keysOf)
  | .intersection members => union (← members.mapM ops.keysOf)
  | .mapped decl m => mappedKeys ops id decl m
  | .param _ | .keys _ | .access .. | .conditional .. => intern (.keys id)
  | .tuple elements readonly =>
    let places ← tupleKeys elements
    let rest ← ops.keysOf (← arrayOfTuple ops elements readonly)
    union (places ++ [rest])
  | _ =>
    match ← ops.shape? (← ops.apparent id) with
    | some s => shapeKeys s
    | none => return .never

/-! ## Indexed access -/

/-- What a type holds under a name. -/
def accessByName (ops : Operations) (object : TypeId) (name : String) :
    Check (Except AccessFailure TypeId) := do
  match ← ops.property? object name with
  | some p => return .ok p.type
  | none =>
    let key : TypeId := if Text.isNumericName name then .number else .string
    match ← ops.index? object key with
    | some i => return .ok i.type
    | none => return .error (.missingProperty name)

/-- Accesses for several operands; the first failure counts. -/
def accessAll (ask : TypeId → Check (Except AccessFailure TypeId)) :
    List TypeId → Check (Except AccessFailure (List TypeId))
  | [] => return .ok []
  | t :: ts => do
    match ← ask t with
    | .error e => return .error e
    | .ok a =>
      match ← accessAll ask ts with
      | .error e => return .error e
      | .ok as => return .ok (a :: as)

/-- The union of what several operands hold. -/
def accessUnion (ask : TypeId → Check (Except AccessFailure TypeId)) (operands : List TypeId) :
    Check (Except AccessFailure TypeId) := do
  match ← accessAll ask operands with
  | .error e => return .error e
  | .ok ts => return .ok (← union ts)

/-- The template of a mapped type at a key. -/
def mappedTemplate (ops : Operations) (parts : MappedParts) (m : Option MapperId) (key : TypeId) :
    Check TypeId := do
  let m ← extendMapper m parts.key key
  match parts.template with
  | some n => ops.instantiate (← ops.typeOf parts.file n) m
  | none => return .any

/-- What a mapped type that waits holds under an index: its template at that key, unless keys are
renamed or members may be missing. -/
def mappedAccess? (ops : Operations) (object index : TypeId) : Check (Option TypeId) := do
  match ← kind object with
  | .mapped decl m =>
    match (mappedParts? (← program) decl).filter
        fun parts => parts.nameType.isNone && parts.optional != some .add with
    | some parts => return some (← mappedTemplate ops parts m index)
    | none => return none
  | _ => return none

/-- What a type holds under an index that is no union, both known. -/
def accessKnown (ops : Operations) (object index : TypeId) : Check (Except AccessFailure TypeId) := do
  match ← kind index with
  | .stringLiteral name => accessByName ops object name
  | .numberLiteral d => accessByName ops object d.text
  | .never => return .ok .never
  | .any => return .ok (((← ops.index? object .string).map (·.type)).getD .any)
  | .string | .number | .symbol =>
    match ← ops.index? object index with
    | some i => return .ok i.type
    | none => return .error .notIndexable
  | _ => return .error .notIndexable

/-- What a type holds under an index. -/
def access (ops : Operations) (object index : TypeId) : Check (Except AccessFailure TypeId) := do
  if object == .any || object == .error then return .ok object
  else if index == .error then return .ok .error
  else
    let waiting ← isDeferred index
    match ← kind index, waiting with
    | .union keys, false => accessUnion (ops.access object ·) keys
    | _, _ =>
      if waiting || (← isDeferred object) then
        match ← mappedAccess? ops object index with
        | some t => return .ok t
        | none => return .ok (← intern (.access object index))
      else match ← kind object with
        | .union members => accessUnion (ops.access · index) members
        | _ => accessKnown ops object index

end Typing

end DeclKit

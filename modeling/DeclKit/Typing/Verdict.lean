/-
Answers that need no assumption.

A pair of types that is met again while it is being related is taken to hold, so an answer that is found
meanwhile may rest on an assumption that fails later. An answer that goes back to pairs of types that
settle theirs alone rests on none. Here such answers are worked out from what is known beforehand: the
table, and the members that have been looked up. Nothing is stored on the way, so where a new type would
be needed, or members that nobody has looked up, nothing is known.

There are two ways not to have an answer: it can be known that the question is left open, and it can be
unknown what the answer will be.
-/
import DeclKit.Number.Text
import DeclKit.Types.Template
import DeclKit.Typing.Scope

set_option autoImplicit false

namespace DeclKit

/-! ## Answers put together -/

namespace Truth

/-- Both hold: no if one does not, yes if both do. -/
def both : Option Bool → Option Bool → Option Bool
  | some false, _ => some false
  | _, some false => some false
  | some true, some true => some true
  | _, _ => none

variable {α : Type}

/-- All hold, as far as it is known; the first no settles it. -/
def allKnown (ask : α → Option (Option Bool)) (acc : Option Bool) : List α → Option (Option Bool)
  | [] => return acc
  | a :: as => do
    match both acc (← ask a) with
    | some false => return some false
    | acc => allKnown ask acc as

/-- One holds, as far as it is known; the first yes settles it. -/
def anyKnown (ask : α → Option (Option Bool)) (acc : Option Bool) : List α → Option (Option Bool)
  | [] => return acc
  | a :: as => do
    match ← ask a with
    | some true => return some true
    | none => anyKnown ask none as
    | some false => anyKnown ask acc as

/-- Something holds for all elements, as far as it is known. -/
def everyKnown (ask : α → Option Bool) : List α → Option Bool
  | [] => return true
  | a :: as => do if ← ask a then everyKnown ask as else return false

end Truth

/-- Object types in which properties may stand in the place of an index signature. -/
def TypeKind.isObjectLiteral : TypeKind → Bool
  | .computed _ | .written .. => true
  | _ => false

/-- What is known of types before a question is asked: the table, and members that have been looked
up. -/
structure Sight where
  program : Program
  table : TypeTable
  shapes : Std.HashMap TypeId Shape

namespace Sight

open Truth

variable (v : Sight)

/-! ## What is there -/

/-- The kind of a type that is there. -/
def kind? (id : TypeId) : Option TypeKind := (v.table.types.get? id.index).map (·.kind)

/-- The type of a kind under no alias, if it is there. -/
def stored? (k : TypeKind) : Option TypeId :=
  (v.table.types.numbers[({ kind := k } : TypeData)]?).map fun i => ⟨i⟩

/-- A type waits, given which of its parts do. -/
def waitsStep? (inner : TypeId → Option Bool) (id : TypeId) : Option Bool := do
  match ← v.kind? id with
  | .param _ | .keys _ | .access .. | .conditional .. | .mapped .. | .this => return true
  | .union ms | .intersection ms => return (← ms.mapM inner).any fun b => b
  | .template _ spans => return (← spans.mapM fun s => inner s.1).any fun b => b
  | .lettered _ ty => inner ty
  | .tuple es _ => return es.any (·.kind == .variadic)
  | _ => return false

/-- Whether a type has to wait for a substitution, if all its parts are there. -/
def waits? (id : TypeId) : Option Bool :=
  TypeTable.descend v.waitsStep? (fun _ => some false) (id.index + 1) id

/-- The types that a value of a type has to belong to. -/
def conjuncts? (id : TypeId) : Option (List TypeId) := do
  match ← v.kind? id with
  | .intersection ms =>
    if ms.all fun m => (v.kind? m).any fun k => match k with
      | .intersection _ => false
      | _ => true
    then return ms else none
  | _ => return [id]

/-! ## Members -/

/-- The members of a type that has members of its own, if they are there. -/
def shape? (id : TypeId) : Option Shape := do
  let k ← v.kind? id
  if k.hasMembers then
    v.shapes[id]?.or (match k with
      | .computed s => v.table.shapes[s.index]?
      | _ => none)
  else none

/-- A global interface without arguments, if it is there. -/
def global? (name : String) : Option TypeId := do
  v.stored? (.interface (← v.program.globalType? name) [])

/-- The type whose members a value of a type has, if it is there. -/
def apparent? (id : TypeId) : Option TypeId := do
  match ← v.kind? id with
  | .string | .stringLiteral _ | .template .. | .lettered .. => v.global? "String"
  | .number | .numberLiteral _ => v.global? "Number"
  | .false_ | .true_ => v.global? "Boolean"
  | k => if k.hasMembers then return id else none

section

variable (ask : TypeId → TypeId → Option (Option Bool))

/-- Parameters, up to the first rest parameter: one way or the other. -/
def params (acc : Option Bool) : List (SignatureParam × SignatureParam) → Option (Option Bool)
  | [] => return acc
  | (s, t) :: more =>
    if s.rest || t.rest then return acc
    else do
      let there ← ask t.type s.type
      let back ← ask s.type t.type
      let either := if there == some true || back == some true then some true
        else if there == none || back == none then none else some false
      params (both acc either) more

/-- Signatures. What returns nothing accepts every result. -/
def signatures (source target : Signature) : Option (Option Bool) := do
  let required := (source.params.filter fun p => !p.optional && !p.rest).length
  if target.params.length < required && !target.params.any (·.rest) then return some false
  let result ← if target.returns == .void then pure (some true) else ask source.returns target.returns
  params ask result (source.params.zip target.params)

/-- Every wanted property is there. -/
def properties (has : Shape) : List Property → Option Bool → Option (Option Bool)
  | [], acc => return acc
  | p :: ps, acc => do
    match has.property? p.name with
    | some q =>
      if q.optional && !p.optional then return some false
      match both acc (← ask q.type p.type) with
      | some false => return some false
      | acc => properties has ps acc
    | none => if p.optional then properties has ps acc else return some false

/-- Every wanted signature is related to one that there is. -/
def calls (available : List Signature) : List Signature → Option Bool → Option (Option Bool)
  | [], acc => return acc
  | wanted :: more, acc => do
    match both acc (← anyKnown (fun s => signatures ask s wanted) (some false) available) with
    | some false => return some false
    | acc => calls available more acc

/-- Every wanted index signature is there, or properties may stand in its place. -/
def indexes (implicit : Bool) (has : Shape) : List IndexInfo → Option Bool → Option (Option Bool)
  | [], acc => return acc
  | i :: is, acc => do
    match has.indexFor? i.key with
    | some j => indexes implicit has is (both acc (← ask j.type i.type))
    | none =>
      if implicit then
        let properties := has.properties.filter fun p => i.key != .number || p.numeric
        let acc ← properties.foldlM (fun acc p => do return both acc (← ask p.type i.type)) acc
        indexes implicit has is acc
      else return some false

/-- Object types, member by member. -/
def members (source target : TypeId) : Option (Option Bool) := do
  let wanted ← v.shape? target
  let apparent ← v.apparent? source
  let has ← v.shape? apparent
  match ← properties ask has wanted.properties (some true) with
  | some false => return some false
  | acc =>
    match ← calls ask has.calls wanted.calls acc with
    | some false => return some false
    | acc =>
      match ← calls ask has.constructs wanted.constructs acc with
      | some false => return some false
      | acc =>
        indexes ask (v.table.kind source).isObjectLiteral has wanted.indexes acc

/-! ## Texts and tuples -/

/-- A piece of text belongs to one type of a template. -/
def fitsSingle (text : String) (target : TypeId) : Option Bool := do
  match ← v.kind? target with
  | .any | .string => return true
  | .number => return Text.isNumber text
  | .bigint => return Text.isBigint text
  | .true_ => return text == "true"
  | .false_ => return text == "false"
  | .null => return text == "null"
  | .undefined => return text == "undefined"
  | .lettered .. | .template .. | .stringLiteral _ =>
    return (← ask (← v.stored? (.stringLiteral text)) target) == some true
  | _ => return false

/-- A string is assignable to a template. -/
def templates (text head : String) (spans : List (TypeId × String)) : Option (Option Bool) := do
  match Template.matchText? text head spans with
  | none => return none
  | some pieces =>
    return some (← everyKnown (fun (piece, target) => do
      everyKnown (v.fitsSingle ask piece) (← v.conjuncts? target)) (pieces.zip (spans.map (·.1))))

/-- Tuples, one of which has an element that can be repeated. -/
def openTuples (source target : List TupleElement) : Option (Option Bool) := do
  match target.find? (·.kind == .rest) with
  | none => return none
  | some rest =>
    if source.any fun e => !e.kind.isFixed then return none
    source.zipIdx.foldlM (fun acc (e, i) => do
      let slot := ((target[i]?).filter (·.kind != .rest)).getD rest
      return both acc (← ask e.type slot.type)) (some true)

/-- Tuples. -/
def tuples (source target : List TupleElement) : Option (Option Bool) :=
  let isFixed (es : List TupleElement) : Bool := es.all (·.kind.isFixed)
  let required (es : List TupleElement) : Nat := (es.filter (·.kind == .required)).length
  if !isFixed source || !isFixed target then openTuples ask source target
  else if target.length < source.length || required source < required target then return some false
  else
    let pairs := (source.map (·.type)).zip (target.map (·.type))
    allKnown (fun (s, t) => ask s t) (some true) pairs

/-! ## Types -/

/-- Types that are not known to be related by their kinds alone. -/
def objects (source target : TypeId) : Option (Option Bool) :=
  if target == .object then return some (v.table.isObjectLike source)
  else if v.table.isObjectLike target then
    match v.table.kind source with
    | .null | .undefined | .void | .anyObject => return some false
    | _ => v.members ask source target
  else return some false

/-- Types that are neither unions nor intersections and do not wait. The elements of a tuple would make
a new type where an array is wanted. -/
def known (source target : TypeId) : Option (Option Bool) :=
  let nullish := match v.table.kind source with
    | .null | .undefined => true
    | _ => false
  if nullish && !v.program.options.nullChecks then return some true
  else match v.table.kind source, v.table.kind target with
    | .undefined, .void => return some true
    | .stringLiteral _, .string | .template .., .string | .lettered .., .string => return some true
    | .numberLiteral _, .number => return some true
    | .bigintLiteral _, .bigint => return some true
    | .stringLiteral text, .template head spans => v.templates ask text head spans
    | .stringLiteral text, .lettered m inner =>
      if m.run text != text then return some false
      else do ask (← v.stored? (.stringLiteral text)) inner
    | .tuple s sourceReadonly, .tuple u targetReadonly =>
      if sourceReadonly && !targetReadonly then return some false else tuples ask s u
    | .tuple .., .interface .. => none
    | .interface a sourceArgs, .interface b targetArgs =>
      if a == b && sourceArgs.length == targetArgs.length then do
        match ← allKnown (fun (s, u) => ask s u) (some true) (sourceArgs.zip targetArgs) with
        | some true => return some true
        | _ => v.members ask source target
      else v.objects ask source target
    | _, _ => v.objects ask source target

/-- Types of two kinds, not the same, of which the second one does not accept everything. What a type
parameter stands for is looked up in its declaration, and is not known. -/
def apart (source target : TypeId) : TypeKind → TypeKind → Option (Option Bool)
  | .any, _ | .error, _ => return some (target != .never)
  | .never, _ => return some true
  | .union members, _ => allKnown (ask · target) (some true) members
  | _, .intersection members => allKnown (ask source ·) (some true) members
  | _, .union members => anyKnown (ask source ·) (some false) members
  | .intersection members, _ => do
    let direct ← anyKnown (ask · target) (some false) members
    if direct == some true || !v.table.isObjectLike target then return direct else none
  | .param _, _ => none
  | _, _ => do
    if (← v.waits? source) || (← v.waits? target) then return none
    else v.known ask source target

/-- One type can stand where another is wanted, given what is known of other pairs. -/
def verdictStep (source target : TypeId) : Option (Option Bool) := do
  if source == target then return some true
  let s ← v.kind? source
  let u ← v.kind? target
  if s = u then return some true
  else match u with
    | .any | .error | .unknown => return some true
    | _ => v.apart ask source target s u

end

/-- Whether one type can stand where another is wanted, as far as that goes back in so many steps to
pairs that settle it alone. What is known in fewer steps stays known. -/
def verdict : Nat → TypeId → TypeId → Option (Option Bool)
  | 0, _, _ => none
  | n + 1, source, target =>
    (verdict n source target).or (v.verdictStep (verdict n) source target)

theorem verdict_succ {n : Nat} {source target : TypeId} {answer : Option Bool}
    (h : v.verdict n source target = some answer) : v.verdict (n + 1) source target = some answer := by
  rw [verdict, h, Option.some_or]

variable {v}

theorem verdict_mono {n k : Nat} (hnk : n ≤ k) {source target : TypeId} {answer : Option Bool}
    (h : v.verdict n source target = some answer) : v.verdict k source target = some answer := by
  induction hnk with
  | refl => exact h
  | step _ ih => exact v.verdict_succ ih

/-- What is unknown after so many steps is unknown after fewer. -/
theorem verdict_eq_none_of_le {n k : Nat} (hnk : n ≤ k) {source target : TypeId}
    (h : v.verdict k source target = none) : v.verdict n source target = none := by
  rw [Option.eq_none_iff_forall_ne_some]
  intro answer hn
  cases (verdict_mono hnk hn).symm.trans h

/-- What is known was found in some last step, and not before. -/
theorem exists_verdictStep {n : Nat} {source target : TypeId} {answer : Option Bool}
    (h : v.verdict n source target = some answer) :
    ∃ k, k < n ∧ v.verdict k source target = none ∧
      v.verdictStep (v.verdict k) source target = some answer := by
  induction n with
  | zero => cases h
  | succ n ih =>
    cases hn : v.verdict n source target with
    | none =>
      rw [verdict, hn, Option.none_or] at h
      exact ⟨n, Nat.lt_succ_self n, hn, h⟩
    | some known =>
      obtain rfl : known = answer := Option.some.inj ((v.verdict_succ hn).symm.trans h)
      obtain ⟨k, hk, hnone, hstep⟩ := ih hn
      exact ⟨k, Nat.lt_succ_of_lt hk, hnone, hstep⟩

end Sight

end DeclKit

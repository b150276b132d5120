/-
Assignability.

The answer has three values: yes, no, and `none` when it depends on type parameters that are still
free. It is worked out once for a pair of types.
-/
import DeclKit.Typing.Infer

set_option autoImplicit false

namespace DeclKit

namespace Truth

/-- All hold; the first no ends the questions. -/
def allOf {α : Type} (ask : α → Check (Option Bool)) (acc : Option Bool) :
    List α → Check (Option Bool)
  | [] => return acc
  | a :: as => do
    match both acc (← ask a) with
    | some false => return some false
    | acc => allOf ask acc as

/-- One holds; the first yes ends the questions. -/
def anyOf {α : Type} (ask : α → Check (Option Bool)) (acc : Option Bool) :
    List α → Check (Option Bool)
  | [] => return acc
  | a :: as => do
    match ← ask a with
    | some true => return some true
    | none => anyOf ask none as
    | some false => anyOf ask acc as

end Truth

namespace Typing

open Check Truth

/-! ## Templates -/

/-- A piece of text belongs to one type of a template. -/
def fitsSingle (ops : Operations) (text : String) (target : TypeId) : Check Bool := do
  match ← kind target with
  | .any | .string => return true
  | .number => return Text.isNumber text
  | .bigint => return Text.isBigint text
  | .true_ => return text == "true"
  | .false_ => return text == "false"
  | .null => return text == "null"
  | .undefined => return text == "undefined"
  | .lettered .. | .template .. | .stringLiteral _ =>
    let literal ← stringLiteral text
    return (← ops.assignable literal target) == some true
  | _ => return false

/-- Something holds for all elements; the first that fails ends the questions. -/
def holdsForAll {α : Type} (ask : α → Check Bool) : List α → Check Bool
  | [] => return true
  | a :: as => do if ← ask a then holdsForAll ask as else return false

/-- A piece of text belongs to a type of a template. -/
def fits (ops : Operations) (text : String) (target : TypeId) : Check Bool := do
  holdsForAll (fitsSingle ops text) ((← table).conjuncts target)

/-- A string is assignable to a template. A text without its form leaves the question open. -/
def relateTemplate (ops : Operations) (text head : String) (spans : List (TypeId × String)) :
    Check (Option Bool) := do
  match Template.matchText? text head spans with
  | none => return none
  | some pieces =>
    let ok ← holdsForAll (fun (piece, target) => fits ops piece target)
      (pieces.zip (spans.map (·.1)))
    return some ok

/-! ## Tuples and signatures -/

/-- Tuples, one of which has an element that can be repeated. -/
def relateOpenTuples (ops : Operations) (source target : List TupleElement) :
    Check (Option Bool) := do
  match target.find? (·.kind == .rest) with
  | none => return none
  | some rest =>
    if source.any fun e => !e.kind.isFixed then return none
    source.zipIdx.foldlM (fun acc (e, i) => do
      let slot := ((target[i]?).filter (·.kind != .rest)).getD rest
      return both acc (← ops.assignable e.type slot.type)) (some true)

/-- Tuples. -/
def relateTuples (ops : Operations) (source target : List TupleElement) : Check (Option Bool) := do
  let isFixed (es : List TupleElement) : Bool := es.all (·.kind.isFixed)
  let required (es : List TupleElement) : Nat := (es.filter (·.kind == .required)).length
  if !isFixed source || !isFixed target then relateOpenTuples ops source target
  else if target.length < source.length || required source < required target then return some false
  else
    let pairs := (elementTypes source).zip (elementTypes target)
    allOf (fun (s, t) => ops.assignable s t) (some true) pairs

/-- Parameters, up to the first rest parameter: one way or the other. -/
def relateParams (ops : Operations) (acc : Option Bool) :
    List (SignatureParam × SignatureParam) → Check (Option Bool)
  | [] => return acc
  | (s, t) :: more =>
    if s.rest || t.rest then return acc
    else do
      let there ← ops.assignable t.type s.type
      let back ← ops.assignable s.type t.type
      let either := if there == some true || back == some true then some true
        else if there == none || back == none then none else some false
      relateParams ops (both acc either) more

/-- Signatures. What returns nothing accepts every result. -/
def relateSignatures (ops : Operations) (source target : Signature) : Check (Option Bool) := do
  let required := (source.params.filter fun p => !p.optional && !p.rest).length
  if target.params.length < required && !target.params.any (·.rest) then return some false
  let result ← if target.returns == .void then pure (some true)
    else ops.assignable source.returns target.returns
  relateParams ops result (source.params.zip target.params)

/-! ## Members -/

/-- A property is there; `none` when the search can stop with a no. -/
def relateProperties (ops : Operations) (source : TypeId) :
    List Property → Option Bool → Check (Option Bool)
  | [], acc => return acc
  | p :: ps, acc => do
    match ← ops.property? source p.name with
    | some q =>
      if q.optional && !p.optional then return some false
      match both acc (← ops.assignable q.type p.type) with
      | some false => return some false
      | acc => relateProperties ops source ps acc
    | none => if p.optional then relateProperties ops source ps acc else return some false

/-- Every wanted signature is related to one that there is. -/
def relateCalls (ops : Operations) (available : List Signature) :
    List Signature → Option Bool → Check (Option Bool)
  | [], acc => return acc
  | wanted :: more, acc => do
    let found ← anyOf (fun s => relateSignatures ops s wanted) (some false) available
    match both acc found with
    | some false => return some false
    | acc => relateCalls ops available more acc

/-- Every index signature is there; an object type as written may have properties in its place. -/
def relateIndexes (ops : Operations) (source apparent : TypeId) (shape : Option Shape) :
    List IndexInfo → Option Bool → Check (Option Bool)
  | [], acc => return acc
  | i :: is, acc => do
    match ← ops.index? apparent i.key with
    | some j =>
      relateIndexes ops source apparent shape is (both acc (← ops.assignable j.type i.type))
    | none =>
      let implicit := match ← kind source with
        | .computed _ | .written .. => true
        | _ => false
      match shape, implicit with
      | some s, true =>
        let properties := s.properties.filter fun p => i.key != .number || p.numeric
        let acc ← properties.foldlM (fun acc p => do
          return both acc (← ops.assignable p.type i.type)) acc
        relateIndexes ops source apparent shape is acc
      | _, _ => return some false

/-- Object types, member by member. -/
def relateMembers (ops : Operations) (source target : TypeId) : Check (Option Bool) := do
  match ← ops.shape? target with
  | none => return none
  | some wanted =>
    let apparent ← ops.apparent source
    match ← relateProperties ops apparent wanted.properties (some true) with
    | some false => return some false
    | acc =>
      let shape ← ops.shape? apparent
      let has := shape.getD {}
      match ← relateCalls ops has.calls wanted.calls acc with
      | some false => return some false
      | acc =>
        match ← relateCalls ops has.constructs wanted.constructs acc with
        | some false => return some false
        | acc => relateIndexes ops source apparent shape wanted.indexes acc

/-! ## Types -/

/-- Types that are not known to be related by their kinds alone. -/
def relateObjects (ops : Operations) (source target : TypeId) : Check (Option Bool) := do
  let t ← table
  if target == .object then return some (t.isObjectLike source)
  else if t.isObjectLike target then
    match t.kind source with
    | .null | .undefined | .void | .anyObject => return some false
    | _ => relateMembers ops source target
  else return some false

/-- Types that are neither unions nor intersections and do not wait. -/
def relateKnown (ops : Operations) (source target : TypeId) : Check (Option Bool) := do
  let t ← table
  let nullish := match t.kind source with
    | .null | .undefined => true
    | _ => false
  if nullish && !(← nullChecks) then return some true
  match t.kind source, t.kind target with
  | .undefined, .void => return some true
  | .stringLiteral _, .string | .template .., .string | .lettered .., .string => return some true
  | .numberLiteral _, .number => return some true
  | .bigintLiteral _, .bigint => return some true
  | .stringLiteral text, .template head spans => relateTemplate ops text head spans
  | .stringLiteral text, .lettered m inner =>
    if m.run text != text then return some false
    else ops.assignable (← stringLiteral text) inner
  | .tuple s sourceReadonly, .tuple u targetReadonly =>
    if sourceReadonly && !targetReadonly then return some false else relateTuples ops s u
  | .tuple elements readonly, .interface .. =>
    match ← arrayElement? target with
    | some element =>
      if readonly && !(← isReadonlyArray target) then return some false
      else ops.assignable (← elementUnion ops elements) element
    | none => relateObjects ops source target
  | .interface a sourceArgs, .interface b targetArgs =>
    if a == b && sourceArgs.length == targetArgs.length then
      match ← allOf (fun (s, u) => ops.assignable s u) (some true) (sourceArgs.zip targetArgs) with
      | some true => return some true
      | _ => relateMembers ops source target
    else relateObjects ops source target
  | _, _ => relateObjects ops source target

/-- An intersection as the source: one member is enough, or all together for an object type. -/
def relateIntersection (ops : Operations) (source target : TypeId) (members : List TypeId) :
    Check (Option Bool) := do
  let direct ← anyOf (ops.assignable · target) (some false) members
  if direct == some true || !(← table).isObjectLike target then return direct
  else relateMembers ops source target

/-- A type parameter as the source: its constraint may settle the question. -/
def relateParam (ops : Operations) (symbol : SymbolId) (target : TypeId) : Check (Option Bool) := do
  match ← constraint? ops symbol with
  | some c => return if (← ops.assignable c target) == some true then some true else none
  | none => return none

/-- One type can stand where another is wanted, asked for the first time. -/
def relate (ops : Operations) (source target : TypeId) : Check (Option Bool) := do
  let t ← table
  let s := t.kind source
  let u := t.kind target
  if s = u then return some true
  else match u with
    | .any | .error | .unknown => return some true
    | _ =>
      match s, u with
      | .any, _ | .error, _ => return some (target != .never)
      | .never, _ => return some true
      | .union members, _ => allOf (ops.assignable · target) (some true) members
      | _, .intersection members => allOf (ops.assignable source ·) (some true) members
      | _, .union members => anyOf (ops.assignable source ·) (some false) members
      | .intersection members, _ => relateIntersection ops source target members
      | .param symbol, _ => relateParam ops symbol target
      | _, _ =>
        if t.isDeferred source || t.isDeferred target then return none
        else relateKnown ops source target

end Typing

end DeclKit

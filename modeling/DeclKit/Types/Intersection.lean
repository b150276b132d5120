/-
Intersections.

An intersection is stored flat, without repetitions, in the order of its operands. A union among the
operands is multiplied out, members without a common value make `never`, and a member that another one
implies is dropped. Which object types are empty is not known here.
-/
import DeclKit.Types.Template

set_option autoImplicit false

namespace DeclKit.TypeTable

/-! ## Members that cannot go together -/

/-- Neighbours that differ. -/
def hasDifference {α : Type} [DecidableEq α] : List α → Bool
  | a :: b :: rest => a ≠ b || hasDifference (b :: rest)
  | _ => false

/-- A string fits a member of an intersection. -/
def fitsText (t : TypeTable) (text : String) (id : TypeId) : Bool :=
  match t.kind id with
  | .template head spans => (Template.matchText? text head spans).isSome
  | .lettered m _ => m.run text == text
  | _ => true

/-- No value belongs to all members. -/
def isDisjoint (t : TypeTable) (nullChecks : Bool) (members : List TypeId) : Bool :=
  let domains := members.filterMap t.domain?
  let units := members.filter t.isUnit
  let beside := match domains with
    | [] => false
    | d :: _ =>
      members.contains .object ||
        ((d == .null || d == .undefined || d == .void) && nullChecks && members.any t.isObjectLike)
  let misfit := match units with
    | [] => false
    | u :: _ => match t.kind u with
      | .stringLiteral text => !members.all (t.fitsText text)
      | _ => false
  hasDifference domains || beside || hasDifference units || misfit

/-! ## Members that others imply -/

/-- A primitive type that a literal beside it makes superfluous. -/
def isImpliedByLiteral (t : TypeTable) (id : TypeId) : Bool :=
  match t.kind id with
  | .string | .number | .bigint | .template .. | .lettered .. => true
  | _ => false

/-- A template or letter map. -/
def isStringPattern (t : TypeTable) (id : TypeId) : Bool :=
  match t.kind id with
  | .template .. | .lettered .. => true
  | _ => false

/-- The members without primitive types that others imply. -/
def withoutImplied (t : TypeTable) (members : List TypeId) : List TypeId :=
  if members.any t.isUnit then members.filter fun m => !t.isImpliedByLiteral m
  else if members.any t.isStringPattern then members.filter (· != .string)
  else members

/-! ## The intersection -/

/-- What an intersection comes to before its object types are looked at. -/
inductive Meeting where
  /-- A type that is known at once. -/
  | type (id : TypeId)
  /-- A union among the operands that is to be multiplied out. -/
  | expand (s : UnionSplit TypeId)
  /-- Members that go together. -/
  | members (ms : List TypeId)

/-- The operands of an intersection, intersections among them opened, each once. -/
def operands (t : TypeTable) (ids : List TypeId) : List TypeId :=
  (ids.flatMap t.conjuncts).eraseDups

/-- What the intersection of types comes to. -/
def meeting (t : TypeTable) (nullChecks : Bool) (ids : List TypeId) : Meeting :=
  let members := t.operands ids
  if members.contains .never then .type .never
  else if members.contains .error then .type .error
  else if members.contains .any then .type .any
  else
    let members := members.filter (· != .unknown)
    match t.splitAtUnion? id members with
    | some s => .expand s
    | none =>
      if t.isDisjoint nullChecks members then .type .never else .members (t.withoutImplied members)

/-- The type of members that go together. -/
def meet : List TypeId → Stored TypeId
  | [] => return .unknown
  | [m] => return m
  | ms => intern (.intersection ms)

end DeclKit.TypeTable

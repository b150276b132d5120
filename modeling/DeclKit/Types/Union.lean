/-
Unions.

A union is stored flat, without repetitions, in the order of its members' numbers, and without members
that another member covers. A single member is that member, and no member is `never`.
-/
import DeclKit.Types.Table

set_option autoImplicit false

namespace DeclKit.TypeTable

/-- The members of a union as they are collected, and the types that swallow a whole union. -/
structure UnionParts where
  members : Array TypeId := #[]
  hasAny : Bool := false
  hasError : Bool := false
  hasUnknown : Bool := false
deriving Inhabited

/-- Adds a type to the members. -/
def UnionParts.add (p : UnionParts) (id : TypeId) : UnionParts :=
  if p.members.contains id then p else { p with members := p.members.push id }

/-- Collects the members of a type, given how its parts are collected; a union is opened. -/
def collectStep (t : TypeTable) (inner : TypeId → UnionParts → UnionParts) (id : TypeId)
    (p : UnionParts) : UnionParts :=
  match t.kind id with
  | .union ms => ms.foldl (fun p m => inner m p) p
  | .never => p
  | .any => { p with hasAny := true }
  | .error => { p with hasError := true }
  | .unknown => { p with hasUnknown := true }
  | _ => p.add id

/-- Collects the members of a type. -/
def collectUnion (t : TypeTable) (p : UnionParts) (id : TypeId) : UnionParts :=
  descend t.collectStep (fun _ p => p) (id.index + 1) id p

/-- A member that another member of the union covers. -/
def isCovered (t : TypeTable) (members : List TypeId) (id : TypeId) : Bool :=
  match t.kind id with
  | .stringLiteral _ | .template .. | .lettered .. => members.contains .string
  | .numberLiteral _ => members.contains .number
  | .bigintLiteral _ => members.contains .bigint
  | .undefined => members.contains .void
  | _ => false

/-- One of `null` and `undefined`. -/
def isNullish (id : TypeId) : Bool := id == .null || id == .undefined

/-- The members that are left after covered ones are dropped; without null checks, `null` and
`undefined` beside other members are dropped too. -/
def reducedMembers (t : TypeTable) (nullChecks : Bool) (members : List TypeId) : List TypeId :=
  let kept := members.filter fun m => !t.isCovered members m
  let kept := if !nullChecks && kept.any (fun m => !isNullish m)
    then kept.filter fun m => !isNullish m else kept
  kept.mergeSort fun a b => a.index ≤ b.index

/-- The union of types. -/
def union (nullChecks : Bool) (ids : List TypeId) : Stored TypeId := do
  let t ← get
  let p := ids.foldl t.collectUnion {}
  if p.hasError then return .error
  else if p.hasAny then return .any
  else if p.hasUnknown then return .unknown
  else match t.reducedMembers nullChecks p.members.toList with
    | [] => return .never
    | [m] => return m
    | ms => intern (.union ms)

/-- A type that may also be `undefined`. -/
def withUndefined (nullChecks : Bool) (id : TypeId) : Stored TypeId :=
  if nullChecks then union nullChecks [id, .undefined] else return id

/-! ## Unions among the parts of a type -/

/-- Parts of which one is a union: those before it, the union and its members, and those after it. -/
structure UnionSplit (α : Type) where
  before : List α
  part : α
  members : List TypeId
  after : List α

/-- The parts with another one in place of the union. -/
def UnionSplit.withPart {α : Type} (s : UnionSplit α) (a : α) : List α := s.before ++ a :: s.after

/-- Splits parts at the first that is a union. -/
def splitAtUnion? {α : Type} (t : TypeTable) (type : α → TypeId) : List α → Option (UnionSplit α)
  | [] => none
  | a :: as => match t.kind (type a) with
    | .union ms => some ⟨[], a, ms, as⟩
    | _ => (splitAtUnion? t type as).map fun s => { s with before := a :: s.before }

/-- The type of all literals such as a literal type; without null checks, `any` for `null` and
`undefined`. Any other type stays. -/
def widenMember (t : TypeTable) (nullChecks : Bool) (id : TypeId) : TypeId :=
  match t.kind id with
  | .stringLiteral _ => .string
  | .numberLiteral _ => .number
  | .bigintLiteral _ => .bigint
  | .true_ | .false_ => .boolean
  | .null | .undefined => if nullChecks then id else .any
  | _ => id

/-- Literal types become the type of all such literals. -/
def widen (nullChecks : Bool) (id : TypeId) : Stored TypeId := do
  let t ← get
  match t.kind id with
  | .union ms => union nullChecks (ms.map (t.widenMember nullChecks))
  | _ => return t.widenMember nullChecks id

end DeclKit.TypeTable

/-
Looking members up: through unions, intersections, tuples, and the types whose members primitives
have.
-/
import DeclKit.Text.Radix
import DeclKit.Typing.Declared

set_option autoImplicit false

namespace DeclKit.Typing

open Check

/-! ## Loops that may stop early -/

/-- Asks for every element; a missing answer stops and is the answer. -/
def everyAnswer {α β : Type} (ask : α → Check (Option β)) : List α → Check (Option (List β))
  | [] => return some []
  | a :: as => do
    match ← ask a with
    | none => return none
    | some b =>
      match ← everyAnswer ask as with
      | none => return none
      | some bs => return some (b :: bs)

/-- The answers that there are. -/
def someAnswers {α β : Type} (ask : α → Check (Option β)) : List α → Check (List β)
  | [] => return []
  | a :: as => do
    let b ← ask a
    let bs ← someAnswers ask as
    return b.toList ++ bs

/-! ## Apparent types -/

/-- The global interface with a name, without arguments. -/
def globalInterface (name : String) : Check TypeId := do
  match (← program).globalType? name with
  | some symbol => intern (.interface symbol [])
  | none => return .error

/-- The type whose members a value of a type has. -/
def apparent (ops : Operations) (id : TypeId) : Check TypeId := do
  match ← kind id with
  | .string | .stringLiteral _ | .template .. | .lettered .. => globalInterface "String"
  | .number | .numberLiteral _ => globalInterface "Number"
  | .false_ | .true_ => globalInterface "Boolean"
  | .union _ => if id == .boolean then globalInterface "Boolean" else return id
  | .param symbol =>
    match ← constraint? ops symbol with
    | some c => ops.apparent c
    | none => return .unknown
  | _ => return id

/-! ## Tuples -/

/-- What an element of a tuple may hold. -/
def elementType (ops : Operations) (e : TupleElement) : Check TypeId := do
  match e.kind with
  | .variadic =>
    match ← arrayElement? e.type with
    | some t => return t
    | none => ops.accessOrError e.type .number
  | .optional => withUndefined e.type
  | _ => return e.type

/-- What any element of a tuple may hold. -/
def elementUnion (ops : Operations) (elements : List TupleElement) : Check TypeId := do
  union (← elements.mapM (elementType ops))

/-- The array of which a tuple is a special case. -/
def arrayOfTuple (ops : Operations) (elements : List TupleElement) (readonly : Bool) :
    Check TypeId := do
  arrayType (← elementUnion ops elements) readonly

/-- The place in a tuple that a name is the number of. -/
def placeOf? (name : String) : Option Nat :=
  (Text.unsigned? 10 (Nat.pow 2 64) name.toList).filter fun n => Text.radixDigits 10 n == name

/-- A property of a tuple. -/
def tupleProperty? (ops : Operations) (elements : List TupleElement) (readonly : Bool)
    (name : String) : Check (Option Property) := do
  match ((placeOf? name).bind (elements[·]?)).filter (·.kind.isFixed) with
  | some e =>
    let optional := e.kind == .optional
    let type ← if optional then withUndefined e.type else pure e.type
    return some { name, type, optional, readonly }
  | none =>
    if name == "length" then
      let type ← if elements.all (·.kind.isFixed) then numberLiteral (Double.ofNat elements.length)
        else pure .number
      return some { name, type, readonly := true }
    else ops.property? (← arrayOfTuple ops elements readonly) name

/-! ## Properties -/

/-- A property of a union: every member has it. -/
def unionProperty (name : String) (found : List Property) : Check Property := do
  let type ← union (found.map (·.type))
  return { name, type, optional := found.any (·.optional), readonly := found.any (·.readonly)
           numeric := found.all (·.numeric) }

/-- A property of an intersection: some member has it. -/
def intersectionProperty (ops : Operations) (name : String) (found : List Property) :
    Check Property := do
  let type ← ops.intersection (found.map (·.type))
  return { name, type, optional := found.all (·.optional), readonly := found.any (·.readonly)
           numeric := found.all (·.numeric) }

/-- A property of a type. -/
def property? (ops : Operations) (id : TypeId) (name : String) : Check (Option Property) := do
  match ← kind id with
  | .union members =>
    match ← everyAnswer (ops.property? · name) members with
    | some found => return some (← unionProperty name found)
    | none => return none
  | .intersection members =>
    match ← someAnswers (ops.property? · name) members with
    | [] => return none
    | found => return some (← intersectionProperty ops name found)
  | .tuple elements readonly => tupleProperty? ops elements readonly name
  | .computed _ | .written .. | .interface .. | .functionValue _ =>
    match ← ops.shape? id with
    | some s => return s.property? name
    | none => return none
  | _ =>
    let t ← ops.apparent id
    if t == id then return none else ops.property? t name

/-! ## Index signatures -/

/-- What a type holds under all keys of a type. -/
def index? (ops : Operations) (id key : TypeId) : Check (Option IndexInfo) := do
  match ← kind id with
  | .tuple elements readonly =>
    if key == .number then
      return some ⟨key, ← elementUnion ops elements, readonly⟩
    else ops.index? (← arrayOfTuple ops elements readonly) key
  | .union members =>
    match ← everyAnswer (ops.index? · key) members with
    | some found =>
      return some ⟨key, ← union (found.map (·.type)), found.any (·.readonly)⟩
    | none => return none
  | .intersection members =>
    match ← someAnswers (ops.index? · key) members with
    | [] => return none
    | found =>
      return some ⟨key, ← ops.intersection (found.map (·.type)), found.all (·.readonly)⟩
  | _ =>
    match ← ops.shape? (← ops.apparent id) with
    | none => return none
    | some s => return s.indexFor? key

end DeclKit.Typing

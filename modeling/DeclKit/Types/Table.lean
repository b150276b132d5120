/-
The table of types.

Everything that is ever built during a check is kept here: types, substitutions and computed shapes.
Types and substitutions are stored once; a computed shape is new each time it is added.
-/
import DeclKit.Types.Basic
import DeclKit.Types.Interner

set_option autoImplicit false

namespace DeclKit

/-! ## Substitutions -/

/-- A substitution of types for type parameters: pairs in the order of the parameters, one for each
parameter. -/
abbrev Mapper := List (SymbolId × TypeId)

namespace Mapper

/-- Keeps the first of neighbouring pairs for one parameter. -/
def keepFirst : Mapper → Mapper
  | [] => []
  | [p] => [p]
  | p :: q :: rest => if p.1 = q.1 then keepFirst (p :: rest) else p :: keepFirst (q :: rest)
termination_by m => m.length

/-- The substitution that given pairs define; the first pair for a parameter counts. -/
def ofPairs (pairs : List (SymbolId × TypeId)) : Mapper :=
  keepFirst (pairs.mergeSort fun p q => p.1.index ≤ q.1.index)

/-- The type for a parameter. -/
def get? (m : Mapper) (s : SymbolId) : Option TypeId := (m.find? (·.1 == s)).map (·.2)

/-- The pairs with one more, in place of an earlier one for the same parameter. -/
def extended (m : Mapper) (s : SymbolId) (t : TypeId) : List (SymbolId × TypeId) :=
  m.filter (·.1 != s) ++ [(s, t)]

/-- The pairs for some parameters only. -/
def restricted (m : Mapper) (params : List SymbolId) : List (SymbolId × TypeId) :=
  m.filter (params.contains ·.1)

end Mapper

/-! ## The table -/

instance : LawfulBEq TypeData := inferInstance
instance : LawfulBEq Mapper := inferInstance

/-- Types, substitutions and shapes by number. -/
structure TypeTable where
  types : Interner TypeData := {}
  mappers : Interner Mapper := {}
  shapes : Array Shape := #[]

instance : Inhabited TypeTable := ⟨{}⟩

/-- A step that may add to the table. -/
abbrev Stored := StateM TypeTable

namespace TypeTable

/-- The type with a number. Numbers come from the table, so there is one; a number that does not would
stand for the union of nothing. -/
def data (t : TypeTable) (id : TypeId) : TypeData :=
  (t.types.get? id.index).getD { kind := .union [] }

/-- The kind of a type. -/
def kind (t : TypeTable) (id : TypeId) : TypeKind := (t.data id).kind

/-- The alias through which a type was reached. -/
def alias? (t : TypeTable) (id : TypeId) : Option AliasRef := (t.data id).aliased

/-- The shape with a number. -/
def shape (t : TypeTable) (id : ShapeId) : Shape := t.shapes.getD id.index {}

/-- The substitution with a number; without one nothing is substituted. -/
def mapper (t : TypeTable) : Option MapperId → Mapper
  | some id => (t.mappers.get? id.index).getD []
  | none => []

/-- What a substitution puts in for a parameter. -/
def substitute? (t : TypeTable) (m : Option MapperId) (s : SymbolId) : Option TypeId :=
  (t.mapper m).get? s

/-- Stores a type. -/
def store (d : TypeData) : Stored TypeId := modifyGet fun t =>
  let (i, types) := t.types.intern d
  (⟨i⟩, { t with types })

/-- Stores a type that was reached through no alias. -/
def intern (k : TypeKind) : Stored TypeId := store { kind := k }

/-- Stores the substitution of given pairs. -/
def internMapper (pairs : List (SymbolId × TypeId)) : Stored MapperId := modifyGet fun t =>
  let (i, mappers) := t.mappers.intern (Mapper.ofPairs pairs)
  (⟨i⟩, { t with mappers })

/-- Stores a computed shape. -/
def addShape (s : Shape) : Stored ShapeId :=
  modifyGet fun t => (⟨t.shapes.size⟩, { t with shapes := t.shapes.push s })

/-- The substitution of given pairs; none for no pairs. -/
def makeMapper (pairs : List (SymbolId × TypeId)) : Stored (Option MapperId) :=
  if pairs.isEmpty then return none else return some (← internMapper pairs)

/-- A substitution with one more pair. -/
def extendMapper (m : Option MapperId) (s : SymbolId) (ty : TypeId) : Stored (Option MapperId) := do
  makeMapper (((← get).mapper m).extended s ty)

/-- A substitution for some parameters only. -/
def restrictMapper (m : Option MapperId) (params : List SymbolId) : Stored (Option MapperId) := do
  makeMapper (((← get).mapper m).restricted params)

/-- An object type of a computed shape. -/
def objectOf (s : Shape) : Stored TypeId := do
  intern (.computed (← addShape s))

/-- A string literal type. -/
def stringLiteral (s : String) : Stored TypeId := intern (.stringLiteral s)

/-- A number literal type. -/
def numberLiteral (d : Double) : Stored TypeId := intern (.numberLiteral d.unsignedZero)

/-- The kinds with fixed numbers, in the order of those numbers. -/
def intrinsics : List TypeKind :=
  [.any, .error, .unknown, .undefined, .null, .string, .number, .bigint, .false_, .true_,
   .union [.false_, .true_], .symbol, .void, .never, .anyObject, .this]

/-- The table that holds only the types with fixed numbers. -/
@[irreducible]
def initial : TypeTable := (intrinsics.forM fun k => discard (intern k)).run {} |>.2

/-! ## Aliases -/

/-- Types of this kind remember an alias. -/
def carriesAlias : TypeKind → Bool
  | .union _ | .intersection _ | .written .. | .computed _ | .keys _ | .access .. | .conditional ..
  | .mapped .. => true
  | _ => false

/-- The type as reached through an alias. -/
def attachAlias (id : TypeId) (a : AliasRef) : Stored TypeId := do
  match (← get).types.get? id.index with
  | some d => if carriesAlias d.kind then store { d with aliased := some a } else return id
  | none => return id

/-! ## Questions about stored types

The parts of a type are stored before it, so their numbers are smaller. A question that a type passes
on to its parts comes to an end for that reason alone, and the number of the type, or how many types there
are, bounds how often it is passed on. -/

/-- The answers to a question that is passed on at most so many times; `bottom` answers after that. -/
def descend {ι α : Type} (step : (ι → α) → ι → α) (bottom : ι → α) : Nat → ι → α
  | 0 => bottom
  | n + 1 => step (descend step bottom n)

/-- A type waits, given which of its parts do. -/
def waitsStep (t : TypeTable) (inner : TypeId → Bool) (id : TypeId) : Bool :=
  match t.kind id with
  | .param _ | .keys _ | .access .. | .conditional .. | .mapped .. | .this => true
  | .union ms | .intersection ms => ms.any inner
  | .template _ spans => spans.any fun s => inner s.1
  | .lettered _ ty => inner ty
  | .tuple es _ => es.any (·.kind == .variadic)
  | _ => false

/-- The type has to wait for a substitution before an operator can look at it. -/
def isDeferred (t : TypeTable) (id : TypeId) : Bool :=
  descend t.waitsStep (fun _ => false) (id.index + 1) id

/-- A type mentions a type parameter, given which of its parts do. `free` gives the parameters that a
written type uses but does not declare. -/
def genericStep (t : TypeTable) (free : NodeKey → List SymbolId) (inner : TypeId → Bool)
    (id : TypeId) : Bool :=
  match t.kind id with
  | .param _ | .keys _ | .access .. | .conditional .. | .mapped .. | .this => true
  | .union ms | .intersection ms => ms.any inner
  | .template _ spans => spans.any fun s => inner s.1
  | .lettered _ ty => inner ty
  | .interface _ args => args.any inner
  | .tuple es _ => es.any fun e => inner e.type
  | .written decl m => (free decl).any fun p => match t.substitute? m p with
    | some ty => inner ty
    | none => true
  | .computed s =>
    let s := t.shape s
    s.properties.any (fun p => inner p.type) || s.indexes.any (fun i => inner i.type) ||
      (s.calls ++ s.constructs).any fun c =>
        inner c.returns || c.params.any fun p => inner p.type
  | _ => false

/-- The type mentions a type parameter. -/
def isGeneric (t : TypeTable) (free : NodeKey → List SymbolId) (id : TypeId) : Bool :=
  descend (t.genericStep free) (fun _ => false) (t.types.size + 1) id

/-- The types that a value of a type has to belong to, given those of its parts: an intersection is
opened. -/
def conjunctsStep (t : TypeTable) (inner : TypeId → List TypeId) (id : TypeId) : List TypeId :=
  match t.kind id with
  | .intersection ms => ms.flatMap inner
  | _ => [id]

/-- The types that a value of a type has to belong to, none of them an intersection. -/
def conjuncts (t : TypeTable) (id : TypeId) : List TypeId :=
  descend t.conjunctsStep (fun id => [id]) (id.index + 1) id

/-- Types with exactly one value. -/
def isUnit (t : TypeTable) (id : TypeId) : Bool :=
  match t.kind id with
  | .stringLiteral _ | .numberLiteral _ | .bigintLiteral _ | .false_ | .true_ | .null
  | .undefined => true
  | _ => false

/-- Types with members of their own. -/
def isObjectLike (t : TypeTable) (id : TypeId) : Bool :=
  match t.kind id with
  | .interface .. | .written .. | .computed _ | .tuple .. | .functionValue _ => true
  | _ => false

end TypeTable

/-- The primitive values a type can have. -/
inductive Domain where
  | string | number | bigint | boolean | symbol | null | undefined | void
deriving DecidableEq, Repr

namespace TypeTable

/-- The domain of a primitive type. -/
def domain? (t : TypeTable) (id : TypeId) : Option Domain :=
  match t.kind id with
  | .string | .stringLiteral _ | .template .. | .lettered .. => some .string
  | .number | .numberLiteral _ => some .number
  | .bigint | .bigintLiteral _ => some .bigint
  | .false_ | .true_ => some .boolean
  | .symbol => some .symbol
  | .null => some .null
  | .undefined => some .undefined
  | .void => some .void
  | _ => none

/-- Types without members of their own. -/
def isPrimitive (t : TypeTable) (id : TypeId) : Bool := (t.domain? id).isSome || id == .never

end TypeTable

end DeclKit

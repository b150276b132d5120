/-
Types as they are stored: numbered, with their parts given by number.

A type knows the alias through which it was reached, so two types of one kind may differ. Numbers are
given in order of creation, and the members of a union stand in that order.

Numbers of types, substitutions and shapes are not bounded here. Where they are kept in 32 bits they are the
same for checks that create less than 2^32 of each.
-/
import DeclKit.Decl.Tree
import DeclKit.Number.Double
import DeclKit.Symbol.Basic
import DeclKit.Text.LetterCase

set_option autoImplicit false

namespace DeclKit

/-! ## Numbers -/

/-- The number of a type. -/
structure TypeId where
  index : Nat
deriving DecidableEq, Hashable, Repr, Inhabited

namespace TypeId

/-- The type `any`. -/
def any : TypeId := ⟨0⟩

/-- The type of what is wrong. -/
def error : TypeId := ⟨1⟩

/-- The type `unknown`. -/
def unknown : TypeId := ⟨2⟩

/-- The type `undefined`. -/
def undefined : TypeId := ⟨3⟩

/-- The type `null`. -/
def null : TypeId := ⟨4⟩

/-- The type `string`. -/
def string : TypeId := ⟨5⟩

/-- The type `number`. -/
def number : TypeId := ⟨6⟩

/-- The type `bigint`. -/
def bigint : TypeId := ⟨7⟩

/-- The type `false`. -/
def false_ : TypeId := ⟨8⟩

/-- The type `true`. -/
def true_ : TypeId := ⟨9⟩

/-- The type `boolean`, which is the union of `false` and `true`. -/
def boolean : TypeId := ⟨10⟩

/-- The type `symbol`. -/
def symbol : TypeId := ⟨11⟩

/-- The type `void`. -/
def void : TypeId := ⟨12⟩

/-- The type `never`. -/
def never : TypeId := ⟨13⟩

/-- The type `object`. -/
def object : TypeId := ⟨14⟩

/-- The type `this`. -/
def this : TypeId := ⟨15⟩

end TypeId

/-- The number of a substitution. -/
structure MapperId where
  index : Nat
deriving DecidableEq, Hashable, Repr, Inhabited

/-- The number of a computed shape. -/
structure ShapeId where
  index : Nat
deriving DecidableEq, Hashable, Repr, Inhabited

/-! ## Kinds of types -/

/-- The alias a type was reached through, with its arguments. -/
structure AliasRef where
  symbol : SymbolId
  args : List TypeId
deriving DecidableEq, Hashable, Inhabited

/-- What a type operator does to the letters of a string. -/
inductive LetterMap where
  | uppercase
  | lowercase
  | capitalize
  | uncapitalize
deriving DecidableEq, Hashable, Repr, Inhabited

namespace LetterMap

/-- All letter maps. -/
def all : List LetterMap := [uppercase, lowercase, capitalize, uncapitalize]

/-- The name of the operator. -/
def name : LetterMap → String
  | uppercase => "Uppercase"
  | lowercase => "Lowercase"
  | capitalize => "Capitalize"
  | uncapitalize => "Uncapitalize"

/-- The operator with a name. -/
def ofName? (s : String) : Option LetterMap := all.find? (·.name == s)

/-- Changes the first character only. -/
def onFirst (f : Char → List Char) (s : String) : String :=
  match s.toList with
  | [] => ""
  | c :: cs => String.ofList (f c ++ cs)

/-- The text with its letters changed. -/
def run : LetterMap → String → String
  | uppercase => Text.upper
  | lowercase => Text.lower
  | capitalize => onFirst Text.upperChar
  | uncapitalize => onFirst Text.lowerChar

end LetterMap

/-- How an element of a tuple counts. -/
inductive ElementKind where
  | required
  | optional
  /-- Any number of elements, all of the given type. -/
  | rest
  /-- The elements of a type that is not known yet. -/
  | variadic
deriving DecidableEq, Hashable, Repr, Inhabited

/-- The element stands at one place. -/
def ElementKind.isFixed : ElementKind → Bool
  | required | optional => true
  | rest | variadic => false

/-- An element of a tuple. -/
structure TupleElement where
  type : TypeId
  kind : ElementKind
  name : Option String
deriving DecidableEq, Hashable, Inhabited

/-- The kinds of types. -/
inductive TypeKind where
  | any | error | unknown | undefined | null | string | number | bigint | false_ | true_ | symbol
  | void | never
  /-- The keyword `object`. -/
  | anyObject
  | this
  | stringLiteral (text : String)
  /-- A number; zero has no sign. -/
  | numberLiteral (value : Double)
  /-- Decimal digits, with the sign. -/
  | bigintLiteral (digits : String)
  /-- A template: the text before the first type, then each type with the text after it. -/
  | template (head : String) (spans : List (TypeId × String))
  | lettered (map : LetterMap) (type : TypeId)
  /-- At least two members, none of them a union, in the order of their numbers. -/
  | union (members : List TypeId)
  /-- At least two members, none of them an intersection, in the order in which they were written. -/
  | intersection (members : List TypeId)
  | param (symbol : SymbolId)
  | interface (symbol : SymbolId) (args : List TypeId)
  | tuple (elements : List TupleElement) (readonly : Bool)
  /-- A written object, function or constructor type under a substitution. -/
  | written (decl : NodeKey) (mapper : Option MapperId)
  /-- An object type that was computed. -/
  | computed (shape : ShapeId)
  /-- The type of a declared function. -/
  | functionValue (symbol : SymbolId)
  /-- The keys of a type that is not known yet. -/
  | keys (type : TypeId)
  /-- An indexed access into a type that is not known yet. -/
  | access (object index : TypeId)
  /-- A conditional type whose branch is not known yet. -/
  | conditional (decl : NodeKey) (mapper : Option MapperId)
  /-- A mapped type whose keys are not known yet. -/
  | mapped (decl : NodeKey) (mapper : Option MapperId)
deriving DecidableEq, Hashable, Inhabited

/-- Kinds of types that have members of their own, which are put together when they are looked up. -/
def TypeKind.hasMembers : TypeKind → Bool
  | .interface .. | .written .. | .computed _ | .functionValue _ => true
  | _ => false

/-- A stored type. -/
structure TypeData where
  kind : TypeKind
  aliased : Option AliasRef := none
deriving DecidableEq, Hashable, Inhabited

/-! ## Shapes -/

/-- A property. A method holds its call signatures in its type. -/
structure Property where
  name : String
  type : TypeId
  optional : Bool := false
  readonly : Bool := false
  isMethod : Bool := false
  /-- The name was written as a number, so it is a number among the keys. -/
  numeric : Bool := false
deriving DecidableEq, Inhabited

/-- A parameter of a signature. -/
structure SignatureParam where
  name : String
  type : TypeId
  optional : Bool
  rest : Bool
deriving DecidableEq, Inhabited

/-- A call or construct signature. -/
structure Signature where
  typeParams : List SymbolId
  params : List SignatureParam
  returns : TypeId
deriving DecidableEq, Inhabited

/-- What a type holds under all keys of one type. -/
structure IndexInfo where
  key : TypeId
  type : TypeId
  readonly : Bool
deriving DecidableEq, Inhabited

/-- The members of an object type. -/
structure Shape where
  properties : List Property := []
  calls : List Signature := []
  constructs : List Signature := []
  indexes : List IndexInfo := []
deriving DecidableEq, Inhabited

namespace Shape

/-- The property with a name. -/
def property? (s : Shape) (name : String) : Option Property := s.properties.find? (·.name == name)

/-- The index signature for a type of keys. -/
def index? (s : Shape) (key : TypeId) : Option IndexInfo := s.indexes.find? (·.key == key)

/-- The index signature that serves for a type of keys: a string index can be used with numbers too. -/
def indexFor? (s : Shape) (key : TypeId) : Option IndexInfo :=
  (s.index? key).or (if key == .number then s.index? .string else none)

/-- The shape has no members. -/
def isEmpty (s : Shape) : Bool :=
  s.properties.isEmpty && s.calls.isEmpty && s.constructs.isEmpty && s.indexes.isEmpty

/-- Adds a property unless one of its name is there. -/
def addProperty (s : Shape) (p : Property) : Shape :=
  if (s.property? p.name).isSome then s else { s with properties := s.properties ++ [p] }

/-- Adds an index signature unless one for its keys is there. -/
def addIndex (s : Shape) (i : IndexInfo) : Shape :=
  if (s.index? i.key).isSome then s else { s with indexes := s.indexes ++ [i] }

/-- Adds the members of another shape; members that are there already win, and signatures pile up. -/
def merge (s t : Shape) : Shape :=
  let s := t.properties.foldl addProperty s
  let s := { s with calls := s.calls ++ t.calls, constructs := s.constructs ++ t.constructs }
  t.indexes.foldl addIndex s

end Shape

end DeclKit

/-
Declaration trees: what a declaration file says.

Where a source tree keeps every blank, a declaration tree keeps only what is declared. Types in it
remember where they were copied from, by which comments and checked types are found again after the
tree has been edited.

Signatures, members and parameters are written over the type of the types in them, so that they are
ordinary structures; a type holds them at itself.
-/
import DeclKit.Source
import DeclKit.Tree.Node

set_option autoImplicit false

namespace DeclKit.Decl

/-! ## Origins -/

/-- Where a node comes from. A copied node names its file; a rebuilt one stands in the file that is
being written. -/
structure Origin where
  source : Option SourceId
  fullStart : Nat
  start : Nat
  stop : Nat
deriving DecidableEq, Repr, Inhabited

/-- The origin of a node that is copied from a file. -/
def Origin.copied (file : SourceId) (n : Node) : Origin := ⟨some file, n.fullStart, n.start, n.stop⟩

/-- The origin of a node that is rebuilt. -/
def Origin.rebuilt (n : Node) : Origin := ⟨none, n.fullStart, n.start, n.stop⟩

/-! ## Types -/

/-- Types that a single word names. -/
inductive Keyword where
  | any | unknown | string | number | bigint | boolean | symbol | object | undefined | null | void
  | never | intrinsic
deriving DecidableEq, Repr, Inhabited

namespace Keyword

/-- All keywords. -/
def all : List Keyword :=
  [any, unknown, string, number, bigint, boolean, symbol, object, undefined, null, void, never,
   intrinsic]

/-- The word. -/
def text : Keyword → String
  | any => "any"
  | unknown => "unknown"
  | string => "string"
  | number => "number"
  | bigint => "bigint"
  | boolean => "boolean"
  | symbol => "symbol"
  | object => "object"
  | undefined => "undefined"
  | null => "null"
  | void => "void"
  | never => "never"
  | intrinsic => "intrinsic"

/-- The keyword of a word. -/
def ofText? (s : String) : Option Keyword := all.find? (·.text == s)

end Keyword

/-- Operators before a type. -/
inductive Operator where
  | keyof
  | unique
  | readonly
deriving DecidableEq, Repr, Inhabited

/-- The operator as written. -/
def Operator.text : Operator → String
  | keyof => "keyof"
  | unique => "unique"
  | readonly => "readonly"

/-- How an element of a tuple is decorated. -/
inductive ItemKind where
  | required
  | optional
  | rest
deriving DecidableEq, Hashable, Repr, Inhabited

/-- A modifier of a mapped type; `plain` has no sign. -/
inductive Sign where
  | add
  | remove
  | plain
deriving DecidableEq, Repr, Inhabited

/-- A type of a template and the text after it, as written. -/
structure TemplateSpan (α : Type) where
  type : α
  text : String

/-- An element of a tuple. -/
structure TupleItem (α : Type) where
  kind : ItemKind
  name : Option String
  type : α

/-- A type parameter. -/
structure TypeParam (α : Type) where
  name : String
  isConst : Bool := false
  constraint : Option α := none
  default : Option α := none

/-- A parameter. -/
structure Param (α : Type) where
  rest : Bool := false
  name : String
  optional : Bool := false
  type : Option α := none

/-- Type parameters, parameters and what is returned. -/
structure Signature (α : Type) where
  typeParams : List (TypeParam α) := []
  params : List (Param α) := []
  returns : Option α := none
deriving Inhabited

/-- A member of an object type. Names are as written: bare, quoted, numeric or computed. -/
inductive Member (α : Type) where
  | property (origin : Option Origin) (readonly : Bool) (name : String) (optional : Bool)
      (type : Option α)
  | method (origin : Option Origin) (name : String) (optional : Bool) (signature : Signature α)
  | call (origin : Option Origin) (signature : Signature α)
  | construct (origin : Option Origin) (signature : Signature α)
  | index (origin : Option Origin) (readonly : Bool) (param : String) (key : α) (type : α)

/-- A mapped type. -/
structure Mapped (α : Type) where
  readonly : Option Sign := none
  param : String
  constraint : α
  nameType : Option α := none
  optional : Option Sign := none
  type : Option α := none

mutual

/-- A type with its origin. -/
inductive TypeNode where
  | mk (form : TypeForm) (origin : Option Origin)

/-- The forms of types. -/
inductive TypeForm where
  | keyword (k : Keyword)
  /-- A string, number, big integer or boolean, as written. -/
  | literal (text : String)
  | template (head : String) (spans : List (TemplateSpan TypeNode))
  | reference (name : List String) (args : List TypeNode)
  /-- `import("./m").A.B<T>`, the module as written. -/
  | imported (module : String) (qualifier : List String) (args : List TypeNode)
  | union (types : List TypeNode)
  | intersection (types : List TypeNode)
  | array (element : TypeNode)
  | tuple (items : List (TupleItem TypeNode))
  | paren (inner : TypeNode)
  | function (signature : Signature TypeNode)
  | constructor (isAbstract : Bool) (signature : Signature TypeNode)
  | object (members : List (Member TypeNode))
  | mapped (m : Mapped TypeNode)
  | indexed (object : TypeNode) (index : TypeNode)
  | operator (op : Operator) (type : TypeNode)
  | query (name : List String) (args : List TypeNode)
  | conditional (check extends_ whenTrue whenFalse : TypeNode)
  | infer (name : String) (constraint : Option TypeNode)
  | predicate (asserts : Bool) (param : String) (type : Option TypeNode)
  | this

end

instance : Inhabited TypeForm := ⟨.this⟩
instance : Inhabited TypeNode := ⟨.mk .this none⟩

namespace TypeNode

/-- The form of a type. -/
def form : TypeNode → TypeForm
  | mk f _ => f

/-- The origin of a type. -/
def origin : TypeNode → Option Origin
  | mk _ o => o

/-- A type that was not read from anywhere. -/
def fresh (f : TypeForm) : TypeNode := mk f none

/-- The type was copied from a file. -/
def isCopied (t : TypeNode) : Bool := t.origin.any (·.source.isSome)

end TypeNode

/-- The origin of a member. -/
def Member.origin {α : Type} : Member α → Option Origin
  | property o .. => o
  | method o .. => o
  | call o _ => o
  | construct o _ => o
  | index o .. => o

/-! ## Statements -/

/-- An item of an import or export list. -/
structure Specifier where
  typeOnly : Bool := false
  /-- The name in the other module, when it differs. -/
  propertyName : Option String := none
  name : String
deriving DecidableEq, Repr, Inhabited

/-- An import. The module is as written, with its quotes. -/
structure Import where
  origin : Option Origin := none
  typeOnly : Bool := false
  default : Option String := none
  namespace_ : Option String := none
  /-- `none` when there are no braces. -/
  named : Option (List Specifier) := none
  module : String
deriving DecidableEq, Repr, Inhabited

/-- What an export statement exports. -/
inductive ExportClause where
  | named (specifiers : List Specifier)
  | star (name : Option String)
deriving DecidableEq, Repr, Inhabited

/-- An export statement. -/
structure Export where
  origin : Option Origin := none
  typeOnly : Bool := false
  clause : ExportClause
  module : Option String := none
deriving DecidableEq, Repr, Inhabited

/-- An exported expression, as written without blanks. -/
structure ExportAssignment where
  origin : Option Origin := none
  isDefault : Bool
  expression : String
deriving DecidableEq, Repr, Inhabited

/-- A type alias. -/
structure TypeAlias where
  origin : Option Origin := none
  modifiers : Modifiers := {}
  name : String
  typeParams : List (TypeParam TypeNode) := []
  type : TypeNode
deriving Inhabited

/-- An interface. -/
structure Interface where
  origin : Option Origin := none
  modifiers : Modifiers := {}
  name : String
  typeParams : List (TypeParam TypeNode) := []
  heritage : List TypeNode := []
  members : List (Member TypeNode) := []
deriving Inhabited

/-- A function. -/
structure Function where
  origin : Option Origin := none
  modifiers : Modifiers := {}
  name : String
  signature : Signature TypeNode
deriving Inhabited

/-- A variable; the initializer of a constant may be kept as written. -/
structure Variable where
  name : String
  type : Option TypeNode := none
  initializer : Option String := none
deriving Inhabited

/-- Variables declared together. -/
structure Variables where
  origin : Option Origin := none
  modifiers : Modifiers := {}
  keyword : VariableKeyword
  items : List Variable
deriving Inhabited

/-- A statement of a declaration file. -/
inductive Statement where
  | importing (s : Import)
  | exporting (s : Export)
  | assignment (s : ExportAssignment)
  | typeAlias (s : TypeAlias)
  | interface (s : Interface)
  | function (s : Function)
  | variableList (s : Variables)
deriving Inhabited

namespace Statement

/-- The origin of a statement. -/
def origin : Statement → Option Origin
  | importing s => s.origin
  | exporting s => s.origin
  | assignment s => s.origin
  | typeAlias s => s.origin
  | interface s => s.origin
  | function s => s.origin
  | variableList s => s.origin

/-- The statement makes its file a module. -/
def marksModule : Statement → Bool
  | importing _ | exporting _ | assignment _ => true
  | typeAlias s => s.modifiers.isExport
  | interface s => s.modifiers.isExport
  | function s => s.modifiers.isExport
  | variableList s => s.modifiers.isExport

end Statement

/-- The declarations of one file. -/
structure File where
  source : SourceId
  statements : List Statement
deriving Inhabited

end DeclKit.Decl

/-
Building types, with parentheses where the grammar needs them.

Whether an operand needs parentheses depends only on its form and its position, so a type that is built
here reads back as it was built.
-/
import DeclKit.Decl.Tree
import DeclKit.Number.Text
import DeclKit.Text.Quoted

set_option autoImplicit false

namespace DeclKit.Decl

/-! ## Parentheses -/

/-- Where an operand stands. -/
inductive Position where
  /-- Anywhere that takes every type. -/
  | any
  /-- The type that a conditional type checks. -/
  | check
  /-- The type after `extends` in a conditional type. -/
  | extends_
  /-- A member of a union or intersection, or after `keyof` or `unique`. -/
  | member
  /-- After `readonly`. -/
  | readonly
  /-- Before the bracket of an array or indexed access. -/
  | postfix_
deriving DecidableEq, Repr

/-- A form has to stand in parentheses at a position. -/
def Position.encloses : Position → TypeForm → Bool
  | any, _ => false
  | extends_, .conditional .. => true
  | extends_, _ => false
  | _, .function _ | _, .constructor .. | _, .conditional .. => true
  | check, _ => false
  | _, .union _ | _, .intersection _ => true
  | readonly, .operator .. => true
  | postfix_, .operator .. | postfix_, .infer .. | postfix_, .query .. => true
  | _, _ => false

namespace TypeNode

/-- A type in parentheses. -/
def paren (t : TypeNode) : TypeNode := fresh (.paren t)

/-- A type as it stands at a position. -/
def atPosition (p : Position) (t : TypeNode) : TypeNode := if p.encloses t.form then t.paren else t

/-! ## Types -/

/-- A keyword. -/
def keyword (k : Keyword) : TypeNode := fresh (.keyword k)

/-- A string literal. -/
def string (s : String) : TypeNode := fresh (.literal (Text.quote s))

/-- A number literal. -/
def number (d : Double) : TypeNode := fresh (.literal d.text)

/-- A big integer literal of its digits and sign. -/
def bigint (digits : String) : TypeNode := fresh (.literal (digits ++ "n"))

/-- A boolean literal. -/
def boolean (b : Bool) : TypeNode := fresh (.literal (if b then "true" else "false"))

/-- A template. -/
def template (head : String) (spans : List (TemplateSpan TypeNode)) : TypeNode :=
  fresh (.template head spans)

/-- The type starts with type parameters of its own. -/
def isGenericFunction (t : TypeNode) : Bool :=
  match t.form with
  | .function s | .constructor _ s => !s.typeParams.isEmpty
  | _ => false

/-- Type arguments; a generic function in front is put in parentheses, so that no two angle brackets
meet. -/
def arguments : List TypeNode → List TypeNode
  | [] => []
  | t :: ts => (if t.isGenericFunction then t.paren else t) :: ts

/-- A reference. -/
def reference (name : List String) (args : List TypeNode) : TypeNode :=
  fresh (.reference name (arguments args))

/-- A reference into another module. -/
def imported (module : String) (qualifier : List String) (args : List TypeNode) : TypeNode :=
  fresh (.imported module qualifier (arguments args))

/-- A union. -/
def union (ts : List TypeNode) : TypeNode := fresh (.union (ts.map (atPosition .member)))

/-- An intersection. -/
def intersection (ts : List TypeNode) : TypeNode :=
  fresh (.intersection (ts.map (atPosition .member)))

/-- An array. -/
def array (t : TypeNode) : TypeNode := fresh (.array (t.atPosition .postfix_))

/-- A tuple. -/
def tuple (items : List (TupleItem TypeNode)) : TypeNode := fresh (.tuple items)

/-- A function type. -/
def function (s : Signature TypeNode) : TypeNode := fresh (.function s)

/-- A constructor type. -/
def constructor (isAbstract : Bool) (s : Signature TypeNode) : TypeNode :=
  fresh (.constructor isAbstract s)

/-- An object type. -/
def object (members : List (Member TypeNode)) : TypeNode := fresh (.object members)

/-- A mapped type. -/
def mapped (m : Mapped TypeNode) : TypeNode := fresh (.mapped m)

/-- An indexed access. -/
def indexed (object index : TypeNode) : TypeNode :=
  fresh (.indexed (object.atPosition .postfix_) index)

end TypeNode

/-- The position of the operand of an operator. -/
def Operator.position : Operator → Position
  | readonly => .readonly
  | _ => .member

namespace TypeNode

/-- A type after an operator. -/
def operator (op : Operator) (t : TypeNode) : TypeNode :=
  fresh (.operator op (t.atPosition op.position))

/-- The type of a value. -/
def query (name : List String) (args : List TypeNode) : TypeNode := fresh (.query name args)

/-- A conditional type. -/
def conditional (check extends_ whenTrue whenFalse : TypeNode) : TypeNode :=
  fresh (.conditional (check.atPosition .check) (extends_.atPosition .extends_) whenTrue whenFalse)

/-- A type to be inferred. -/
def infer (name : String) (constraint : Option TypeNode) : TypeNode :=
  fresh (.infer name constraint)

end TypeNode

end DeclKit.Decl

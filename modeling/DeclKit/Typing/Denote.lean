/-
What type nodes denote.

A node is looked at once, with the type parameters around it free; references put types in for them.
-/
import DeclKit.Number.Text
import DeclKit.Text.Radix
import DeclKit.Typing.Declared

set_option autoImplicit false

namespace DeclKit

/-! ## Literals -/

namespace Literal

/-- The text of a template piece without the marks around it, escapes as written. -/
def templateRaw (s : String) : String :=
  let body := ((Text.stripStart? s "`").or (Text.stripStart? s "\x7d")).getD s
  ((Text.stripSuffix? body "$\x7b").or (Text.stripSuffix? body "`")).getD body

/-- The text that a template piece stands for. -/
def templateText (s : String) : String := Text.unescape (templateRaw s)

/-- The characters without those at the end that a test accepts. -/
def dropRightWhile (p : Char → Bool) (cs : List Char) : List Char :=
  (cs.reverse.dropWhile p).reverse

/-- The decimal digits of a big integer literal. Values of `2 ^ 128` and more keep the digits that are
written, without zeros in front. -/
def bigintDigits (s : String) : String :=
  let body := (dropRightWhile (· == 'n') s.toList).filter (· != '_')
  let value := match body.map Char.toLower with
    | '0' :: 'x' :: cs => Text.unsigned? 16 (Nat.pow 2 128) cs
    | '0' :: 'o' :: cs => Text.unsigned? 8 (Nat.pow 2 128) cs
    | '0' :: 'b' :: cs => Text.unsigned? 2 (Nat.pow 2 128) cs
    | cs => Text.unsigned? 10 (Nat.pow 2 128) cs
  match value with
  | some n => Text.radixDigits 10 n
  | none => String.ofList (body.dropWhile (· == '0'))

/-- The digits of a big integer literal with a sign; zero has none. -/
def signedBigint (negative : Bool) (s : String) : String :=
  let digits := bigintDigits s
  if negative && digits != "0" then "-" ++ digits else digits

end Literal

namespace Typing

open Check

/-- The type that a keyword denotes. -/
def keywordType : String → TypeId
  | "any" => .any
  | "unknown" => .unknown
  | "string" => .string
  | "number" => .number
  | "bigint" => .bigint
  | "boolean" => .boolean
  | "symbol" => .symbol
  | "object" => .object
  | "never" => .never
  | "undefined" => .undefined
  | "null" => .null
  | "void" => .void
  | _ => .error

/-- The type of a literal token; `none` when the token is none. -/
def literalType? (negative : Bool) (t : Token) : Check (Option TypeId) :=
  match t.kind with
  | .stringLiteral => return some (← stringLiteral (literalValue t.text))
  | .noSubstitutionTemplate => return some (← stringLiteral (Literal.templateText t.text))
  | .numberLiteral => do
    match Double.ofLiteral? t.text with
    | some d => return some (← numberLiteral (d.withSign negative))
    | none => return none
  | .bigIntLiteral => return some (← intern (.bigintLiteral (Literal.signedBigint negative t.text)))
  | .kwTrue => return some .true_
  | .kwFalse => return some .false_
  | .kwNull => return some .null
  | _ => return none

/-- The type of a literal type node. -/
def literalType (n : Node) : Check TypeId := do
  match n.leaves.find? (·.kind != .minus) with
  | some t => return (← literalType? (n.hasToken .minus) t).getD .error
  | none => return .error

/-! ## Types of several parts -/

/-- An element of a tuple as written: its type, how it counts, and its name. -/
def elementParts (n : Node) : Option (Option Node × ElementKind × Option String) :=
  match n.kind with
  | .optionalType => some (n.type?, .optional, none)
  | .restType => some (n.type?, .rest, none)
  | .namedTupleMember =>
    let kind : ElementKind :=
      if n.hasToken .dotDotDot then .rest
      else if n.hasToken .question then .optional
      else .required
    some (n.type?, kind, n.name?.map (·.nameText))
  | _ => if n.isType then some (some n, .required, none) else none

/-- The elements that a written element adds to a tuple. -/
def tupleElements (ops : Operations) (file : SourceId) (type : Option Node) (kind : ElementKind)
    (name : Option String) : Check (List TupleElement) := do
  let t ← ops.typeOf? file type
  if kind == .rest then spreadElements t name else return [⟨t, kind, name⟩]

/-- A tuple type. -/
def tupleType (ops : Operations) (file : SourceId) (n : Node) (readonly : Bool) : Check TypeId := do
  let elements ← (n.children.filterMap elementParts).mapM fun (type, kind, name) =>
    tupleElements ops file type kind name
  intern (.tuple elements.flatten readonly)

/-- An array type. -/
def arrayNode (ops : Operations) (file : SourceId) (n : Node) (readonly : Bool) : Check TypeId := do
  arrayType (← ops.typeOf? file n.type?) readonly

/-- A template literal type. -/
def templateNode (ops : Operations) (file : SourceId) (n : Node) : Check TypeId := do
  let text (m : Node) : String := ((m.leaves.head?).map fun t => Literal.templateText t.text).getD ""
  let spans ← (n.childrenOf .templateSpan).mapM fun s => do
    return (← ops.typeOf? file s.type?, text s)
  template (text n) spans

/-- A reference with its arguments. -/
def referenceType (ops : Operations) (file : SourceId) (n : Node) : Check TypeId := do
  match n.child? .entityName with
  | none => return .error
  | some entity =>
    let args ← n.typeArgs.mapM (ops.typeOf file)
    match (← program).resolveEntity file entity .type with
    | .ok symbol => symbolReference ops symbol args
    | .error _ => return .error

/-- A type after an operator. -/
def operatorType (ops : Operations) (file : SourceId) (n : Node) : Check TypeId :=
  match n.leadingText with
  | "keyof" => do ops.keysOf (← ops.typeOf? file n.type?)
  | "readonly" =>
    match n.type? with
    | some inner => match inner.kind with
      | .arrayType => arrayNode ops file inner true
      | .tupleType => tupleType ops file inner true
      | _ => ops.typeOf file inner
    | none => return .error
  | _ => return .symbol

/-! ## Values -/

/-- The type of an initializer that is one literal, with a sign or with `as const` behind it. -/
def initializerType? (n : Node) : Check (Option TypeId) := do
  let tokens : List Token := n.expressionTokens
  let tokens : List Token := match tokens.reverse with
    | last :: before :: rest =>
      if before.text == "as" && last.kind == .kwConst then rest.reverse else tokens
    | _ => tokens
  match tokens with
  | [t] =>
    if t.kind == .ident && t.text == "undefined" then return some .undefined
    else literalType? false t
  | [sign, t] =>
    if sign.kind == .minus && (t.kind == .numberLiteral || t.kind == .bigIntLiteral) then
      literalType? true t
    else return none
  | _ => return none

/-- The type of a variable: what is written, or that of its literal initializer, which is widened
unless the variable is constant. -/
def variableType? (ops : Operations) (file : SourceId) (n : Node) (keyword : VariableKeyword) :
    Check (Option TypeId) := do
  match n.annotatedType? with
  | some t => return some (← ops.typeOf file t)
  | none =>
    match n.child? .initializer with
    | none => return none
    | some init =>
      match ← initializerType? init with
      | none => return none
      | some t =>
        if keyword == .const then return some t
        else return some (← stored (TypeTable.widen (← nullChecks) t))

/-- The type of a value. -/
def valueType (ops : Operations) (symbol : SymbolId) : Check TypeId := do
  let s := (← program).symbols.get symbol
  if s.meaning.function then intern (.functionValue symbol)
  else match s.declarationsOf .variableDecl with
    | [] => return .any
    | d :: _ =>
      let keyword := match d.node.parent? with
        | some parent => if parent.kind == .variableStatement then parent.variableKeyword else .var
        | none => .var
      return (← variableType? ops d.file d.node keyword).getD .any

/-! ## Nodes -/

/-- The type that a node denotes, looked at for the first time. -/
def denote (ops : Operations) (file : SourceId) (n : Node) : Check TypeId := do
  match n.kind with
  | .keywordType => return keywordType n.leadingText
  | .literalType => literalType n
  | .templateLiteralType => templateNode ops file n
  | .typeRef => referenceType ops file n
  | .unionType => union (← n.types.mapM (ops.typeOf file))
  | .intersectionType => ops.intersection (← n.types.mapM (ops.typeOf file))
  | .arrayType => arrayNode ops file n false
  | .tupleType => tupleType ops file n false
  | .parenType => ops.typeOf? file n.type?
  | .functionType | .constructorType | .objectType => written (n.key file) none
  | .mappedType => ops.mapped (n.key file) none
  | .indexedAccessType =>
    let object ← ops.typeOf? file (n.typeAt? 0)
    let index ← ops.typeOf? file (n.typeAt? 1)
    ops.accessOrError object index
  | .typeOperator => operatorType ops file n
  | .typeQuery =>
    match n.child? .entityName with
    | none => return .error
    | some entity =>
      match (← program).resolveEntity file entity .value with
      | .ok symbol => valueType ops symbol
      | .error _ => return .error
  | .conditionalType => ops.conditional (n.key file) none
  | .inferType =>
    match (n.child? .typeParam).bind ((← program).paramOf? file) with
    | some symbol => intern (.param symbol)
    | none => return .error
  | .thisType => return .this
  | _ => return .error

/-- The type that a node denotes. -/
def typeOf (ops : Operations) (file : SourceId) (n : Node) : Check TypeId := do
  let key := n.key file
  match (← state).nodeTypes[key]? with
  | some t => return t
  | none =>
    let t ← denote ops file n
    update fun c => { c with nodeTypes := c.nodeTypes.insert key t }
    return t

end Typing

end DeclKit

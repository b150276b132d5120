/-
Copying the types of a source file into a declaration tree.

A copied type keeps its form and remembers where it stood. The type of a parameter that has only an
initializer is worked out and written in.
-/
import DeclKit.Typing.Render

set_option autoImplicit false

namespace DeclKit

mutual

/-- How deep the nodes of a tree nest. -/
def Tree.height : Tree → Nat
  | .token _ => 0
  | .node _ _ _ cs => Tree.heightOfList cs + 1

/-- How deep the nodes of several trees nest. -/
def Tree.heightOfList : List Tree → Nat
  | [] => 0
  | t :: ts => max (Tree.height t) (Tree.heightOfList ts)

end

namespace Emit

open Decl (TypeNode TypeForm)

/-- Copies a type. -/
abbrev Copier := Node → Check TypeNode

/-- The text of a name, or nothing. -/
def nameOr (n : Option Node) : String := (n.map (·.nameText)).getD ""

/-- A name as written, or nothing. -/
def writtenName (n : Node) : String := (n.name?.map (·.sourceText)).getD ""

/-- A stored type as a declaration writes it; one that cannot be written becomes `any`. -/
def rendered (file : SourceId) (id : TypeId) : Check TypeNode := do
  return (← Check.typeNode? {} file id).getD (.keyword .any)

/-- A type that may be missing, which becomes `any`. -/
def copyOr (copy : Copier) : Option Node → Check TypeNode
  | some n => copy n
  | none => return .keyword .any

/-- A type that may be missing. -/
def copyOption (copy : Copier) (n : Option Node) : Check (Option TypeNode) := n.mapM copy

/-! ## Signatures -/

/-- Type parameters. -/
def copyTypeParams (copy : Copier) (n : Node) : Check (List (Decl.TypeParam TypeNode)) :=
  n.typeParams.mapM fun p => do
    let constraint ← copyOption copy p.constraint?
    let default ← copyOption copy p.default?
    return { name := nameOr p.name?, isConst := p.hasToken .kwConst, constraint, default }

/-- The type of a parameter: as written, or that of its initializer, or `any`. -/
def paramType (file : SourceId) (copy : Copier) (n : Node) : Check TypeNode := do
  match n.annotatedType?, n.child? .initializer with
  | some t, _ => copy t
  | none, some init =>
    match ← Typing.initializerType? init with
    | some t => rendered file (← Check.stored (TypeTable.widen (← Check.nullChecks) t))
    | none => return .keyword .any
  | none, none => return .keyword .any

/-- A parameter; one with an initializer can be left out. -/
def copyParam (file : SourceId) (copy : Copier) (n : Node) : Check (Decl.Param TypeNode) := do
  let type ← paramType file copy n
  let rest := n.hasToken .dotDotDot
  let optional := n.hasToken .question || ((n.child? .initializer).isSome && !rest)
  return { rest, name := writtenName n, optional, type := some type }

/-- What a signature returns, as written. -/
def copyReturn (file : SourceId) (copy : Copier) (n : Node) : Check TypeNode := do
  match n.child? .typePredicate with
  | some p =>
    let type ← copyOption copy p.type?
    return .mk (.predicate (p.hasWord "asserts") (nameOr p.name?) type) (some (.copied file p))
  | none =>
    match n.type? with
    | some t => copy t
    | none => return .mk (.keyword .any) (some (.copied file n))

/-- A signature. -/
def copySignature (file : SourceId) (copy : Copier) (n : Node) :
    Check (Decl.Signature TypeNode) := do
  let params ← n.params.mapM (copyParam file copy)
  let typeParams ← copyTypeParams copy n
  let returns ← (n.child? .returnType).mapM (copyReturn file copy)
  return { typeParams, params, returns }

/-! ## Members -/

/-- A member. -/
def copyMember (file : SourceId) (copy : Copier) (n : Node) : Check (Decl.Member TypeNode) := do
  let origin := some (Decl.Origin.copied file n)
  match n.kind with
  | .propertySig =>
    let type ← copyOption copy n.annotatedType?
    return .property origin (n.hasWord "readonly") (writtenName n) (n.hasToken .question) type
  | .methodSig =>
    let signature ← copySignature file copy n
    return .method origin (writtenName n) (n.hasToken .question) signature
  | .callSig => return .call origin (← copySignature file copy n)
  | .constructSig => return .construct origin (← copySignature file copy n)
  | _ =>
    let param := n.child? .param
    let key ← copyOr copy (param.bind (·.annotatedType?))
    let type ← copyOr copy n.annotatedType?
    return .index origin (n.hasWord "readonly") (nameOr (param.bind (·.name?))) key type

/-- An element of a tuple. -/
def copyItem (copy : Copier) (n : Node) : Check (Option (Decl.TupleItem TypeNode)) := do
  match Typing.elementParts n with
  | none => return none
  | some (type, kind, name) =>
    let t ← copyOr copy type
    let kind : Decl.ItemKind := match kind with
      | .optional => .optional
      | .rest => .rest
      | _ => .required
    return some ⟨kind, name, t⟩

/-! ## Types -/

/-- The modifier of a mapped type as it is written out; an added one stands bare. -/
def copyModifier (m : Option MappedModifier) : Option Decl.Sign := m.map Render.sign

/-- The texts of a dotted name. -/
def segmentTexts (n : Node) : List String :=
  ((n.child? .entityName).map fun e => e.segments.map (·.text)).getD []

/-- The form of a type. -/
def copyForm (file : SourceId) (copy : Copier) (n : Node) : Check TypeForm := do
  match n.kind with
  | .keywordType => return .keyword ((Decl.Keyword.ofText? n.leadingText).getD .any)
  | .literalType =>
    let text := ((n.leaves.find? (·.kind != .minus)).map (·.text)).getD ""
    return .literal (if n.hasToken .minus then "-" ++ text else text)
  | .templateLiteralType =>
    let piece (m : Node) : String := (m.leaves.head?.map fun t => Literal.templateRaw t.text).getD ""
    let spans ← (n.childrenOf .templateSpan).mapM fun s => do
      let type ← copyOr copy s.type?
      return ⟨type, piece s⟩
    return .template (piece n) spans
  | .typeRef => return .reference (segmentTexts n) (← n.typeArgs.mapM copy)
  | .unionType => return .union (← n.types.mapM copy)
  | .intersectionType => return .intersection (← n.types.mapM copy)
  | .arrayType => return .array (← copyOr copy n.type?)
  | .tupleType => return .tuple (← n.children.filterMapM (copyItem copy))
  | .parenType => return .paren (← copyOr copy n.type?)
  | .functionType => return .function (← copySignature file copy n)
  | .constructorType =>
    return .constructor (n.hasWord "abstract") (← copySignature file copy n)
  | .objectType => return .object (← n.members.mapM (copyMember file copy))
  | .mappedType =>
    let param := n.child? .mappedTypeParam
    let constraint ← copyOr copy (param.bind (·.typeAt? 0))
    let nameType ← copyOption copy (param.bind (·.typeAt? 1))
    let type ← copyOption copy n.annotatedType?
    return .mapped {
      readonly := copyModifier n.readonlyModifier, param := nameOr (param.bind (·.name?))
      constraint, nameType, optional := copyModifier n.optionalModifier, type }
  | .indexedAccessType =>
    let object ← copyOr copy (n.typeAt? 0)
    let index ← copyOr copy (n.typeAt? 1)
    return .indexed object index
  | .typeOperator =>
    let op : Decl.Operator := match n.leadingText with
      | "keyof" => .keyof
      | "unique" => .unique
      | _ => .readonly
    return .operator op (← copyOr copy n.type?)
  | .typeQuery => return .query (segmentTexts n) (← n.typeArgs.mapM copy)
  | .conditionalType =>
    let check ← copyOr copy (n.typeAt? 0)
    let extended ← copyOr copy (n.typeAt? 1)
    let whenTrue ← copyOr copy (n.typeAt? 2)
    let whenFalse ← copyOr copy (n.typeAt? 3)
    return .conditional check extended whenTrue whenFalse
  | .inferType =>
    let param := n.child? .typeParam
    let constraint ← copyOption copy (param.bind (·.constraint?))
    return .infer (nameOr (param.bind (·.name?))) constraint
  | _ => return .this

/-- Copies types that nest at most so deep. -/
def copyUpTo (file : SourceId) : Nat → Copier
  | 0 => fun _ => return .keyword .any
  | n + 1 => fun node => do
    let form ← copyForm file (copyUpTo file n) node
    return .mk form (some (.copied file node))

/-- Copies a type; nothing nests deeper than the whole file. -/
def copyType (file : SourceId) (n : Node) : Check TypeNode :=
  copyUpTo file (n.tree.height + 1) n

end Emit

end DeclKit

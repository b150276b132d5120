/-
What names stand for.

A single name sees, innermost first, the type parameters of the declarations and signatures around it,
the keys of mapped types, and the `infer` declarations of a conditional type from its `extends` clause
and its true branch; then the names of the file, then the global ones. A dotted name goes through
modules.
-/
import DeclKit.Program.Basic

set_option autoImplicit false

namespace DeclKit

/-- What a name is used as. -/
inductive NameUse where
  | type
  | value
  | namespace_
deriving DecidableEq, Repr, Inhabited

/-- The symbol can be used so. -/
def Meaning.serves (m : Meaning) : NameUse → Bool
  | .type => m.isType
  | .value => m.isValue
  | .namespace_ => m.module

/-- What becomes of a name. -/
inductive Resolution where
  | found (symbol : SymbolId)
  /-- The name is an import that leads nowhere, which is reported where it is imported. -/
  | unresolved
  | missing
deriving DecidableEq, Repr, Inhabited

/-- The node covers all of another node. -/
def Node.covers (n m : Node) : Bool := n.start ≤ m.start && m.stop ≤ n.stop

/-- The node is a conditional type, and its `extends` clause covers another node. -/
def Node.extendsCovers (n m : Node) : Bool :=
  n.kind == .conditionalType && (n.typeAt? 1).any (·.covers m)

/-- The conditional type whose `extends` clause declares what an `infer` names. -/
def Node.inferOwner? (infer : Node) : Option Node :=
  (Node.around infer.above).find? (·.extendsCovers infer)

/-- The `infer` declarations of a conditional type: those in its `extends` clause that no conditional
type inside the clause takes for its own. -/
def Node.inferDeclarations (conditional : Node) : List Node :=
  match conditional.typeAt? 1 with
  | none => []
  | some clause =>
    let own (infer : Node) : Bool :=
      ((Node.around infer.above).takeWhile fun a => a.above.length != clause.above.length).all
        fun a => !a.extendsCovers infer
    ((clause.descendants.filter (·.kind == .inferType)).filter own).filterMap (·.child? .typeParam)

/-- A node declares a name. -/
def Node.isNamed (n : Node) (name : String) : Bool := n.name?.any (·.nameText == name)

/-- The type parameter of a name that one node around a place declares there. -/
def Node.declaredParam? (outer site : Node) (name : String) : Option Node :=
  match outer.kind with
  | .typeAliasDecl | .interfaceDecl | .functionDecl | .functionType | .constructorType | .callSig
  | .constructSig | .methodSig => outer.typeParams.find? (·.isNamed name)
  | .mappedType => (outer.child? .mappedTypeParam).filter (·.isNamed name)
  | .conditionalType =>
    if (outer.typeAt? 1).any (·.covers site) || (outer.typeAt? 2).any (·.covers site) then
      outer.inferDeclarations.find? (·.isNamed name)
    else none
  | _ => none

namespace Program

/-- The symbol of a type parameter's node. -/
def paramOf? (p : Program) (file : SourceId) (n : Node) : Option SymbolId :=
  p.symbols.ofNode? (n.key file)

/-- The type parameter of a name at a place. -/
def lexicalParam? (p : Program) (file : SourceId) (site : Node) (name : String) : Option SymbolId :=
  (site.ancestors.findSome? fun outer => outer.declaredParam? site name).bind (p.paramOf? file)

/-- A symbol, or what it is imported from, under one use. -/
def underUse (p : Program) (use : NameUse) (id : SymbolId) : Resolution :=
  let s := p.symbols.get id
  if s.meaning.importAlias then
    match p.symbols.resolveAlias? id with
    | some target => if (p.symbols.get target).meaning.serves use then .found target else .missing
    | none => .unresolved
  else if s.meaning.serves use then .found id else .missing

/-- Resolves a name at file level. -/
def resolveOuter (p : Program) (file : SourceId) (name : String) (use : NameUse) : Resolution :=
  let inFile := (p.symbols.file? file).bind (·.locals.get? name)
  let global := p.symbols.globals.get? name
  ((inFile.toList ++ global.toList).findSome? fun id => match p.underUse use id with
    | .missing => none
    | r => some r).getD .missing

/-- Resolves a single name at a place. -/
def resolveName (p : Program) (file : SourceId) (site : Node) (name : String) (use : NameUse) :
    Resolution :=
  let param := if use == .type then p.lexicalParam? file site name else none
  match param with
  | some id => .found id
  | none => p.resolveOuter file name use

/-- Why a dotted name stands for nothing. -/
inductive EntityFailure where
  /-- Nothing to report here. -/
  | silent
  | missingName (name : Token)
  | missingNamespace (name : Token)
  | missingMember (path : String) (name : Token)
deriving Repr, Inhabited

/-- Follows the rest of a dotted name from a module. -/
def resolveMembers (p : Program) (use : NameUse) :
    SymbolId → String → List Token → Except EntityFailure SymbolId
  | current, _, [] => .ok current
  | current, path, segment :: rest =>
    let wanted := if rest.isEmpty then use else .namespace_
    match (p.symbols.get current).module with
    | none => .error .silent
    | some m =>
      match (p.symbols.export? m segment.text).filter
          fun id => (p.symbols.get id).meaning.serves wanted with
      | some id => resolveMembers p use id (path ++ "." ++ segment.text) rest
      | none => .error (.missingMember path segment)

/-- Resolves a name that may be dotted. -/
def resolveEntity (p : Program) (file : SourceId) (entity : Node) (use : NameUse) :
    Except EntityFailure SymbolId :=
  match entity.segments with
  | [] => .error .silent
  | [name] =>
    match p.resolveName file entity name.text use with
    | .found id => .ok id
    | .unresolved => .error .silent
    | .missing => .error (.missingName name)
  | name :: rest =>
    match p.resolveName file entity name.text .namespace_ with
    | .found id => p.resolveMembers use id name.text rest
    | .unresolved => .error .silent
    | .missing => .error (.missingNamespace name)

/-- The `infer` parameters of a conditional type. -/
def inferParams (p : Program) (file : SourceId) (conditional : Node) : List SymbolId :=
  conditional.inferDeclarations.filterMap (p.paramOf? file)

/-- The type parameters that a node declares in angle brackets. -/
def typeParamsOf (p : Program) (file : SourceId) (n : Node) : List SymbolId :=
  n.typeParams.filterMap (p.paramOf? file)

/-- The type parameters of an alias or interface. -/
def declaredParams (p : Program) (symbol : SymbolId) : List SymbolId :=
  match (p.symbols.get symbol).declarations.find? fun d =>
      d.kind == .typeAliasDecl || d.kind == .interfaceDecl with
  | some d => p.typeParamsOf d.file d.node
  | none => []

/-- The type parameter that a node is a bare reference to. -/
def nakedParam? (p : Program) (file : SourceId) (n : Node) : Option SymbolId :=
  if n.kind != .typeRef || (n.child? .typeArgList).isSome then none
  else match (n.child? .entityName).map (·.segments) with
    | some [segment] =>
      match p.resolveName file n segment.text .type with
      | .found id => if (p.symbols.get id).meaning.typeParameter then some id else none
      | _ => none
    | _ => none

/-- A global type. -/
def globalType? (p : Program) (name : String) : Option SymbolId :=
  (p.symbols.globals.get? name).filter fun id => (p.symbols.get id).meaning.isType

/-! ## Free type parameters -/

/-- The type parameter that a reference inside a node names, when it is declared outside the node. -/
def freeReference? (p : Program) (file : SourceId) (n reference : Node) : Option SymbolId :=
  match (reference.child? .entityName).map (·.segments) with
  | some [segment] =>
    match p.resolveName file reference segment.text .type with
    | .found id =>
      let s := p.symbols.get id
      let inside := s.declarations[0]?.any fun d => d.file == file && n.covers d.node
      if s.meaning.typeParameter && !inside then some id else none
    | _ => none
  | _ => none

/-- What an `infer` inside a node names, when a conditional type outside the node declares it. -/
def freeInfer? (p : Program) (file : SourceId) (n infer : Node) : Option SymbolId :=
  if infer.inferOwner?.any fun owner => !n.covers owner then
    (infer.child? .typeParam).bind (p.paramOf? file)
  else none

/-- The type parameters that a node uses but does not declare, each once, references first. -/
def freeParams (p : Program) (file : SourceId) (n : Node) : List SymbolId :=
  let inner := n.descendants
  let references := (inner.filter (·.kind == .typeRef)).filterMap (p.freeReference? file n)
  let infers := (inner.filter (·.kind == .inferType)).filterMap (p.freeInfer? file n)
  (references ++ infers).foldl (fun out id => if out.contains id then out else out ++ [id]) []

/-- The type parameters that the node of a key uses but does not declare; none where there is no such
node. -/
def freeParamsAt (p : Program) (decl : NodeKey) : List SymbolId :=
  match p.node? decl with
  | some n => p.freeParams decl.file n
  | none => []

end Program

end DeclKit

/-
Which statements of a module are kept.

A module keeps what it exports and whatever that refers to, directly or through other declarations.
References are taken by name: the first segment of a type name or `typeof` query, the value of a
computed key, and the names in export lists. Bodies and initializers do not count.
-/
import DeclKit.Tree.Node

set_option autoImplicit false

namespace DeclKit.Emit

/-! ## Names that a statement refers to -/

/-- The name in the value of `export default name` and `export = name`. -/
def exportedName (n : Node) : List String :=
  match n.expressionTokens with
  | [t] => if t.kind == .ident then [t.text] else []
  | _ => []

/-- The value that a computed key `[name]` refers to. -/
def computedKey (n : Node) : List String :=
  match n.words with
  | bracket :: key :: _ =>
    if bracket.kind == .bracketOpen && key.kind == .ident then [key.text] else []
  | _ => []

/-- The names that a node itself refers to; `parent` is the kind of the node around it. -/
def ownNames (parent : Option Kind) (n : Node) : List String :=
  match n.kind with
  | .initializer => if parent == some .exportAssignment then exportedName n else []
  | .entityName => (n.segments.head?.map (·.text)).toList
  | .exportSpecifier => (n.name?.map (·.nameText)).toList
  | .name => if parent == some .propertySig || parent == some .methodSig then computedKey n else []
  | _ => []

mutual

/-- The names that a tree refers to, from left to right. -/
def namesIn (parent : Option Kind) : Tree → List String
  | .token _ => []
  | .node k s e cs =>
    let own := ownNames parent ⟨.node k s e cs, []⟩
    if k == .functionBody || k == .initializer then own else own ++ namesInList (some k) cs

/-- The names that several trees refer to. -/
def namesInList (parent : Option Kind) : List Tree → List String
  | [] => []
  | t :: ts => namesIn parent t ++ namesInList parent ts

end

/-- The names that a statement refers to. -/
def referencedNames (n : Node) : List String := namesIn (n.parent?.map (·.kind)) n.tree

/-! ## Declared and exported names -/

/-- The text of a node's name. -/
def ownName (n : Node) : List String := (n.name?.map (·.nameText)).toList

/-- The names that a statement declares. -/
def declaredNames (n : Node) : List String :=
  match n.kind with
  | .typeAliasDecl | .interfaceDecl | .functionDecl => ownName n
  | .variableStatement => (n.childrenOf .variableDecl).flatMap ownName
  | _ => []

/-- The statement is a declaration. -/
def isDeclaration (n : Node) : Bool :=
  match n.kind with
  | .typeAliasDecl | .interfaceDecl | .functionDecl | .variableStatement => true
  | _ => false

/-- The statement is a declaration that is exported where it stands. -/
def isExported (n : Node) : Bool := isDeclaration n && n.modifiers.isExport

/-- The items of an export list. -/
def exportSpecifiers (n : Node) : List Node :=
  ((n.child? .namedExports).map (·.childrenOf .exportSpecifier)).getD []

/-- The names through which a statement makes others visible. -/
def exposedNames (n : Node) : List String :=
  match n.kind with
  | .exportDecl =>
    if (n.child? .moduleSpecifier).isSome then [] else (exportSpecifiers n).flatMap ownName
  | .exportAssignment => referencedNames n
  | _ => if isExported n then referencedNames n else []

/-! ## Visible names -/

/-- Declared names with what their declaration refers to. -/
abbrev References := List (List String × List String)

/-- What the declarations of a name refer to. -/
def References.of (refs : References) (name : String) : List String :=
  (refs.filter (·.1.contains name)).flatMap (·.2)

/-- Adds the names that are reached from the latest ones, until nothing new comes up. -/
def reachFrom (refs : References) : Nat → List String → List String → List String
  | 0, _, seen => seen
  | n + 1, latest, seen =>
    match ((latest.flatMap refs.of).filter fun s => !seen.contains s).eraseDups with
    | [] => seen
    | fresh => reachFrom refs n fresh (seen ++ fresh)

/-- The names that can be reached from the exports of a module. Every round but the last finds a name
that some statement refers to, so there are no more rounds than such names. -/
def visibleNames (statements : List Node) : List String :=
  let refs : References := statements.map fun s => (declaredNames s, referencedNames s)
  let roots := (statements.flatMap exposedNames).eraseDups
  reachFrom refs ((refs.flatMap (·.2)).length + 1) roots roots

/-- A module keeps a statement. -/
def isKept (visible : List String) (n : Node) : Bool :=
  !isDeclaration n || isExported n || (declaredNames n).any visible.contains

/-- The node has a body. -/
def hasBody (n : Node) : Bool := (n.child? .functionBody).isSome

/-- The statement implements a function whose other declarations are its signatures. -/
def isHiddenImplementation (statements : List Node) (n : Node) : Bool :=
  n.kind == .functionDecl && hasBody n && (ownName n).any fun name =>
    let same := statements.filter fun m => m.kind == .functionDecl && (ownName m).contains name
    1 < same.length && same.any fun m => !hasBody m

/-- The statements that are written for a file. -/
def keptStatements (root : Node) : List Node :=
  let statements := root.statements
  let kept := if root.isModule then statements.filter (isKept (visibleNames statements))
    else statements
  kept.filter fun s => !isHiddenImplementation statements s

/-- The names that the kept statements other than imports refer to. -/
def usedNames (kept : List Node) : List String :=
  (kept.filter (·.kind != .importDecl)).flatMap referencedNames

end DeclKit.Emit

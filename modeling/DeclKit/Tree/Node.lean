/-
Nodes in their place: a node together with the nodes around it.

Scoping asks what surrounds a node, so a node is carried with its ancestors. Two nodes of one file are
told apart by what they cover and their kind.
-/
import DeclKit.Tree.Basic
import DeclKit.Text.Quoted

set_option autoImplicit false

namespace DeclKit

/-- A node and its ancestors, innermost first. -/
structure Node where
  tree : Tree
  above : List Tree := []
deriving Inhabited

namespace Node

/-! ## Moving -/

/-- The kind of a node. -/
def kind (n : Node) : Kind := n.tree.kind

/-- Where the node starts. -/
def start (n : Node) : Nat := n.tree.start

/-- Where the node ends. -/
def stop (n : Node) : Nat := n.tree.stop

/-- The nodes directly below. -/
def children (n : Node) : List Node :=
  (n.tree.children.filter Tree.isNode).map fun c => ⟨c, n.tree :: n.above⟩

/-- The node around this one. -/
def parent? (n : Node) : Option Node :=
  match n.above with
  | [] => none
  | p :: rest => some ⟨p, rest⟩

/-- The nodes around a node, innermost first, given with their own ancestors. -/
def around : List Tree → List Node
  | [] => []
  | p :: rest => ⟨p, rest⟩ :: around rest

/-- The node itself and those around it, innermost first. -/
def ancestors (n : Node) : List Node := n :: around n.above

/-- The whole file that the node belongs to. -/
def file (n : Node) : Tree := n.above.getLast?.getD n.tree

mutual

/-- The nodes of a tree in document order, the tree itself first. -/
def nodesOf (above : List Tree) : Tree → List Node
  | .token _ => []
  | .node k s e cs => ⟨.node k s e cs, above⟩ :: nodesOfList (.node k s e cs :: above) cs

/-- The nodes of several trees in document order. -/
def nodesOfList (above : List Tree) : List Tree → List Node
  | [] => []
  | t :: ts => nodesOf above t ++ nodesOfList above ts

end

/-- The node itself and all below it, in document order. -/
def descendants (n : Node) : List Node := nodesOf n.above n.tree

/-! ## Looking for a range -/

mutual

/-- The innermost node around a range of a tree, if the tree reaches around it. One part is looked into,
and whatever else lies at the range is not seen: the part that goes beyond both ends of the range or, if
there is none, the last one that ends where the range starts, or else the first one. -/
def covering (start stop : Nat) (above : List Tree) : Tree → Option Node
  | .token _ => none
  | .node k s e cs =>
    if s ≤ start && stop ≤ e then
      some ((coveringPart start stop (.node k s e cs :: above) none cs).getD ⟨.node k s e cs, above⟩)
    else none

/-- The same for the parts of a node, with what was found in the part before these. A token is left to
the node around it. -/
def coveringPart (start stop : Nat) (above : List Tree) (before : Option (Option Node)) :
    List Tree → Option Node
  | [] => before.join
  | t :: ts =>
    if t.stop ≤ start then coveringPart start stop above (some (covering start stop above t)) ts
    else if t.start < stop then covering start stop above t
    else before.getD (covering start stop above t)

end

/-- The node has exactly a range. -/
def spans (start stop : Nat) (n : Node) : Bool := n.start == start && n.stop == stop

/-! ## Tokens -/

/-- The tokens directly below that are no trivia. -/
def leaves (n : Node) : List Token :=
  n.tree.children.filterMap fun
    | .token t => if t.kind.isTrivia then none else some t
    | .node .. => none

/-- All tokens below that are no trivia. -/
def words (n : Node) : List Token := n.tree.tokens.filter (!·.kind.isTrivia)

/-- The tokens of an initializer without its equals sign. -/
def expressionTokens (n : Node) : List Token := n.words.dropWhile (·.kind == .equals)

/-- A token of a kind stands directly below. -/
def hasToken (n : Node) (k : Kind) : Bool := n.leaves.any (·.kind == k)

/-- An identifier with a text stands directly below. -/
def hasWord (n : Node) (word : String) : Bool :=
  n.leaves.any fun t => t.kind == .ident && t.text == word

/-- The text of the first token directly below. -/
def leadingText (n : Node) : String := (n.leaves.head?.map (·.text)).getD ""

/-- The end of the last leaf in a reversed row that is no trivia; zero when that leaf is a node
without parts, or there is none. -/
def lastStop : List (Option Token) → Nat
  | [] => 0
  | none :: _ => 0
  | some t :: before => if t.kind.isTrivia then lastStop before else t.stop

/-- The end of the last token before the node that is no trivia, or zero: where the comments that
lead the node may begin. An empty node hides what stands before it. -/
def fullStart (n : Node) : Nat :=
  match n.tree.leafRow with
  | some first :: _ =>
    lastStop (n.file.leafRow.takeWhile fun l => !l.any (·.start == first.start)).reverse
  | _ => 0

/-! ## Parts by kind -/

/-- The first node of a kind directly below. -/
def child? (n : Node) (k : Kind) : Option Node := n.children.find? (·.kind == k)

/-- The nodes of a kind directly below. -/
def childrenOf (n : Node) (k : Kind) : List Node := n.children.filter (·.kind == k)

/-- The node is a type. -/
def isType (n : Node) : Bool := n.kind.isType

/-- The types directly below. -/
def types (n : Node) : List Node := n.children.filter isType

/-- The first type directly below. -/
def type? (n : Node) : Option Node := n.children.find? isType

/-- The type at a place among those directly below. -/
def typeAt? (n : Node) (i : Nat) : Option Node := n.types[i]?

end Node

/-! ## Text of names and literals -/

/-- The value of a quoted literal. -/
def literalValue (text : String) : String :=
  let stop := text.utf8ByteSize - 1
  if 1 ≤ stop && Text.isBoundary text 1 && Text.isBoundary text stop then
    Text.unescape (Text.slice text 1 stop)
  else ""

namespace Node

/-- Tokens joined by a single space where blanks or comments stood between them. -/
def joinTokens : Bool → List Token → List String
  | _, [] => []
  | gap, t :: ts =>
    if t.kind.isTrivia then joinTokens true ts
    else (if gap then " " ++ t.text else t.text) :: joinTokens false ts

/-- The text of a node with every run of blanks and comments inside it as one space. -/
def sourceText (n : Node) : String :=
  String.join (joinTokens false (n.tree.tokens.dropWhile (·.kind.isTrivia)))

/-- A name that is a computed key or a pattern, kept as it was written. -/
def isRawName (n : Node) : Bool :=
  n.leaves.head?.any fun t => t.kind == .bracketOpen || t.kind == .braceOpen

/-- The name that a `Name` node spells. -/
def nameText (n : Node) : String :=
  match n.leaves.head? with
  | none => ""
  | some t =>
    if t.kind == .stringLiteral then literalValue t.text
    else if n.isRawName then n.sourceText
    else t.text

/-- The name node directly below. -/
def name? (n : Node) : Option Node := n.child? .name

/-- The tokens of a dotted name. -/
def segments (n : Node) : List Token := n.leaves.filter (·.kind != .dot)

/-- A dotted name as text. -/
def entityText (n : Node) : String := ".".intercalate (n.segments.map (·.text))

/-! ## Parts of declarations and signatures -/

/-- The type parameters directly below, in angle brackets. -/
def typeParams (n : Node) : List Node :=
  ((n.child? .typeParamList).map (·.childrenOf .typeParam)).getD []

/-- The type arguments directly below, in angle brackets. -/
def typeArgs (n : Node) : List Node := ((n.child? .typeArgList).map types).getD []

/-- The parameters directly below. -/
def params (n : Node) : List Node := ((n.child? .paramList).map (·.childrenOf .param)).getD []

/-- The type of the annotation directly below. -/
def annotatedType? (n : Node) : Option Node := (n.child? .colonType).bind type?

/-- The constraint of a type parameter. -/
def constraint? (n : Node) : Option Node := (n.child? .constraint).bind type?

/-- The default of a type parameter. -/
def default? (n : Node) : Option Node := (n.child? .defaultType).bind type?

/-- The members of an object type. -/
def members (n : Node) : List Node :=
  n.children.filter fun c => match c.kind with
    | .propertySig | .methodSig | .callSig | .constructSig | .indexSig => true
    | _ => false

/-- The value of the module specifier directly below. -/
def specifierValue (n : Node) : String := literalValue n.leadingText

/-- The parameter is `this`. -/
def isThisParam (n : Node) : Bool := n.name?.any fun m => m.leaves.head?.any (·.kind == .kwThis)

end Node

/-- The words before a declaration. -/
structure Modifiers where
  isExport : Bool := false
  isDefault : Bool := false
  isDeclare : Bool := false
deriving DecidableEq, Repr, Inhabited

/-- The modifiers of a declaration. -/
def Node.modifiers (n : Node) : Modifiers :=
  { isExport := n.hasToken .kwExport
    isDefault := n.hasToken .kwDefault
    isDeclare := n.hasWord "declare" }

/-- How variables are declared. -/
inductive VariableKeyword where
  | const
  | let_
  | var
deriving DecidableEq, Repr, Inhabited

namespace VariableKeyword

/-- The keyword as written. -/
def text : VariableKeyword → String
  | const => "const"
  | let_ => "let"
  | var => "var"

/-- The keyword that a token is. -/
def ofToken? (t : Token) : Option VariableKeyword :=
  if t.kind == .kwConst then some const
  else if t.kind == .kwVar then some var
  else if t.kind == .ident && t.text == "let" then some let_
  else none

end VariableKeyword

namespace Node

/-- The keyword of a variable statement. -/
def variableKeyword (n : Node) : VariableKeyword :=
  (n.leaves.findSome? VariableKeyword.ofToken?).getD .var

/-- The statements of a file that declare, import or export. -/
def statements (n : Node) : List Node :=
  n.children.filter fun c => match c.kind with
    | .importDecl | .exportDecl | .exportAssignment | .typeAliasDecl | .interfaceDecl
    | .functionDecl | .variableStatement => true
    | _ => false

/-- A file is a module when it imports or exports at top level. -/
def isModule (n : Node) : Bool :=
  n.children.any fun c => match c.kind with
    | .importDecl | .exportDecl | .exportAssignment => true
    | .typeAliasDecl | .interfaceDecl | .functionDecl | .variableStatement | .unsupportedDecl =>
      c.hasToken .kwExport
    | _ => false

end Node

/-- A modifier of a mapped type, with its sign. -/
inductive MappedModifier where
  | add
  | remove
deriving DecidableEq, Hashable, Repr, Inhabited

namespace MappedModifier

/-- The sign that a token gives. -/
def ofSign? (k : Kind) : Option MappedModifier :=
  if k == .plus then some add else if k == .minus then some remove else none

/-- The `readonly` modifier among the tokens of a mapped type. -/
def readonlyIn (sign : Option MappedModifier) : List Token → Option MappedModifier
  | [] => none
  | t :: ts =>
    if t.kind == .ident && t.text == "readonly" then some (sign.getD add)
    else if t.kind == .bracketOpen then none
    else readonlyIn ((ofSign? t.kind).or sign) ts

/-- The `?` modifier among the tokens after the key of a mapped type. -/
def optionalIn (sign : Option MappedModifier) : List Token → Option MappedModifier
  | [] => none
  | t :: ts =>
    if t.kind == .question then some (sign.getD add)
    else optionalIn ((ofSign? t.kind).or sign) ts

end MappedModifier

namespace Node

/-- The `readonly` modifier of a mapped type. -/
def readonlyModifier (n : Node) : Option MappedModifier := MappedModifier.readonlyIn none n.leaves

/-- The `?` modifier of a mapped type. -/
def optionalModifier (n : Node) : Option MappedModifier :=
  MappedModifier.optionalIn none (n.leaves.dropWhile (·.kind != .bracketClose))

end Node

end DeclKit

/-
Source trees.

The leaves of a tree are tokens, all of them, blanks and comments included; so the texts of the leaves
together are the source. Every node knows the bytes it covers. A node's range starts at its first
token. Blanks that have been passed are placed in front of a node before it is opened, so that it starts
behind them; a node that is opened before they have been passed takes them in.
-/
import DeclKit.Text.Offset
import DeclKit.Text.Quoted
import DeclKit.Token.Basic

set_option autoImplicit false

namespace DeclKit

/-- A token, or a node with the parts below it. -/
inductive Tree where
  | token (t : Token)
  | node (kind : Kind) (start stop : Nat) (children : List Tree)
deriving Repr, Inhabited

namespace Tree

/-- The kind of a token or node. -/
def kind : Tree → Kind
  | token t => t.kind
  | node k _ _ _ => k

/-- The byte offset at which the element starts. -/
def start : Tree → Nat
  | token t => t.start
  | node _ s _ _ => s

/-- The byte offset just after the element. -/
def stop : Tree → Nat
  | token t => t.stop
  | node _ _ e _ => e

/-- The parts directly below a node. -/
def children : Tree → List Tree
  | token _ => []
  | node _ _ _ cs => cs

/-- The element is a node. -/
def isNode : Tree → Bool
  | token _ => false
  | node .. => true

mutual

/-- All tokens of a tree, from left to right. -/
def tokens : Tree → List Token
  | token t => [t]
  | node _ _ _ cs => tokensOfList cs

/-- All tokens of several trees. -/
def tokensOfList : List Tree → List Token
  | [] => []
  | t :: ts => tokens t ++ tokensOfList ts

end

mutual

/-- The leaves of a tree from left to right: its tokens, and `none` for each node without parts. -/
def leafRow : Tree → List (Option Token)
  | token t => [some t]
  | node _ _ _ [] => [none]
  | node _ _ _ (c :: cs) => leafRow c ++ leafRowOfList cs

/-- The leaves of several trees. -/
def leafRowOfList : List Tree → List (Option Token)
  | [] => []
  | t :: ts => leafRow t ++ leafRowOfList ts

end

/-- The text of a tree. -/
def text (t : Tree) : String := String.join (t.tokens.map Token.text)

mutual

/-- The lines of a dump at a depth; trivia are left out unless asked for. -/
def dumpLines (trivia : Bool) (depth : Nat) : Tree → List String
  | token t =>
    if trivia || !t.kind.isTrivia then
      [Text.repeated depth "  " ++ t.kind.label ++ " " ++ Text.escaped t.text]
    else []
  | node k _ _ cs => (Text.repeated depth "  " ++ k.label) :: dumpList trivia (depth + 1) cs

/-- The lines of a dump of several trees. -/
def dumpList (trivia : Bool) (depth : Nat) : List Tree → List String
  | [] => []
  | t :: ts => dumpLines trivia depth t ++ dumpList trivia depth ts

end

/-- One line for every node and token, indented by depth. -/
def dump (trivia : Bool) (t : Tree) : String :=
  String.join ((t.dumpLines trivia 0).map (· ++ "\n"))

end Tree

end DeclKit

/-
The parser's state and its primitive steps.

The parser walks an array of tokens. A token is either placed in the tree or not yet, and tokens are
placed in their order, so `placed` counts those in the tree and the tokens between `placed` and `pos`
are blanks that wait for the next node to open. Waiting is what keeps blanks out of a node's range.

Nodes are built from a row of finished elements. A node may be opened at an earlier place of that row,
its mark, so that what has been read becomes its first part once the next token shows what it is.

Two limits can stop a parse: an allowance of tokens and a bound on nesting. Both only raise a flag,
after which every loop ends, so the tree stays well formed.

What the parser takes for granted about itself is checked as it runs: that it moves on, that nodes are
closed by who opened them, that marks are fresh, that loops end. The first check that fails is kept as
a fault.
-/
import DeclKit.Diagnostic.Basic
import DeclKit.Token.Lexer
import DeclKit.Tree.Basic

set_option autoImplicit false

namespace DeclKit

/-- Limits on a parse; `none` is no limit. -/
structure Limits where
  /-- How many tokens may be placed. -/
  tokens : Option Nat := none
  /-- How deeply types may nest. -/
  nesting : Option Nat := none
deriving DecidableEq, Repr

/-- Nesting that a parse allows unless told otherwise. -/
def Limits.standard : Limits := { nesting := some 512 }

namespace Parser

/-- How many times the parser may look at the current token without moving on. -/
def fullPatience : Nat := 256

/-- What the parser takes for granted and may find broken. -/
inductive Fault where
  /-- The current token was looked at with no patience left. -/
  | stuck
  /-- A production was entered at a token that is not its own. -/
  | misplaced
  /-- A node was opened at a mark outside the innermost open node. -/
  | staleMark
  /-- A node was closed by another step than the one that opened it. -/
  | unbalanced
  /-- More brackets were closed than had been opened. -/
  | underflow
  /-- A loop or a nesting went on for longer than there are tokens. -/
  | endless
deriving DecidableEq, Repr

/-- The state of a parse. -/
structure State where
  source : SourceId
  tokens : Array Token
  /-- Length of the source in bytes. -/
  textSize : Nat
  limits : Limits
  pos : Nat := 0
  placed : Nat := 0
  /-- Finished elements of the nodes that are open. -/
  row : Array Tree := #[]
  /-- Open nodes, innermost first: kind, and where in the row the node starts. -/
  opened : List (Kind × Nat) := []
  diagnostics : Array Diagnostic := #[]
  /-- Where the last diagnostic was reported; a second one there is dropped. -/
  lastReport : Option Nat := none
  depth : Nat := 0
  /-- The `extends` operand of a conditional type is being read. -/
  inExtends : Bool := false
  /-- The history of the parse: nodes that have been opened, the last first, each with whether the
  `extends` operand of a conditional type was being read. No step looks at it. -/
  openings : List (Kind × Bool) := []
  /-- Tokens charged against the allowance. -/
  spent : Nat := 0
  failure : Option Failure := none
  patience : Nat := fullPatience
  /-- The first internal assumption that failed. -/
  fault : Option Fault := none

end Parser

/-- A parsing step. -/
abbrev Parse (α : Type) := StateM Parser.State α

namespace Parser

open Kind

/-- Records a fault, unless there is one already. -/
def raise (f : Fault) : Parse Unit :=
  modify fun s => { s with fault := s.fault.or (some f) }

/-! ## Looking -/

/-- The first index from `pos` on, within `n` steps, whose token is no trivia. -/
def skipTriviaFrom (tokens : Array Token) : Nat → Nat → Nat
  | 0, pos => pos
  | n + 1, pos =>
    match tokens[pos]? with
    | some t => if t.kind.isTrivia then skipTriviaFrom tokens n (pos + 1) else pos
    | none => pos

/-- Moves past trivia, which then wait to be placed. -/
def skipTrivia : Parse Unit :=
  modify fun s => { s with pos := skipTriviaFrom s.tokens (s.tokens.size - s.pos) s.pos }

/-- The token that is next after trivia. -/
def currentToken? : Parse (Option Token) := do
  skipTrivia
  return (← get).tokens[(← get).pos]?

/-- The kind of the current token; `error` at the end. Looking costs patience. -/
def current : Parse Kind := do
  let t ← currentToken?
  if (← get).patience == 0 then raise .stuck
  modify fun s => { s with patience := s.patience - 1 }
  return (t.map (·.kind)).getD error

/-- The text of the current token, empty at the end. -/
def currentText : Parse String := do
  return ((← currentToken?).map (·.text)).getD ""

/-- The index of the `n`-th token that is no trivia, at or after the cursor. -/
def nthIndex? (n : Nat) : Parse (Option Nat) := do
  skipTrivia
  let s ← get
  let rec find (k : Nat) (pos : Nat) : Option Nat :=
    let here := skipTriviaFrom s.tokens (s.tokens.size - pos) pos
    if here < s.tokens.size then
      match k with
      | 0 => some here
      | k + 1 => find k (here + 1)
    else none
  return find n s.pos

/-- The kind of the `n`-th token ahead; `error` past the end. -/
def peek (n : Nat) : Parse Kind := do
  match ← nthIndex? n with
  | some i => return ((← get).tokens[i]?.map (·.kind)).getD error
  | none => return error

/-- The text of the `n`-th token ahead; empty past the end. -/
def peekText (n : Nat) : Parse String := do
  match ← nthIndex? n with
  | some i => return ((← get).tokens[i]?.map (·.text)).getD ""
  | none => return ""

/-- A token ends a line, or is a comment that holds a line end. -/
def breaksLine (t : Token) : Bool :=
  t.kind == newline || (t.kind == blockComment && t.text.toList.contains '\n')

/-- The first index at or before `pos` with only trivia between it and `pos`. -/
def triviaStart (tokens : Array Token) : Nat → Nat
  | 0 => 0
  | pos + 1 =>
    match tokens[pos]? with
    | some t => if t.kind.isTrivia then triviaStart tokens pos else pos + 1
    | none => pos + 1

/-- A line break separates the `n`-th token ahead from the one before it. -/
def lineBreakBefore (n : Nat) : Parse Bool := do
  match ← nthIndex? n with
  | none => return false
  | some stop =>
    let s ← get
    let first? ← match n with
      | 0 => pure (some (triviaStart s.tokens s.pos))
      | n + 1 => (·.map (· + 1)) <$> nthIndex? n
    match first? with
    | none => return false
    | some first => return (s.tokens.extract first stop).any breaksLine

/-- The end of the text, or a failure, has been reached. -/
def atEnd : Parse Bool := do
  skipTrivia
  let s ← get
  return s.tokens.size ≤ s.pos || s.failure.isSome

/-- The current token has a kind. -/
def at? (k : Kind) : Parse Bool := return (← current) == k

/-- The current token is an identifier with a text. -/
def atWord (word : String) : Parse Bool := do
  if (← current) == ident then return (← currentText) == word else return false

/-! ## Placing tokens -/

/-- Places the tokens up to an index. -/
def placeTo (index : Nat) : Parse Unit :=
  modify fun s => { s with
    row := (s.tokens.extract s.placed index).foldl (fun row t => row.push (.token t)) s.row
    placed := max s.placed index }

/-- Places the trivia that wait. -/
def placeTrivia : Parse Unit := do
  placeTo (← get).pos

/-- Charges one token; with none left the parse fails, once. -/
def charge : Parse Unit :=
  modify fun s =>
    match s.limits.tokens with
    | none => s
    | some limit =>
      if s.spent < limit then { s with spent := s.spent + 1 }
      else { s with failure := s.failure.or (some .outOfTokens) }

/-- Places the current token and moves past it. Does nothing at the end. -/
def bump : Parse Unit := do
  skipTrivia
  let s ← get
  if s.pos < s.tokens.size then
    modify fun s => { s with patience := fullPatience }
    charge
    modify fun s => { s with pos := s.pos + 1 }
    placeTrivia

/-- Takes the current token if it has a kind. -/
def eat (k : Kind) : Parse Bool := do
  if ← at? k then
    bump
    return true
  else return false

/-- Takes the current token if it is an identifier with a text. -/
def eatWord (word : String) : Parse Bool := do
  if ← atWord word then
    bump
    return true
  else return false

/-- Runs a step if the current token has a kind. -/
def whenAt (k : Kind) (step : Parse Unit) : Parse Unit := do
  if ← at? k then step

/-! ## Opening and closing nodes -/

/-- The state with a node of a kind opened at a place of the row. -/
def State.opening (k : Kind) (m : Nat) (s : State) : State :=
  { s with opened := (k, m) :: s.opened, openings := (k, s.inExtends) :: s.openings }

/-- Opens a node, before which the trivia that wait are placed; answers how many nodes are open. -/
def openNode (k : Kind) : Parse Nat := do
  placeTrivia
  modify fun s => s.opening k s.row.size
  return (← get).opened.length

/-- The place of the next element, after the trivia. -/
def mark : Parse Nat := do
  skipTrivia
  placeTrivia
  return (← get).row.size

/-- Opens a node that starts at a mark; answers how many nodes are open. -/
def openAt (m : Nat) (k : Kind) : Parse Nat := do
  let s ← get
  if s.row.size < m || (s.opened.head?.map (·.2)).any (m < ·) then raise .staleMark
  modify (State.opening k m)
  return (← get).opened.length

/-- The byte offset after what is placed. -/
def placedStop (s : State) : Nat :=
  match s.placed with
  | 0 => 0
  | n + 1 => (s.tokens[n]?.map Token.stop).getD s.textSize

/-- The node of a kind with elements that end at byte `stop`. -/
def nodeOf (k : Kind) (children : List Tree) (stop : Nat) : Tree :=
  .node k ((children.head?.map Tree.start).getD stop) stop children

/-- The state with the elements of the innermost open node made into that node. -/
def State.closed (s : State) : State :=
  match s.opened with
  | [] => s
  | (k, m) :: opened =>
    let node := nodeOf k (s.row.extract m s.row.size).toList (placedStop s)
    { s with opened, row := (s.row.shrink m).push node }

/-- Closes the innermost open node, which must be the `count`-th. -/
def closeNode (count : Nat) : Parse Unit := do
  if (← get).opened.length != count then raise .unbalanced
  modify State.closed

/-- Runs a step inside a node. -/
def within {α : Type} (k : Kind) (step : Parse α) : Parse α := do
  let count ← openNode k
  let out ← step
  closeNode count
  return out

/-- Runs a step inside a node that starts at a mark. -/
def withinFrom {α : Type} (start : Nat) (k : Kind) (step : Parse α) : Parse α := do
  let count ← openAt start k
  let out ← step
  closeNode count
  return out

/-- Takes the current token as a node of its own. -/
def bumpAs (k : Kind) : Parse Unit := within k bump

/-! ## Reporting -/

/-- The bytes of the current token; empty at the end of the text. -/
def currentSpan : Parse Span := do
  let t ← currentToken?
  let s ← get
  match t with
  | some t => return ⟨s.source, t.start, t.stop⟩
  | none => return ⟨s.source, s.textSize, s.textSize⟩

/-- Reports at the current token, unless the last report was there. -/
def reportWith (kind : DiagnosticKind) (args : List String) : Parse Unit := do
  let span ← currentSpan
  modify fun s =>
    if s.lastReport == some span.start then s
    else { s with
      lastReport := some span.start
      diagnostics := s.diagnostics.push (.detailed kind (some span) args) }

/-- Reports a kind in its plain words. -/
def report (kind : DiagnosticKind) : Parse Unit := reportWith kind []

/-- Reports that a token is missing. -/
def reportExpected (what : String) : Parse Unit := reportWith .expectedToken [what]

/-- Reports a form that declaration sources do not have. -/
def reportUnsupported (what : String) : Parse Unit := reportWith .unsupportedForm [what]

/-- Takes a token of a kind; when it is missing that is reported and nothing is taken. -/
def expect (k : Kind) (what : String) : Parse Bool := do
  if ← eat k then return true
  reportExpected what
  return false

/-- Reports and takes the current token as an error node. -/
def reportAndBump (kind : DiagnosticKind) : Parse Unit := do
  report kind
  let s ← get
  if s.pos < s.tokens.size then bumpAs error

/-! ## Repeating and nesting -/

/-- Repeats a step while it answers `true`, fewer than `n` times. -/
def iterate : Nat → Parse Bool → Parse Unit
  | 0, _ => raise .endless
  | n + 1, step => do
    if ← step then iterate n step

/-- Repeats a step that takes a token whenever it answers `true`. -/
def repeatWhile (step : Parse Bool) : Parse Unit := do
  iterate ((← get).tokens.size + 1) step

/-- Takes tokens into an error node until one of a set is next. -/
def skipUntil (stop : Kind → Bool) : Parse Unit := do
  if stop (← current) then return
  if ← atEnd then return
  within error <| repeatWhile do
    if stop (← current) then return false
    if ← atEnd then return false
    bump
    return true

/-- Goes one level deeper, if the limit allows. -/
def enter : Parse Bool := do
  let s ← get
  if s.limits.nesting.any (· ≤ s.depth) then
    set { s with failure := s.failure.or (some .tooDeep) }
    return false
  set { s with depth := s.depth + 1, patience := fullPatience }
  return true

/-- Comes back up one level. -/
def leave : Parse Unit :=
  modify fun s => { s with depth := s.depth - 1, patience := fullPatience }

/-- Runs a step with conditional types allowed again, as inside brackets. -/
def allowingConditional {α : Type} (step : Parse α) : Parse α := do
  let saved := (← get).inExtends
  modify fun s => { s with inExtends := false }
  let out ← step
  modify fun s => { s with inExtends := saved }
  return out

/-! ## Sets of tokens -/

/-- Tokens that start a statement, or end one. -/
def recoversStatement : Kind → Bool
  | kwExport | kwImport | kwConst | kwVar | kwFunction | kwClass | kwEnum | semicolon => true
  | _ => false

/-- Tokens at which a member ends. -/
def recoversMember : Kind → Bool
  | braceClose | semicolon | comma => true
  | _ => false

/-- Tokens at which a list ends. -/
def recoversList : Kind → Bool
  | parenClose | bracketClose | gt | braceClose | semicolon => true
  | _ => false

/-- Opening brackets. -/
def opensBracket : Kind → Bool
  | parenOpen | bracketOpen | braceOpen => true
  | _ => false

/-- Closing brackets. -/
def closesBracket : Kind → Bool
  | parenClose | bracketClose | braceClose => true
  | _ => false

end Parser

end DeclKit

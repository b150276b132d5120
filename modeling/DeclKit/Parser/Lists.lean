/-
Names, lists and skipped expressions: what the productions for types, members and statements share.

Expressions are never parsed. They are taken as runs of tokens with balanced brackets, up to a token
that ends them or a line break at which a statement ends by itself.
-/
import DeclKit.Parser.State

set_option autoImplicit false

namespace DeclKit.Parser

open Kind

/-! ## Names -/

/-- A declared name: a plain identifier. -/
def bindingName : Parse Bool := do
  if (← current) == ident then
    bumpAs name
    return true
  report .expectedIdentifier
  return false

/-- Tokens that a member name can start with. -/
def startsMemberName (k : Kind) : Bool :=
  k.isIdentifierLike || k == stringLiteral || k == numberLiteral || k == bracketOpen

/-- The name in an import or export list. -/
def specifierName : Parse Bool := do
  let k ← current
  if k.isIdentifierLike || k == stringLiteral then
    bumpAs name
    return true
  report .expectedIdentifier
  return false

/-- A quoted module specifier. -/
def moduleName : Parse Unit := do
  if ← at? stringLiteral then bumpAs moduleSpecifier
  else report .expectedStringLiteral

/-- A part of a dotted name. -/
def entityPart : Parse Bool := do
  if (← current).isIdentifierLike then
    bump
    return true
  report .expectedIdentifier
  return false

/-- Names joined by dots. -/
def entity : Parse Unit := within entityName do
  let _ ← entityPart
  repeatWhile do
    if ← eat dot then entityPart else return false

/-! ## Skipping -/

/-- Takes tokens until the brackets counted by `depth` are closed; answers whether they are. -/
def closeBrackets : Nat → Nat → Parse Bool
  | 0, _ => do
    raise .endless
    return false
  | n + 1, depth => do
    if ← atEnd then return false
    let k ← current
    let depth := if opensBracket k then depth + 1 else if closesBracket k then depth - 1 else depth
    bump
    if depth == 0 then return true
    closeBrackets n depth

/-- Takes one bracketed group as it stands, nested groups included. -/
def skipBalanced : Parse Unit := do
  unless ← closeBrackets ((← get).tokens.size + 1) 0 do
    report .expectedToken

/-- Tokens after which a line break can end a statement. -/
def endsExpression : Kind → Bool
  | ident | stringLiteral | numberLiteral | bigIntLiteral | noSubstitutionTemplate | templateTail
  | kwTrue | kwFalse | kwNull | kwThis | parenClose | bracketClose | braceClose => true
  | _ => false

/-- Tokens that carry an expression across a line break. -/
def carriesExpression : Kind → Bool
  | dot | question | colon | equals | arrow | plus | minus | .star | slash | pipe | amp | lt | gt
  | comma | operator | parenOpen | bracketOpen | templateHead | noSubstitutionTemplate | kwIn => true
  | _ => false

/-- The current token carries the expression before it across a line break. -/
def continuesExpression : Parse Bool := do
  if carriesExpression (← current) then return true
  if (← current) == ident then
    let text ← currentText
    return text == "as" || text == "satisfies" || text == "instanceof"
  return false

/-- How many brackets are open after a token, `depth` having been open before it. -/
def openBrackets (depth : Nat) (k : Kind) : Parse Nat := do
  if opensBracket k then return depth + 1
  if closesBracket k then
    if depth == 0 then raise .underflow
    return depth - 1
  return depth

/-- Takes tokens of an expression inside `depth` brackets, the token before being `before`; answers
the last token taken. -/
def skipExpressionFrom (stop : Kind → Bool) : Nat → Nat → Option Kind → Parse (Option Kind)
  | 0, _, before => do
    raise .endless
    return before
  | n + 1, depth, before => do
    if ← atEnd then return before
    let k ← current
    if depth == 0 then
      if stop k || closesBracket k then return before
      if before.any endsExpression then
        if ← lineBreakBefore 0 then
          if !(← continuesExpression) then return before
    let depth ← openBrackets depth k
    bump
    skipExpressionFrom stop n depth (some k)

/-- Takes an expression up to a stopping token, an unmatched closing bracket, or a line break that
ends the statement; answers whether anything was taken. -/
def skipExpression (stop : Kind → Bool) : Parse Bool := do
  return (← skipExpressionFrom stop ((← get).tokens.size + 1) 0 none).isSome

/-! ## Lists -/

/-- A member name: an identifier or reserved word, a literal, or an expression in brackets. -/
def memberName : Parse Bool := do
  let k ← current
  if k == bracketOpen then
    within name do
      bump
      let _ ← skipExpression (· == bracketClose)
      let _ ← expect bracketClose "]"
    return true
  if startsMemberName k then
    bumpAs name
    return true
  report .expectedIdentifier
  return false

/-- A parameter name; a destructuring pattern is taken as it stands. -/
def parameterName : Parse Bool := do
  let k ← current
  if k == ident || k == kwThis then
    bumpAs name
    return true
  if k == braceOpen || k == bracketOpen then
    within name skipBalanced
    return true
  report .expectedIdentifier
  return false

/-- Items between commas up to a closing token, the opening one having been taken. -/
def commaList (close : Kind) (closeText : String) (item : Parse Bool) : Parse Bool := do
  repeatWhile do
    if ← atEnd then return false
    if ← at? close then return false
    if !(← item) then skipUntil fun k => recoversList k || k == comma
    eat comma
  expect close closeText

end DeclKit.Parser

/-
Members of object types, signatures, parameters and type parameters.

Every production here takes the production for types as an argument, because types and members hold
each other; the knot is tied where types are defined.
-/
import DeclKit.Parser.Lists

set_option autoImplicit false

namespace DeclKit.Parser

open Kind

/-- The word `asserts` stands here before the name of a parameter on the same line. -/
def atAsserts : Parse Bool := do
  if ← atWord "asserts" then
    let next ← peek 1
    if next == ident || next == kwThis then return !(← lineBreakBefore 1)
  return false

/-- A token of a kind is here, followed by `is` on the same line. -/
def atPredicate (k : Kind) : Parse Bool := do
  if k == ident || k == kwThis then
    if (← peek 1) == ident && (← peekText 1) == "is" then return !(← lineBreakBefore 1)
  return false

/-- A name, and the type that `is` gives it. -/
def predicateRest (type : Parse Bool) : Parse Unit := do
  bumpAs name
  if ← eatWord "is" then
    let _ ← type

/-- A type, or in return position a predicate `x is T`, `asserts x` or `asserts x is T`. -/
def typeOrPredicate (type : Parse Bool) : Parse Bool := do
  let k ← current
  let asserts ← atAsserts
  let predicate ← atPredicate k
  if asserts then
    within typePredicate do
      bump
      predicateRest type
    return true
  if predicate then
    within typePredicate (predicateRest type)
    return true
  type

/-- A colon and a type. -/
def colonType (type : Parse Bool) : Parse Bool := within Kind.colonType do
  if ← expect colon ":" then type else return false

/-- A colon and a type or predicate. -/
def returnType (type : Parse Bool) : Parse Unit := within Kind.returnType do
  if ← expect colon ":" then
    let _ ← typeOrPredicate type

/-- Modifiers of a type parameter; `out` is one only before a name. -/
def typeParamModifiers : Parse Unit := repeatWhile do
  let k ← current
  if k == kwConst || k == kwIn then
    bump
    return true
  if ← atWord "out" then
    if (← peek 1) == ident then
      bump
      return true
  return false

/-- A type parameter with its modifiers, constraint and default. -/
def typeParam (type : Parse Bool) : Parse Bool := within Kind.typeParam do
  typeParamModifiers
  let named ← bindingName
  whenAt kwExtends <| within Kind.constraint do
    bump
    let _ ← type
  whenAt equals <| within Kind.defaultType do
    bump
    let _ ← type
  return named

/-- Type parameters in angle brackets. -/
def typeParams (type : Parse Bool) : Parse Unit := within typeParamList do
  bump
  let _ ← allowingConditional (commaList gt ">" (typeParam type))

/-- Type arguments in angle brackets. -/
def typeArgs (type : Parse Bool) : Parse Unit := within typeArgList do
  bump
  let _ ← allowingConditional (commaList gt ">" type)

/-- Words that make a parameter a property, which declaration sources do not have. -/
def isParameterModifier (word : String) : Bool :=
  ["public", "private", "protected", "readonly", "override"].contains word

/-- Reports a parameter that has such a modifier. -/
def reportParameterProperty : Parse Unit := do
  if (← current) == ident then
    if isParameterModifier (← currentText) then
      let next ← peek 1
      if next == ident || next == braceOpen || next == bracketOpen then
        reportUnsupported "Parameter properties"

/-- A parameter: `...name?: T = init`. -/
def param (type : Parse Bool) : Parse Bool := do
  reportParameterProperty
  within Kind.param do
    let _ ← eat dotDotDot
    let named ← parameterName
    let _ ← eat question
    whenAt colon do
      let _ ← colonType type
    whenAt equals <| within initializer do
      bump
      let _ ← skipExpression (· == comma)
    return named

/-- Parameters in parentheses. -/
def params (type : Parse Bool) : Parse Unit := within paramList do
  if ← expect parenOpen "(" then
    let _ ← allowingConditional (commaList parenClose ")" (param type))

/-- Type parameters, parameters and return type of a call, construct or method signature. -/
def signatureRest (type : Parse Bool) : Parse Unit := do
  whenAt lt (typeParams type)
  params type
  whenAt colon (returnType type)

/-- A member name follows `readonly` on the same line, so that the word is a modifier. -/
def modifiesMember : Parse Bool := do
  if startsMemberName (← peek 1) then return !(← lineBreakBefore 1) else return false

/-- An index signature starts here: `[name: K]: T`. -/
def atIndexSignature : Parse Bool := do
  if ← at? bracketOpen then
    if (← peek 1).isIdentifierLike then return (← peek 2) == colon
  return false

/-- Takes the modifiers of a member. -/
def memberModifiers : Parse Unit := repeatWhile do
  if ← atWord "readonly" then
    if ← modifiesMember then
      bump
      return true
  return false

/-- An index signature, from its bracket on. -/
def indexSignature (type : Parse Bool) : Parse Unit := do
  bump
  within Kind.param do
    let _ ← bindingName
    let _ ← colonType type
  let _ ← expect bracketClose "]"
  let _ ← colonType type

/-- Reports that a member has no name; modifiers alone make it a property. -/
def unnamedMember (start : Nat) (modified : Bool) : Parse Unit :=
  if modified then withinFrom start propertySig (report .expectedIdentifier)
  else report .expectedIdentifier

/-- What follows the name of a member: only here it shows whether it is a method. -/
def memberRest (type : Parse Bool) (start : Nat) : Parse Unit := do
  let _ ← eat question
  let k ← current
  if k == parenOpen || k == lt then withinFrom start methodSig (signatureRest type)
  else withinFrom start propertySig <| whenAt colon do
    let _ ← colonType type

/-- A member that has a name: property, method or index signature. -/
def namedMember (type : Parse Bool) : Parse Bool := do
  let start ← mark
  let before := (← get).pos
  memberModifiers
  let modified := before < (← get).pos
  if ← atIndexSignature then
    withinFrom start indexSig (indexSignature type)
    return true
  if !startsMemberName (← current) then
    unnamedMember start modified
    return false
  let _ ← memberName
  memberRest type start
  return true

/-- A member of an object type. -/
def member (type : Parse Bool) : Parse Bool := do
  let k ← current
  if k == parenOpen || k == lt then
    within callSig (signatureRest type)
    return true
  if k == kwNew then
    let next ← peek 1
    if next == parenOpen || next == lt then
      within constructSig do
        bump
        signatureRest type
      return true
  namedMember type

/-- A member, or what stands in its place up to where one could end. -/
def memberOrSkipped (type : Parse Bool) : Parse Unit := do
  if !(← member type) then skipUntil recoversMember

/-- What ends a member: a semicolon, a comma, a line break, or the end of the members. -/
def memberEnd : Parse Unit := do
  if ← eat semicolon then return
  if ← eat comma then return
  if ← at? braceClose then return
  if ← lineBreakBefore 0 then return
  reportExpected ";"

/-- Members up to a closing brace. -/
def members (type : Parse Bool) : Parse Unit := repeatWhile do
  if ← atEnd then return false
  if ← at? braceClose then return false
  memberOrSkipped type
  memberEnd
  return true

/-- Members in braces. Interface bodies are read by this too. -/
def objectType (type : Parse Bool) : Parse Unit := within Kind.objectType do
  let _ ← expect braceOpen "\x7b"
  allowingConditional (members type)
  let _ ← expect braceClose "\x7d"

end DeclKit.Parser

/-
Types.

From the loosest to the tightest binding: function, constructor and conditional types; unions;
intersections; prefix operators; array and indexed access types; primary types. A type nests in itself
only through the production `type`, which counts the nesting, so the productions below take the inner
production as an argument and `typeAt` ties the knot by a bound on the depth. Each level of nesting
takes at least one token, so the number of tokens is bound enough.
-/
import DeclKit.Parser.Members

set_option autoImplicit false

namespace DeclKit.Parser

open Kind

/-- Words that name built-in types. -/
def keywordTypes : List String :=
  ["any", "unknown", "string", "number", "bigint", "boolean", "symbol", "object", "never",
   "undefined", "intrinsic"]

/-! ## Function and constructor types -/

/-- After `(`, only a parameter list can go on like this. -/
def atParameters : Parse Bool := do
  match ← peek 1 with
  | parenClose | dotDotDot => return true
  | ident | kwThis =>
    match ← peek 2 with
    | colon | comma | question | equals => return true
    | parenClose => return (← peek 3) == arrow
    | _ => return false
  | _ => return false

/-- A function type starts here. -/
def atFunctionType : Parse Bool := do
  match ← current with
  | lt => return true
  | parenOpen => atParameters
  | _ => return false

/-- Type parameters, parameters, and what the arrow leads to. -/
def arrowRest (type : Parse Bool) : Parse Unit := do
  whenAt lt (typeParams type)
  params type
  within Kind.returnType do
    let _ ← expect arrow "=>"
    let _ ← typeOrPredicate type

/-- A function type. -/
def functionType (type : Parse Bool) : Parse Unit :=
  within Kind.functionType (arrowRest type)

/-- A constructor type, which may be abstract. -/
def constructorType (type : Parse Bool) : Parse Unit := within Kind.constructorType do
  let _ ← eatWord "abstract"
  bump
  arrowRest type

/-- A constructor type starts here. -/
def atConstructorType : Parse Bool := do
  if ← at? kwNew then return true
  if ← atWord "abstract" then return (← peek 1) == kwNew
  return false

/-! ## Primary types -/

/-- A dotted name, and type arguments that start on the same line. -/
def entityWithArgs (type : Parse Bool) : Parse Unit := do
  entity
  whenAt lt do
    if !(← lineBreakBefore 0) then typeArgs type

/-- A type reference. -/
def typeReference (type : Parse Bool) : Parse Unit := within typeRef (entityWithArgs type)

/-- The type of a value: `typeof a.b<T>`. -/
def typeQuery (type : Parse Bool) : Parse Unit := within Kind.typeQuery do
  bump
  entityWithArgs type

/-- A template with substitutions: the head, then a type and the text after it, repeatedly. -/
def templateType (type : Parse Bool) : Parse Unit := within templateLiteralType do
  bump
  repeatWhile <| within templateSpan do
    let _ ← allowingConditional type
    let k ← current
    if k == templateMiddle || k == templateTail then
      bump
      return k == templateMiddle
    reportExpected "\x7d"
    return false

/-- A name and a colon stand at a place ahead, with or without a question mark between them. -/
def atLabel (nameAt : Nat) : Parse Bool := do
  if (← peek nameAt).isIdentifierLike then
    match ← peek (nameAt + 1) with
    | colon => return true
    | question => return (← peek (nameAt + 2)) == colon
    | _ => return false
  return false

/-- An element of a tuple: `T`, `T?`, `...T`, and the same with a name. -/
def tupleElement (type : Parse Bool) : Parse Bool := do
  let rest ← at? dotDotDot
  if ← atLabel (if rest then 1 else 0) then
    within namedTupleMember do
      let _ ← eat dotDotDot
      bumpAs name
      let _ ← eat question
      let _ ← expect colon ":"
      type
  else if rest then
    within restType do
      bump
      type
  else
    let start ← mark
    if !(← type) then return false
    whenAt question (withinFrom start optionalType bump)
    return true

/-- A tuple type. -/
def tupleType (type : Parse Bool) : Parse Unit := within Kind.tupleType do
  bump
  let _ ← allowingConditional (commaList bracketClose "]" (tupleElement type))

/-- A mapped type starts here: a brace and `[K in`, with or without a `readonly` modifier. -/
def atMappedType : Parse Bool := do
  let k ← peek 1
  if k == plus || k == minus then return (← peekText 2) == "readonly"
  let i := if k == ident && (← peekText 1) == "readonly" then 2 else 1
  if (← peek i) == bracketOpen then
    if (← peek (i + 1)).isIdentifierLike then return (← peek (i + 2)) == kwIn
  return false

/-- The parameter of a mapped type, `K in T` or `K in T as U`. -/
def mappedParam (type : Parse Bool) : Parse Unit := within mappedTypeParam do
  bumpAs name
  let _ ← expect kwIn "in"
  let _ ← type
  if ← eatWord "as" then
    let _ ← type

/-- Takes a sign before a modifier of a mapped type; answers whether there is one. -/
def mappedSign : Parse Bool := do
  let k ← current
  if k == plus || k == minus then
    bump
    return true
  return false

/-- What stands behind the bracket of a mapped type. -/
def mappedRest (type : Parse Bool) : Parse Unit := do
  if ← mappedSign then
    let _ ← expect question "?"
  else
    let _ ← eat question
  whenAt colon <| within Kind.colonType do
    bump
    let _ ← type
  if !(← eat semicolon) then
    let _ ← eat comma

/-- What stands between the braces of a mapped type. -/
def mappedBody (type : Parse Bool) : Parse Unit := do
  let _ ← mappedSign
  let _ ← eatWord "readonly"
  let _ ← expect bracketOpen "["
  mappedParam type
  let _ ← expect bracketClose "]"
  mappedRest type

/-- A mapped type. -/
def mappedType (type : Parse Bool) : Parse Unit := within Kind.mappedType do
  bump
  allowingConditional (mappedBody type)
  let _ ← expect braceClose "\x7d"

/-- A type in parentheses. -/
def parenthesizedType (type : Parse Bool) : Parse Unit := within parenType do
  bump
  let _ ← allowingConditional type
  let _ ← expect parenClose ")"

/-- Reports that a type is missing; a token that could not be understood further out is taken. -/
def missingType : Parse Bool := do
  let k ← current
  let ended ← if recoversList k || recoversStatement k then pure true else atEnd
  if ended then report .expectedType else reportAndBump .expectedType
  return false

/-- A type that no operator binds. -/
def primaryType (type : Parse Bool) : Parse Bool := do
  match ← current with
  | ident =>
    if keywordTypes.contains (← currentText) then
      if (← peek 1) == dot then typeReference type else bumpAs keywordType
    else typeReference type
    return true
  | kwVoid | kwNull =>
    bumpAs keywordType
    return true
  | kwThis =>
    bumpAs thisType
    return true
  | kwTrue | kwFalse | stringLiteral | numberLiteral | bigIntLiteral | noSubstitutionTemplate =>
    bumpAs literalType
    return true
  | minus =>
    let next ← peek 1
    if next == numberLiteral || next == bigIntLiteral then
      within literalType do
        bump
        bump
      return true
    else missingType
  | templateHead =>
    templateType type
    return true
  | kwTypeof =>
    typeQuery type
    return true
  | braceOpen =>
    if ← atMappedType then mappedType type else objectType type
    return true
  | bracketOpen =>
    tupleType type
    return true
  | parenOpen =>
    parenthesizedType type
    return true
  | _ => missingType

/-! ## Operators -/

/-- Brackets behind the type that starts at a mark; a line break before them ends the type. -/
def bracketSuffix (type : Parse Bool) (start : Nat) : Parse Bool := do
  if !(← at? bracketOpen) then return false
  if ← lineBreakBefore 0 then return false
  if (← peek 1) == bracketClose then
    withinFrom start arrayType do
      bump
      bump
    return true
  withinFrom start indexedAccessType do
    bump
    let _ ← allowingConditional type
    let _ ← expect bracketClose "]"
  return true

/-- Array types and indexed access. -/
def postfixType (type : Parse Bool) : Parse Bool := do
  let start ← mark
  if !(← primaryType type) then return false
  repeatWhile (bracketSuffix type start)
  return true

/-- Tokens after which a word such as `keyof` is a name and no operator. -/
def endsOperand : Kind → Bool
  | comma | semicolon | parenClose | bracketClose | braceClose | gt | equals | colon | pipe | amp
  | question | dot | lt | error => true
  | _ => false

/-- Prefix operators, at most `n` of them, and `infer`. -/
def operatorType (type : Parse Bool) : Nat → Parse Bool
  | 0 => do
    raise .endless
    return false
  | n + 1 => do
    if (← current) == ident then
      let text ← currentText
      let next ← peek 1
      if (text == "keyof" || text == "unique" || text == "readonly") && !endsOperand next then
        within typeOperator do
          bump
          let _ ← operatorType type n
        return true
      if text == "infer" && next == ident then
        within inferType do
          bump
          within Kind.typeParam do
            let _ ← bindingName
        return true
    postfixType type

/-- Operators and the operands behind them. -/
def moreOperands (op : Kind) (operand : Parse Bool) : Parse Unit := repeatWhile do
  if ← eat op then operand else return false

/-- Operands joined by an operator, which may also stand before the first. -/
def binaryType (op node : Kind) (operand : Parse Bool) : Parse Bool := do
  let start ← mark
  if ← at? op then
    within node do
      bump
      if ← operand then whenAt op (moreOperands op operand)
    return true
  if !(← operand) then return false
  whenAt op (withinFrom start node (moreOperands op operand))
  return true

/-- An intersection, or what binds tighter. -/
def intersection (type : Parse Bool) : Parse Bool := do
  let n := (← get).tokens.size + 1
  binaryType amp intersectionType (operatorType type n)

/-- A union, or what binds tighter. -/
def union (type : Parse Bool) : Parse Bool := binaryType pipe unionType (intersection type)

/-- What makes a conditional type of its subject. -/
def conditionalRest (type : Parse Bool) : Parse Unit := do
  bump
  modify fun s => { s with inExtends := true }
  let _ ← type
  modify fun s => { s with inExtends := false }
  let _ ← expect question "?"
  let _ ← type
  let _ ← expect colon ":"
  let _ ← type

/-- A union that turns out to be the subject of a conditional type. -/
def conditionalOrUnion (type : Parse Bool) : Parse Bool := do
  let start ← mark
  if !(← union type) then return false
  if (← get).inExtends then return true
  whenAt kwExtends do
    if !(← lineBreakBefore 0) then withinFrom start conditionalType (conditionalRest type)
  return true

/-- A type whose parts are read by an inner production, within the nesting that has been entered. -/
def typeHere (type : Parse Bool) : Parse Bool := do
  if ← atFunctionType then
    functionType type
    return true
  if ← atConstructorType then
    constructorType type
    return true
  conditionalOrUnion type

/-- A type whose parts are read by an inner production. -/
def typeWith (type : Parse Bool) : Parse Bool := do
  if !(← enter) then return false
  let parsed ← typeHere type
  leave
  return parsed

/-- A type nested at most `n` deep. -/
def typeAt : Nat → Parse Bool
  | 0 => do
    raise .endless
    return false
  | n + 1 => typeWith (typeAt n)

/-- A type. -/
def type : Parse Bool := do
  typeAt ((← get).tokens.size + 1)

end DeclKit.Parser

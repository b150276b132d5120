/-
Statements: imports, exports and declarations.

Everything that is no declaration of a type, interface, function or variable is still taken into the
tree: classes, enums and namespaces are reported and skipped, other statements are skipped as
expressions.
-/
import DeclKit.Parser.Types

set_option autoImplicit false

namespace DeclKit.Parser

open Kind

/-! ## Imports and exports -/

/-- The word `type` is a modifier of the item that follows. -/
def typeOnlySpecifier : Parse Bool := do
  let next ← peek 1
  if ← atWord "type" then
    if next.isIdentifierLike || next == stringLiteral then
      if (← peekText 1) != "as" then return true
      return (← peekText 2) == "as"
  return false

/-- Takes the current token if a look at it says so. -/
def bumpIf (look : Parse Bool) : Parse Unit := do
  if ← look then bump

/-- An item of an import or export list: `type name as alias`. -/
def specifier (k : Kind) : Parse Bool := within k do
  bumpIf typeOnlySpecifier
  let ok ← specifierName
  if ← eatWord "as" then
    let _ ← specifierName
  return ok

/-- Attributes of an import stand here: a word and a brace on the same line. -/
def atImportAttributes : Parse Bool := do
  let word ← if ← atWord "with" then pure true else atWord "assert"
  if word then
    if (← peek 1) == braceOpen then return !(← lineBreakBefore 0)
  return false

/-- Attributes after an import: `with` and a group in braces. -/
def importAttributes : Parse Unit := do
  if ← atImportAttributes then
    within error do
      bump
      skipBalanced

/-- After `import`, the word `type` is a modifier and not the imported name. -/
def typeOnlyImport : Parse Bool := do
  if ← atWord "type" then
    match ← peek 1 with
    | braceOpen | .star => return true
    | ident => if (← peekText 1) != "from" then return true else return (← peek 2) == ident
    | _ => return false
  return false

/-- Takes a word; when it is missing that is reported. -/
def expectWord (word : String) : Parse Unit := do
  if !(← eatWord word) then reportExpected word

/-- The names that an import takes from a module. -/
def importedNames : Parse Unit := do
  match ← current with
  | .star =>
    within namespaceImport do
      bump
      expectWord "as"
      let _ ← bindingName
  | braceOpen =>
    within namedImports do
      bump
      let _ ← commaList braceClose "\x7d" (specifier importSpecifier)
  | _ => pure ()

/-- What an import statement binds. Answers `false` for an import assignment, which has been
reported. -/
def importBindings : Parse Bool := within importClause do
  if (← current) == ident then
    let _ ← bindingName
    if ← at? equals then
      reportUnsupported "Import assignments"
      return false
    let _ ← eat comma
  importedNames
  return true

/-- What an import statement takes, and from where. -/
def importRest : Parse Unit := do
  if ← at? stringLiteral then moduleName
  else
    bumpIf typeOnlyImport
    if ← importBindings then
      expectWord "from"
      moduleName
      importAttributes
    else
      let _ ← skipExpression (· == semicolon)

/-- Checks that a production is entered at its own token. -/
def assertAt (k : Kind) : Parse Unit := do
  if (← current) != k then raise .misplaced

/-- An import statement. -/
def importStatement : Parse Unit := do
  assertAt kwImport
  within importDecl do
    bump
    importRest
    let _ ← eat semicolon

/-- What an export statement gives, and from where. -/
def exportRest : Parse Unit := do
  if ← at? star then
    within exportStar do
      bump
      if ← eatWord "as" then
        let _ ← specifierName
    expectWord "from"
    moduleName
  else
    within namedExports do
      bump
      let _ ← commaList braceClose "\x7d" (specifier exportSpecifier)
    if ← eatWord "from" then moduleName

/-- An export list or a star export. -/
def exportStatement : Parse Unit := do
  assertAt kwExport
  within exportDecl do
    bump
    let _ ← eatWord "type"
    exportRest
    importAttributes
    let _ ← eat semicolon

/-- An exported expression: `export = e` or `export default e`. -/
def exportedExpression : Parse Unit := within exportAssignment do
  bump
  bump
  within initializer do
    if !(← skipExpression (· == semicolon)) then report .unsupportedForm
  let _ ← eat semicolon

/-! ## Declarations -/

/-- The rest of a type alias. -/
def typeAliasRest : Parse Unit := do
  bump
  let _ ← bindingName
  whenAt lt (typeParams type)
  if ← expect equals "=" then
    let _ ← type
  let _ ← eat semicolon

/-- Types that an interface extends. -/
def heritage : Parse Unit := within heritageClause do
  bump
  repeatWhile do
    within typeRef do
      entity
      whenAt lt (typeArgs type)
    eat comma

/-- The rest of an interface. -/
def interfaceRest : Parse Unit := do
  bump
  let _ ← bindingName
  whenAt lt (typeParams type)
  whenAt kwExtends heritage
  objectType type

/-- A body in braces, or the semicolon that stands in its place. -/
def bodyOrSemicolon (body : Parse Unit) : Parse Unit := do
  if ← at? braceOpen then body
  else
    let _ ← eat semicolon

/-- The star of a generator, which is reported. -/
def generatorStar : Parse Unit := do
  if ← eat star then reportUnsupported "Generator functions"

/-- The rest of a function, with a body or without. -/
def functionRest : Parse Unit := do
  let _ ← eatWord "async"
  bump
  generatorStar
  whenAt ident do
    let _ ← bindingName
  signatureRest type
  bodyOrSemicolon (within functionBody skipBalanced)

/-- What a variable statement declares: a name, or a pattern, which is reported. -/
def variableTarget : Parse Unit := do
  let k ← current
  if k == braceOpen || k == bracketOpen then
    reportUnsupported "Destructuring declarations"
    skipBalanced
  else
    let _ ← bindingName

/-- One variable of a variable statement. -/
def variableDeclaration : Parse Unit := within variableDecl do
  variableTarget
  let _ ← eat bang
  whenAt colon do
    let _ ← colonType type
  whenAt equals <| within initializer do
    bump
    if !(← skipExpression fun k => k == comma || k == semicolon) then report .unsupportedForm

/-- The rest of a variable statement. -/
def variablesRest : Parse Unit := do
  bump
  repeatWhile do
    variableDeclaration
    eat comma
  let _ ← eat semicolon

/-- Words that start declarations which are not supported, and what they declare. -/
def unsupportedWords : List (String × String) :=
  [("namespace", "Namespaces"), ("module", "Module declarations"),
   ("global", "Global augmentations"), ("abstract", "Classes")]

/-- What an unsupported declaration at the cursor declares. -/
def unsupportedForm : Parse String := do
  match ← current with
  | kwClass => return "Classes"
  | kwEnum | kwConst => return "Enums"
  | _ => return (unsupportedWords.lookup (← currentText)).getD "Declarations"

/-- The rest of an unsupported declaration: reported, then skipped to the end of its body. -/
def unsupportedRest : Parse Unit := do
  reportUnsupported (← unsupportedForm)
  repeatWhile do
    if ← atEnd then return false
    if ← at? braceOpen then return false
    if ← at? semicolon then return false
    bump
    return true
  bodyOrSemicolon skipBalanced

/-- `declare` stands here and is a modifier. -/
def declareModifies : Parse Bool := do
  if ← atWord "declare" then
    if ← lineBreakBefore 1 then return false
    match ← peek 1 with
    | kwConst | kwVar | kwFunction | kwClass | kwEnum => return true
    | ident =>
      return ["type", "interface", "let", "namespace", "module", "global", "abstract",
        "async"].contains (← peekText 1)
    | _ => return false
  return false

/-- The declaration that an identifier starts, by its text. -/
def wordDeclaration? : Parse (Option Kind) := do
  let next ← peek 1
  let sameLine := !(← lineBreakBefore 1)
  let text ← currentText
  if text == "type" && next == ident && sameLine then return some typeAliasDecl
  if text == "interface" && next == ident && sameLine then return some interfaceDecl
  if text == "let" && (next == ident || next == braceOpen || next == bracketOpen) then
    return some variableStatement
  if text == "async" && next == kwFunction && sameLine then return some functionDecl
  let opens := next == ident || next == stringLiteral || next == braceOpen || next == kwClass
  if sameLine && opens && unsupportedWords.any (·.1 == text) then return some unsupportedDecl
  return none

/-- The declaration at the cursor, after its modifiers. -/
def declaration? : Parse (Option Kind) := do
  match ← current with
  | kwFunction => return some functionDecl
  | kwConst => return some (if (← peek 1) == kwEnum then unsupportedDecl else variableStatement)
  | kwVar => return some variableStatement
  | kwClass | kwEnum => return some unsupportedDecl
  | ident => wordDeclaration?
  | _ => return none

/-- The rest of a declaration of a kind, after its modifiers. -/
def declarationRest : Kind → Parse Unit
  | typeAliasDecl => typeAliasRest
  | interfaceDecl => interfaceRest
  | functionDecl => functionRest
  | variableStatement => variablesRest
  | _ => unsupportedRest

/-- Takes the modifiers of a declaration; answers whether there are any. -/
def declarationModifiers : Parse Bool := do
  if ← eat kwExport then
    let _ ← eat kwDefault
    bumpIf declareModifies
    return true
  if ← declareModifies then
    bump
    return true
  return false

/-- Modifiers without a declaration: reported, then skipped to the next statement. -/
def strayModifiers : Parse Unit := do
  report .declarationExpected
  skipUntil recoversStatement

/-- A statement that is none of the others. -/
def expressionStatement : Parse Unit := do
  if !(← skipExpression (· == semicolon)) then reportAndBump .declarationExpected
  let _ ← eat semicolon

/-- A declaration with its modifiers, or a statement that is none. -/
def declaration : Parse Unit := do
  let start ← mark
  let modified ← declarationModifiers
  match ← declaration? with
  | some k => withinFrom start k (declarationRest k)
  | none =>
    if modified then withinFrom start error strayModifiers
    else withinFrom start expressionStmt expressionStatement

/-- After `export default`, something that declares a name. -/
def defaultDeclares : Parse Bool := do
  match ← peek 2 with
  | kwFunction | kwClass => return true
  | ident =>
    let text ← peekText 2
    if text == "interface" || text == "abstract" then return true
    if text == "async" then return (← peek 3) == kwFunction
    return false
  | _ => return false

/-- A statement that starts with `export`. -/
def exporting : Parse Unit := do
  match ← peek 1 with
  | braceOpen | .star => exportStatement
  | equals => exportedExpression
  | kwDefault => if ← defaultDeclares then declaration else exportedExpression
  | ident =>
    if (← peekText 1) == "type" then
      let after ← peek 2
      if after == braceOpen || after == star then exportStatement else declaration
    else declaration
  | _ => declaration

/-- A statement. -/
def statement : Parse Unit := do
  match ← current with
  | semicolon => bump
  | kwImport =>
    let next ← peek 1
    if next == parenOpen || next == dot then declaration else importStatement
  | kwExport => exporting
  | _ => declaration

/-- A statement; one that takes nothing gives up its token, so that statements go on. -/
def statementOrToken : Parse Unit := do
  let before := (← get).pos
  statement
  if (← get).pos == before then
    if !(← atEnd) then reportAndBump .declarationExpected

/-- Statements up to the end of the text. -/
def statements : Parse Unit := repeatWhile do
  if ← atEnd then return false
  statementOrToken
  return true

/-- A whole file. -/
def file : Parse Unit := within root do
  statements
  skipTrivia
  placeTrivia

end DeclKit.Parser

namespace DeclKit

/-! ## Entry points -/

/-- The tree of a file and what was wrong with it. -/
structure ParsedFile where
  tree : Tree
  diagnostics : List Diagnostic

namespace Parser

/-- The state before the first token. -/
def State.start (source : SourceId) (limits : Limits) (text : String) : State :=
  { source, limits, tokens := (Token.lex text).toArray, textSize := text.utf8ByteSize }

/-- The state after a whole file. -/
def State.afterFile (source : SourceId) (limits : Limits) (text : String) : State :=
  (file (State.start source limits text)).2

/-- What a finished state says. -/
def State.result (s : State) : Except Failure ParsedFile :=
  match s.failure with
  | some f => .error f
  | none => .ok ⟨s.row.getD 0 default, s.diagnostics.toList⟩

end Parser

/-- Parses a file within limits. -/
def parseWith (source : SourceId) (limits : Limits) (text : String) : Except Failure ParsedFile :=
  (Parser.State.afterFile source limits text).result

/-- Parses a file. -/
def parse (source : SourceId) (text : String) : Except Failure ParsedFile :=
  parseWith source .standard text

end DeclKit

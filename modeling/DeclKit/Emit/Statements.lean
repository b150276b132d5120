/-
The declarations of a file.

Statements lose their bodies and all initializers but the literals of constants. Imports keep the
names that are still used. A module that would no longer be one, or whose private declarations would
count as exported, gets an empty export at its end.
-/
import DeclKit.Emit.Copy
import DeclKit.Emit.Reach

set_option autoImplicit false

namespace DeclKit.Emit

open Decl (TypeNode Statement)

/-- A statement with what there is to report about it. -/
abbrev Emitted := Statement × List Diagnostic

/-! ## Imports and exports -/

/-- A module specifier as written, with its quotes. -/
def moduleText (n : Node) : String :=
  match n.leaves.find? (·.kind == .stringLiteral) with
  | some t => t.text
  | none => Text.quote n.specifierValue

/-- An item of an import or export list. -/
def specifier? (n : Node) : Option Decl.Specifier := do
  let names := n.childrenOf .name
  let name ← names.getLast?
  let property := (names.head?.map (·.nameText)).filter (· != name.nameText)
  let typeOnly := n.leaves.head?.any fun t => t.kind == .ident && t.text == "type"
  return { typeOnly, propertyName := property, name := name.nameText }

/-- An import with the names that are used; one without such names is dropped, unless it names
nothing in the first place. -/
def importStatement? (used : List String) (n : Node) : Option Statement := do
  let module := moduleText (← n.child? .moduleSpecifier)
  let origin := some (Decl.Origin.rebuilt n)
  match n.child? .importClause with
  | none => return .importing { origin, module }
  | some clause =>
    let default := (clause.name?.map (·.nameText)).filter used.contains
    let space := (((clause.child? .namespaceImport).bind (·.name?)).map (·.nameText)).filter
      used.contains
    let named := ((clause.child? .namedImports).map fun list =>
      ((list.childrenOf .importSpecifier).filterMap specifier?).filter fun s =>
        used.contains s.name).filter fun list => !list.isEmpty
    if default.isNone && space.isNone && named.isNone then none
    else return .importing { origin, typeOnly := n.hasWord "type", default, namespace_ := space
                             named, module }

/-- An export statement. -/
def exportStatement (n : Node) : Statement :=
  let clause : Decl.ExportClause := match n.child? .exportStar with
    | some star => .star (star.name?.map (·.nameText))
    | none => .named ((exportSpecifiers n).filterMap specifier?)
  .exporting { origin := some (.rebuilt n), typeOnly := n.hasWord "type", clause
               module := (n.child? .moduleSpecifier).map moduleText }

/-- An exported expression. -/
def assignmentStatement (n : Node) : Statement :=
  let tokens := ((n.child? .initializer).map (·.expressionTokens)).getD []
  .assignment { origin := some (.rebuilt n), isDefault := n.hasToken .kwDefault
                expression := String.join (tokens.map (·.text)) }

/-! ## Types -/

/-- The modifiers of a declaration, with `declare` as told. -/
def modifiersOf (n : Node) (declares : Bool) : Modifiers := { n.modifiers with isDeclare := declares }

/-- A type alias. -/
def aliasStatement (file : SourceId) (n : Node) : Check Statement := do
  let typeParams ← copyTypeParams (copyType file) n
  let type ← copyOr (copyType file) n.type?
  return .typeAlias { origin := some (.rebuilt n), modifiers := modifiersOf n false
                      name := nameOr n.name?, typeParams, type }

/-- An interface. -/
def interfaceStatement (file : SourceId) (n : Node) : Check Statement := do
  let bases := ((n.child? .heritageClause).map (·.childrenOf .typeRef)).getD []
  let heritage ← bases.mapM (copyType file)
  let written := ((n.child? .objectType).map (·.members)).getD []
  let members ← written.mapM (copyMember file (copyType file))
  let typeParams ← copyTypeParams (copyType file) n
  return .interface { origin := some (.rebuilt n), modifiers := modifiersOf n false
                      name := nameOr n.name?, typeParams, heritage, members }

/-! ## Functions -/

/-- A `return` with something behind it. -/
def returnsValue : List Token → Bool
  | t :: u :: rest =>
    (t.kind == .kwReturn && u.kind != .semicolon && u.kind != .braceClose) || returnsValue (u :: rest)
  | _ => false

/-- A finding at the name of a node, or at the node. -/
def reportAt (file : SourceId) (kind : DiagnosticKind) (n : Node) : Diagnostic :=
  let place := n.name?.getD n
  .plain kind (some ⟨file, place.start, place.stop⟩)

/-- What a function returns when that is not written: nothing, if its body returns nothing; a body
that returns a value needs a type. -/
def inferredReturn (file : SourceId) (n : Node) : TypeNode × List Diagnostic :=
  match n.child? .functionBody with
  | none => (.keyword .any, [])
  | some body =>
    if returnsValue body.words then (.keyword .any, [reportAt file .returnTypeRequired n])
    else if n.hasWord "async" then (.reference ["Promise"] [.keyword .void], [])
    else (.keyword .void, [])

/-- A function. -/
def functionStatement (file : SourceId) (n : Node) : Check Emitted := do
  let written ← copySignature file (copyType file) n
  let (signature, found) : Decl.Signature TypeNode × List Diagnostic := match written.returns with
    | some _ => (written, [])
    | none =>
      let (type, found) := inferredReturn file n
      ({ written with returns := some type }, found)
  let modifiers := modifiersOf n (!n.modifiers.isDefault)
  return (.function { origin := some (.rebuilt n), modifiers, name := nameOr n.name?, signature },
    found)

/-! ## Variables -/

/-- The text of a literal token that a constant keeps; strings are quoted anew. -/
def constantText? (t : Token) : Option String :=
  match t.kind with
  | .stringLiteral => some (Text.quote (literalValue t.text))
  | .numberLiteral | .bigIntLiteral | .kwTrue | .kwFalse => some t.text
  | .noSubstitutionTemplate => some (Text.quote (Literal.templateText t.text))
  | _ => none

/-- The tokens of an initializer without `as const`. -/
def withoutConst (tokens : List Token) : List Token :=
  match tokens.reverse with
  | last :: before :: rest =>
    if before.text == "as" && last.kind == .kwConst then rest.reverse else tokens
  | _ => tokens

/-- The literal that a constant keeps as its initializer. -/
def constInitializer? (n : Node) : Option String :=
  match withoutConst n.expressionTokens with
  | [t] => constantText? t
  | [sign, t] =>
    if sign.kind == .minus && (t.kind == .numberLiteral || t.kind == .bigIntLiteral) then
      some ("-" ++ t.text)
    else none
  | _ => none

/-- The type of a variable that has none written and keeps no literal. An initializer whose type is
not plain needs one. -/
def inferredVariable (file : SourceId) (keyword : VariableKeyword) (n : Node) :
    Check (TypeNode × List Diagnostic) := do
  match ← Typing.variableType? .standard file n keyword with
  | some t => return (← rendered file t, [])
  | none =>
    if (n.child? .initializer).isSome then
      return (.keyword .any, [reportAt file .variableTypeRequired n])
    else return (.keyword .any, [])

/-- A variable. -/
def variableOf (file : SourceId) (keyword : VariableKeyword) (n : Node) :
    Check (Decl.Variable × List Diagnostic) := do
  let name := writtenName n
  match n.annotatedType? with
  | some t => return ({ name, type := some (← copyType file t) }, [])
  | none =>
    match if keyword == .const then (n.child? .initializer).bind constInitializer? else none with
    | some text => return ({ name, initializer := some text }, [])
    | none =>
      let (type, found) ← inferredVariable file keyword n
      return ({ name, type := some type }, found)

/-- Variables declared together. -/
def variablesStatement (file : SourceId) (n : Node) : Check Emitted := do
  let keyword := n.variableKeyword
  let built ← (n.childrenOf .variableDecl).mapM (variableOf file keyword)
  let modifiers : Modifiers := { isExport := n.modifiers.isExport, isDeclare := true }
  let items := built.map (·.1)
  return (.variableList { origin := some (.rebuilt n), modifiers, keyword, items },
    built.flatMap (·.2))

/-! ## Files -/

/-- The declaration of a statement, if it has one. -/
def emitStatement (file : SourceId) (used : List String) (n : Node) : Check (Option Emitted) := do
  match n.kind with
  | .importDecl => return (importStatement? used n).map (·, [])
  | .exportDecl => return some (exportStatement n, [])
  | .exportAssignment => return some (assignmentStatement n, [])
  | .typeAliasDecl => return some (← aliasStatement file n, [])
  | .interfaceDecl => return some (← interfaceStatement file n, [])
  | .functionDecl => return some (← functionStatement file n)
  | .variableStatement => return some (← variablesStatement file n)
  | _ => return none

/-- The statement declares something without exporting it. -/
def isPrivate : Statement → Bool
  | .typeAlias s => !s.modifiers.isExport
  | .interface s => !s.modifiers.isExport
  | .function s => !s.modifiers.isExport
  | .variableList s => !s.modifiers.isExport
  | _ => false

/-- The statement ends the rule that all declarations of a declaration file are exported. -/
def marksScope : Statement → Bool
  | .exporting _ | .assignment _ => true
  | _ => false

/-- An export of nothing. -/
def emptyExport : Statement := .exporting { clause := .named [] }

/-- The statements of a module, with an export of nothing where it is needed. -/
def withModuleMark (statements : List Statement) : List Statement :=
  if !statements.any (·.marksModule) || (statements.any isPrivate && !statements.any marksScope) then
    statements ++ [emptyExport]
  else statements

/-- The declarations of a file, and what there is to report about them. -/
def declarations (file : SourceId) : Check (Decl.File × List Diagnostic) := do
  match (← Check.program).file? file with
  | none => return (⟨file, []⟩, [])
  | some f =>
    let kept := keptStatements f.root
    let used := usedNames kept
    let emitted ← kept.filterMapM (emitStatement file used)
    let statements := emitted.map (·.1)
    return (⟨file, if f.root.isModule then withModuleMark statements else statements⟩,
      emitted.flatMap (·.2))

end DeclKit.Emit

/-
Checks of a whole program.

Every type node outside the built-in library is looked at, with its own place as the place to report
at. Beyond that, references are checked for their arguments, indexed accesses for missing members,
and imports for missing modules and exports.
-/
import DeclKit.Typing.Render

set_option autoImplicit false

namespace DeclKit.Typing

open Check

/-- The range of a node. -/
def spanOf (file : SourceId) (n : Node) : Span := ⟨file, n.start, n.stop⟩

/-- The range of a token. -/
def spanOfToken (file : SourceId) (t : Token) : Span := ⟨file, t.start, t.stop⟩

/-! ## Names -/

/-- Reports a name that stands for nothing; a name of another use is told so. -/
def reportMissing (file : SourceId) (site : Node) (name : Token) (use : NameUse) : Check Unit := do
  let p ← program
  let found (other : NameUse) : Bool := match p.resolveName file site name.text other with
    | .found _ => true
    | _ => false
  let kind : DiagnosticKind :=
    if use == .type && found .namespace_ then .namespaceUsedAsType
    else if use == .type && found .value then .valueUsedAsType
    else .cannotFindName
  report kind (spanOfToken file name) [name.text]

/-- Resolves a name and reports why it cannot be resolved. -/
def resolveReported? (file : SourceId) (entity : Node) (use : NameUse) :
    Check (Option SymbolId) := do
  match (← program).resolveEntity file entity use with
  | .ok id => return some id
  | .error .silent => return none
  | .error (.missingName name) =>
    reportMissing file entity name use
    return none
  | .error (.missingNamespace name) =>
    report .cannotFindNamespace (spanOfToken file name) [name.text]
    return none
  | .error (.missingMember path name) =>
    report .namespaceNoExportedMember (spanOfToken file name) [path, name.text]
    return none

/-! ## Type nodes -/

/-- Checks that type arguments satisfy the constraints of their parameters. -/
def checkConstraints (file : SourceId) (params : List SymbolId) (nodes : List Node) :
    Check Unit := do
  let ops := Operations.standard
  let args ← nodes.mapM (ops.typeOf file)
  let filled ← fillArguments ops [] params args
  let m ← makeMapper (params.zip filled)
  (params.zip (args.zip nodes)).forM fun (param, arg, n) => do
    match ← constraint? ops param with
    | none => return
    | some c =>
      if arg == .error then return
      let c ← ops.instantiate c m
      if (← ops.assignable arg c) == some false then
        let argText ← typeText file arg
        let text ← typeText file c
        report .constraintNotSatisfied (spanOf file n) [argText, text]

/-- Checks the number of type arguments of a reference, and their constraints. -/
def checkArguments (file : SourceId) (n entity : Node) (symbol : SymbolId) : Check Unit := do
  let p ← program
  let nodes := n.typeArgs
  let isParam := (p.symbols.get symbol).meaning.typeParameter
  let params := if isParam then [] else p.declaredParams symbol
  if params.isEmpty then
    if !nodes.isEmpty then report .notGeneric (spanOf file n) [entity.entityText]
  else
    let required ← requiredCount .standard params
    if nodes.length < required || params.length < nodes.length then
      let names := params.map fun q => (p.symbols.get q).name
      let shown := entity.entityText ++ "<" ++ ", ".intercalate names ++ ">"
      let count := if required == params.length then toString required
        else "between " ++ toString required ++ " and " ++ toString params.length
      report .genericArity (spanOf file n) [shown, count]
    else checkConstraints file params nodes

/-- Checks a reference. -/
def checkReference (file : SourceId) (n : Node) : Check Unit := do
  match n.child? .entityName with
  | none => return
  | some entity =>
    match ← resolveReported? file entity .type with
    | none => return
    | some symbol => checkArguments file n entity symbol

/-- Checks an indexed access. -/
def checkAccess (file : SourceId) (n : Node) : Check Unit := do
  let ops := Operations.standard
  match n.typeAt? 0, n.typeAt? 1 with
  | some objectNode, some indexNode =>
    let object ← ops.typeOf file objectNode
    let index ← ops.typeOf file indexNode
    if object == .error || index == .error then return
    let span := spanOf file indexNode
    match ← ops.access object index with
    | .ok _ => return
    | .error (.missingProperty name) =>
      report .propertyDoesNotExist span [name, ← typeText file object]
    | .error .notIndexable =>
      let indexText ← typeText file index
      let objectText ← typeText file object
      report .cannotIndexType span [indexText, objectText]
  | _, _ => return

/-- Checks a type node. -/
def checkType (file : SourceId) (n : Node) : Check Unit := do
  setSite (some (spanOf file n))
  discard (Operations.standard.typeOf file n)
  match n.kind with
  | .typeRef => checkReference file n
  | .indexedAccessType => checkAccess file n
  | .typeQuery =>
    match n.child? .entityName with
    | some entity => discard (resolveReported? file entity .value)
    | none => return
  | _ => return

/-! ## Imports and parameters -/

/-- Checks that a module exports a name. -/
def checkExported (file : SourceId) (module : SourceId) (specifier name : String) (n : Node) :
    Check Unit := do
  if ((← program).symbols.export? module name).isNone then
    report .noExportedMember (spanOf file n) [specifier, name]

/-- Checks the names of an import or export list: the first name of each item. -/
def checkSpecifiers (file module : SourceId) (specifier : String) (specs : List Node) :
    Check Unit :=
  specs.forM fun spec => match spec.name? with
    | some n => checkExported file module specifier n.nameText n
    | none => return

/-- The module that a statement names, with its specifier. -/
def moduleOf? (p : Program) (file : SourceId) (n : Node) : Option (SourceId × String) := do
  let specifier ← n.child? .moduleSpecifier
  let f ← p.file? file
  let m ← f.module? specifier.specifierValue
  return (m, specifier.specifierValue)

/-- Checks an import. -/
def checkImport (file : SourceId) (n : Node) : Check Unit := do
  match moduleOf? (← program) file n, n.child? .importClause with
  | some (module, specifier), some clause =>
    if let some name := clause.name? then checkExported file module specifier "default" name
    if let some named := clause.child? .namedImports then
      checkSpecifiers file module specifier (named.childrenOf .importSpecifier)
  | _, _ => return

/-- Checks an export from another module. -/
def checkReexport (file : SourceId) (n : Node) : Check Unit := do
  match moduleOf? (← program) file n, n.child? .namedExports with
  | some (module, specifier), some named =>
    checkSpecifiers file module specifier (named.childrenOf .exportSpecifier)
  | _, _ => return

/-- Checks that a parameter has a type; the key of an index signature is none. -/
def checkParam (file : SourceId) (n : Node) : Check Unit := do
  let isKey := n.parent?.any (·.kind == .indexSig)
  let typed := (n.child? .colonType).isSome || (n.child? .initializer).isSome || n.isThisParam
  if isKey || typed then return
  match n.name? with
  | some name => report .implicitAnyParameter (spanOf file n) [name.nameText]
  | none => return

/-! ## Files -/

/-- Checks a node. -/
def checkNode (file : SourceId) (implicitAny : Bool) (n : Node) : Check Unit :=
  if n.isType then checkType file n
  else match n.kind with
    | .importDecl => checkImport file n
    | .exportDecl => checkReexport file n
    | .param => if implicitAny then checkParam file n else return
    | _ => return

/-- Checks a file. -/
def checkFile (f : ProgramFile) : Check Unit := do
  f.references.forM fun r => do
    if r.resolved.isNone then report .cannotFindModule ⟨f.id, r.start, r.stop⟩ [r.specifier]
  let implicitAny := (← program).options.implicitAnyChecks
  f.root.descendants.forM (checkNode f.id implicitAny)

/-- Checks all files but the built-in library. -/
def checkFiles : Check Unit := do
  let p ← program
  p.files.toList.forM fun f => do
    if !(p.source f.id).isDefaultLib then checkFile f
  setSite none

/-- All findings about a program, in order. -/
def diagnostics : Check (List Diagnostic) := do
  checkFiles
  let p ← program
  let found := (← state).diagnostics.toList
  return Diagnostic.sorted
    (p.globalDiagnostics ++ p.parseDiagnostics ++ p.bindDiagnostics ++ found)

end DeclKit.Typing

/-
Binding: which names a program declares, imports and exports.

Declarations are bound before export lists, so that `export { a }` may stand before `a`. A file without
imports and exports is a script: its names are shared by the whole program. A name declared twice
becomes one symbol; where the two declarations do not go together, both places are reported.
-/
import DeclKit.Diagnostic.Basic
import DeclKit.Symbol.Basic

set_option autoImplicit false

namespace DeclKit

/-- A file to bind, and the module that each of its specifiers names. -/
structure BindInput where
  file : SourceId
  root : Node
  modules : List (String × Option SourceId)

/-- What binding builds. -/
structure Binding where
  symbols : Symbols := {}
  diagnostics : Array Diagnostic := #[]

namespace Binder

/-- A binding step. -/
abbrev Bind (α : Type) := StateM Binding α

/-- Changes the symbols. -/
def modifySymbols (f : Symbols → Symbols) : Bind Unit :=
  modify fun b => { b with symbols := f b.symbols }

/-- Adds a symbol. -/
def alloc (s : Symbol) : Bind SymbolId :=
  modifyGet fun b =>
    let (id, symbols) := b.symbols.alloc s
    (id, { b with symbols })

/-- Reports at a node. -/
def reportAt (kind : DiagnosticKind) (file : SourceId) (node : Node) (detail : String) : Bind Unit :=
  let d := Diagnostic.detailed kind (some ⟨file, node.start, node.stop⟩) [detail]
  modify fun b => { b with diagnostics := b.diagnostics.push d }

/-- The complaint, if any, when a meaning is added to a symbol that already has another. -/
def conflict? (old new : Meaning) : Option DiagnosticKind :=
  if old.importAlias || new.importAlias then some .duplicateIdentifier
  else if (old.blockScoped && new.isValue) || (new.blockScoped && old.isValue) then
    some .cannotRedeclareBlockScoped
  else if (old.function && new.variable_) || (old.variable_ && new.function) then
    some .duplicateIdentifier
  else if (new.typeAlias && (old.typeAlias || old.interface)) || (new.interface && old.typeAlias) then
    some .duplicateIdentifier
  else none

/-- The symbol that a name already has in the scope of a file. -/
def existing? (t : Symbols) (file : SourceId) (name : String) : Option SymbolId :=
  match t.file? file with
  | some f => if f.isModule then f.locals.get? name else t.globals.get? name
  | none => t.globals.get? name

/-- Enters a new name into the scope of a file. -/
def enterName (file : SourceId) (name : String) (id : SymbolId) : Bind Unit :=
  modifySymbols fun t =>
    if (t.file? file).any (·.isModule) then
      t.modifyFile file fun f => { f with locals := f.locals.insert name id }
    else { t with globals := t.globals.insert name id }

/-- Reports a conflict at a new declaration, then at each earlier one. -/
def reportConflict (kind : DiagnosticKind) (name : String) (new : Declaration)
    (earlier : Array Declaration) : Bind Unit := do
  reportAt kind new.file new.nameNode name
  for d in earlier do
    reportAt kind d.file d.nameNode name

/-- Adds a declaration of a name; a symbol of that name in the same scope takes it up. -/
def declare (name : String) (meaning : Meaning) (d : Declaration)
    (importTarget : Option ImportTarget := none) : Bind SymbolId := do
  let t := (← get).symbols
  match existing? t d.file name with
  | some id =>
    let s := t.get id
    if let some kind := conflict? s.meaning meaning then
      reportConflict kind name d s.declarations
    modifySymbols (·.modify id fun s => { s with
      meaning := s.meaning.union meaning
      declarations := s.declarations.push d
      importTarget := s.importTarget.or importTarget })
    return id
  | none =>
    let id ← alloc { name, meaning, declarations := #[d], importTarget }
    enterName d.file name id
    return id

/-- Sets what a file exports under a name. -/
def addExport (file : SourceId) (name : String) (target : ExportTarget) : Bind Unit :=
  modifySymbols (·.modifyFile file fun f => { f with exports := f.exports.insert name target })

/-! ## Declarations -/

/-- Binds a declaration that has a plain name. -/
def bindNamed (file : SourceId) (node : Node) (modifiers : Modifiers) (meaning : Meaning) :
    Bind Unit := do
  match node.name? with
  | none => return
  | some nameNode =>
    if nameNode.isRawName then return
    let name := nameNode.nameText
    let id ← declare name meaning ⟨file, node⟩
    if modifiers.isExport then
      addExport file (if modifiers.isDefault then "default" else name) (.local id)

/-- Binds one name of an import. -/
def bindImported (file : SourceId) (nameNode : Node) (target : ImportTarget) : Bind Unit := do
  match nameNode.parent? with
  | none => return
  | some node =>
    let _ ← declare nameNode.nameText { importAlias := true } ⟨file, node⟩ (some target)

/-- Binds one name of an import's list. -/
def bindSpecifier (file : SourceId) (module : Option SourceId) (specifier : String) (spec : Node) :
    Bind Unit := do
  let names := spec.childrenOf .name
  match names.head?, names.getLast? with
  | some imported, some own =>
    bindImported file own ⟨module, specifier, .named imported.nameText⟩
  | _, _ => return

/-- Binds the names of an import statement. -/
def bindImport (input : BindInput) (node : Node) : Bind Unit := do
  match node.child? .importClause with
  | none => return
  | some clause =>
    let specifier := ((node.child? .moduleSpecifier).map (·.specifierValue)).getD ""
    let module := (input.modules.lookup specifier).join
    if let some name := clause.name? then
      bindImported input.file name ⟨module, specifier, .default⟩
    if let some name := (clause.child? .namespaceImport).bind Node.name? then
      bindImported input.file name ⟨module, specifier, .namespace_⟩
    for spec in ((clause.child? .namedImports).map (·.childrenOf .importSpecifier)).getD [] do
      bindSpecifier input.file module specifier spec

/-- Binds a type parameter, an `infer` or a mapped type's key. -/
def bindTypeParameter (file : SourceId) (node : Node) : Bind Unit := do
  match node.name? with
  | none => return
  | some name =>
    let id ← alloc
      { name := name.nameText, meaning := { typeParameter := true }, declarations := #[⟨file, node⟩] }
    modifySymbols fun t => { t with nodes := t.nodes.insert (node.key file) id }

/-- Binds what a file declares and imports. -/
def bindDeclarations (input : BindInput) : Bind Unit := do
  let file := input.file
  modifySymbols fun t =>
    { t with files := t.files.insert file { isModule := input.root.isModule } }
  for s in input.root.statements do
    match s.kind with
    | .importDecl => bindImport input s
    | .typeAliasDecl => bindNamed file s s.modifiers { typeAlias := true }
    | .interfaceDecl => bindNamed file s s.modifiers { interface := true }
    | .functionDecl => bindNamed file s s.modifiers { function := true }
    | .variableStatement =>
      let meaning : Meaning := match s.variableKeyword with
        | .var => { variable_ := true }
        | _ => { blockScoped := true }
      for d in s.childrenOf .variableDecl do
        bindNamed file d s.modifiers meaning
    | _ => pure ()
  for n in input.root.descendants do
    if n.kind == .typeParam || n.kind == .mappedTypeParam then
      bindTypeParameter file n

/-! ## Export lists -/

/-- Binds one name of an export list; `from?` is the module it is taken from, if one is named. -/
def bindExported (file : SourceId) (from? : Option (Option SourceId)) (spec : Node) : Bind Unit := do
  let names := spec.childrenOf .name
  match names.head?, names.getLast? with
  | some own, some exported =>
    match from? with
    | some module => addExport file exported.nameText (.reexport module own.nameText)
    | none =>
      match (← get).symbols.lookup? file own.nameText with
      | some id => addExport file exported.nameText (.local id)
      | none => reportAt .cannotFindName file own own.nameText
  | _, _ => return

/-- Binds an export list or a star export. -/
def bindExport (input : BindInput) (node : Node) : Bind Unit := do
  let file := input.file
  let from? := (node.child? .moduleSpecifier).map fun s => (input.modules.lookup s.specifierValue).join
  match node.child? .exportStar with
  | some star =>
    let module := from?.join
    match star.name? with
    | some name => addExport file name.nameText (.namespace_ module)
    | none => modifySymbols (·.modifyFile file fun f => { f with stars := f.stars.push module })
  | none =>
    for spec in ((node.child? .namedExports).map (·.childrenOf .exportSpecifier)).getD [] do
      bindExported file from? spec

/-- Binds `export default name`; another expression has no symbol. -/
def bindExportAssignment (file : SourceId) (node : Node) : Bind Unit := do
  if !node.hasToken .kwDefault then return
  match ((node.child? .initializer).map Node.expressionTokens).getD [] with
  | [t] =>
    if t.kind == .ident then
      if let some id := (← get).symbols.lookup? file t.text then
        addExport file "default" (.local id)
  | _ => return

/-- Binds the export statements of a file. -/
def bindExports (input : BindInput) : Bind Unit := do
  for s in input.root.statements do
    match s.kind with
    | .exportDecl => bindExport input s
    | .exportAssignment => bindExportAssignment input.file s
    | _ => pure ()

/-- Gives a file its own symbol. -/
def bindModule (input : BindInput) : Bind Unit := do
  let id ← alloc { name := "", meaning := { module := true }, module := some input.file }
  modifySymbols fun t => { t with modules := t.modules.insert input.file id }

end Binder

/-- Binds the files of a program. -/
def bind (inputs : List BindInput) : Binding :=
  let steps : Binder.Bind Unit := do
    for input in inputs do Binder.bindModule input
    for input in inputs do Binder.bindDeclarations input
    for input in inputs do Binder.bindExports input
  (steps {}).2

end DeclKit

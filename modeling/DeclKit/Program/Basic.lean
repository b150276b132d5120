/-
Programs: all files that are reached from the root files, parsed and bound.

The built-in library comes first, unless it is switched off, then the roots in order, then what they
import, in the order in which it is met. A file is loaded once, however often it is imported. A root
that is not there is reported; a parse that hits a limit ends the whole load.
-/
import DeclKit.Options
import DeclKit.Parser.Statements
import DeclKit.Program.Host
import DeclKit.Program.Library
import DeclKit.Symbol.Binder

set_option autoImplicit false

namespace DeclKit

/-- A module specifier in a file, and the file it names. -/
structure ModuleReference where
  specifier : String
  start : Nat
  stop : Nat
  resolved : Option SourceId
deriving Inhabited

/-- A loaded file. -/
structure ProgramFile where
  id : SourceId
  root : Node
  references : List ModuleReference
deriving Inhabited

/-- The file that a specifier names. -/
def ProgramFile.module? (f : ProgramFile) (specifier : String) : Option SourceId :=
  ((f.references.find? (·.specifier == specifier)).map (·.resolved)).join

/-- A loaded and bound program. -/
structure Program where
  sources : Sources
  options : CompilerOptions
  files : Array ProgramFile
  roots : List SourceId
  symbols : Symbols
  parseDiagnostics : List Diagnostic
  globalDiagnostics : List Diagnostic
  bindDiagnostics : List Diagnostic

namespace Program

/-! ## Loading -/

/-- A file that waits to be loaded. -/
structure Pending where
  kind : SourceKind
  path : String
  text : String
  isRoot : Bool

/-- What has been loaded so far. -/
structure Loading where
  sources : Sources
  files : Array ProgramFile := #[]
  roots : Array SourceId := #[]
  diagnostics : Array Diagnostic := #[]
  queue : List Pending := []

/-- The specifiers of the import and export statements of a file. -/
def specifiers (root : Node) : List Node :=
  root.statements.filterMap fun s => match s.kind with
    | .importDecl | .exportDecl => s.child? .moduleSpecifier
    | _ => none

/-- Finds the file of a specifier. A file that is met for the first time is registered and put into
the queue. A file that exists but cannot be read leaves no reference. -/
def addReference (h : Host) (path : String) (node : Node) (l : Loading)
    (refs : List ModuleReference) : Loading × List ModuleReference :=
  let specifier := node.specifierValue
  let reference (id : Option SourceId) : ModuleReference := ⟨specifier, node.start, node.stop, id⟩
  match Module.resolve? h specifier path with
  | none => (l, refs ++ [reference none])
  | some target =>
    match l.sources.lookup? target with
    | some id => (l, refs ++ [reference (some id)])
    | none =>
      match h.read? target with
      | none => (l, refs)
      | some text =>
        let (id, sources) := l.sources.add .module target text
        ({ l with sources, queue := l.queue ++ [⟨.module, target, text, false⟩] },
          refs ++ [reference (some id)])

/-- The parse of the built-in library, which does not depend on the program. -/
def libraryParse : Except Failure ParsedFile := parse ⟨0⟩ Library.text

/-- Parses a registered file. -/
def parseSource (sources : Sources) (id : SourceId) : Except Failure ParsedFile :=
  let file := sources.get id
  if file.isDefaultLib && id.index == 0 && file.text == Library.text then libraryParse
  else parse id file.text

/-- Loads one file, unless it is loaded already. -/
def loadFile (h : Host) (p : Pending) (l : Loading) : Except Failure Loading := do
  if (l.sources.lookup? p.path).any fun id => l.files.any (·.id == id) then return l
  let (id, sources) := l.sources.add p.kind p.path p.text
  let roots := if p.isRoot then l.roots.push id else l.roots
  let parsed ← parseSource sources id
  let root : Node := ⟨parsed.tree, []⟩
  let l := { l with sources, roots, diagnostics := l.diagnostics ++ parsed.diagnostics }
  let (l, references) := (specifiers root).foldl
    (fun (l, refs) node => addReference h p.path node l refs) (l, [])
  return { l with files := l.files.push ⟨id, root, references⟩ }

/-- Loads what is in the queue, at most `n` files. -/
def loadQueue (h : Host) : Nat → Loading → Except Failure Loading
  | 0, l => return l
  | n + 1, l =>
    match l.queue with
    | [] => return l
    | p :: rest => do loadQueue h n (← loadFile h p { l with queue := rest })

/-- A path with forward slashes. -/
def shownPath (path : String) : String := path.map fun c => if c == '\\' then '/' else c

/-- The files that a program starts from, and the roots that are missing. -/
def start (h : Host) (roots : List String) (options : CompilerOptions) :
    List Pending × List Diagnostic :=
  let library :=
    if options.noLib then [] else [⟨.defaultLib, Library.name, Library.text, false⟩]
  roots.foldl (fun (queue, missing) name =>
    let path := Path.resolve h.directory name
    match h.read? path with
    | some text => (queue ++ [⟨.module, path, text, true⟩], missing)
    | none => (queue, missing ++ [.detailed .fileNotFound none [shownPath path]])) (library, [])

/-- Loads and binds a program. `sources` may hold configuration files already. Every file of the host
enters the queue at most once beside the start, which bounds the load. -/
def load (sources : Sources) (roots : List String) (options : CompilerOptions) (h : Host) :
    Except Failure Program := do
  let (queue, missing) := start h roots options
  let l ← loadQueue h (queue.length + h.files.length + 1) { sources, queue }
  let binding := bind (l.files.toList.map fun f =>
    ⟨f.id, f.root, f.references.map fun r => (r.specifier, r.resolved)⟩)
  return {
    sources := l.sources, options, files := l.files, roots := l.roots.toList
    symbols := binding.symbols, parseDiagnostics := l.diagnostics.toList
    globalDiagnostics := missing, bindDiagnostics := binding.diagnostics.toList }

/-! ## Asking -/

/-- The loaded file with an id. -/
def file? (p : Program) (id : SourceId) : Option ProgramFile := p.files.find? (·.id == id)

/-- The loaded file at a path. -/
def fileAt? (p : Program) (path : String) : Option ProgramFile :=
  (p.sources.lookup? path).bind p.file?

/-- The source text with an id. -/
def source (p : Program) (id : SourceId) : Source := p.sources.get id

/-- The files for which declarations are written: neither the library nor declaration files. -/
def outputs (p : Program) : List ProgramFile :=
  p.files.toList.filter fun f =>
    let s := p.source f.id
    !s.isDefaultLib && !s.isDeclarationFile

/-- The longest directory that holds every file for which declarations are written. -/
def commonDirectory (p : Program) : String :=
  (Path.commonDirectory? (p.outputs.map fun f => (p.source f.id).path)).getD "/"

/-- The node that a key was taken from: the innermost one of its range and kind among the nodes that
are around the range. -/
def node? (p : Program) (key : NodeKey) : Option Node := do
  let f ← p.file? key.file
  let n ← Node.covering key.start key.stop [] f.root.tree
  n.ancestors.find? fun m => m.spans key.start key.stop && m.kind == key.kind

/-- The innermost type of a file with exactly a range. -/
def typeAt? (p : Program) (file : SourceId) (start stop : Nat) : Option Node := do
  let f ← p.file? file
  let n ← Node.covering start stop [] f.root.tree
  (n.ancestors.takeWhile (Node.spans start stop)).find? Node.isType

end Program

end DeclKit

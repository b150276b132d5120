/-
Reading a configuration file and the files it extends.

A file that extends itself, at whatever distance, is reported with the whole chain and not read again.
Faults do not stop the reading of other files, but a file that cannot be read as JSON, or at all, sets
nothing.
-/
import DeclKit.Config.Document
import DeclKit.Config.Option
import DeclKit.Diagnostic.Basic
import DeclKit.FileTree
import DeclKit.Json.Commented

set_option autoImplicit false

namespace DeclKit.Config

/-- The name of a configuration file in a directory. -/
def fileName : String := "tsconfig.json"

/-- The files that have been read, and what was found in them. -/
structure Reading where
  sources : Sources := {}
  diagnostics : List Diagnostic := []
deriving Inhabited

/-- Notes a diagnostic. -/
def report (d : Diagnostic) : StateM Reading Unit :=
  modify fun s => { s with diagnostics := s.diagnostics ++ [d] }

/-- Registers a file. -/
def register (path text : String) : StateM Reading SourceId := do
  let s ← get
  let (id, sources) := s.sources.add .config path text
  set { s with sources }
  return id

/-! ## Bases -/

/-- A directory and those above it, the nearest first. -/
def withAncestors (directory : String) : List String :=
  let rec go : Nat → String → List String
    | 0, _ => []
    | n + 1, d => d :: match Path.parent? d with
      | some above => go n above
      | none => []
  go (directory.length + 1) directory

/-- The word starts with a dot or a slash and is thus a path. -/
def isPath (name : String) : Bool :=
  name.startsWith "./" || name.startsWith "../" || Path.isAbsolute name

/-- The paths at which a base is looked for: as a path, with or without its extension, or as a package
in the directories above. -/
def baseCandidates (directory name : String) : List String :=
  if isPath name then
    let path := Path.resolve directory name
    [path, path ++ ".json"]
  else
    (withAncestors directory).flatMap fun d =>
      let path := Path.join (Path.join d "node_modules") name
      [path, path ++ ".json", Path.join path fileName]

/-- The file that a base is named by. -/
def findBase? (t : FileTree) (directory name : String) : Option String :=
  (baseCandidates directory name).find? t.isFile

/-! ## Files -/

/-- The place of a name in a cleaned file. -/
def nameSpan (id : SourceId) (text name : String) (start : Nat) : Option Span :=
  (Json.findName text name start).map fun (first, last) => .ofOffsets id first last

/-- Reads one option of a file. -/
def readOption (directory : String) (span : Option Span) (name : String) (value : Json) :
    StateM Reading Settings := do
  match optionStatus name with
  | .ignored => return []
  | .unknown =>
    report (.detailed .unknownCompilerOption span [name])
    return []
  | .known type =>
    match type.read? directory value with
    | some v => return [(name, v)]
    | none =>
      report (.detailed .compilerOptionType span [name, type.text])
      return []

/-- Reads the options of a file. The name of an option is looked for behind the name of the section. -/
def readSettings (id : SourceId) (text directory : String) (options : List (String × Json)) :
    StateM Reading Settings := do
  let section_ := match Json.findName text Document.Field.options.name 0 with
    | some (_, stop) => stop
    | none => 0
  let read ← options.mapM fun (name, value) =>
    readOption directory (nameSpan id text name section_) name value
  return read.flatten

/-- What a file sets by itself. -/
def ownLayer (id : SourceId) (text directory : String) (d : Document) : StateM Reading Layer := do
  return {
    settings := ← readSettings id text directory d.options
    files := d.files.map fun files => files.map (Path.resolve directory ·)
    included := d.included.map (⟨directory, ·⟩)
    excluded := d.excluded.map (⟨directory, ·⟩) }

/-- Finds and reads one base. `read` reads the file at a path, and `chain` holds the files that led
here, the outermost first. -/
def readBase (t : FileTree) (read : String → StateM Reading (Option Layer)) (chain : List String)
    (directory : String) (span : Option Span) (name : String) :
    StateM Reading (Option Layer) := do
  match findBase? t directory name with
  | none =>
    report (.detailed .extendsNotFound span [name])
    return none
  | some path =>
    if chain.any (Path.same path) then
      let way := (chain ++ [path]).map shown
      report (.detailed .extendsCircular span [" -> ".intercalate way])
      return none
    else read path

/-- Reads the file at a path and all it extends; `span` is the place that led to it. A chain of files
that do not repeat is no longer than there are files, which bounds the depth. -/
def readLayer (t : FileTree) :
    Nat → List String → String → Option Span → StateM Reading (Option Layer)
  | 0, _, _, _ => return none
  | n + 1, chain, path, span => do
    match t.read? path with
    | none =>
      report (.detailed .configFileNotFound span [shown path])
      return none
    | some text =>
      let id ← register path text
      let text := Json.clean text
      match Document.ofText text with
      | .error fault =>
        let offset := fault.offset text
        report (.detailed .configText (some (.ofOffsets id offset offset)) [fault.cause.message])
        return none
      | .ok d =>
        let directory := (Path.parent? path).getD ""
        let chain := chain ++ [path]
        let place := nameSpan id text Document.Field.bases.name 0
        let read (base : String) := readLayer t n chain base place
        let bases ← d.bases.mapM (readBase t read chain directory place ·)
        let own ← ownLayer id text directory d
        return some (Layer.pile (bases.filterMap (·) ++ [own]))

end DeclKit.Config

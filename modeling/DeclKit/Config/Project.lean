/-
Projects: a configuration, and the files it takes in.

Files are listed outright or found by patterns. Without either, every file below the configuration is
taken in, and without patterns of files to leave out, packages and output directories are left out.
-/
import DeclKit.Config.Read
import DeclKit.Glob.Match

set_option autoImplicit false

namespace DeclKit

namespace Config

/-! ## Finding files -/

/-- Extensions of the files that patterns take in. -/
def extensions : List String := [".d.ts", ".d.mts", ".d.cts", ".ts", ".tsx", ".mts", ".cts"]

/-- Extensions of declaration files, and of the sources they are written for. -/
def declarationSources : List (String × List String) :=
  [(".d.ts", [".ts", ".tsx"]), (".d.mts", [".mts"]), (".d.cts", [".cts"])]

/-- The text without slashes at its end. -/
def trimSlashes (s : String) : String :=
  String.ofList (s.toList.reverse.dropWhile (· == '/')).reverse

/-- A pattern that names a directory stands for all that is below it. -/
def expandDirectory (t : FileTree) (pattern : String) : String :=
  let last := (Path.segments pattern).getLastD pattern
  if !Glob.hasWild last && t.isDirectory pattern then trimSlashes pattern ++ "/**/*" else pattern

/-- The deepest directory that all paths of a pattern lie in. -/
def walkRoot (pattern : String) : String :=
  let cs := Path.components pattern
  let fixed := cs.takeWhile fun c => !Glob.hasWild c.text
  let root := Path.ofComponents fixed
  if fixed.length == cs.length then (Path.parent? root).getD root else root

/-- The file is left out although it matches: its declarations are written anew. -/
def isShadowed (found : List String) (path : String) : Bool :=
  declarationSources.any fun (declaration, sources) =>
    match Text.stripSuffix? path declaration with
    | some stem => sources.any fun e => found.contains (stem ++ e)
    | none => false

/-- The files that match one pattern to take in and none to leave out, in the order of a walk for each
pattern. Hidden files are passed over, and so is what is in hidden directories. -/
def discover (t : FileTree) (included excluded : List String) : Except Glob.Fault (List String) := do
  let included := included.map (expandDirectory t)
  let excluded := excluded.flatMap fun p => [p, trimSlashes p ++ "/**"]
  let take ← included.mapM Glob.read
  let leave ← excluded.mapM Glob.read
  let keep (name path : String) := !name.startsWith "." && !Glob.anyMatches leave path
  let wanted (path : String) :=
    extensions.any (path.endsWith ·) && Glob.anyMatches take path
  let found := included.flatMap fun p => (t.filesBelow keep (walkRoot p)).filter wanted
  let found := found.eraseDups
  return found.filter fun path => !isShadowed found path

/-! ## Projects -/

/-- A project that can be compiled. -/
structure Project where
  configPath : String
  options : CompilerOptions
  /-- The files that the project starts from. -/
  roots : List String
  /-- The configuration files. -/
  sources : Sources
deriving Inhabited

/-- The directory of a project. -/
def Project.directory (p : Project) : String := (Path.parent? p.configPath).getD "/"

/-- Why a configuration cannot be used. -/
structure Rejection where
  diagnostics : List Diagnostic
  sources : Sources

/-- What is wrong, in one sentence. -/
def Rejection.message (r : Rejection) : String :=
  "invalid project configuration: " ++
    toString (r.diagnostics.filter Diagnostic.isError).length ++ " error(s)"

/-- The patterns of files to take in: none when only a list of files is given. -/
def Layer.effectiveIncluded (l : Layer) (directory : String) : Option Patterns :=
  match l.included, l.files with
  | some p, _ => some p
  | none, some _ => none
  | none, none => some ⟨directory, ["**/*"]⟩

/-- The patterns of files to leave out. -/
def Layer.effectiveExcluded (l : Layer) (o : CompilerOptions) (directory : String) : Patterns :=
  l.excluded.getD ⟨directory,
    ["node_modules", "bower_components", "jspm_packages"] ++
      ([o.outDir, o.declarationDir].filterMap (·)).map shown⟩

/-- The patterns as they are shown when nothing matches them. -/
def patternText (p : Option Patterns) : String := Json.quotedList ((p.map (·.patterns)).getD [])

/-- Appends the paths that are not there yet. -/
def appendNew (paths more : List String) : List String :=
  more.foldl (fun all p => if all.any (Path.same p) then all else all ++ [p]) paths

/-- The project of a configuration that has been read. -/
def finish (t : FileTree) (configPath : String) (layer : Layer) (s : Reading) :
    Except Rejection Project := do
  let directory := (Path.parent? configPath).getD "/"
  let options := layer.settings.toOptions
  let included := layer.effectiveIncluded directory
  let excluded := layer.effectiveExcluded options directory
  let reject (d : Diagnostic) : Rejection := ⟨s.diagnostics ++ [d], s.sources⟩
  let found ← match included with
    | none => pure []
    | some p =>
      match discover t p.absolute excluded.absolute with
      | .ok found => pure found
      | .error fault => throw (reject (.detailed .configText none [fault.message]))
  let roots := appendNew (layer.files.getD []) found
  if roots.isEmpty then
    throw (reject (.detailed .noInputs none
      [shown configPath, patternText included, patternText layer.excluded]))
  return { configPath, options, roots, sources := s.sources }

/-- Loads the project at a path: a configuration file, or a directory that holds one. -/
def load (t : FileTree) (directory path : String) : Except Rejection Project :=
  let path := Path.resolve directory path
  let configPath := if t.isDirectory path then Path.join path fileName else path
  let (layer, s) := (readLayer t (t.entries.length + 1) [] configPath none).run {}
  match layer with
  | some layer =>
    if s.diagnostics.any Diagnostic.isError then throw ⟨s.diagnostics, s.sources⟩
    else finish t configPath layer s
  | none => throw ⟨s.diagnostics, s.sources⟩

end Config

end DeclKit

/-
The declaration files of a program: what is written where.

Each source file gives a declaration file of its own, or all give one bundle of module blocks. A file
whose declarations have errors is left out; an error in a bundle leaves out the bundle.
-/
import DeclKit.Emit.Statements
import DeclKit.Marker.Basic
import DeclKit.Typing.Diagnose

set_option autoImplicit false

namespace DeclKit

/-! ## Paths -/

namespace Path

/-- The extensions of sources and of their declarations. -/
def declarationExtensions : List (String × String) :=
  [(".tsx", ".d.ts"), (".mts", ".d.mts"), (".cts", ".d.cts"), (".ts", ".d.ts")]

/-- The name of the declaration file of a source. -/
def declarationName (name : String) : String :=
  (declarationExtensions.findSome? fun (source, declaration) =>
    (Text.stripSuffix? name source).map (· ++ declaration)).getD (name ++ ".d.ts")

/-- Extensions of a bundle, whatever it was meant to hold. -/
def bundleExtensions : List String :=
  [".d.ts", ".js", ".mjs", ".cjs", ".jsx", ".tsx", ".ts", ".mts", ".cts"]

/-- The path with another last component. -/
def withFileName (p name : String) : String :=
  if (fileName? p).isSome then join ((parent? p).getD "") name else join p name

/-- The path of a bundle of declarations. -/
def bundlePath (p : String) : String :=
  let name := (fileName? p).getD ""
  let stem := (bundleExtensions.findSome? (Text.stripSuffix? name ·)).getD name
  withFileName p (stem ++ ".d.ts")

/-- The rest of a path below a directory. -/
def below? (p directory : String) : Option String :=
  if isUnder p directory then
    some (ofComponents ((components p).drop (components directory).length))
  else none

end Path

namespace Emit

/-- The path of a file's declarations: beside it, or at the same place below the output directory. -/
def declarationPath (p : Program) (root : String) (file : SourceId) : String :=
  let path := (p.source file).path
  let directory := (Path.parent? path).getD "/"
  let out := match p.options.declarationDir.or p.options.outDir with
    | some out => match Path.below? directory root with
      | some rest => Path.join out rest
      | none => out
    | none => directory
  Path.normalize (Path.join out (Path.declarationName ((Path.fileName? path).getD "")))

/-- The directory below which sources are placed: as told, or the one that holds them all. -/
def sourceRoot (p : Program) : String := p.options.rootDir.getD p.commonDirectory

/-- Reports the files that do not lie below the directory told. -/
def rootFindings (p : Program) : List Diagnostic :=
  match p.options.rootDir with
  | none => []
  | some root =>
    let outside := p.outputs.filter fun f => !Path.isUnder (p.source f.id).path root
    outside.map fun f => .detailed .fileNotUnderRootDir none
      [(p.source f.id).displayName, Program.shownPath root]

/-! ## Bundles -/

/-- Extensions that the module name of a bundled file leaves out. -/
def moduleNameExtensions : List String := [".d.ts", ".tsx", ".ts", ".mts", ".cts"]

/-- The module name of a bundled file. -/
def bundledName (p : Program) (root : String) (file : SourceId) : String :=
  let path := Path.relative root (p.source file).path
  (moduleNameExtensions.findSome? (Text.stripSuffix? path ·)).getD path

/-- A module specifier as it is written in a bundle. -/
def bundledModule (p : Program) (root : String) (f : ProgramFile) (module : String) : String :=
  match f.module? (literalValue module) with
  | some target =>
    if (p.source target).isDeclarationFile then module
    else "\"" ++ bundledName p root target ++ "\""
  | none => module

/-- A statement as it is written in a bundle. -/
def bundledStatement (rename : String → String) : Decl.Statement → Decl.Statement
  | .importing s => .importing { s with module := rename s.module }
  | .exporting s => .exporting { s with module := s.module.map rename }
  | s => s

/-- A file as it is written in a bundle. -/
def bundledFile (p : Program) (root : String) (d : Decl.File) : Decl.File :=
  match p.file? d.source with
  | none => d
  | some f => { d with statements := d.statements.map (bundledStatement (bundledModule p root f)) }

/-! ## Output -/

/-- A file to be written. -/
structure Output where
  path : String
  text : String
deriving DecidableEq, Repr, Inhabited

/-- What comes of emitting a program. -/
structure Result where
  /-- Something was left out. -/
  skipped : Bool := false
  outputs : List Output := []
  diagnostics : List Diagnostic := []
deriving Inhabited

/-- How declarations are printed. -/
def printOptions (o : CompilerOptions) : Decl.PrintOptions :=
  { newLine := o.lineEnd, removeComments := o.removeComments }

/-- One bundle for all files. Markers are not looked at in a bundle. -/
def emitBundle (p : Program) (path : String) : Check Result := do
  let built ← p.outputs.mapM fun f => declarations f.id
  let found := built.flatMap (·.2)
  if found.any Diagnostic.isError then return { skipped := true, diagnostics := found }
  let root := sourceRoot p
  let files := built.map fun (d, _) => bundledFile p root d
  let text := Decl.printBundle (printOptions p.options) (some p.sources) (bundledName p root) files
  return { outputs := [⟨Path.bundlePath path, text⟩], diagnostics := found ++ rootFindings p }

/-- The declaration file of one source. -/
def emitFile (p : Program) (markers : Option MarkerSet) (file : SourceId) : Check Result := do
  let (built, found) ← declarations file
  if found.any Diagnostic.isError then return { skipped := true, diagnostics := found }
  let built ← match markers with
    | some set => Marker.edit set built
    | none => pure built
  let text := built.print (printOptions p.options) (some p.sources)
  let path := declarationPath p (sourceRoot p) file
  return { outputs := [⟨path, text⟩], diagnostics := found }

/-- Results one after the other. -/
def Result.append (a b : Result) : Result :=
  { skipped := a.skipped || b.skipped
    outputs := a.outputs ++ b.outputs
    diagnostics := a.diagnostics ++ b.diagnostics }

/-- A declaration file for each source. -/
def emitFiles (p : Program) (markers : Option MarkerSet) : Check Result := do
  let results ← p.outputs.mapM fun f => emitFile p markers f.id
  return results.foldl Result.append { diagnostics := rootFindings p }

/-- The declarations of a program; none when they are not wanted, or not wanted beside errors. -/
def program (markers : Option MarkerSet) : Check Result := do
  let p ← Check.program
  if p.options.noEmit then return { skipped := true }
  let stop ← if p.options.noEmitOnError then
      pure ((← Typing.diagnostics).any Diagnostic.isError)
    else pure false
  if stop then return { skipped := true }
  match p.options.outFile with
  | some path => emitBundle p path
  | none => emitFiles p markers

end Emit

/-! ## Written files -/

namespace Path

/-- Components in order: the root, a dot, `..`, then names. -/
def Component.rank : Component → Nat
  | .root => 0
  | .current => 1
  | .parent => 2
  | .name _ => 3

/-- The order of components. -/
def Component.order (a b : Component) : Ordering :=
  (compare a.rank b.rank).then (Text.compareText a.text b.text)

/-- The order of paths, component by component. -/
def order : List Component → List Component → Ordering
  | [], [] => .eq
  | [], _ :: _ => .lt
  | _ :: _, [] => .gt
  | a :: as, b :: bs => (a.order b).then (order as bs)

end Path

/-- The files that have been written, in the order of their paths. -/
structure WrittenFiles where
  outputs : List Emit.Output := []
deriving Inhabited

namespace WrittenFiles

/-- Puts a file in its place; one that was there before is replaced. -/
def place (o : Emit.Output) : List Emit.Output → List Emit.Output
  | [] => [o]
  | f :: rest =>
    match Path.order (Path.components o.path) (Path.components f.path) with
    | .lt => o :: f :: rest
    | .eq => o :: rest
    | .gt => f :: place o rest

/-- Writes a file. -/
def write (w : WrittenFiles) (o : Emit.Output) : WrittenFiles :=
  ⟨place { o with path := Path.normalize o.path } w.outputs⟩

end WrittenFiles

end DeclKit

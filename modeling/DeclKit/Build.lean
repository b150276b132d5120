/-
A build: load the project, check it, write its declarations.

Reports come in order: what is wrong with the configuration and nothing else, or what the check finds
followed by what is found while declarations are written. Errors of the check do not keep declarations
from being written unless the options say so.
-/
import DeclKit.Config.Project
import DeclKit.Diagnostic.Report
import DeclKit.Emit.Output

set_option autoImplicit false

namespace DeclKit.Build

/-- What is to be built, and how it is reported. -/
structure Request where
  /-- A configuration file, or a directory that holds one. -/
  project : String := "."
  pretty : Bool := false
  color : Bool := false
  listFiles : Bool := false
deriving DecidableEq, Repr, Inhabited

/-- What came of a build. -/
structure Report where
  /-- Whether all went well, or why the build ended early. -/
  outcome : Except Failure Bool
  /-- What is to be printed. -/
  output : String
  /-- The files as the build leaves them. -/
  tree : FileTree

/-- The text of diagnostics as the request wants it. -/
def Request.report (r : Request) (sources : Sources) (ds : List Diagnostic) : String :=
  Diagnostic.report (if r.color then .colored else .plain) r.pretty sources ds

/-- Writes files until one cannot be written. -/
def writeAll (t : FileTree) : List Emit.Output → FileTree × Option Failure
  | [] => (t, none)
  | o :: rest =>
    match t.write? o.path (some o.text) with
    | some t => writeAll t rest
    | none => (t, some (.cannotWrite o.path))

/-- The names of a program's files, a line each. -/
def fileList (p : Program) : String :=
  String.join (p.files.toList.map fun f => (p.source f.id).displayName ++ "\n")

/-- Checks a program and writes its declarations, markers obeyed. -/
def runProgram (t : FileTree) (r : Request) (p : Program) : Report :=
  let run : Check (List Diagnostic × Emit.Result) := do
    let found ← Typing.diagnostics
    return (found, ← Emit.program (some {}))
  let (found, result) := ((run.run (.ofProgram p)).run {}).1
  let before := r.report p.sources found
  match writeAll t result.outputs with
  | (tree, some failure) => { outcome := .error failure, output := before, tree }
  | (tree, none) =>
    { outcome := .ok (!found.any Diagnostic.isError && !result.skipped)
      output := before ++ r.report p.sources result.diagnostics ++
        (if r.listFiles then fileList p else "")
      tree }

/-- Builds the project that a request names, seen from a directory. -/
def run (t : FileTree) (directory : String) (r : Request) : Report :=
  match Config.load t directory r.project with
  | .error rejection =>
    { outcome := .ok false
      output := r.report rejection.sources rejection.diagnostics
      tree := t }
  | .ok project =>
    match Program.load project.sources project.roots project.options (t.toHost project.directory) with
    | .error failure => { outcome := .error failure, output := "", tree := t }
    | .ok program => runProgram t r program

/-- The files that differ from what they were, or were not there, in the order of their paths. -/
def written (before after : FileTree) : List Emit.Output :=
  let changed := after.entries.filterMap fun (names, entry) =>
    match entry with
    | .file (some text) =>
      if before.entry? names == some entry then none
      else some ⟨"/" ++ "/".intercalate names, text⟩
    | _ => none
  (changed.foldl WrittenFiles.write {}).outputs

end DeclKit.Build

/-
The command line program.

It reads the files that a build can ask for into a tree, runs the build on the tree, prints the report
and writes what the build has written. Seen are the files below the current directory and below the
directory of the project, hidden ones apart, and those that stand directly in a directory above.
-/
import DeclKit.Build
import DeclKit.CommandLine

set_option autoImplicit false

namespace DeclKit.CommandLine

/-- What is printed when help is asked for. -/
def usage : String := "\n".intercalate [
  "Emit .d.ts files and apply markers to them",
  "",
  "Usage: [OPTIONS] [PROJECT]",
  "",
  "Arguments:",
  "  [PROJECT]  Path to tsconfig.json, or a directory containing one [default: tsconfig.json]",
  "",
  "Options:",
  "      --pretty        Show diagnostics with source snippets",
  "      --color <WHEN>  Colorize diagnostics [default: auto] [possible values: auto, always, never]",
  "  -v, --verbose...    Log pipeline progress to stderr (-v for debug, -vv for trace)",
  "      --list-files    Print the files that are part of the compilation",
  "  -h, --help          Print help",
  "  -V, --version       Print version",
  ""]

/-- Why a command line was refused. -/
def Stop.message : Stop → String
  | help => usage
  | version => "0.1.0"
  | unknownArgument => "error: unexpected argument found"
  | invalidValue => "error: invalid value for an argument"
  | repeatedArgument => "error: an argument cannot be used multiple times"
  | unwantedValue => "error: unexpected value for an argument"

/-- The text of a file, or none when its bytes are no text. -/
def readText (path : String) : IO (Option String) := do
  return String.fromUTF8? (← IO.FS.readBinFile path)

/-- Adds the entries of a directory to a tree, and with `deep` all that is below them. -/
partial def addEntries (deep : Bool) (t : FileTree) (directory : String) : IO FileTree := do
  let entries ← try (← IO.FS.realPath directory).readDir catch _ => pure #[]
  let mut t := t.makeDirectory directory
  for e in entries do
    let path := Path.join directory e.fileName
    if e.fileName.startsWith "." then continue
    else if ← e.path.isDir then
      if deep then t ← addEntries deep t path
    else
      t := t.addFile path (← try readText path catch _ => pure none)
  return t

/-- The files that a build of a project can ask for. -/
def snapshot (directory project : String) : IO FileTree := do
  let path := Path.resolve directory project
  let isDirectory ← try (← IO.FS.realPath path).isDir catch _ => pure false
  let home := if isDirectory then path else (Path.parent? path).getD "/"
  let mut t : FileTree := {}
  for d in Config.withAncestors directory ++ Config.withAncestors home do
    t ← addEntries false t d
  t ← addEntries true t directory
  if Path.isUnder home directory then return t else addEntries true t home

/-- Writes a file and the directories above it. -/
def writeOutput (o : Emit.Output) : IO Unit := do
  IO.FS.createDirAll ((Path.parent? o.path).getD "/")
  IO.FS.writeFile o.path o.text

/-- Builds what the arguments ask for; the answer is the program's exit status. -/
def runBuild (a : Arguments) : IO UInt32 := do
  let directory := (← IO.currentDir).toString
  let color ← match a.color.decided? with
    | some c => pure c
    | none => (← IO.getStdout).isTty
  let before ← snapshot directory a.project
  let r := Build.run before directory
    { project := a.project, pretty := a.pretty, color, listFiles := a.listFiles }
  IO.print r.output
  for o in Build.written before r.tree do writeOutput o
  match r.outcome with
  | .ok ok => return if ok then 0 else 1
  | .error failure =>
    IO.eprintln ("error: " ++ failure.message)
    return 1

end DeclKit.CommandLine

/-- The program. -/
def main (words : List String) : IO UInt32 := do
  match DeclKit.CommandLine.parse words with
  | .ok a => DeclKit.CommandLine.runBuild a
  | .error .help => do IO.println DeclKit.CommandLine.usage; return 0
  | .error .version => do IO.println (DeclKit.CommandLine.Stop.message .version); return 0
  | .error stop => do IO.eprintln stop.message; return 2

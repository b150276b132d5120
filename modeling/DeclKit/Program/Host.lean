/-
Where a program's files come from, and how a module specifier finds one.

A host is a table of files and a current directory. Only specifiers that start with a dot are looked
for; a package name never resolves.
-/
import DeclKit.Path

set_option autoImplicit false

namespace DeclKit

/-- Files by their normal path. A file whose bytes are no text exists but cannot be read. -/
structure Host where
  directory : String := "/"
  files : List (List Path.Component × Option String) := []
deriving Inhabited

namespace Host

/-- The entry of a path. -/
def entry? (h : Host) (path : String) : Option (Option String) :=
  h.files.lookup (Path.normalComponents path)

/-- The text of the file at a path. -/
def read? (h : Host) (path : String) : Option String := (h.entry? path).join

/-- There is a file at a path. -/
def exists? (h : Host) (path : String) : Bool := (h.entry? path).isSome

/-- Adds a file; one that was at the path before is replaced. -/
def addFile (h : Host) (path : String) (text : Option String) : Host :=
  { h with files := (Path.normalComponents path, text) :: h.files }

end Host

namespace Module

/-- The specifier starts at the importing file's directory. -/
def isRelative (specifier : String) : Bool :=
  specifier == "." || specifier == ".." || specifier.startsWith "./" || specifier.startsWith "../"

/-- Extensions of compiled files, and of the sources they are compiled from. -/
def compiledExtensions : List (String × String) :=
  [(".js", ".ts"), (".mjs", ".mts"), (".cjs", ".cts")]

/-- The specifier names a source file outright. -/
def namesSource (specifier : String) : Bool :=
  [".ts", ".tsx", ".mts", ".cts"].any fun e => specifier.endsWith e

/-- The paths at which a specifier is looked for, in order. -/
def candidates (specifier containing : String) : List String :=
  let directory := (Path.parent? containing).getD "/"
  let base := Path.normalize (Path.join directory specifier)
  let compiled := compiledExtensions.filterMap fun (js, ts) =>
    (Text.stripSuffix? specifier js).map fun stem =>
      Path.normalize (Path.join directory (stem ++ ts))
  let itself := if namesSource specifier then [base] else []
  let extended := [".ts", ".tsx", ".d.ts"].map (base ++ ·)
  let index := ["index.ts", "index.d.ts"].map (Path.join base ·)
  compiled ++ itself ++ extended ++ index

/-- The file that a specifier in a containing file names. -/
def resolve? (h : Host) (specifier containing : String) : Option String :=
  if isRelative specifier then (candidates specifier containing).find? h.exists? else none

end Module

end DeclKit

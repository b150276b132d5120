/-
Trees of files and directories.

A tree lists its entries by the names that lead to them from the root. The root is always a directory,
and whoever adds an entry adds the directories above it. There are no links.
-/
import DeclKit.Program.Host

set_option autoImplicit false

namespace DeclKit

/-- What a path leads to. A file whose bytes are no text exists but cannot be read. -/
inductive TreeEntry where
  | directory
  | file (text : Option String)
deriving DecidableEq, Repr, Inhabited

/-- Files and directories by the names that lead to them. -/
structure FileTree where
  entries : List (List String × TreeEntry) := []
deriving Inhabited

namespace FileTree

/-! ## Asking -/

/-- What names lead to. -/
def entry? (t : FileTree) (names : List String) : Option TreeEntry :=
  if names.isEmpty then some .directory else t.entries.lookup names

/-- The names lead to a directory. -/
def hasDirectory (t : FileTree) (names : List String) : Bool := t.entry? names == some .directory

/-- Follows components from a place. Whatever is passed through must be a directory. -/
def follow (t : FileTree) (names : List String) : List Path.Component → Option (List String)
  | [] => some names
  | .root :: rest => t.follow [] rest
  | .current :: rest => t.follow names rest
  | .parent :: rest => if t.hasDirectory names then t.follow names.dropLast rest else none
  | .name n :: rest => if t.hasDirectory names then t.follow (names ++ [n]) rest else none

/-- The path is written as that of a directory: with a slash or a dot at its end. -/
def namesDirectory (path : String) : Bool :=
  match (Path.segments path).getLast? with
  | some s => s == "" || s == "."
  | none => false

/-- What a path leads to. -/
def find? (t : FileTree) (path : String) : Option TreeEntry :=
  match (t.follow [] (Path.components path)).bind t.entry? with
  | some (.file text) => if namesDirectory path then none else some (.file text)
  | e => e

/-- The path leads to a directory. -/
def isDirectory (t : FileTree) (path : String) : Bool := t.find? path == some .directory

/-- The path leads to a file. -/
def isFile (t : FileTree) (path : String) : Bool :=
  match t.find? path with
  | some (.file _) => true
  | _ => false

/-- The text of the file at a path. -/
def read? (t : FileTree) (path : String) : Option String :=
  match t.find? path with
  | some (.file text) => text
  | _ => none

/-- The entries of a directory, by name. -/
def children (t : FileTree) (names : List String) : List (String × TreeEntry) :=
  let below := t.entries.filterMap fun (path, entry) =>
    match path.getLast? with
    | some last => if path.dropLast == names then some (last, entry) else none
    | none => none
  below.mergeSort fun a b => Text.compareText a.1 b.1 != .gt

/-- The files of a tree as a host sees them. -/
def toHost (t : FileTree) (directory : String) : Host :=
  { directory
    files := t.entries.filterMap fun (names, entry) =>
      match entry with
      | .file text => some (.root :: names.map Path.Component.name, text)
      | .directory => none }

/-! ## Changing -/

/-- Sets what names lead to. -/
def set (t : FileTree) (names : List String) (entry : TreeEntry) : FileTree :=
  ⟨(names, entry) :: t.entries.filter (·.1 != names)⟩

/-- Adds a directory and those above it; none where a file is in the way. -/
def addDirectory? (t : FileTree) (above : List String) : List String → Option FileTree
  | [] => some t
  | n :: rest =>
    match t.entry? (above ++ [n]) with
    | some .directory => t.addDirectory? (above ++ [n]) rest
    | some (.file _) => none
    | none => (t.set (above ++ [n]) .directory).addDirectory? (above ++ [n]) rest

/-- The names of a normalized path. -/
def namesOf (path : String) : List String :=
  (Path.normalComponents path).filterMap fun
    | .name n => some n
    | _ => none

/-- Writes a file, with the directories above it; none where a file is among those or a directory is at
the path. -/
def write? (t : FileTree) (path : String) (text : Option String) : Option FileTree :=
  let names := namesOf path
  match t.addDirectory? [] names.dropLast with
  | none => none
  | some t => if t.hasDirectory names then none else some (t.set names (.file text))

/-- Adds a directory at a path, where that is possible. -/
def makeDirectory (t : FileTree) (path : String) : FileTree :=
  (t.addDirectory? [] (namesOf path)).getD t

/-- Adds a file at a path, where that is possible. -/
def addFile (t : FileTree) (path : String) (text : Option String) : FileTree :=
  (t.write? path text).getD t

/-! ## Walking -/

/-- The files below a directory that is at most `n` levels high, each with the names that lead to it
from where the walk began: first the files of a directory by name, then those below its directories.
What is not to be kept is left out with all that is below it. -/
def walk (t : FileTree) (keep : List String → Bool) :
    Nat → List String → List String → List (List String)
  | 0, _, _ => []
  | n + 1, names, way =>
    let kept := (t.children names).filter fun (name, _) => keep (way ++ [name])
    let files := kept.filter (·.2 != .directory)
    let directories := kept.filter (·.2 == .directory)
    files.map (fun (name, _) => way ++ [name]) ++
      directories.flatMap fun (name, _) => t.walk keep n (names ++ [name]) (way ++ [name])

/-- The files below the directory at a path, as paths that start with it. -/
def filesBelow (t : FileTree) (keep : String → String → Bool) (root : String) : List String :=
  let pathOf (way : List String) := Path.join root ("/".intercalate way)
  match t.follow [] (Path.components root) with
  | some names =>
    if t.hasDirectory names then
      (t.walk (fun way => keep (way.getLastD "") (pathOf way)) (t.entries.length + 1) names []).map
        pathOf
    else []
  | none => []

end FileTree

end DeclKit

/-
The files of a session.

Every file that is read (configuration, the built-in library, modules) is registered once and gets an
id. Ids count up from zero, so they order the files by registration and index per-file tables.
-/
import DeclKit.Path
import DeclKit.Text.Lines

set_option autoImplicit false

namespace DeclKit

/-- The number of a registered file. -/
structure SourceId where
  index : Nat
deriving DecidableEq, Hashable, Repr, Inhabited

/-- What a registered file is. -/
inductive SourceKind where
  /-- The built-in library. -/
  | defaultLib
  /-- A configuration file. -/
  | config
  /-- A module or script of the program. -/
  | module
deriving DecidableEq, Repr, Inhabited

/-- A registered file. -/
structure Source where
  kind : SourceKind
  path : String
  text : String
  lines : Text.LineIndex
deriving Inhabited

namespace Source

/-- The path as messages show it, with forward slashes. -/
def displayName (s : Source) : String :=
  s.path.map fun c => if c == '\\' then '/' else c

/-- The file is the built-in library. -/
def isDefaultLib (s : Source) : Bool := s.kind == .defaultLib

/-- The file holds declarations only, so that nothing is written for it. -/
def isDeclarationFile (s : Source) : Bool :=
  s.path.endsWith ".d.ts" || s.path.endsWith ".d.mts" || s.path.endsWith ".d.cts"

/-- The line and column of a byte offset. -/
def position (s : Source) (offset : Nat) : Text.Position := s.lines.position s.text offset

/-- The text between two byte offsets. -/
def slice (s : Source) (start stop : Nat) : String := Text.slice s.text start stop

end Source

/-- The registered files, in the order of their ids. -/
structure Sources where
  files : Array Source := #[]
deriving Inhabited

namespace Sources

/-- The file with an id. Ids come from `add`, so there is one. -/
def get (m : Sources) (id : SourceId) : Source := m.files.getD id.index default

/-- The id of the file at a path. Paths agree when their components do. -/
def lookup? (m : Sources) (path : String) : Option SourceId :=
  (m.files.findIdx? fun f => Path.same f.path path).map SourceId.mk

/-- Registers a file. A path that is already there keeps its first file. -/
def add (m : Sources) (kind : SourceKind) (path text : String) : SourceId × Sources :=
  match m.lookup? path with
  | some id => (id, m)
  | none => (⟨m.files.size⟩, ⟨m.files.push ⟨kind, path, text, .ofText text⟩⟩)

/-- The ids in registration order. -/
def ids (m : Sources) : List SourceId := (List.range m.files.size).map SourceId.mk

end Sources

end DeclKit

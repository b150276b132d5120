/-
How a named type is written from a file.

Its own name if that reaches it, else a name under which it is imported, else a path through imported
namespaces, else an import type.
-/
import DeclKit.Decl.Build
import DeclKit.Typing.Scope

set_option autoImplicit false

namespace DeclKit

/-- How a symbol is written. -/
inductive Spelling where
  | reached (name : List String)
  | imported (module : String) (qualifier : List String)
deriving DecidableEq, Repr, Inhabited

namespace Spelling

/-- The reference with its arguments. -/
def reference (s : Spelling) (args : List Decl.TypeNode) : Decl.TypeNode :=
  match s with
  | reached name => .reference name args
  | imported module qualifier => .imported module qualifier args

/-- Roughly how long the reference is. -/
def length : Spelling → Nat
  | reached name => Text.totalBytes name + name.length
  | imported module qualifier =>
    module.utf8ByteSize + Text.totalBytes qualifier + qualifier.length + 8

end Spelling

namespace Program

/-- A single name in a file that stands for a symbol. -/
def localName? (p : Program) (symbol : SymbolId) (use : NameUse) (file : SourceId) :
    Option String :=
  let s := p.symbols.get symbol
  let locals := (p.symbols.file? file).map (·.locals)
  let own := match locals.bind (·.get? s.name) with
    | some id => p.symbols.resolveAlias? id == some symbol
    | none => p.symbols.globals.get? s.name == some symbol
  if own then some s.name
  else locals.bind fun names => (names.toList.find? fun (_, id) =>
    (p.symbols.get id).meaning.importAlias && p.symbols.resolveAlias? id == some symbol &&
      s.meaning.serves use).map (·.1)

/-- The names in a file that are imported modules, with the modules. -/
def namespaces (p : Program) (file : SourceId) : List (String × SourceId) :=
  let names := ((p.symbols.file? file).map (·.locals.toList)).getD []
  names.filterMap fun (name, id) =>
    ((p.symbols.resolveAlias? id).filter (· != id)).bind fun target =>
      (p.symbols.get target).module.map fun m => (name, m)

/-- The names under which a module exports other modules, with these. -/
def innerNamespaces (p : Program) (module : SourceId) : List (String × SourceId) :=
  (p.symbols.exportNames module).filterMap fun name =>
    (p.symbols.export? module name).bind fun target =>
      (p.symbols.get target).module.map fun m => (name, m)

/-- A path through one or two imported namespaces of a file to a symbol. -/
def namespacePath? (p : Program) (symbol : SymbolId) (file : SourceId) : Option (List String) :=
  (p.namespaces file).findSome? fun (name, module) =>
    match p.symbols.exportNameOf? module symbol with
    | some e => some [name, e]
    | none => (p.innerNamespaces module).findSome? fun (inner, m) =>
        (p.symbols.exportNameOf? m symbol).map fun e => [name, inner, e]

/-- The import type of a symbol from a file. -/
def importSpelling? (p : Program) (symbol : SymbolId) (file : SourceId) : Option Spelling := do
  let declaring ← ((p.symbols.get symbol).declarations[0]?).map (·.file)
  let name ← p.symbols.exportNameOf? declaring symbol
  let path := (p.source file).path
  let directory := (Path.parent? path).getD path
  let specifier := Path.moduleSpecifier directory (p.source declaring).path
  return .imported (Text.quote specifier) [name]

/-- How a symbol is written from a file; `qualified` allows import types. -/
def spelling? (p : Program) (symbol : SymbolId) (use : NameUse) (file : SourceId)
    (qualified : Bool) : Option Spelling :=
  let s := p.symbols.get symbol
  if s.declarations[0]?.any fun d => (p.source d.file).isDefaultLib then some (.reached [s.name])
  else match p.localName? symbol use file with
    | some name => some (.reached [name])
    | none =>
      match p.namespacePath? symbol file with
      | some path => some (.reached path)
      | none => if qualified then p.importSpelling? symbol file else none

end Program

end DeclKit

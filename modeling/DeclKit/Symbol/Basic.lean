/-
Symbols: what names stand for.

A symbol is known by its number. Declarations of one name in one scope merge into one symbol, which
then has several meanings; the binder reports the merges that are not allowed. Maps from names remember
the order of first insertion: writing to a name that is already there changes its value and leaves its
place.
-/
import DeclKit.Source
import DeclKit.Tree.Node
import Std.Data.HashMap

set_option autoImplicit false

namespace DeclKit

/-! ## Maps from names -/

/-- Values by name, in the order in which the names came in. -/
structure NameMap (α : Type) where
  entries : Array (String × α) := #[]
deriving Inhabited

namespace NameMap

variable {α : Type}

/-- The value of a name. -/
def get? (m : NameMap α) (name : String) : Option α :=
  (m.entries.find? (·.1 == name)).map (·.2)

/-- The name is there. -/
def contains (m : NameMap α) (name : String) : Bool := m.entries.any (·.1 == name)

/-- Sets the value of a name; a new name goes to the end. -/
def insert (m : NameMap α) (name : String) (value : α) : NameMap α :=
  match m.entries.findIdx? (·.1 == name) with
  | some i => ⟨m.entries.set! i (name, value)⟩
  | none => ⟨m.entries.push (name, value)⟩

/-- The names in order. -/
def names (m : NameMap α) : List String := m.entries.toList.map (·.1)

/-- The pairs in order. -/
def toList (m : NameMap α) : List (String × α) := m.entries.toList

end NameMap

/-! ## Symbols -/

/-- The number of a symbol. -/
structure SymbolId where
  index : Nat
deriving DecidableEq, Hashable, Repr, Inhabited

/-- What a symbol can be. -/
structure Meaning where
  typeAlias : Bool := false
  interface : Bool := false
  function : Bool := false
  variable_ : Bool := false
  blockScoped : Bool := false
  /-- An import; what it stands for is found in another file. -/
  importAlias : Bool := false
  typeParameter : Bool := false
  /-- A whole file. -/
  module : Bool := false
deriving DecidableEq, Repr, Inhabited

namespace Meaning

/-- Everything that either symbol can be. -/
def union (a b : Meaning) : Meaning :=
  { typeAlias := a.typeAlias || b.typeAlias
    interface := a.interface || b.interface
    function := a.function || b.function
    variable_ := a.variable_ || b.variable_
    blockScoped := a.blockScoped || b.blockScoped
    importAlias := a.importAlias || b.importAlias
    typeParameter := a.typeParameter || b.typeParameter
    module := a.module || b.module }

/-- Can be used as a type. -/
def isType (m : Meaning) : Bool := m.typeAlias || m.interface || m.typeParameter

/-- Can be used as a value. -/
def isValue (m : Meaning) : Bool := m.function || m.variable_ || m.blockScoped

/-- The names of the meanings, in order. -/
def labels (m : Meaning) : List String :=
  [(m.typeAlias, "TYPE_ALIAS"), (m.interface, "INTERFACE"), (m.function, "FUNCTION"),
   (m.variable_, "VARIABLE"), (m.blockScoped, "BLOCK_SCOPED_VARIABLE"), (m.importAlias, "ALIAS"),
   (m.typeParameter, "TYPE_PARAMETER"), (m.module, "MODULE")].filterMap
    fun (has, label) => if has then some label else none

end Meaning

/-- A node by file, range and kind. -/
structure NodeKey where
  file : SourceId
  start : Nat
  stop : Nat
  kind : Kind
deriving DecidableEq, Hashable, Repr, Inhabited

/-- The key of a node of a file. -/
def Node.key (n : Node) (file : SourceId) : NodeKey := ⟨file, n.start, n.stop, n.kind⟩

/-- A place where a symbol is declared. -/
structure Declaration where
  file : SourceId
  node : Node
deriving Inhabited

namespace Declaration

/-- The kind of the declaring node. -/
def kind (d : Declaration) : Kind := d.node.kind

/-- The node of the declared name, or the declaration itself. -/
def nameNode (d : Declaration) : Node := d.node.name?.getD d.node

end Declaration

/-- What an import asks another module for. -/
inductive ImportedName where
  | default
  | named (name : String)
  | namespace_
deriving DecidableEq, Repr, Inhabited

/-- What an import stands for. -/
structure ImportTarget where
  module : Option SourceId
  specifier : String
  name : ImportedName
deriving DecidableEq, Repr, Inhabited

/-- What a name stands for. -/
structure Symbol where
  name : String
  meaning : Meaning
  declarations : Array Declaration := #[]
  importTarget : Option ImportTarget := none
  /-- The file, for the symbol of a whole file. -/
  module : Option SourceId := none
deriving Inhabited

/-- The declarations of a kind. -/
def Symbol.declarationsOf (s : Symbol) (k : Kind) : List Declaration :=
  s.declarations.toList.filter (·.kind == k)

/-- What an exported name leads to. -/
inductive ExportTarget where
  | local (symbol : SymbolId)
  | reexport (module : Option SourceId) (name : String)
  | namespace_ (module : Option SourceId)
deriving DecidableEq, Repr, Inhabited

/-- The names of one file. -/
structure FileSymbols where
  isModule : Bool := false
  locals : NameMap SymbolId := {}
  exports : NameMap ExportTarget := {}
  /-- Modules all of whose exports are exported again. -/
  stars : Array (Option SourceId) := #[]
deriving Inhabited

/-- All symbols of a program. -/
structure Symbols where
  all : Array Symbol := #[]
  files : Std.HashMap SourceId FileSymbols := {}
  modules : Std.HashMap SourceId SymbolId := {}
  globals : NameMap SymbolId := {}
  /-- The symbols of type parameters, by their nodes. -/
  nodes : Std.HashMap NodeKey SymbolId := {}

namespace Symbols

/-- The symbol with a number. Numbers come from `alloc`, so there is one. -/
def get (t : Symbols) (id : SymbolId) : Symbol := t.all.getD id.index default

/-- A new symbol. -/
def alloc (t : Symbols) (s : Symbol) : SymbolId × Symbols :=
  (⟨t.all.size⟩, { t with all := t.all.push s })

/-- Changes a symbol. -/
def modify (t : Symbols) (id : SymbolId) (f : Symbol → Symbol) : Symbols :=
  { t with all := t.all.modify id.index f }

/-- The names of a file. -/
def file? (t : Symbols) (file : SourceId) : Option FileSymbols := t.files[file]?

/-- Changes the names of a file. -/
def modifyFile (t : Symbols) (file : SourceId) (f : FileSymbols → FileSymbols) : Symbols :=
  { t with files := t.files.insert file (f ((t.files[file]?).getD {})) }

/-- The symbol of a type parameter, an `infer` or a mapped type's key. -/
def ofNode? (t : Symbols) (key : NodeKey) : Option SymbolId := t.nodes[key]?

/-- A name at file level: the module's own names first, then the global ones. -/
def lookup? (t : Symbols) (file : SourceId) (name : String) : Option SymbolId :=
  (t.file? file).bind (·.locals.get? name) |>.or (t.globals.get? name)

/-! ## Exports and imports -/

/-- How far one may have to go to find an export: every step to another module either follows one
export entry or one star, and no star is followed twice between two entries. -/
def exportDepth (t : Symbols) : Nat :=
  let entries := t.files.fold (fun n _ f => n + f.exports.entries.size) 0
  (entries + 1) * (t.files.size + 1) + 1

/-- The symbol that a module exports under a name, imports not followed, and the modules looked
through on the way. Modules in `seen` are not looked through again. -/
def exportFrom (t : Symbols) : Nat → SourceId → String → List SourceId →
    Option SymbolId × List SourceId
  | 0, _, _, seen => (none, seen)
  | n + 1, module, name, seen =>
    if seen.contains module then (none, seen)
    else
      let seen := module :: seen
      match t.file? module with
      | none => (none, seen)
      | some file =>
        match file.exports.get? name with
        | some (.local id) => (some id, seen)
        | some (.reexport target inner) =>
          match target with
          | some m => ((exportFrom t n m inner []).1, seen)
          | none => (none, seen)
        | some (.namespace_ target) => (target.bind (t.modules[·]?), seen)
        | none =>
          if name == "default" then (none, seen)
          else file.stars.toList.foldl (fun (found, seen) star =>
            match found, star with
            | none, some m => exportFrom t n m name seen
            | _, _ => (found, seen)) (none, seen)

/-- The symbol that a module exports under a name, imports not followed. -/
def rawExport? (t : Symbols) (module : SourceId) (name : String) : Option SymbolId :=
  (t.exportFrom t.exportDepth module name []).1

/-- What an import leads to in one step; `none` when the module or its export is missing. -/
def importStep? (t : Symbols) (target : ImportTarget) : Option SymbolId :=
  target.module.bind fun m => match target.name with
    | .namespace_ => t.modules[m]?
    | .default => t.rawExport? m "default"
    | .named name => t.rawExport? m name

/-- Follows imports from a symbol, at most `n` of them and never through one in `seen`. -/
def followImports (t : Symbols) : Nat → List SymbolId → SymbolId → Option SymbolId
  | 0, _, _ => none
  | n + 1, seen, id =>
    if seen.contains id then none
    else match (t.get id).importTarget with
      | none => some id
      | some target => (t.importStep? target).bind (followImports t n (id :: seen))

/-- The symbol that an import leads to in the end; a symbol that is no import leads to itself. -/
def resolveAlias? (t : Symbols) (id : SymbolId) : Option SymbolId :=
  t.followImports (t.all.size + 1) [] id

/-- The symbol that a module exports under a name, imports followed. -/
def export? (t : Symbols) (module : SourceId) (name : String) : Option SymbolId :=
  (t.rawExport? module name).bind t.resolveAlias?

/-- Collects the exported names of a module and of the modules it passes on, each module once. -/
def collectExportNames (t : Symbols) :
    Nat → SourceId → List String × List SourceId → List String × List SourceId
  | 0, _, acc => acc
  | n + 1, module, (out, seen) =>
    if seen.contains module then (out, seen)
    else
      let seen := module :: seen
      match t.file? module with
      | none => (out, seen)
      | some file =>
        let out := file.exports.names.foldl
          (fun out name => if out.contains name then out else out ++ [name]) out
        file.stars.toList.foldl (fun acc star => match star with
          | some m => collectExportNames t n m acc
          | none => acc) (out, seen)

/-- The names that a module exports. -/
def exportNames (t : Symbols) (module : SourceId) : List String :=
  (t.collectExportNames (t.files.size + 1) module ([], [])).1

/-- The name under which a module exports a symbol. -/
def exportNameOf? (t : Symbols) (module : SourceId) (id : SymbolId) : Option String :=
  (t.exportNames module).find? fun name => t.export? module name == some id

end Symbols

end DeclKit

/-
A written name leads back to its symbol.

A name that is found for a symbol is read again from the file that it is written in: its first part at
the top level of the file, the others among the exports of the modules that are reached. An own name and
a name that is imported are found the way they are looked up. A path through modules follows the exports
that it was found by. Only the names of the built-in library are written without a look at the file, and
there a name of the file may stand before them.
-/
import DeclKit.Proofs.Program.Script
import DeclKit.Proofs.Symbol.Consistent
import DeclKit.Proofs.Symbol.Names
import DeclKit.Typing.Spelling

set_option autoImplicit false

namespace DeclKit

/-- The symbol that a name stands for. -/
def Resolution.symbol? : Resolution → Option SymbolId
  | .found id => some id
  | .unresolved | .missing => none

namespace Program

/-- What names lead to from a symbol, each an export of the module that the ones before it lead to. -/
def exportPath? (p : Program) (id : SymbolId) : List String → Option SymbolId
  | [] => some id
  | name :: rest =>
    ((p.symbols.get id).module.bind fun m => p.symbols.export? m name).bind fun next =>
      exportPath? p next rest

/-- What a path leads to as a type at the top level of a file. -/
def reached? (p : Program) (file : SourceId) : List String → Option SymbolId
  | [] => none
  | [name] => (p.resolveOuter file name .type).symbol?
  | name :: rest => (p.resolveOuter file name .namespace_).symbol?.bind fun id => p.exportPath? id rest

/-- The symbol is declared in the built-in library first. -/
def IsBuiltin (p : Program) (symbol : SymbolId) : Prop :=
  (p.symbols.get symbol).declarations[0]?.any (fun d => (p.source d.file).isDefaultLib) = true

/-- The name of a file. -/
def local? (p : Program) (file : SourceId) (name : String) : Option SymbolId :=
  (p.symbols.file? file).bind (·.locals.get? name)

/-- A symbol of the library cannot be reached from a file, where its name is that of another type, or of
an import that leads nowhere. -/
def Hidden (p : Program) (symbol : SymbolId) (file : SourceId) : Prop :=
  p.IsBuiltin symbol ∧ ∃ id, p.local? file (p.symbols.get symbol).name = some id ∧
    p.underUse .type id ≠ .missing ∧ p.underUse .type id ≠ .found symbol

/-- What holds of the names of a loaded program. -/
structure Named (p : Program) : Prop where
  consistent : p.symbols.Consistent
  global : ∀ name id, p.symbols.globals.get? name = some id →
    (p.symbols.get id).meaning.importAlias = false
  builtin : ∀ id, p.IsBuiltin id → (p.symbols.get id).meaning ≠ { typeParameter := true } →
    p.symbols.globals.get? (p.symbols.get id).name = some id

/-- Imports make a module, and the library is a script. -/
theorem named_of_load {sources : Sources} {roots : List String} {options : CompilerOptions}
    {h : Host} {p : Program} (hsources : sources.KeepsLibrary)
    (hload : load sources roots options h = .ok p) : p.Named := by
  obtain ⟨hsymbols, hfiles, hparsed⟩ := load_bindInputs hload
  refine ⟨?_, fun name id hid => ?_, fun id hbuiltin hparam => ?_⟩
  · rw [hsymbols]
    exact bind_consistent p.bindInputs
  · rw [hsymbols] at hid ⊢
    exact importAlias_of_global hfiles hparsed hid
  · obtain ⟨d, hd, hlib⟩ := (Option.any_eq_true _ _).1 hbuiltin
    rw [hsymbols] at hd hparam ⊢
    refine get?_globals_of_script hfiles hparsed (Array.mem_of_getElem? hd) hparam fun i hi hfile => ?_
    obtain ⟨f, hf, rfl⟩ := List.mem_map.1 hi
    refine isModule_of_isDefaultLib hsources hload (Array.mem_toList_iff.1 hf) ?_
    rwa [show f.id = d.file from hfile]

/-! ## Single names -/

section

variable {p : Program} {symbol id target : SymbolId} {file : SourceId} {name : String} {use : NameUse}

/-- A symbol that is no import stands for itself, and an import for what it leads to. -/
theorem underUse_of_resolveAlias? (h : p.symbols.Consistent)
    (htarget : p.symbols.resolveAlias? id = some target)
    (hserves : (p.symbols.get target).meaning.serves use = true) :
    p.underUse use id = .found target := by
  rw [underUse]
  split
  · rw [htarget]
    dsimp only
    rw [if_pos hserves]
  · rename_i himport
    rw [(h.get id).imported, Bool.not_eq_true, Option.isSome_eq_false_iff, Option.isNone_iff_eq_none]
      at himport
    rw [Symbols.resolveAlias?_of_none himport, Option.some.injEq] at htarget
    rw [htarget, if_pos hserves]

/-- A global name is no import. -/
theorem underUse_of_global (h : p.Named) (hid : p.symbols.globals.get? name = some id)
    (hserves : (p.symbols.get id).meaning.serves use = true) : p.underUse use id = .found id := by
  rw [underUse]
  rw [h.global name id hid, if_neg Bool.false_ne_true, if_pos hserves]

/-- A name of the file comes before the global one. -/
theorem resolveOuter_of_local (hid : p.local? file name = some id)
    (hfound : p.underUse use id ≠ .missing) : p.resolveOuter file name use = p.underUse use id := by
  rw [local?] at hid
  rw [resolveOuter, hid]
  rw [Option.toList_some, List.singleton_append, List.findSome?_cons]
  cases huse : p.underUse use id with
  | missing => exact absurd huse hfound
  | found target => rfl
  | unresolved => rfl

/-- A global name is found where no name of the file can be used so. -/
theorem resolveOuter_of_global (hglobal : p.symbols.globals.get? name = some id)
    (hfound : p.underUse use id = .found id)
    (hlocal : ∀ other, p.local? file name = some other → p.underUse use other = .missing) :
    p.resolveOuter file name use = .found id := by
  rw [resolveOuter, List.findSome?_append, hglobal, Option.toList_some]
  cases hid : p.local? file name with
  | none =>
    rw [local?] at hid
    rw [hid, Option.toList_none, List.findSome?_nil, List.findSome?_singleton, hfound]
    rfl
  | some other =>
    have hmissing := hlocal other hid
    rw [local?] at hid
    rw [hid, Option.toList_some, List.findSome?_singleton, List.findSome?_singleton, hmissing, hfound]
    rfl

theorem local?_eq (p : Program) (file : SourceId) (name : String) :
    ((p.symbols.file? file).map (·.locals)).bind (·.get? name) = p.local? file name := by
  rw [local?]
  cases p.symbols.file? file <;> rfl

/-- A single name for a symbol is a name of the file that stands for it, or its global name. -/
theorem localName?_cases (h : p.symbols.Consistent) (hname : p.localName? symbol use file = some name) :
    (∃ id, p.local? file name = some id ∧ p.symbols.resolveAlias? id = some symbol) ∨
      p.local? file name = none ∧ p.symbols.globals.get? name = some symbol := by
  -- the names of the file under which something is imported
  have himported : (((p.symbols.file? file).map (·.locals)).bind fun names =>
      (names.toList.find? fun x => (p.symbols.get x.2).meaning.importAlias &&
        p.symbols.resolveAlias? x.2 == some symbol &&
          (p.symbols.get symbol).meaning.serves use).map (·.1)) = some name →
      ∃ id, p.local? file name = some id ∧ p.symbols.resolveAlias? id = some symbol := by
    intro hfind
    obtain ⟨names, hnames, hfind⟩ := Option.bind_eq_some_iff.1 hfind
    obtain ⟨f, hf, rfl⟩ := Option.map_eq_some_iff.1 hnames
    obtain ⟨⟨n, id⟩, hentry, rfl⟩ := Option.map_eq_some_iff.1 hfind
    have htest := List.find?_some hentry
    simp only [Bool.and_eq_true, beq_iff_eq] at htest
    refine ⟨id, ?_, htest.1.2⟩
    rw [local?, hf]
    exact h.get?_locals hf (List.mem_of_find?_eq_some hentry)
  rw [localName?, local?_eq] at hname
  split at hname
  · rename_i id hid
    split at hname
    · rename_i hown
      obtain rfl := Option.some.inj hname
      exact .inl ⟨id, hid, eq_of_beq hown⟩
    · exact .inl (himported hname)
  · rename_i hnone
    split at hname
    · rename_i hown
      obtain rfl := Option.some.inj hname
      exact .inr ⟨hnone, eq_of_beq hown⟩
    · exact .inl (himported hname)

/-- An own name, or one under which the symbol is imported, is the symbol's. -/
theorem reached?_of_localName? (h : p.Named) (htype : (p.symbols.get symbol).meaning.isType = true)
    (hname : p.localName? symbol use file = some name) : p.reached? file [name] = some symbol := by
  have hserves : (p.symbols.get symbol).meaning.serves .type = true := htype
  rw [reached?]
  obtain ⟨id, hid, htarget⟩ | ⟨hnone, hglobal⟩ := localName?_cases h.consistent hname
  · have hfound := underUse_of_resolveAlias? h.consistent htarget hserves
    rw [resolveOuter_of_local hid (by rw [hfound]; exact Resolution.noConfusion), hfound]
    rfl
  · rw [resolveOuter_of_global hglobal (underUse_of_global h hglobal hserves) fun other hid => by
      rw [hnone] at hid; cases hid]
    rfl

/-- A name of the library is the symbol's exactly where nothing hides it. -/
theorem reached?_of_isBuiltin (h : p.Named) (hbuiltin : p.IsBuiltin symbol)
    (hglobal : p.symbols.globals.get? (p.symbols.get symbol).name = some symbol)
    (htype : (p.symbols.get symbol).meaning.isType = true) :
    p.reached? file [(p.symbols.get symbol).name] = some symbol ↔ ¬ p.Hidden symbol file := by
  have hfound : p.underUse .type symbol = .found symbol := underUse_of_global h hglobal htype
  rw [reached?]
  by_cases hlocal : ∀ id, p.local? file (p.symbols.get symbol).name = some id →
      p.underUse .type id = .missing
  · rw [resolveOuter_of_global hglobal hfound hlocal]
    refine iff_of_true rfl ?_
    rintro ⟨-, id, hid, hused, -⟩
    exact hused (hlocal id hid)
  · push Not at hlocal
    obtain ⟨id, hid, hused⟩ := hlocal
    rw [resolveOuter_of_local hid hused]
    constructor
    · rintro hreached ⟨-, other, hother, -, hne⟩
      rw [hid] at hother
      obtain rfl := Option.some.inj hother
      refine hne ?_
      cases huse : p.underUse .type id with
      | found target =>
        rw [huse] at hreached
        exact congrArg Resolution.found (Option.some.inj hreached)
      | unresolved => rw [huse] at hreached; cases hreached
      | missing => exact absurd huse hused
    · intro hnot
      have heq : p.underUse .type id = .found symbol := by
        by_contra hne
        exact hnot ⟨hbuiltin, id, hid, hused, hne⟩
      rw [heq]
      rfl

/-! ## Paths -/

/-- An imported module is found under its name, as a module. -/
theorem resolveOuter_of_namespaces {module : SourceId} (h : p.symbols.Consistent)
    (hmem : (name, module) ∈ p.namespaces file) :
    ∃ target, p.resolveOuter file name .namespace_ = .found target ∧
      (p.symbols.get target).module = some module := by
  obtain ⟨⟨n, id⟩, hentry, hmodule⟩ := List.mem_filterMap.1 hmem
  obtain ⟨target, htarget, hmodule⟩ := Option.bind_eq_some_iff.1 hmodule
  obtain ⟨m, hm, heq⟩ := Option.map_eq_some_iff.1 hmodule
  cases heq
  have htarget := (Option.filter_eq_some_iff.1 htarget).1
  have hfound : p.underUse .namespace_ id = .found target :=
    underUse_of_resolveAlias? h htarget ((h.get target).ofFile (by rw [hm]; rfl))
  have hid : p.local? file name = some id := by
    rw [local?]
    cases hf : p.symbols.file? file with
    | none => rw [hf] at hentry; exact absurd hentry List.not_mem_nil
    | some f => rw [hf] at hentry; exact h.get?_locals hf hentry
  refine ⟨target, ?_, hm⟩
  rw [resolveOuter_of_local hid (by rw [hfound]; exact Resolution.noConfusion), hfound]

theorem export?_of_innerNamespaces {module inner : SourceId}
    (hmem : (name, inner) ∈ p.innerNamespaces module) :
    ∃ target, p.symbols.export? module name = some target ∧
      (p.symbols.get target).module = some inner := by
  obtain ⟨n, -, hmodule⟩ := List.mem_filterMap.1 hmem
  obtain ⟨target, htarget, hmodule⟩ := Option.bind_eq_some_iff.1 hmodule
  obtain ⟨m, hm, heq⟩ := Option.map_eq_some_iff.1 hmodule
  cases heq
  exact ⟨target, htarget, hm⟩

theorem export?_of_exportNameOf? {t : Symbols} {module : SourceId}
    (h : t.exportNameOf? module symbol = some name) : t.export? module name = some symbol :=
  eq_of_beq (List.find?_some (p := fun n => t.export? module n == some symbol) h)

theorem reached?_cons (p : Program) (file : SourceId) (name next : String) (rest : List String) :
    p.reached? file (name :: next :: rest) = (p.resolveOuter file name .namespace_).symbol?.bind
      fun id => p.exportPath? id (next :: rest) := rfl

/-- A path through modules leads to the symbol that it was found for. -/
theorem reached?_of_namespacePath? {path : List String} (h : p.symbols.Consistent)
    (hpath : p.namespacePath? symbol file = some path) : p.reached? file path = some symbol := by
  obtain ⟨⟨name, module⟩, hmem, hpath⟩ := List.exists_of_findSome?_eq_some hpath
  obtain ⟨target, hfound, hmodule⟩ := resolveOuter_of_namespaces h hmem
  dsimp only at hpath
  split at hpath
  · rename_i last hlast
    obtain rfl := Option.some.inj hpath
    rw [reached?_cons, hfound, Resolution.symbol?, Option.bind_some, exportPath?, hmodule,
      Option.bind_some, export?_of_exportNameOf? hlast]
    rfl
  · obtain ⟨⟨inner, m⟩, hinner, hpath⟩ := List.exists_of_findSome?_eq_some hpath
    obtain ⟨last, hlast, rfl⟩ := Option.map_eq_some_iff.1 hpath
    obtain ⟨next, hnext, hm⟩ := export?_of_innerNamespaces hinner
    rw [reached?_cons, hfound, Resolution.symbol?, Option.bind_some, exportPath?, hmodule,
      Option.bind_some, hnext, Option.bind_some, exportPath?, hm, Option.bind_some, export?_of_exportNameOf? hlast]
    rfl

/-- An import type is no path. -/
theorem importSpelling?_ne_reached (path : List String) :
    p.importSpelling? symbol file ≠ some (.reached path) := by
  rw [importSpelling?]
  intro h
  obtain ⟨declaring, -, h⟩ := Option.bind_eq_some_iff.1 h
  obtain ⟨name, -, h⟩ := Option.bind_eq_some_iff.1 h
  cases h

/-! ## Reading a path -/

/-- What a path goes on from is a module. -/
theorem module_of_exportPath? (h : p.symbols.Consistent) {rest : List String}
    (hpath : p.exportPath? id (name :: rest) = some symbol) :
    (p.symbols.get id).meaning.serves .namespace_ = true := by
  obtain ⟨_, hnext, -⟩ := Option.bind_eq_some_iff.1 hpath
  obtain ⟨m, hm, -⟩ := Option.bind_eq_some_iff.1 hnext
  exact (h.get id).ofFile (by rw [hm]; rfl)

/-- A dotted name is read as its path leads, by induction on the path. -/
theorem resolveMembers_of_exportPath? (h : p.symbols.Consistent)
    (hserves : (p.symbols.get symbol).meaning.serves use = true) {segments : List Token}
    (shown : String) (hpath : p.exportPath? id (segments.map (·.text)) = some symbol) :
    p.resolveMembers use id shown segments = .ok symbol := by
  induction segments generalizing id shown with
  | nil =>
    rw [List.map_nil, exportPath?, Option.some.injEq] at hpath
    rw [resolveMembers, hpath]
  | cons segment segments ih =>
    obtain ⟨next, hnext, hrest⟩ := Option.bind_eq_some_iff.1 hpath
    obtain ⟨m, hm, hexport⟩ := Option.bind_eq_some_iff.1 hnext
    -- the last part is used as the whole name is, and every other as a module
    have hwanted : (p.symbols.get next).meaning.serves
        (if segments.isEmpty then use else .namespace_) = true := by
      cases segments with
      | nil =>
        rw [List.map_nil, exportPath?, Option.some.injEq] at hrest
        rw [hrest]
        exact hserves
      | cons after segments => exact module_of_exportPath? h hrest
    rw [resolveMembers, hm]
    dsimp only
    rw [hexport, Option.filter_some, if_pos hwanted]
    exact ih _ hrest

/-- A name that reaches a type is read as that type, where no type parameter has the name. -/
theorem resolveEntity_of_reached? (h : p.symbols.Consistent)
    (htype : (p.symbols.get symbol).meaning.isType = true) {path : List String} {entity : Node}
    (htexts : entity.segments.map (·.text) = path)
    (hparam : ∀ name, path = [name] → p.lexicalParam? file entity name = none)
    (hreached : p.reached? file path = some symbol) :
    p.resolveEntity file entity .type = .ok symbol := by
  subst htexts
  rw [resolveEntity]
  generalize entity.segments = segments at hparam hreached
  have hfound {r : Resolution} {id : SymbolId} (hr : r.symbol? = some id) : r = .found id := by
    cases r with
    | found target => rw [Option.some.inj hr]
    | unresolved => cases hr
    | missing => cases hr
  match segments, hparam, hreached with
  | [], _, hreached => cases hreached
  | [segment], hparam, hreached =>
    dsimp only
    rw [resolveName, if_pos (by decide), hparam segment.text rfl]
    dsimp only
    rw [hfound hreached]
  | segment :: next :: segments, _, hreached =>
    rw [List.map_cons, List.map_cons, reached?_cons] at hreached
    obtain ⟨id, hid, hpath⟩ := Option.bind_eq_some_iff.1 hreached
    dsimp only
    rw [resolveName, if_neg (by decide)]
    dsimp only
    rw [hfound hid]
    have hserves : (p.symbols.get symbol).meaning.serves .type = true := htype
    exact resolveMembers_of_exportPath? h hserves segment.text hpath

end

/-- A written name leads back to its symbol: in a loaded program, if a type alias or interface is
written as a path of names in a file, the path leads to it from the top level of the file, unless it is
one of the library that a name of the file hides. Then the name is read as that type wherever it is
written in the file, if it is no single name that a type parameter has. -/
theorem spelling_reaches {sources : Sources} {roots : List String} {options : CompilerOptions}
    {host : Host} {p : Program} (hsources : sources.KeepsLibrary)
    (hload : load sources roots options host = .ok p) {symbol : SymbolId}
    (hdeclared : (p.symbols.get symbol).meaning.typeAlias = true ∨
      (p.symbols.get symbol).meaning.interface = true)
    {use : NameUse} {file : SourceId} {qualified : Bool} {path : List String}
    (hspelling : p.spelling? symbol use file qualified = some (.reached path)) :
    (p.reached? file path = some symbol ↔ ¬ p.Hidden symbol file) ∧
      (¬ p.Hidden symbol file → ∀ entity : Node, entity.segments.map (·.text) = path →
        (∀ name, path = [name] → p.lexicalParam? file entity name = none) →
          p.resolveEntity file entity .type = .ok symbol) := by
  have h := named_of_load hsources hload
  have htype : (p.symbols.get symbol).meaning.isType = true := by
    rw [Meaning.isType]
    rcases hdeclared with hd | hd <;> rw [hd] <;> simp
  have hparam : (p.symbols.get symbol).meaning ≠ { typeParameter := true } := by
    intro heq
    rw [heq] at hdeclared
    rcases hdeclared with hd | hd <;> cases hd
  have hreached : p.reached? file path = some symbol ↔ ¬ p.Hidden symbol file := by
    rw [spelling?] at hspelling
    split at hspelling
    · rename_i hbuiltin
      cases hspelling
      exact reached?_of_isBuiltin h hbuiltin (h.builtin symbol hbuiltin hparam) htype
    · rename_i hnot
      refine iff_of_true ?_ fun hhidden => hnot hhidden.1
      split at hspelling
      · rename_i name hname
        cases hspelling
        exact reached?_of_localName? h htype hname
      split at hspelling
      · rename_i hpath
        cases hspelling
        exact reached?_of_namespacePath? h.consistent hpath
      · split at hspelling
        · exact absurd hspelling (importSpelling?_ne_reached path)
        · cases hspelling
  refine ⟨hreached, fun hnot entity htexts hfree => ?_⟩
  exact resolveEntity_of_reached? h.consistent htype htexts hfree (hreached.2 hnot)

/-- In a program of one script a type alias is written by its own name, and nothing hides it. -/
theorem spelling_reaches_own_name : ∃ (p : Program) (symbol : SymbolId),
    load {} ["/a.ts"] { noLib := true } (Host.addFile {} "/a.ts" (some "type A=B")) = .ok p ∧
      (p.symbols.get symbol).meaning.typeAlias = true ∧
      p.spelling? symbol .type ⟨0⟩ true = some (.reached ["A"]) ∧
      p.reached? ⟨0⟩ ["A"] = some symbol := by
  have hlex : Token.lex "type A=B" = [⟨.ident, 0, "type"⟩, ⟨.whitespace, 4, " "⟩,
      ⟨.ident, 5, "A"⟩, ⟨.equals, 6, "="⟩, ⟨.ident, 7, "B"⟩] := by
    cbv
  have hparse : (parse ⟨0⟩ "type A=B").toOption.any (fun q =>
      (specifiers ⟨q.tree, []⟩).isEmpty && !(Node.mk q.tree []).isModule &&
        ((Node.mk q.tree []).statements.flatMap Node.declarations).any fun n =>
          n.declaredName == "A" && n.declaredMeaning.typeAlias) = true := by
    rw [parse, parseWith, Parser.State.afterFile, Parser.State.start, hlex]
    decide +kernel
  have hstart : start (Host.addFile {} "/a.ts" (some "type A=B")) ["/a.ts"] { noLib := true } =
      ([⟨.module, "/a.ts", "type A=B", true⟩], []) := by
    cbv
  cases hq : parse ⟨0⟩ "type A=B" with
  | error e =>
    rw [hq] at hparse
    cases hparse
  | ok q =>
    rw [hq] at hparse
    simp only [Except.toOption, Option.any_some, Bool.and_eq_true, Bool.not_eq_true',
      List.any_eq_true, List.isEmpty_iff, beq_iff_eq] at hparse
    obtain ⟨⟨hspec, hscript⟩, n, hn, hname, halias⟩ := hparse
    obtain ⟨p, hload, hprogram, -⟩ := load_single hstart hq hspec
    obtain ⟨hsymbols, hfiles, hparsed⟩ := load_bindInputs hload
    obtain ⟨roles, hr⟩ := recorded_bind hfiles (apart_typeParams hfiles hparsed)
    have hi : (⟨⟨0⟩, ⟨q.tree, []⟩, []⟩ : BindInput) ∈ p.bindInputs := by
      rw [bindInputs, hprogram]
      exact List.mem_singleton_self _
    have hd : (⟨⟨0⟩, n⟩ : Declaration) ∈ p.bindInputs.flatMap (·.declarations) :=
      mem_declarations hi (List.mem_map_of_mem hn)
    obtain ⟨symbol, hrole, hscope, -, hsymbol, hdecls⟩ := hr.symbol_of_mem hd
    have hmeaning := (hr.describes_get symbol hrole).2.2
    have hmem : (⟨⟨0⟩, n⟩ : Declaration) ∈ ((bind p.bindInputs).symbols.get symbol).declarations.toList := by
      rw [hdecls]
      exact List.mem_filter.2 ⟨hd, Declaration.declares_iff.2 rfl⟩
    have htype := Meaning.ofAll_typeAlias hmem halias
    have hlocal : p.local? ⟨0⟩ "A" = none := by
      have := inScope?_of_script hfiles hparsed hi hscript "A"
      rwa [← hsymbols] at this
    rw [← hmeaning] at htype
    rw [show (⟨⟨0⟩, n⟩ : Declaration).name = "A" from hname] at hscope hsymbol
    rw [scopeOf_file hfiles hi, BindInput.scope?, hscript] at hscope
    rw [← hsymbols] at hsymbol htype hscope
    have hspelling : p.spelling? symbol .type ⟨0⟩ true = some (.reached ["A"]) := by
      have hown : p.localName? symbol .type ⟨0⟩ = some "A" := by
        rw [localName?, local?_eq, hsymbol, hlocal]
        have hglobal : p.symbols.globals.get? "A" = some symbol := hscope
        simp [hglobal]
      rw [spelling?, hown, hsymbol]
      split <;> rfl
    have hnot : ¬ p.Hidden symbol ⟨0⟩ := by
      rintro ⟨-, other, hother, -⟩
      rw [hsymbol, hlocal] at hother
      cases hother
    have hsources : Sources.KeepsLibrary {} := fun s hs => absurd hs (Array.not_mem_empty s)
    exact ⟨p, symbol, hload, htype, hspelling,
      (spelling_reaches hsources hload (.inl htype) hspelling).1.2 hnot⟩

end Program

end DeclKit

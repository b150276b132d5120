/-
The binder keeps a record of what it has bound.

Each symbol has a role: it stands for a file, for a name in a scope, or for a type parameter. The record
says that the symbols are what their roles ask for, given the declarations that have been bound so far,
and that every table leads to the symbol with the role that is looked for. A declaration either finds
the role of its name taken, and joins the symbol, or takes it with a new symbol; nothing else changes.
So the record is kept by every step, and at the end it speaks of all declarations of all files.
-/
import DeclKit.Proofs.Symbol.Declared
import Mathlib

set_option autoImplicit false

namespace DeclKit

/-! ## Maps from names -/

namespace NameMap

variable {α : Type}

@[simp] theorem get?_empty (name : String) : ({} : NameMap α).get? name = none := rfl

/-- A value that is set is found under its name, and the others as before. -/
theorem get?_insert (m : NameMap α) (name other : String) (a : α) :
    (m.insert name a).get? other = if other = name then some a else m.get? other := by
  obtain ⟨⟨es⟩⟩ := m
  rw [insert]
  induction es with
  | nil =>
    by_cases h : other = name
    · simp [get?, h]
    · simp [get?, h, Ne.symm h]
  | cons e es ih =>
    simp only [List.findIdx?_toArray, List.findIdx?_cons] at ih ⊢
    by_cases he : e.1 = name
    · by_cases h : other = name
      · simp [get?, he, h]
      · simp [get?, he, h, Ne.symm h]
    · by_cases h : other = e.1
      · subst h
        simp only [get?, beq_false_of_ne he]
        cases es.findIdx? (·.1 == name) <;> simp [he]
      · have hne : (e.1 == other) = false := beq_false_of_ne (Ne.symm h)
        cases hi : es.findIdx? (·.1 == name) <;> rw [hi] at ih <;>
          simpa [get?, he, hi, hne, List.find?_cons] using ih

theorem mem_toList_insert {m : NameMap α} {name : String} {a : α} {e : String × α}
    (h : e ∈ (m.insert name a).toList) : e = (name, a) ∨ e ∈ m.toList := by
  rw [insert, toList] at h
  split at h
  · rw [Array.set!_eq_setIfInBounds, Array.toList_setIfInBounds] at h
    exact (List.mem_or_eq_of_mem_set h).symm
  · rw [Array.toList_push, List.mem_append, List.mem_singleton] at h
    exact h.symm

end NameMap

/-! ## Names and meanings of declarations -/

namespace Declaration

/-- The name that is declared. -/
def name (d : Declaration) : String := d.node.declaredName

/-- What the declaration makes of its name. -/
def meaning (d : Declaration) : Meaning := d.node.declaredMeaning

/-- The key of the declaring node. -/
def key (d : Declaration) : NodeKey := d.node.key d.file

end Declaration

namespace Meaning

/-- Everything that declarations make of their names. -/
def ofAll (ds : List Declaration) : Meaning := ds.foldl (fun m d => m.union d.meaning) {}

theorem empty_union (m : Meaning) : union {} m = m := by
  simp [union]

theorem ofAll_append (ds : List Declaration) (d : Declaration) :
    ofAll (ds ++ [d]) = (ofAll ds).union d.meaning := by
  rw [ofAll, List.foldl_append, List.foldl_cons, List.foldl_nil, ofAll]

theorem ofAll_singleton (d : Declaration) : ofAll [d] = d.meaning := empty_union _

end Meaning

/-! ## Roles -/

/-- What a symbol is there for. -/
inductive Role where
  | file
  | named (scope : Option SourceId) (name : String)
  | param (d : Declaration)

namespace Symbols

/-- The symbol of a name in a scope: in a module, or in the whole program. -/
def inScope? (t : Symbols) : Option SourceId → String → Option SymbolId
  | some file, name => (t.file? file).bind (·.locals.get? name)
  | none, name => t.globals.get? name

/-- There is a symbol with a number. -/
def Has (t : Symbols) (id : SymbolId) : Prop := id.index < t.all.size

end Symbols

/-- The names of a file lead to symbols with numbers below a bound, and so do its exports of symbols of
its own. -/
def FileSymbols.Bounded (n : Nat) (f : FileSymbols) : Prop :=
  (∀ e ∈ f.locals.toList, e.2.index < n) ∧
    ∀ e ∈ f.exports.toList, ∀ id, e.2 = .local id → id.index < n

namespace FileSymbols.Bounded

variable {n m : Nat} {f : FileSymbols}

theorem mono (h : f.Bounded n) (hle : n ≤ m) : f.Bounded m :=
  ⟨fun e he => Nat.lt_of_lt_of_le (h.1 e he) hle,
    fun e he id hid => Nat.lt_of_lt_of_le (h.2 e he id hid) hle⟩

/-- A file that has been entered only has no names. -/
theorem fresh (isModule : Bool) : FileSymbols.Bounded n { isModule } :=
  ⟨fun _ he => absurd he List.not_mem_nil, fun _ he => absurd he List.not_mem_nil⟩

theorem insertLocal {name : String} {id : SymbolId} (h : f.Bounded n) (hid : id.index < n) :
    FileSymbols.Bounded n { f with locals := f.locals.insert name id } := by
  refine ⟨fun e he => ?_, h.2⟩
  rcases NameMap.mem_toList_insert he with rfl | he
  · exact hid
  · exact h.1 e he

theorem insertExport {name : String} {target : ExportTarget} (h : f.Bounded n)
    (htarget : ∀ id, target = .local id → id.index < n) :
    FileSymbols.Bounded n { f with exports := f.exports.insert name target } := by
  refine ⟨h.1, fun e he => ?_⟩
  rcases NameMap.mem_toList_insert he with rfl | he
  · exact htarget
  · exact h.2 e he

end FileSymbols.Bounded

section

-- the files that are modules
variable (modules : SourceId → Bool)

/-- The scope of the names of a file. -/
def scopeOf (file : SourceId) : Option SourceId := if modules file then some file else none

/-- The declaration is one of a name in a scope. -/
def Declaration.declares (scope : Option SourceId) (name : String) (d : Declaration) : Bool :=
  scopeOf modules d.file == scope && d.name == name

/-- The role of the symbol that a declaration belongs to. -/
def Declaration.role (d : Declaration) : Role := .named (scopeOf modules d.file) d.name

/-- A symbol is what its role asks for, when `ds` has been declared. -/
def Role.Describes (ds : List Declaration) : Role → Symbol → Prop
  | .file, s => s.declarations = #[]
  | .named scope name, s => s.name = name ∧
      s.declarations.toList = ds.filter (·.declares modules scope name) ∧
      s.meaning = Meaning.ofAll s.declarations.toList
  | .param d, s => s.name = d.name ∧ s.declarations = #[d] ∧ s.meaning = d.meaning

/-- The table holds the declarations `ds` of names, and the type parameters `ps`. -/
structure Records (ds ps : List Declaration) (roles : List Role) (t : Symbols) : Prop where
  size : roles.length = t.all.size
  described : ∀ (i : Nat) (r : Role) (s : Symbol),
    roles[i]? = some r → t.all[i]? = some s → r.Describes modules ds s
  named : ∀ scope name id,
    t.inScope? scope name = some id ↔ roles[id.index]? = some (.named scope name)
  taken : ∀ d ∈ ds, d.role modules ∈ roles
  used : ∀ scope name, Role.named scope name ∈ roles → ∃ d ∈ ds, d.role modules = .named scope name
  keyed : ∀ key id, t.ofNode? key = some id ↔ ∃ d, roles[id.index]? = some (.param d) ∧ d.key = key
  own : ∀ d, d ∈ ps ↔ .param d ∈ roles
  bounded : ∀ m f, t.file? m = some f → f.Bounded t.all.size
  global : ∀ e ∈ t.globals.toList, t.Has e.2
  filed : ∀ (m : SourceId) (id : SymbolId), t.modules[m]? = some id → t.Has id

/-- The file has been entered, as what it is. -/
def Begun (file : SourceId) (t : Symbols) : Prop :=
  ∃ f, t.file? file = some f ∧ f.isModule = modules file

end

variable {modules : SourceId → Bool} {ds ps : List Declaration} {roles : List Role} {t : Symbols}
  {d : Declaration} {file : SourceId}

theorem Declaration.declares_iff {scope : Option SourceId} {name : String} :
    d.declares modules scope name = true ↔ d.role modules = .named scope name := by
  simp [Declaration.declares, Declaration.role]

theorem filter_declares_self :
    (ds ++ [d]).filter (·.declares modules (scopeOf modules d.file) d.name) =
      ds.filter (·.declares modules (scopeOf modules d.file) d.name) ++ [d] := by
  rw [List.filter_append, List.filter_cons_of_pos (Declaration.declares_iff.2 rfl),
    List.filter_nil]

theorem filter_declares_other {scope : Option SourceId} {name : String}
    (h : d.role modules ≠ .named scope name) :
    (ds ++ [d]).filter (·.declares modules scope name) =
      ds.filter (·.declares modules scope name) := by
  rw [List.filter_append, List.filter_cons_of_neg (mt Declaration.declares_iff.1 h),
    List.filter_nil, List.append_nil]

/-- A symbol remains what it is when something is declared that does not belong to it. -/
theorem Role.Describes.append {r : Role} {s : Symbol} (h : r.Describes modules ds s)
    (hne : d.role modules ≠ r) : r.Describes modules (ds ++ [d]) s := by
  cases r with
  | file => exact h
  | param e => exact h
  | named scope name =>
    rw [Role.Describes, filter_declares_other hne]
    exact h

theorem scopeOf_eq_some {m : SourceId} (h : scopeOf modules file = some m) : file = m := by
  rw [scopeOf] at h
  split at h
  · exact Option.some.inj h
  · cases h

/-! ## Tables -/

namespace Symbols

theorem file?_modifyFile (t : Symbols) (m file : SourceId) (g : FileSymbols → FileSymbols) :
    (t.modifyFile m g).file? file =
      if file = m then some (g ((t.file? m).getD {})) else t.file? file := by
  rw [file?, modifyFile, Std.HashMap.getElem?_insert]
  by_cases h : m = file
  · rw [if_pos (beq_iff_eq.2 h), if_pos h.symm, file?]
  · rw [if_neg (by simpa using h), if_neg (Ne.symm h), file?]

/-- A change that leaves the names of a file alone. -/
theorem inScope?_modifyFile {m : SourceId} {g : FileSymbols → FileSymbols}
    (hg : ∀ f, (g f).locals = f.locals) (scope : Option SourceId) (name : String) :
    (t.modifyFile m g).inScope? scope name = t.inScope? scope name := by
  cases scope with
  | none => rfl
  | some file =>
    rw [inScope?, inScope?, file?_modifyFile]
    split
    · rename_i heq
      subst heq
      rw [Option.bind_some, hg]
      cases t.file? file with
      | none => rfl
      | some f => rfl
    · rfl

/-- A change that keeps the bound on the numbers of a file. -/
theorem bounded_modifyFile {n : Nat} {m : SourceId} {g : FileSymbols → FileSymbols}
    (hg : ∀ f, f.Bounded n → (g f).Bounded n) (h : ∀ k f, t.file? k = some f → f.Bounded n)
    (k : SourceId) (f : FileSymbols) (hf : (t.modifyFile m g).file? k = some f) : f.Bounded n := by
  rw [file?_modifyFile] at hf
  split at hf
  · cases hf
    cases hold : t.file? m with
    | none => exact hg _ (.fresh false)
    | some f => exact hg f (h m f hold)
  · exact h k f hf

/-- What a file's names are looked up in. -/
theorem existing?_eq (hb : Begun modules file t) (name : String) :
    Binder.existing? t file name = t.inScope? (scopeOf modules file) name := by
  obtain ⟨f, hf, hm⟩ := hb
  rw [Binder.existing?, hf, scopeOf, ← hm]
  dsimp only
  split
  · rw [inScope?, hf, Option.bind_some]
  · rfl

/-- Enters a name into the scope of a file. -/
def enter (t : Symbols) (file : SourceId) (name : String) (id : SymbolId) : Symbols :=
  if (t.file? file).any (·.isModule) then
    t.modifyFile file fun f => { f with locals := f.locals.insert name id }
  else { t with globals := t.globals.insert name id }

theorem inScope?_enter {name : String} {id : SymbolId} (hb : Begun modules file t)
    (scope : Option SourceId) (other : String) :
    (t.enter file name id).inScope? scope other =
      if scope = scopeOf modules file ∧ other = name then some id
      else t.inScope? scope other := by
  obtain ⟨f, hf, hm⟩ := hb
  rw [enter, hf, Option.any_some, scopeOf, ← hm]
  by_cases hmodule : f.isModule = true
  · rw [if_pos hmodule, if_pos hmodule]
    cases scope with
    | none => simp [inScope?, modifyFile]
    | some m =>
      rw [inScope?, inScope?, file?_modifyFile]
      by_cases hm : m = file
      · subst hm
        rw [if_pos rfl, hf, Option.getD_some, Option.bind_some, NameMap.get?_insert]
        simp
      · simp [hm]
  · rw [if_neg hmodule, if_neg hmodule]
    cases scope with
    | none => simp [inScope?, NameMap.get?_insert]
    | some m => simp [inScope?, file?]

/-- Entering a number below a bound keeps it. -/
theorem bounded_enter {n : Nat} {name : String} {id : SymbolId}
    (h : ∀ k f, t.file? k = some f → f.Bounded n) (hid : id.index < n) (k : SourceId)
    (f : FileSymbols) (hf : (t.enter file name id).file? k = some f) : f.Bounded n := by
  rw [enter] at hf
  split at hf
  · exact bounded_modifyFile (fun f hf => hf.insertLocal hid) h k f hf
  · exact h k f hf

theorem globals_enter {name : String} {id : SymbolId} {e : String × SymbolId}
    (he : e ∈ (t.enter file name id).globals.toList) : e = (name, id) ∨ e ∈ t.globals.toList := by
  rw [enter] at he
  split at he
  · exact .inr he
  · exact NameMap.mem_toList_insert he

theorem has_alloc {id : SymbolId} {s : Symbol} (h : t.Has id) : (t.alloc s).2.Has id := by
  rw [Has, alloc, Array.size_push]
  exact Nat.lt_succ_of_lt h

theorem begun_modifyFile {m : SourceId} {g : FileSymbols → FileSymbols}
    (hg : ∀ f, (g f).isModule = f.isModule) (hb : Begun modules file t) :
    Begun modules file (t.modifyFile m g) := by
  obtain ⟨f, hf, hm⟩ := hb
  rw [Begun, file?_modifyFile]
  split
  · rename_i heq
    subst heq
    rw [hf]
    exact ⟨_, rfl, (hg f).trans hm⟩
  · exact ⟨f, hf, hm⟩

theorem begun_enter {name : String} {id : SymbolId} (hb : Begun modules file t) :
    Begun modules file (t.enter file name id) := by
  rw [enter]
  split
  · refine begun_modifyFile ?_ hb
    exact fun _ => rfl
  · exact hb

@[simp] theorem enter_all (t : Symbols) (file : SourceId) (name : String) (id : SymbolId) :
    (t.enter file name id).all = t.all := by
  rw [enter]
  split <;> rfl

@[simp] theorem enter_nodes (t : Symbols) (file : SourceId) (name : String) (id : SymbolId) :
    (t.enter file name id).nodes = t.nodes := by
  rw [enter]
  split <;> rfl

@[simp] theorem enter_modules (t : Symbols) (file : SourceId) (name : String) (id : SymbolId) :
    (t.enter file name id).modules = t.modules := by
  rw [enter]
  split <;> rfl

end Symbols

/-! ## Steps of the record -/

namespace Records

open Symbols

variable (h : Records modules ds ps roles t)

include h

theorem has_of_role {i : Nat} {r : Role} (hr : roles[i]? = some r) : i < t.all.size := by
  rw [← h.size]
  exact (List.getElem?_eq_some_iff.1 hr).1

/-- No two symbols have the same name in the same scope. -/
theorem role_unique {i j : Nat} {scope : Option SourceId} {name : String}
    (hi : roles[i]? = some (.named scope name)) (hj : roles[j]? = some (.named scope name)) :
    i = j := by
  have hi := (h.named scope name ⟨i⟩).2 hi
  have hj := (h.named scope name ⟨j⟩).2 hj
  rw [hi] at hj
  exact congrArg SymbolId.index (Option.some.inj hj)

/-- Nothing has been declared of a name that leads nowhere. -/
theorem filter_eq_nil {scope : Option SourceId} {name : String}
    (hnone : t.inScope? scope name = none) : ds.filter (·.declares modules scope name) = [] := by
  rw [List.filter_eq_nil_iff]
  intro d hd hdecl
  have hrole := h.taken d hd
  rw [Declaration.declares_iff.1 hdecl] at hrole
  obtain ⟨i, hi⟩ := List.mem_iff_getElem?.1 hrole
  have := (h.named scope name ⟨i⟩).2 hi
  rw [hnone] at this
  cases this

/-- A declaration joins the symbol of its name. -/
theorem join {id : SymbolId} {target : Option ImportTarget}
    (hid : t.inScope? (scopeOf modules d.file) d.name = some id) :
    Records modules (ds ++ [d]) ps roles (t.modify id fun s => { s with
      meaning := s.meaning.union d.meaning
      declarations := s.declarations.push d
      importTarget := s.importTarget.or target }) := by
  have hrole := (h.named _ _ _).1 hid
  exact {
    size := by rw [h.size, Symbols.modify, Array.size_modify]
    described := by
      intro i r s hr hs
      rw [Symbols.modify, Array.getElem?_modify] at hs
      split at hs
      · rename_i heq
        subst heq
        obtain ⟨u, hu, rfl⟩ := Option.map_eq_some_iff.1 hs
        obtain rfl : r = d.role modules := Option.some.inj (hr.symm.trans hrole)
        obtain ⟨hname, hdecls, hmeaning⟩ := h.described _ _ u hr hu
        refine ⟨hname, ?_, ?_⟩
        · rw [Array.toList_push, hdecls, filter_declares_self]
        · rw [Array.toList_push, Meaning.ofAll_append, ← hmeaning]
      · rename_i hne
        refine (h.described i r s hr hs).append ?_
        rintro rfl
        exact hne (h.role_unique hrole hr)
    named := h.named
    taken := by
      intro e he
      rcases List.mem_append.1 he with he | he
      · exact h.taken e he
      · rw [List.mem_singleton.1 he]
        exact List.mem_of_getElem? hrole
    used := by
      intro scope name hmem
      obtain ⟨e, he, heq⟩ := h.used scope name hmem
      exact ⟨e, List.mem_append_left _ he, heq⟩
    keyed := h.keyed
    own := h.own
    bounded := by
      intro m f hf
      rw [Symbols.modify, Array.size_modify]
      exact h.bounded m f hf
    global := by
      intro e he
      rw [Has, Symbols.modify, Array.size_modify]
      exact h.global e he
    filed := by
      intro m k hk
      rw [Has, Symbols.modify, Array.size_modify]
      exact h.filed m k hk }

/-- The roles of old symbols remain, and the new one has the new role. -/
theorem role_alloc {r r' : Role} {i : Nat} :
    (roles ++ [r])[i]? = some r' ↔ roles[i]? = some r' ∨ i = t.all.size ∧ r' = r := by
  rw [List.getElem?_append, ← h.size]
  split
  · rename_i hlt
    constructor
    · exact .inl
    · rintro (hr | ⟨rfl, -⟩)
      · exact hr
      · exact absurd hlt (Nat.lt_irrefl _)
  · rename_i hge
    rw [List.getElem?_eq_none (Nat.le_of_not_lt hge), List.getElem?_singleton]
    split
    · rename_i hz
      have : i = roles.length := by omega
      simp [this, eq_comm]
    · have : i ≠ roles.length := by omega
      simp [this]

/-- A new symbol that is what its role asks for, the old ones being what theirs do. -/
theorem described_alloc {ds' : List Declaration} {r : Role} {s : Symbol}
    (hold : ∀ (i : Nat) (r : Role) (s : Symbol),
      roles[i]? = some r → t.all[i]? = some s → r.Describes modules ds' s)
    (hs : r.Describes modules ds' s) (i : Nat) (r' : Role) (s' : Symbol)
    (hr : (roles ++ [r])[i]? = some r') (hs' : (t.alloc s).2.all[i]? = some s') :
    r'.Describes modules ds' s' := by
  rw [Symbols.alloc, Array.getElem?_push] at hs'
  rcases h.role_alloc.1 hr with hr | ⟨rfl, rfl⟩
  · rw [if_neg (Nat.ne_of_lt (h.has_of_role hr))] at hs'
    exact hold i r' s' hr hs'
  · rw [if_pos rfl] at hs'
    cases hs'
    exact hs

theorem size_alloc (r : Role) (s : Symbol) :
    (roles ++ [r]).length = (t.alloc s).2.all.size := by
  rw [List.length_append, h.size, Symbols.alloc, Array.size_push]
  rfl

theorem bounded_alloc (s : Symbol) (m : SourceId) (f : FileSymbols)
    (hf : (t.alloc s).2.file? m = some f) : f.Bounded (t.alloc s).2.all.size := by
  rw [Symbols.alloc, Array.size_push]
  exact (h.bounded m f hf).mono (Nat.le_succ _)

/-- A declaration of a new name takes its role with a new symbol. -/
theorem take {s : Symbol} (hb : Begun modules d.file t)
    (hnone : t.inScope? (scopeOf modules d.file) d.name = none)
    (hs : s.name = d.name ∧ s.declarations = #[d] ∧ s.meaning = d.meaning) :
    Records modules (ds ++ [d]) ps (roles ++ [d.role modules])
      ((t.alloc s).2.enter d.file d.name ⟨t.all.size⟩) := by
  have hfree : ∀ i : Nat, roles[i]? ≠ some (d.role modules) := by
    intro i hi
    have := (h.named _ _ ⟨i⟩).2 hi
    rw [hnone] at this
    cases this
  have hb' : Begun modules d.file (t.alloc s).2 := hb
  have hnew : t.all.size < (t.alloc s).2.all.size := by
    rw [Symbols.alloc, Array.size_push]
    exact Nat.lt_succ_self _
  obtain ⟨hname, hdecls, hmeaning⟩ := hs
  exact {
    size := by
      rw [enter_all]
      exact h.size_alloc _ s
    described := by
      rw [enter_all]
      refine h.described_alloc (fun i r u hr hu => (h.described i r u hr hu).append ?_) ⟨hname, ?_, ?_⟩
      · rintro rfl
        exact hfree i hr
      · rw [filter_declares_self, h.filter_eq_nil hnone, hdecls]
        rfl
      · rw [hdecls, hmeaning]
        exact (Meaning.ofAll_singleton d).symm
    named := by
      intro scope name id
      rw [inScope?_enter hb', h.role_alloc, ← h.named, Declaration.role]
      constructor
      · intro hid
        split at hid
        · rename_i hkey
          cases hid
          exact .inr ⟨rfl, by rw [hkey.1, hkey.2]⟩
        · exact .inl hid
      · rintro (hid | ⟨hsize, hrole⟩)
        · rw [if_neg]
          · exact hid
          rintro ⟨rfl, rfl⟩
          rw [hnone] at hid
          cases hid
        · rw [Role.named.injEq] at hrole
          rw [if_pos hrole, ← hsize]
    taken := by
      intro e he
      rcases List.mem_append.1 he with he | he
      · exact List.mem_append_left _ (h.taken e he)
      · rw [List.mem_singleton.1 he]
        exact List.mem_append_right _ List.mem_cons_self
    used := by
      intro scope name hmem
      rcases List.mem_append.1 hmem with hmem | hmem
      · obtain ⟨e, he, heq⟩ := h.used scope name hmem
        exact ⟨e, List.mem_append_left _ he, heq⟩
      · exact ⟨d, List.mem_append_right _ List.mem_cons_self, (List.mem_singleton.1 hmem).symm⟩
    keyed := by
      intro key id
      rw [ofNode?, enter_nodes]
      refine (h.keyed key id).trans ⟨?_, ?_⟩
      · rintro ⟨e, he, hkey⟩
        exact ⟨e, h.role_alloc.2 (.inl he), hkey⟩
      · rintro ⟨e, he, hkey⟩
        rcases h.role_alloc.1 he with he | ⟨-, heq⟩
        · exact ⟨e, he, hkey⟩
        · cases heq
    own := by
      intro e
      rw [h.own, List.mem_append, List.mem_singleton]
      refine ⟨.inl, ?_⟩
      rintro (he | heq)
      · exact he
      · cases heq
    bounded := by
      rw [enter_all]
      exact bounded_enter (h.bounded_alloc s) hnew
    global := by
      intro e he
      rw [Has, enter_all]
      rcases globals_enter he with rfl | he
      · exact hnew
      · exact has_alloc (h.global e he)
    filed := by
      intro m id hid
      rw [enter_modules] at hid
      rw [Has, enter_all]
      exact has_alloc (h.filed m id hid) }

/-- A new symbol that has no name leaves the scopes and the exports as they were. -/
theorem grow {ps' : List Declaration} {r : Role} {s : Symbol} {t' : Symbols}
    (hr : ∀ scope name, r ≠ .named scope name) (hs : r.Describes modules ds s)
    (hall : t'.all = (t.alloc s).2.all) (hfiles : t'.files = t.files)
    (hglobals : t'.globals = t.globals)
    (hkeyed : ∀ key id, t'.ofNode? key = some id ↔
      ∃ d, (roles ++ [r])[id.index]? = some (.param d) ∧ d.key = key)
    (hown : ∀ d, d ∈ ps' ↔ .param d ∈ roles ++ [r])
    (hfiled : ∀ (m : SourceId) (id : SymbolId), t'.modules[m]? = some id → t'.Has id) :
    Records modules ds ps' (roles ++ [r]) t' where
  size := by
    rw [hall]
    exact h.size_alloc r s
  described := by
    rw [hall]
    exact h.described_alloc h.described hs
  named := by
    intro scope name id
    have hscope : t'.inScope? scope name = t.inScope? scope name := by
      cases scope with
      | none => rw [inScope?, inScope?, hglobals]
      | some m => rw [inScope?, inScope?, file?, file?, hfiles]
    rw [hscope, h.named, h.role_alloc]
    refine ⟨.inl, ?_⟩
    rintro (hid | ⟨-, heq⟩)
    · exact hid
    · exact absurd heq.symm (hr scope name)
  taken e he := List.mem_append_left _ (h.taken e he)
  used := by
    intro scope name hmem
    rcases List.mem_append.1 hmem with hmem | hmem
    · exact h.used scope name hmem
    · exact absurd (List.mem_singleton.1 hmem).symm (hr scope name)
  keyed := hkeyed
  own := hown
  bounded := by
    intro m f hf
    rw [file?, hfiles] at hf
    rw [hall]
    exact h.bounded_alloc s m f hf
  global := by
    intro e he
    rw [hglobals] at he
    rw [Has, hall]
    exact has_alloc (h.global e he)
  filed := hfiled

/-- A type parameter has a symbol of its own, if its key is its own. -/
theorem param {s : Symbol} (hfresh : ∀ e ∈ ps, e.key ≠ d.key)
    (hs : s.name = d.name ∧ s.declarations = #[d] ∧ s.meaning = d.meaning) :
    Records modules ds (ps ++ [d]) (roles ++ [.param d])
      { (t.alloc s).2 with nodes := t.nodes.insert d.key ⟨t.all.size⟩ } := by
  refine h.grow (s := s) (fun _ _ hname => by cases hname) hs rfl rfl rfl ?_ ?_ ?_
  · intro key id
    rw [ofNode?, Std.HashMap.getElem?_insert]
    constructor
    · intro hid
      split at hid
      · rename_i hkey
        cases hid
        exact ⟨d, h.role_alloc.2 (.inr ⟨rfl, rfl⟩), beq_iff_eq.1 hkey⟩
      · obtain ⟨e, he, hkey⟩ := (h.keyed key id).1 hid
        exact ⟨e, h.role_alloc.2 (.inl he), hkey⟩
    · rintro ⟨e, he, rfl⟩
      rcases h.role_alloc.1 he with he | ⟨hid, heq⟩
      · have hmem := (h.own e).2 (List.mem_of_getElem? he)
        rw [if_neg (by simpa using (hfresh e hmem).symm)]
        exact (h.keyed e.key id).2 ⟨e, he, rfl⟩
      · cases heq
        rw [if_pos (beq_self_eq_true _), ← hid]
  · intro e
    rw [List.mem_append, List.mem_append, h.own, List.mem_singleton, List.mem_singleton,
      Role.param.injEq]
  · exact fun m id hid => has_alloc (h.filed m id hid)

/-- A file has a symbol. -/
theorem fileSymbol {s : Symbol} {m : SourceId} (hs : s.declarations = #[]) :
    Records modules ds ps (roles ++ [.file])
      { (t.alloc s).2 with modules := t.modules.insert m ⟨t.all.size⟩ } := by
  refine h.grow (s := s) (fun _ _ hname => by cases hname) hs rfl rfl rfl ?_ ?_ ?_
  · intro key id
    refine (h.keyed key id).trans ⟨?_, ?_⟩
    · rintro ⟨e, he, hkey⟩
      exact ⟨e, h.role_alloc.2 (.inl he), hkey⟩
    · rintro ⟨e, he, hkey⟩
      rcases h.role_alloc.1 he with he | ⟨-, heq⟩
      · exact ⟨e, he, hkey⟩
      · cases heq
  · intro e
    rw [h.own, List.mem_append, List.mem_singleton]
    refine ⟨.inl, ?_⟩
    rintro (he | heq)
    · exact he
    · cases heq
  · intro k id hid
    rw [Std.HashMap.getElem?_insert] at hid
    split at hid
    · cases hid
      rw [Has, Symbols.alloc, Array.size_push]
      exact Nat.lt_succ_self _
    · exact has_alloc (h.filed k id hid)

/-- A file that is entered has no names yet. -/
theorem enterFile {m : Bool} (hfresh : ∀ e ∈ ds, e.file ≠ file) :
    Records modules ds ps roles
      { t with files := t.files.insert file { isModule := m } } where
  size := h.size
  described := h.described
  named := by
    intro scope name id
    rw [← h.named]
    cases scope with
    | none => rfl
    | some k =>
      rw [inScope?, file?, Std.HashMap.getElem?_insert]
      split
      · rename_i hk
        obtain rfl := beq_iff_eq.1 hk
        -- a name of the file would have been declared in it
        refine ⟨fun hid => absurd hid (by simp), fun hid => ?_⟩
        have hmem := List.mem_of_getElem? ((h.named _ _ _).1 hid)
        obtain ⟨e, he, hrole⟩ := h.used _ _ hmem
        rw [Declaration.role, Role.named.injEq] at hrole
        exact absurd (scopeOf_eq_some hrole.1) (hfresh e he)
      · rfl
  taken := h.taken
  used := h.used
  keyed := h.keyed
  own := h.own
  bounded := by
    intro k f hf
    rw [file?, Std.HashMap.getElem?_insert] at hf
    split at hf
    · cases hf
      exact .fresh m
    · exact h.bounded k f hf
  global := h.global
  filed := h.filed

/-- A change of a file's exports that leads to symbols that are there. -/
theorem modifyFile {m : SourceId} {g : FileSymbols → FileSymbols}
    (hlocals : ∀ f, (g f).locals = f.locals)
    (hexports : ∀ f, f.Bounded t.all.size → (g f).Bounded t.all.size) :
    Records modules ds ps roles (t.modifyFile m g) where
  size := h.size
  described := h.described
  named scope name id := by rw [inScope?_modifyFile hlocals, h.named]
  taken := h.taken
  used := h.used
  keyed := h.keyed
  own := h.own
  bounded := bounded_modifyFile hexports h.bounded
  global := h.global
  filed := h.filed

theorem addExport {m : SourceId} {name : String} {target : ExportTarget}
    (htarget : ∀ id, target = .local id → t.Has id) :
    Records modules ds ps roles
      (t.modifyFile m fun f => { f with exports := f.exports.insert name target }) :=
  h.modifyFile (fun _ => rfl) fun _ hf => hf.insertExport htarget

theorem addStar {m : SourceId} {star : Option SourceId} :
    Records modules ds ps roles (t.modifyFile m fun f => { f with stars := f.stars.push star }) :=
  h.modifyFile (fun _ => rfl) fun _ hf => hf

end Records

end DeclKit

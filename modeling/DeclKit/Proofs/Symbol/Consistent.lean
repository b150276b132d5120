/-
What holds of every table that the binder builds.

A symbol is an import exactly if it says what it is imported from, and one that stands for a file is a
module. A file has no name twice, so a name that stands in its list is found by looking it up. Every
step of the binder keeps this, whatever it declares.
-/
import DeclKit.Proofs.Symbol.Account

set_option autoImplicit false

namespace DeclKit

/-! ## Maps from names -/

namespace NameMap

variable {α : Type} {m : NameMap α} {name : String} {a : α}

/-- A new name goes to the end, and one that is there keeps its place. -/
theorem names_insert (m : NameMap α) (name : String) (a : α) :
    (m.insert name a).names = if name ∈ m.names then m.names else m.names ++ [name] := by
  rw [insert]
  split
  · rename_i i hi
    obtain ⟨hlt, hname, -⟩ := Array.findIdx?_eq_some_iff_getElem.1 hi
    have hname : m.entries[i].1 = name := eq_of_beq hname
    have hmem : name ∈ m.names :=
      List.mem_map.2 ⟨m.entries[i], Array.mem_toList_iff.2 (Array.getElem_mem hlt), hname⟩
    have hlen : i < m.names.length := by simpa [names] using hlt
    have hget : m.names[i] = name := by simpa [names] using hname
    have hset : names ⟨m.entries.set! i (name, a)⟩ = m.names.set i name := by
      simp [names, List.map_set]
    rw [if_pos hmem, hset, ← hget, List.set_getElem_self]
  · rename_i hnone
    rw [if_neg, names, names, Array.toList_push, List.map_append]
    · rfl
    · intro hmem
      obtain ⟨e, he, rfl⟩ := List.mem_map.1 hmem
      have := Array.findIdx?_eq_none_iff.1 hnone e (Array.mem_toList_iff.1 he)
      simp at this

theorem nodup_insert (h : m.names.Nodup) : (m.insert name a).names.Nodup := by
  rw [names_insert]
  split
  · exact h
  · rename_i hnew
    exact h.append (List.nodup_singleton name) fun n hn hn' => hnew (List.mem_singleton.1 hn' ▸ hn)

/-- Where no name stands twice, what stands under a name is found. -/
theorem get?_of_mem (h : m.names.Nodup) (hmem : (name, a) ∈ m.toList) : m.get? name = some a := by
  obtain ⟨⟨es⟩⟩ := m
  rw [names] at h
  rw [toList] at hmem
  dsimp only at h hmem
  induction es with
  | nil => exact absurd hmem List.not_mem_nil
  | cons e es ih =>
    rw [List.map_cons, List.nodup_cons] at h
    rcases List.mem_cons.1 hmem with rfl | hmem
    · simp [get?]
    · have hne : e.1 ≠ name := fun heq => h.1 (heq ▸ List.mem_map_of_mem (f := Prod.fst) hmem)
      have := ih h.2 hmem
      simpa [get?, hne] using this

end NameMap

/-! ## Consistent tables -/

/-- A symbol is an import exactly if it says what it is imported from; if it stands for a file, it is a
module. -/
structure Symbol.IsConsistent (s : Symbol) : Prop where
  imported : s.meaning.importAlias = s.importTarget.isSome
  ofFile : s.module.isSome = true → s.meaning.module = true

namespace Symbols

/-- The symbols are consistent, and no file has a name twice. -/
structure Consistent (t : Symbols) : Prop where
  symbols : ∀ s ∈ t.all, s.IsConsistent
  locals : ∀ m f, t.file? m = some f → f.locals.names.Nodup

namespace Consistent

variable {t : Symbols} {s : Symbol} {id : SymbolId} {file : SourceId} {name : String}

/-- Under a number that no symbol has nothing is imported. -/
theorem get (h : t.Consistent) (id : SymbolId) : (t.get id).IsConsistent := by
  rw [Symbols.get, Array.getD_eq_getD_getElem?]
  cases hs : t.all[id.index]? with
  | none => exact ⟨rfl, fun hm => absurd hm Bool.false_ne_true⟩
  | some s => exact h.symbols s (Array.mem_of_getElem? hs)

theorem alloc (h : t.Consistent) (hs : s.IsConsistent) : (t.alloc s).2.Consistent where
  symbols u hu := (Array.mem_push.1 hu).elim (h.symbols u) fun heq => heq ▸ hs
  locals := h.locals

theorem modify {f : Symbol → Symbol} (h : t.Consistent)
    (hf : ∀ s, s.IsConsistent → (f s).IsConsistent) : (t.modify id f).Consistent where
  symbols u hu := by
    obtain ⟨i, hi, rfl⟩ := Array.mem_iff_getElem.1 hu
    simp only [Symbols.modify, Array.getElem_modify]
    split
    · exact hf _ (h.symbols _ (Array.getElem_mem _))
    · exact h.symbols _ (Array.getElem_mem _)
  locals := h.locals

theorem modifyFile {g : FileSymbols → FileSymbols} (h : t.Consistent)
    (hg : ∀ f, f.locals.names.Nodup → (g f).locals.names.Nodup) :
    (t.modifyFile file g).Consistent where
  symbols := h.symbols
  locals m f hf := by
    rw [file?_modifyFile] at hf
    split at hf
    · cases hf
      refine hg _ ?_
      cases hold : t.file? file with
      | none => exact List.nodup_nil
      | some f => exact h.locals file f hold
    · exact h.locals m f hf

theorem enter (h : t.Consistent) : (t.enter file name id).Consistent := by
  rw [Symbols.enter]
  split
  · exact h.modifyFile fun f hf => NameMap.nodup_insert hf
  · exact ⟨h.symbols, h.locals⟩

/-- A file that is entered has no names yet. -/
theorem enterFile {isModule : Bool} (h : t.Consistent) :
    ({ t with files := t.files.insert file { isModule } } : Symbols).Consistent where
  symbols := h.symbols
  locals m f hf := by
    rw [file?, Std.HashMap.getElem?_insert] at hf
    split at hf
    · cases hf
      exact List.nodup_nil
    · exact h.locals m f hf

/-- A name that stands in the list of a file's names is found there. -/
theorem get?_locals {f : FileSymbols} (h : t.Consistent) (hf : t.file? file = some f)
    (hmem : (name, id) ∈ f.locals.toList) : f.locals.get? name = some id :=
  NameMap.get?_of_mem (h.locals file f hf) hmem

end Consistent

end Symbols

namespace Binder

open Judgment (holds_pure holds_bind holds_forIn holds_turn holds_for)

/-! ## Steps -/

/-- A step that keeps the table consistent. -/
abbrev Tidy {α : Type} (x : Bind α) : Prop := Keeps Symbols.Consistent x

theorem tidy_modifySymbols {f : Symbols → Symbols} (h : ∀ t, t.Consistent → (f t).Consistent) :
    Tidy (modifySymbols f) := fun b hb => ⟨trivial, h b.symbols hb⟩

theorem tidy_alloc {s : Symbol} (hs : s.IsConsistent) : Tidy (alloc s) :=
  fun _ hb => ⟨trivial, hb.alloc hs⟩

theorem tidy_modifyFile {file : SourceId} {g : FileSymbols → FileSymbols}
    (hg : ∀ f, (g f).locals = f.locals) : Tidy (modifySymbols (·.modifyFile file g)) :=
  tidy_modifySymbols fun _ ht => ht.modifyFile fun f hf => by rwa [hg f]

theorem tidy_addExport {file : SourceId} {name : String} {target : ExportTarget} :
    Tidy (addExport file name target) := tidy_modifyFile fun _ => rfl

/-- A declaration says that its name is an import exactly if it says what it is imported from. -/
theorem tidy_declare {name : String} {meaning : Meaning} {d : Declaration}
    {target : Option ImportTarget} (himport : meaning.importAlias = target.isSome) :
    Tidy (declare name meaning d target) := by
  refine fun b hb => ⟨trivial, ?_⟩
  cases hid : existing? b.symbols d.file name with
  | some id =>
    rw [(run_declare_some meaning target hid).2]
    refine hb.modify fun s hs => ⟨?_, fun hfile => ?_⟩
    · dsimp only [addTo, Meaning.union]
      rw [hs.imported, himport, Option.isSome_or]
    · dsimp only [addTo, Meaning.union]
      rw [hs.ofFile hfile, Bool.true_or]
  | none =>
    rw [(run_declare_none meaning target hid).2]
    have hnew : ({ name, meaning, declarations := #[d], importTarget := target } : Symbol).IsConsistent :=
      ⟨himport, fun hfile => absurd hfile Bool.false_ne_true⟩
    exact (hb.alloc hnew).enter

/-! ## Statements -/

theorem tidy_bindNamed {file : SourceId} {node : Node} {modifiers : Modifiers} {meaning : Meaning}
    (himport : meaning.importAlias = false) : Tidy (bindNamed file node modifiers meaning) := by
  unfold bindNamed
  split
  · exact holds_pure
  split
  · exact holds_pure
  refine holds_bind (tidy_declare himport) fun id => ?_
  split
  · exact tidy_addExport
  · exact holds_pure

theorem tidy_bindImported {file : SourceId} {name : Node} {target : ImportTarget} :
    Tidy (bindImported file name target) := by
  unfold bindImported
  split
  · exact holds_pure
  · exact holds_bind (tidy_declare rfl) fun _ => holds_pure

theorem tidy_bindSpecifier {file : SourceId} {module : Option SourceId} {specifier : String}
    {spec : Node} : Tidy (bindSpecifier file module specifier spec) := by
  unfold bindSpecifier
  extract_lets names
  split
  · exact tidy_bindImported
  · exact holds_pure

theorem tidy_bindImport (input : BindInput) (node : Node) : Tidy (bindImport input node) := by
  unfold bindImport
  split
  · exact holds_pure
  -- the list of names, the import of the whole module, and the default import, each with the rest
  extract_lets specifier module list space
  have hlist : Tidy (list ()) := holds_for fun spec _ => tidy_bindSpecifier
  have hspace : Tidy (space ()) := by
    dsimp only [space]
    split
    · exact holds_bind tidy_bindImported fun _ => hlist
    · exact hlist
  split
  · exact holds_bind tidy_bindImported fun _ => hspace
  · exact hspace

theorem tidy_bindTypeParameter {file : SourceId} {node : Node} :
    Tidy (bindTypeParameter file node) := by
  unfold bindTypeParameter
  split
  · exact holds_pure
  · refine holds_bind (tidy_alloc ⟨rfl, fun hfile => absurd hfile Bool.false_ne_true⟩) fun id => ?_
    exact tidy_modifySymbols fun _ ht => ⟨ht.symbols, ht.locals⟩

theorem tidy_bindDeclarations (input : BindInput) : Tidy (bindDeclarations input) := by
  unfold bindDeclarations
  extract_lets file
  refine holds_bind (tidy_modifySymbols fun _ ht => ht.enterFile) fun _ => ?_
  refine holds_bind (holds_forIn fun s _ _ => ?_) fun _ =>
    holds_bind (holds_forIn fun n _ _ => ?_) fun _ => holds_pure
  · split
    · exact holds_turn (tidy_bindImport input s)
    · exact holds_turn (tidy_bindNamed rfl)
    · exact holds_turn (tidy_bindNamed rfl)
    · exact holds_turn (tidy_bindNamed rfl)
    · refine holds_bind (holds_forIn fun d _ _ => holds_turn ?_) fun _ => holds_pure
      cases s.variableKeyword <;> exact tidy_bindNamed rfl
    · exact holds_pure
  · split
    · exact holds_turn tidy_bindTypeParameter
    · exact holds_pure

/-! ## Exports and files -/

theorem tidy_bindExported {file : SourceId} {source : Option (Option SourceId)} {spec : Node} :
    Tidy (bindExported file source spec) := by
  unfold bindExported
  dsimp only
  split
  · split
    · exact tidy_addExport
    · refine keeps_get fun b hb => ?_
      split
      · exact (tidy_addExport b hb).2
      · exact hb
  · exact holds_pure

theorem tidy_bindExport (input : BindInput) (node : Node) : Tidy (bindExport input node) := by
  unfold bindExport
  dsimp only
  split
  · split
    · exact tidy_addExport
    · exact tidy_modifyFile fun _ => rfl
  · exact holds_for fun spec _ => tidy_bindExported

theorem tidy_bindExportAssignment (file : SourceId) (node : Node) :
    Tidy (bindExportAssignment file node) := by
  unfold bindExportAssignment
  split
  · exact holds_pure
  split
  · split
    · refine keeps_get fun b hb => ?_
      split
      · exact (tidy_addExport b hb).2
      · exact hb
    · exact holds_pure
  · exact holds_pure

theorem tidy_bindExports (input : BindInput) : Tidy (bindExports input) := by
  unfold bindExports
  refine holds_bind (holds_forIn fun s _ _ => ?_) fun _ => holds_pure
  split
  · exact holds_turn (tidy_bindExport input s)
  · exact holds_turn (tidy_bindExportAssignment input.file s)
  · exact holds_pure

theorem tidy_bindModule (input : BindInput) : Tidy (bindModule input) :=
  holds_bind (tidy_alloc ⟨rfl, fun _ => rfl⟩) fun _ =>
    tidy_modifySymbols fun _ ht => ⟨ht.symbols, ht.locals⟩

end Binder

open Judgment in
/-- The table of a bound program is consistent. -/
theorem bind_consistent (inputs : List BindInput) : (bind inputs).symbols.Consistent := by
  unfold bind
  extract_lets steps
  have hsteps : Binder.Tidy steps := by
    refine holds_bind (holds_forIn fun i _ _ => holds_turn (Binder.tidy_bindModule i)) fun _ => ?_
    refine holds_bind (holds_forIn fun i _ _ => ?_) fun _ => ?_
    · exact holds_turn (Binder.tidy_bindDeclarations i)
    · exact holds_for fun i _ => Binder.tidy_bindExports i
  refine (hsteps {} ⟨fun s hs => absurd hs (Array.not_mem_empty s), fun m f hf => ?_⟩).2
  rw [Symbols.file?, Std.HashMap.getElem?_empty] at hf
  cases hf

/-! ## Global names -/

namespace Node

variable {n c : Node}

/-- Only import statements declare imports. -/
theorem kind_of_importAlias (hc : c ∈ n.declarations)
    (h : c.declaredMeaning.importAlias = true) : n.kind = .importDecl := by
  rw [declarations] at hc
  split at hc
  case h_1 hk => exact hk
  case h_2 hk | h_3 hk | h_4 hk =>
    obtain rfl := List.mem_singleton.1 (List.mem_filter.1 hc).1
    rw [declaredMeaning, hk] at h
    cases h
  case h_5 =>
    rw [declaredMeaning, kind_of_childrenOf (List.mem_filter.1 hc).1] at h
    dsimp only at h
    split at h <;> cases h
  case h_6 => exact absurd hc List.not_mem_nil

theorem isModule_of_importDecl (hc : c ∈ n.statements) (hk : c.kind = .importDecl) :
    n.isModule = true :=
  List.any_eq_true.2 ⟨c, (List.mem_filter.1 hc).1, by rw [hk]⟩

end Node

theorem Meaning.ofAll_importAlias {ds : List Declaration}
    (h : ∀ d ∈ ds, d.meaning.importAlias = false) : (ofAll ds).importAlias = false := by
  induction ds using List.reverseRecOn with
  | nil => rfl
  | append_singleton ds d ih =>
    rw [ofAll_append, union, ih fun e he => h e (List.mem_append_left _ he),
      h d (List.mem_append_right _ List.mem_cons_self)]
    rfl

theorem Meaning.ofAll_typeAlias {ds : List Declaration} {d : Declaration} (hd : d ∈ ds)
    (h : d.meaning.typeAlias = true) : (ofAll ds).typeAlias = true := by
  induction ds using List.reverseRecOn with
  | nil => exact absurd hd List.not_mem_nil
  | append_singleton ds e ih =>
    rw [ofAll_append, union, Bool.or_eq_true]
    rcases List.mem_append.1 hd with hd | hd
    · exact .inl (ih hd)
    · exact .inr (List.mem_singleton.1 hd ▸ h)

section

variable {inputs : List BindInput} {id : SymbolId}

/-- A script imports nothing. -/
theorem importAlias_of_script {i : BindInput} {d : Declaration} (hd : d ∈ i.declarations)
    (hscript : i.root.isModule = false) : d.meaning.importAlias = false := by
  by_contra himport
  rw [Bool.not_eq_false] at himport
  obtain ⟨n, hn, rfl⟩ := List.mem_map.1 hd
  obtain ⟨s, hs, hn⟩ := List.mem_flatMap.1 hn
  have := Node.isModule_of_importDecl hs (Node.kind_of_importAlias hn himport)
  rw [hscript] at this
  cases this

variable (hfiles : (inputs.map (·.file)).Nodup) (hparsed : ∀ i ∈ inputs, i.IsParsed)

include hfiles hparsed

/-- No global name is an import, since imports make a file a module. -/
theorem importAlias_of_global {name : String}
    (h : (bind inputs).symbols.globals.get? name = some id) :
    ((bind inputs).symbols.get id).meaning.importAlias = false := by
  obtain ⟨roles, hr⟩ := recorded_bind hfiles (apart_typeParams hfiles hparsed)
  obtain ⟨-, hdecls, hmeaning⟩ := hr.describes_get id ((hr.named none name id).1 h)
  rw [hmeaning, hdecls]
  refine Meaning.ofAll_importAlias fun d hd => ?_
  obtain ⟨hd, hrole⟩ := List.mem_filter.1 hd
  obtain ⟨i, hi, hd⟩ := List.mem_flatMap.1 hd
  rw [Declaration.declares, file_of_declarations hd, scopeOf_file hfiles hi, Bool.and_eq_true,
    beq_iff_eq] at hrole
  refine importAlias_of_script hd (Bool.eq_false_of_not_eq_true fun hmodule => ?_)
  rw [BindInput.scope?, if_pos hmodule] at hrole
  cases hrole.1

/-- A script has no names of its own. -/
theorem inScope?_of_script {i : BindInput} (hi : i ∈ inputs) (hscript : i.root.isModule = false)
    (name : String) : (bind inputs).symbols.inScope? (some i.file) name = none := by
  obtain ⟨roles, hr⟩ := recorded_bind hfiles (apart_typeParams hfiles hparsed)
  by_contra hfound
  obtain ⟨id, hid⟩ := Option.ne_none_iff_exists'.1 hfound
  obtain ⟨d, -, hrole⟩ := hr.used _ _ (List.mem_of_getElem? ((hr.named _ _ _).1 hid))
  rw [Declaration.role, Role.named.injEq] at hrole
  have hscope := hrole.1
  rw [scopeOf_eq_some hscope, scopeOf_file hfiles hi, BindInput.scope?, hscript] at hscope
  cases hscope

/-- What a script declares, type parameters apart, is found among the global names. -/
theorem get?_globals_of_script {d : Declaration}
    (hd : d ∈ ((bind inputs).symbols.get id).declarations)
    (hparam : ((bind inputs).symbols.get id).meaning ≠ { typeParameter := true })
    (hscript : ∀ i ∈ inputs, i.file = d.file → i.root.isModule = false) :
    (bind inputs).symbols.globals.get? ((bind inputs).symbols.get id).name = some id := by
  obtain ⟨roles, hr⟩ := recorded_bind hfiles (apart_typeParams hfiles hparsed)
  obtain ⟨i, hi, hfile⟩ := exists_file (hr.declared hd)
  obtain hrole | ⟨hp, hdecls⟩ := hr.role_of_mem hd
  · rw [Declaration.role, ← hfile, scopeOf_file hfiles hi, BindInput.scope?,
      hscript i hi hfile] at hrole
    rw [(hr.describes_get id hrole).1]
    exact (hr.named none d.name id).2 hrole
  · -- a type parameter's symbol means nothing else
    obtain ⟨j, -, hj⟩ := List.mem_flatMap.1 hp
    have hmem : (bind inputs).symbols.get id ∈ (bind inputs).symbols.all := by
      obtain ⟨r, hrole⟩ := hr.exists_role hd
      rw [Symbols.get, Array.getD_eq_getD_getElem?, Array.getElem?_eq_getElem (hr.has_of_role hrole)]
      exact Array.getElem_mem _
    have hmeaning := hr.meaning_eq hmem (Array.ne_empty_of_mem hd)
    rw [hdecls, Meaning.ofAll_singleton] at hmeaning
    exact absurd (hmeaning.trans (meaning_of_typeParams hj)) hparam

end

end DeclKit

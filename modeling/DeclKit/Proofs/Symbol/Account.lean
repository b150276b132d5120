/-
The symbols of a program account for what its files declare.

When all files are bound, every declaration stands with the symbol of its name, once; the symbol is the
one that the name leads to in its scope, and has all declarations of the name there and no others. What
a symbol means is what its declarations make of it together. Type parameters have symbols of their own,
since their keys are their own. And every number that a table leads to is the number of a symbol.
-/
import DeclKit.Proofs.Symbol.Recording

set_option autoImplicit false

namespace DeclKit

open Symbols Node

/-! ## Lists -/

theorem flatMap_filter_eq {α β : Type} (xs : List α) (p : α → Bool) (g : α → List β) :
    (xs.filter p).flatMap g = xs.flatMap fun x => if p x then g x else [] := by
  induction xs with
  | nil => rfl
  | cons x xs ih =>
    rw [List.flatMap_cons, List.filter_cons, ← ih]
    split <;> rfl

/-- A member that is different from all others stands in one place. -/
theorem place_unique {α : Type} {R : α → α → Prop} {xs : List α} {x : α} {i j : Nat}
    (h : xs.Pairwise R) (hx : ¬R x x) (hi : xs[i]? = some x) (hj : xs[j]? = some x) : i = j := by
  obtain ⟨hi, hxi⟩ := List.getElem?_eq_some_iff.1 hi
  obtain ⟨hj, hxj⟩ := List.getElem?_eq_some_iff.1 hj
  rw [List.pairwise_iff_getElem] at h
  rcases Nat.lt_trichotomy i j with hlt | heq | hlt
  · have := h i j hi hj hlt
    rw [hxi, hxj] at this
    exact absurd this hx
  · exact heq
  · have := h j i hj hi hlt
    rw [hxi, hxj] at this
    exact absurd this hx

/-! ## The files together -/

/-- The files that are modules. -/
def modulesOf (inputs : List BindInput) (file : SourceId) : Bool :=
  inputs.any fun i => i.file == file && i.root.isModule

section Inputs

variable {inputs : List BindInput} {i : BindInput}

theorem modulesOf_file (hfiles : (inputs.map (·.file)).Nodup) (hi : i ∈ inputs) :
    modulesOf inputs i.file = i.root.isModule := by
  rw [Bool.eq_iff_iff, modulesOf, List.any_eq_true]
  constructor
  · rintro ⟨j, hj, hmodule⟩
    simp only [Bool.and_eq_true, beq_iff_eq] at hmodule
    rw [← List.inj_on_of_nodup_map hfiles hj hi hmodule.1]
    exact hmodule.2
  · intro hmodule
    exact ⟨i, hi, by simp [hmodule]⟩

theorem scopeOf_file (hfiles : (inputs.map (·.file)).Nodup) (hi : i ∈ inputs) :
    scopeOf (modulesOf inputs) i.file = i.scope? := by
  rw [scopeOf, modulesOf_file hfiles hi, BindInput.scope?]

theorem file_of_declarations {d : Declaration} (hd : d ∈ i.declarations) : d.file = i.file := by
  obtain ⟨n, -, rfl⟩ := List.mem_map.1 hd
  rfl

theorem mem_declarations {d : Declaration} (hi : i ∈ inputs) (hd : d ∈ i.declarations) :
    d ∈ inputs.flatMap (·.declarations) := List.mem_flatMap.2 ⟨i, hi, hd⟩

theorem file_of_typeParams {d : Declaration} (hd : d ∈ i.typeParams) : d.file = i.file := by
  obtain ⟨n, -, rfl⟩ := List.mem_map.1 hd
  rfl

/-- What is declared is declared in one of the files. -/
theorem exists_file {d : Declaration}
    (h : d ∈ inputs.flatMap (·.declarations) ∨ d ∈ inputs.flatMap (·.typeParams)) :
    ∃ i ∈ inputs, i.file = d.file := by
  rcases h with h | h
  · obtain ⟨i, hi, hd⟩ := List.mem_flatMap.1 h
    exact ⟨i, hi, (file_of_declarations hd).symm⟩
  · obtain ⟨i, hi, hd⟩ := List.mem_flatMap.1 h
    exact ⟨i, hi, (file_of_typeParams hd).symm⟩

/-- The declarations of a name in a scope, file by file. -/
theorem filter_declares (hfiles : (inputs.map (·.file)).Nodup) (scope : Option SourceId)
    (name : String) :
    (inputs.flatMap (·.declarations)).filter (·.declares (modulesOf inputs) scope name) =
      (inputs.filter (·.scope? == scope)).flatMap fun j =>
        j.declarations.filter (·.name == name) := by
  rw [List.filter_flatMap]
  have hfile (j : BindInput) (hj : j ∈ inputs) :
      j.declarations.filter (·.declares (modulesOf inputs) scope name) =
        if j.scope? == scope then j.declarations.filter (·.name == name) else [] := by
    split
    · rename_i hscope
      refine List.filter_congr fun d hd => ?_
      rw [Declaration.declares, file_of_declarations hd, scopeOf_file hfiles hj, hscope,
        Bool.true_and]
    · rename_i hscope
      refine List.filter_eq_nil_iff.2 fun d hd => ?_
      rw [Declaration.declares, file_of_declarations hd, scopeOf_file hfiles hj,
        eq_false_of_ne_true hscope, Bool.false_and]
      exact Bool.false_ne_true
  rw [flatMap_filter_eq]
  exact List.flatMap_congr hfile

/-! ## Different declarations and different keys -/

theorem BindInput.IsParsed.covered (h : i.IsParsed) : i.root.Covered := by
  obtain ⟨source, limits, text, p, hp, hroot⟩ := h
  obtain ⟨⟨cs, htree⟩, -, hcover, -, -⟩ := parseWith_spec hp
  rw [Node.Covered, hroot]
  rw [htree] at hcover ⊢
  exact hcover

/-- Declarations that are not empty are different. -/
abbrev Declaration.Distinct (d e : Declaration) : Prop := d.node.isFull = true → d ≠ e

/-- The declarations of all files are different as far as they are not empty. -/
theorem distinct_declarations (hfiles : (inputs.map (·.file)).Nodup)
    (hparsed : ∀ i ∈ inputs, i.IsParsed) :
    (inputs.flatMap (·.declarations)).Pairwise Declaration.Distinct := by
  rw [List.pairwise_flatMap]
  constructor
  · intro i hi
    have hnodup := (hparsed i hi).covered.nodup_statements
    rw [List.Nodup, List.pairwise_filter] at hnodup
    rw [BindInput.declarations, List.pairwise_map]
    refine hnodup.imp fun {n m} hne hfull heq => ?_
    cases heq
    exact hne hfull hfull rfl
  · rw [List.Nodup, List.pairwise_map] at hfiles
    refine hfiles.imp fun {i j} hne d hd e he _ heq => ?_
    rw [← file_of_declarations hd, ← file_of_declarations he, heq] at hne
    exact hne rfl

theorem mem_nodesOfList {above ts : List Tree} {t : Tree} (h : t ∈ ts) (hnode : t.isNode = true) :
    (⟨t, above⟩ : Node) ∈ nodesOfList above ts := by
  induction ts with
  | nil => exact absurd h List.not_mem_nil
  | cons u ts ih =>
    rw [nodesOfList]
    rcases List.mem_cons.1 h with rfl | h
    · cases t with
      | token t => cases hnode
      | node k s e cs => exact List.mem_append_left _ List.mem_cons_self
    · exact List.mem_append_right _ (ih h)

theorem mem_descendants_of_children {n c : Node} (h : c ∈ n.children) : c ∈ n.descendants := by
  obtain ⟨t, above⟩ := n
  obtain ⟨u, hu, rfl⟩ := List.mem_map.1 h
  obtain ⟨hmem, hnode⟩ := List.mem_filter.1 hu
  cases t with
  | token t => exact absurd hmem List.not_mem_nil
  | node k s e cs => exact List.mem_cons_of_mem _ (mem_nodesOfList hmem hnode)

theorem isNamedParam_of_bindsType {n : Node} (h : n.bindsType = true) : n.isNamedParam = true := by
  rw [bindsType, Bool.and_eq_true] at h
  obtain ⟨c, hc⟩ := Option.isSome_iff_exists.1 h.2
  rw [isNamedParam, Bool.and_eq_true]
  refine ⟨h.1, List.any_eq_true.2 ⟨c, ?_, ?_⟩⟩
  · exact mem_descendants_of_children (List.mem_of_find?_eq_some hc)
  · exact beq_iff_eq.2 (kind_of_child? hc)

/-- The type parameters of all files have different keys. -/
theorem apart_typeParams (hfiles : (inputs.map (·.file)).Nodup)
    (hparsed : ∀ i ∈ inputs, i.IsParsed) : Apart (inputs.flatMap (·.typeParams)) := by
  rw [Apart, List.pairwise_flatMap]
  constructor
  · intro i hi
    obtain ⟨source, limits, text, p, hp, hroot⟩ := hparsed i hi
    obtain ⟨-, -, hcover, hgood, hhollow⟩ := parseWith_spec hp
    have hkeys : (i.root.descendants.filter bindsType).Pairwise fun n m => ¬SameKey n m := by
      rw [hroot]
      refine pairwise_filter_of_imp (fun n hn h => ?_) (pairwise_not_sameKey hcover hgood hhollow)
      exact hasOwnKey_of_isNamedParam (hcover.mem hn).1 (hgood.mem hn) (isNamedParam_of_bindsType h)
    rw [BindInput.typeParams, List.pairwise_map]
    refine hkeys.imp fun {n m} hne hkey => hne ?_
    simp only [Declaration.key, Node.key, NodeKey.mk.injEq, true_and] at hkey
    exact ⟨⟨hkey.1, hkey.2.1⟩, hkey.2.2⟩
  · rw [List.Nodup, List.pairwise_map] at hfiles
    refine hfiles.imp fun {i j} hne d hd e he hkey => ?_
    have hfile : d.key.file = e.key.file := congrArg NodeKey.file hkey
    rw [show d.key.file = i.file from file_of_typeParams hd,
      show e.key.file = j.file from file_of_typeParams he] at hfile
    exact hne hfile

/-- No declaration of a name is a type parameter. -/
theorem not_mem_typeParams {d : Declaration} (hd : d ∈ i.declarations) {j : BindInput} :
    d ∉ j.typeParams := by
  intro hparam
  obtain ⟨n, hn, rfl⟩ := List.mem_map.1 hd
  obtain ⟨s, -, hn⟩ := List.mem_flatMap.1 hn
  obtain ⟨m, hm, heq⟩ := List.mem_map.1 hparam
  obtain rfl : m = n := congrArg Declaration.node heq
  have hbinds := (List.mem_filter.1 hm).2
  rw [bindsType_of_declarations hn] at hbinds
  cases hbinds

/-- Of the empty table there is nothing to say. -/
theorem recorded_empty (modules : SourceId → Bool) : Recorded modules [] [] {} := by
  have hscope (scope : Option SourceId) (name : String) :
      ({} : Symbols).inScope? scope name = none := by
    cases scope with
    | none => rfl
    | some file => simp [inScope?, file?]
  refine ⟨[], ?_⟩
  exact {
    size := rfl
    described := fun i r s hr => by cases hr
    named := fun scope name id => by simp [hscope]
    taken := fun d hd => absurd hd List.not_mem_nil
    used := fun scope name hmem => absurd hmem List.not_mem_nil
    keyed := fun key id => by simp [ofNode?]
    own := fun d => by simp
    bounded := fun m f hf => by simp [file?] at hf
    global := fun e he => absurd he List.not_mem_nil
    filed := fun m id hid => by simp at hid }

/-- Binding files records what they declare. -/
theorem recorded_bind (hfiles : (inputs.map (·.file)).Nodup)
    (hapart : Apart (inputs.flatMap (·.typeParams))) :
    Recorded (modulesOf inputs) (inputs.flatMap (·.declarations)) (inputs.flatMap (·.typeParams))
      (bind inputs).symbols := by
  unfold bind
  extract_lets steps
  -- files get their symbols, then declarations are bound, then exports
  have hmodules : Binder.Keeps (Recorded (modulesOf inputs) [] []) (forIn inputs PUnit.unit
      fun i _ => do Binder.bindModule i; return ForInStep.yield PUnit.unit) :=
    Judgment.holds_forIn fun i _ _ => Judgment.holds_turn (Binder.keeps_bindModule i)
  have hexports (ds ps : List Declaration) : Binder.Keeps (Recorded (modulesOf inputs) ds ps)
      (do for i in inputs do Binder.bindExports i) :=
    Judgment.holds_for fun i _ => Binder.keeps_bindExports i
  have hfirst := (hmodules {} (recorded_empty _)).2
  have hthen := Binder.recorded_files hfirst (fun d hd => absurd hd List.not_mem_nil) hfiles
    (fun i hi => (modulesOf_file hfiles hi).symm) hapart
  exact (hexports _ _ _ hthen).2

end Inputs

/-! ## The account -/

/-- The symbols account for what the files declare. -/
structure Symbols.Account (inputs : List BindInput) (t : Symbols) : Prop where
  /-- The name of a declaration leads, in the scope of its file, to a symbol of that name, which holds
  the declarations of the name in that scope, in order. -/
  named : ∀ i ∈ inputs, ∀ d ∈ i.declarations, ∃ id,
    t.inScope? i.scope? d.name = some id ∧ t.Has id ∧ (t.get id).name = d.name ∧
      d ∈ (t.get id).declarations ∧
      (t.get id).declarations.toList =
        (inputs.filter (·.scope? == i.scope?)).flatMap fun j =>
          j.declarations.filter (·.name == d.name)
  /-- A declaration stands in one place of one symbol. -/
  once : ∀ i ∈ inputs, ∀ d ∈ i.declarations, d.node.isFull = true →
    ∃! place : SymbolId × Nat, (t.get place.1).declarations[place.2]? = some d
  /-- Declarations of one symbol come from one module, or all from scripts. -/
  together : ∀ id, ∀ d ∈ (t.get id).declarations, ∀ e ∈ (t.get id).declarations,
    ∃ i ∈ inputs, ∃ j ∈ inputs, i.file = d.file ∧ j.file = e.file ∧ i.scope? = j.scope?
  /-- A declared symbol means what its declarations make of it. -/
  meaning : ∀ s ∈ t.all, s.declarations ≠ #[] → s.meaning = Meaning.ofAll s.declarations.toList
  /-- The key of a type parameter leads to a symbol that is there for it alone. -/
  params : ∀ i ∈ inputs, ∀ d ∈ i.typeParams, ∃ id,
    t.ofNode? d.key = some id ∧ t.Has id ∧ (t.get id).name = d.name ∧
      (t.get id).declarations = #[d] ∧ (t.get id).meaning = { typeParameter := true }
  /-- The tables lead to symbols that are there. -/
  files : ∀ m f, t.file? m = some f → (∀ e ∈ f.locals.toList, t.Has e.2) ∧
    ∀ e ∈ f.exports.toList, ∀ id, e.2 = .local id → t.Has id
  globals : ∀ e ∈ t.globals.toList, t.Has e.2
  nodes : ∀ key id, t.ofNode? key = some id → t.Has id
  modules : ∀ (m : SourceId) (id : SymbolId), t.modules[m]? = some id → t.Has id

namespace Records

variable {modules : SourceId → Bool} {ds ps : List Declaration} {roles : List Role} {t : Symbols}
  {d : Declaration}

/-- A symbol that is there has a role, and is what it asks for. -/
theorem describes_get (h : Records modules ds ps roles t) (id : SymbolId) {r : Role}
    (hr : roles[id.index]? = some r) : r.Describes modules ds (t.get id) := by
  have hlt := h.has_of_role hr
  refine h.described id.index r _ hr ?_
  rw [Symbols.get, Array.getD_eq_getD_getElem?, Array.getElem?_eq_getElem hlt, Option.getD_some]

/-- A symbol that holds a declaration has a role. -/
theorem exists_role (h : Records modules ds ps roles t) {id : SymbolId}
    (hd : d ∈ (t.get id).declarations) : ∃ r, roles[id.index]? = some r := by
  refine ⟨_, List.getElem?_eq_getElem ?_⟩
  rw [h.size]
  by_contra hlt
  rw [Symbols.get, Array.getD_eq_getD_getElem?, Array.getElem?_eq_none (Nat.le_of_not_lt hlt)] at hd
  exact absurd hd (Array.not_mem_empty d)

/-- A declaration that is no type parameter stands with the symbol of its name only. -/
theorem role_of_mem (h : Records modules ds ps roles t) {id : SymbolId}
    (hd : d ∈ (t.get id).declarations) :
    roles[id.index]? = some (d.role modules) ∨ d ∈ ps ∧ (t.get id).declarations = #[d] := by
  obtain ⟨r, hr⟩ := h.exists_role hd
  have hdescribed := h.describes_get id hr
  cases r with
  | file =>
    rw [Role.Describes] at hdescribed
    rw [hdescribed] at hd
    exact absurd hd (Array.not_mem_empty d)
  | param e =>
    obtain ⟨-, hdecls, -⟩ := hdescribed
    rw [hdecls] at hd
    obtain rfl : d = e := by simpa using hd
    exact .inr ⟨(h.own d).2 (List.mem_of_getElem? hr), hdecls⟩
  | named scope name =>
    obtain ⟨-, hdecls, -⟩ := hdescribed
    rw [← Array.mem_toList_iff, hdecls] at hd
    rw [Declaration.declares_iff.1 (List.mem_filter.1 hd).2]
    exact .inl hr

/-- The symbol of a declared name. -/
theorem symbol_of_mem (h : Records modules ds ps roles t) (hd : d ∈ ds) :
    ∃ id, roles[id.index]? = some (d.role modules) ∧
      t.inScope? (scopeOf modules d.file) d.name = some id ∧ t.Has id ∧
      (t.get id).name = d.name ∧ (t.get id).declarations.toList =
        ds.filter (·.declares modules (scopeOf modules d.file) d.name) := by
  obtain ⟨k, hk⟩ := List.mem_iff_getElem?.1 (h.taken d hd)
  obtain ⟨hname, hdecls, -⟩ := h.describes_get ⟨k⟩ hk
  exact ⟨⟨k⟩, hk, (h.named _ _ ⟨k⟩).2 hk, h.has_of_role hk, hname, hdecls⟩

/-- A declaration that is different from the others stands in one place. -/
theorem once (h : Records modules ds ps roles t) (hdistinct : ds.Pairwise Declaration.Distinct)
    (hd : d ∈ ds) (hp : d ∉ ps) (hfull : d.node.isFull = true) :
    ∃! place : SymbolId × Nat, (t.get place.1).declarations[place.2]? = some d := by
  obtain ⟨id, hrole, -, -, -, hdecls⟩ := h.symbol_of_mem hd
  have hin : d ∈ (t.get id).declarations.toList := by
    rw [hdecls]
    exact List.mem_filter.2 ⟨hd, Declaration.declares_iff.2 rfl⟩
  obtain ⟨k, hk⟩ := List.mem_iff_getElem?.1 hin
  refine ⟨(id, k), (Array.getElem?_toList ..).symm.trans hk, ?_⟩
  rintro ⟨⟨i⟩, k'⟩ hk'
  have hk' : (t.get ⟨i⟩).declarations[k']? = some d := hk'
  -- the symbol is the one of the name, and in it the place is the only one
  obtain hrole' | ⟨hparam, -⟩ := h.role_of_mem (Array.mem_of_getElem? hk')
  · obtain rfl : ⟨i⟩ = id := congrArg SymbolId.mk (h.role_unique hrole' hrole)
    have hside := hdistinct.filter (·.declares modules (scopeOf modules d.file) d.name)
    rw [← hdecls] at hside
    rw [← Array.getElem?_toList] at hk'
    rw [place_unique hside (fun hne => hne hfull rfl) hk' hk]
  · exact absurd hparam hp

/-- What a symbol holds has been declared. -/
theorem declared (h : Records modules ds ps roles t) {id : SymbolId}
    (hd : d ∈ (t.get id).declarations) : d ∈ ds ∨ d ∈ ps := by
  obtain hrole | ⟨hparam, -⟩ := h.role_of_mem hd
  · obtain ⟨-, hdecls, -⟩ := h.describes_get id hrole
    rw [← Array.mem_toList_iff, hdecls] at hd
    exact .inl (List.mem_filter.1 hd).1
  · exact .inr hparam

/-- What a symbol holds has been declared in one scope. -/
theorem same_scope (h : Records modules ds ps roles t) {id : SymbolId} {e : Declaration}
    (hd : d ∈ (t.get id).declarations) (he : e ∈ (t.get id).declarations) :
    scopeOf modules d.file = scopeOf modules e.file := by
  obtain hrole | ⟨-, hsingle⟩ := h.role_of_mem hd
  · obtain hrole' | ⟨-, hsingle⟩ := h.role_of_mem he
    · rw [hrole, Option.some.injEq, Declaration.role, Declaration.role, Role.named.injEq] at hrole'
      exact hrole'.1
    · rw [hsingle] at hd
      obtain rfl : d = e := by simpa using hd
      rfl
  · rw [hsingle] at he
    obtain rfl : e = d := by simpa using he
    rfl

/-- A symbol that has been declared means what its declarations make of it. -/
theorem meaning_eq (h : Records modules ds ps roles t) {s : Symbol} (hs : s ∈ t.all)
    (hne : s.declarations ≠ #[]) : s.meaning = Meaning.ofAll s.declarations.toList := by
  obtain ⟨i, hi⟩ := Array.mem_iff_getElem?.1 hs
  have hlt : i < roles.length := by
    rw [h.size]
    exact (Array.getElem?_eq_some_iff.1 hi).1
  have hdescribed := h.described i _ s (List.getElem?_eq_getElem hlt) hi
  cases hr : roles[i] with
  | file =>
    rw [hr] at hdescribed
    exact absurd hdescribed hne
  | param e =>
    rw [hr] at hdescribed
    obtain ⟨-, hdecls, hmeaning⟩ := hdescribed
    rw [hdecls, hmeaning]
    exact (Meaning.ofAll_singleton e).symm
  | named scope name =>
    rw [hr] at hdescribed
    exact hdescribed.2.2

/-- A type parameter has a symbol for itself. -/
theorem symbol_of_param (h : Records modules ds ps roles t) (hd : d ∈ ps) :
    ∃ id, t.ofNode? d.key = some id ∧ t.Has id ∧ (t.get id).name = d.name ∧
      (t.get id).declarations = #[d] ∧ (t.get id).meaning = d.meaning := by
  obtain ⟨k, hk⟩ := List.mem_iff_getElem?.1 ((h.own d).1 hd)
  have hdescribed := h.describes_get ⟨k⟩ hk
  exact ⟨⟨k⟩, (h.keyed _ ⟨k⟩).2 ⟨d, hk, rfl⟩, h.has_of_role hk, hdescribed⟩

end Records

theorem meaning_of_typeParams {i : BindInput} {d : Declaration} (hd : d ∈ i.typeParams) :
    d.meaning = { typeParameter := true } := by
  obtain ⟨n, hn, rfl⟩ := List.mem_map.1 hd
  have hk := (List.mem_filter.1 hn).2
  rw [bindsType, Bool.and_eq_true, Bool.or_eq_true, beq_iff_eq, beq_iff_eq] at hk
  rw [Declaration.meaning, declaredMeaning]
  rcases hk.1 with hk | hk <;> rw [hk]

/-- What a program is bound from: its files, and what their specifiers name. -/
def Program.bindInputs (p : Program) : List BindInput :=
  p.files.toList.map fun f => ⟨f.id, f.root, f.references.map fun r => (r.specifier, r.resolved)⟩

/-- A loaded program is bound from its files. They have different numbers, and each is what some text
is parsed to. -/
theorem Program.load_bindInputs {sources : Sources} {roots : List String}
    {options : CompilerOptions} {h : Host} {p : Program}
    (hload : Program.load sources roots options h = .ok p) :
    p.symbols = (bind p.bindInputs).symbols ∧ (p.bindInputs.map (·.file)).Nodup ∧
      ∀ i ∈ p.bindInputs, i.IsParsed := by
  obtain ⟨l, hl, hfiles⟩ := load_spec hload
  refine ⟨?_, ?_, ?_⟩
  · rw [load] at hload
    dsimp only at hload
    cases hqueue : loadQueue h ((start h roots options).1.length + h.files.length + 1)
        { sources, queue := (start h roots options).1 } with
    | error e =>
      rw [hqueue] at hload
      cases hload
    | ok l' =>
      rw [hqueue] at hload
      obtain rfl := Except.ok.inj hload
      rfl
  · rw [bindInputs, List.map_map, hfiles]
    exact hl.distinct
  · intro i hi
    obtain ⟨f, hf, rfl⟩ := List.mem_map.1 hi
    exact hl.parsed f (hfiles ▸ Array.mem_toList_iff.1 hf)

/-- The binder loses nothing and enters nothing twice: the symbols account for what bound files declare,
if each file is bound once and is what some text is parsed to. The files of a loaded program are. -/
theorem bind_accounts :
    (∀ inputs : List BindInput, (inputs.map (·.file)).Nodup → (∀ i ∈ inputs, i.IsParsed) →
      (bind inputs).symbols.Account inputs) ∧
    ∀ sources roots options host p, Program.load sources roots options host = .ok p →
      p.symbols.Account p.bindInputs := by
  have hbind (inputs : List BindInput) (hfiles : (inputs.map (·.file)).Nodup)
      (hparsed : ∀ i ∈ inputs, i.IsParsed) : (bind inputs).symbols.Account inputs := by
    have hdistinct := distinct_declarations hfiles hparsed
    obtain ⟨roles, h⟩ := recorded_bind hfiles (apart_typeParams hfiles hparsed)
    generalize (bind inputs).symbols = t at h
    exact {
      named := by
        intro i hi d hd
        obtain ⟨id, -, hscope, hhas, hname, hdecls⟩ := h.symbol_of_mem (mem_declarations hi hd)
        rw [file_of_declarations hd, scopeOf_file hfiles hi] at hscope hdecls
        rw [filter_declares hfiles] at hdecls
        refine ⟨id, hscope, hhas, hname, ?_, hdecls⟩
        rw [← Array.mem_toList_iff, hdecls, List.mem_flatMap]
        exact ⟨i, List.mem_filter.2 ⟨hi, by simp⟩, List.mem_filter.2 ⟨hd, by simp⟩⟩
      once := by
        intro i hi d hd hfull
        refine h.once hdistinct (mem_declarations hi hd) (fun hparam => ?_) hfull
        obtain ⟨j, -, hj⟩ := List.mem_flatMap.1 hparam
        exact not_mem_typeParams hd hj
      together := by
        intro id d hd e he
        obtain ⟨i, hi, hfile⟩ := exists_file (h.declared hd)
        obtain ⟨j, hj, hfile'⟩ := exists_file (h.declared he)
        refine ⟨i, hi, j, hj, hfile, hfile', ?_⟩
        rw [← scopeOf_file hfiles hi, ← scopeOf_file hfiles hj, hfile, hfile']
        exact h.same_scope hd he
      meaning := fun s hs hne => h.meaning_eq hs hne
      params := by
        intro i hi d hd
        rw [← meaning_of_typeParams hd]
        exact h.symbol_of_param (List.mem_flatMap.2 ⟨i, hi, hd⟩)
      files := h.bounded
      globals := h.global
      nodes := by
        intro key id hid
        obtain ⟨d, hd, -⟩ := (h.keyed key id).1 hid
        exact h.has_of_role hd
      modules := h.filed }
  refine ⟨hbind, fun sources roots options host p hload => ?_⟩
  obtain ⟨hsymbols, hfiles, hparsed⟩ := Program.load_bindInputs hload
  rw [hsymbols]
  exact hbind p.bindInputs hfiles hparsed

/-- Two scripts that declare the same name. -/
theorem bind_accounts_scripts : ∃ inputs : List BindInput, inputs.length = 2 ∧
    (inputs.map (·.file)).Nodup ∧ (∀ i ∈ inputs, i.IsParsed) ∧
      (∀ i ∈ inputs, ∃ d ∈ i.declarations, d.name = "A" ∧ d.node.isFull = true) ∧
      (bind inputs).symbols.Account inputs := by
  have hlex : Token.lex "type A=B" = [⟨.ident, 0, "type"⟩, ⟨.whitespace, 4, " "⟩,
      ⟨.ident, 5, "A"⟩, ⟨.equals, 6, "="⟩, ⟨.ident, 7, "B"⟩] := by
    cbv
  have hdecl : (parse ⟨0⟩ "type A=B").toOption.any (fun q =>
      ((Node.mk q.tree []).statements.flatMap Node.declarations).any fun n =>
        n.declaredName == "A" && n.isFull) = true := by
    rw [parse, parseWith, Parser.State.afterFile, Parser.State.start, hlex]
    decide +kernel
  cases hq : parse ⟨0⟩ "type A=B" with
  | error e =>
    rw [hq] at hdecl
    cases hdecl
  | ok q =>
    rw [hq] at hdecl
    obtain ⟨n, hn, hname⟩ := List.any_eq_true.1 hdecl
    rw [Bool.and_eq_true, beq_iff_eq] at hname
    let script (file : SourceId) : BindInput := ⟨file, ⟨q.tree, []⟩, []⟩
    have hfiles : ([script ⟨0⟩, script ⟨1⟩].map (·.file)).Nodup := by simp [script]
    have hparsed : ∀ i ∈ [script ⟨0⟩, script ⟨1⟩], i.IsParsed := by
      intro i hi
      refine ⟨⟨0⟩, .standard, "type A=B", q, hq, ?_⟩
      rcases List.mem_cons.1 hi with rfl | hi
      · rfl
      · rw [List.mem_singleton.1 hi]
    refine ⟨[script ⟨0⟩, script ⟨1⟩], rfl, hfiles, hparsed, ?_, bind_accounts.1 _ hfiles hparsed⟩
    intro i hi
    have hroot : i.root = ⟨q.tree, []⟩ := by
      rcases List.mem_cons.1 hi with rfl | hi
      · rfl
      · rw [List.mem_singleton.1 hi]
    refine ⟨⟨i.file, n⟩, ?_, hname⟩
    rw [BindInput.declarations, hroot]
    exact List.mem_map_of_mem hn

end DeclKit

/-
Where the symbols of a program are declared.

A symbol collects its declarations one by one, from many steps of the binder. `Declares` says that all
of them have been found fit; no step enters one that is not. For type aliases the fit ones are the
statements of the bound files, since nothing else that the binder enters has their kind.
-/
import DeclKit.Judgment
import DeclKit.Program.Basic

set_option autoImplicit false

namespace DeclKit

namespace Node

theorem kind_of_child? {n c : Node} {k : Kind} (h : n.child? k = some c) : c.kind = k := by
  have := List.find?_some h
  exact eq_of_beq this

theorem kind_of_childrenOf {n c : Node} {k : Kind} (h : c ∈ n.childrenOf k) : c.kind = k :=
  eq_of_beq (List.mem_filter.1 h).2

/-- Above a node directly below is the node. -/
theorem parent?_of_children {n c : Node} (h : c ∈ n.children) : c.parent? = some n := by
  obtain ⟨t, -, rfl⟩ := List.mem_map.1 h
  rfl

theorem parent?_of_child? {n c : Node} {k : Kind} (h : n.child? k = some c) :
    c.parent? = some n :=
  parent?_of_children (List.mem_of_find?_eq_some h)

theorem parent?_of_childrenOf {n c : Node} {k : Kind} (h : c ∈ n.childrenOf k) :
    c.parent? = some n :=
  parent?_of_children (List.mem_filter.1 h).1

end Node

/-- Every declaration of a symbol is fit. -/
def Symbols.Declares (fit : Declaration → Prop) (t : Symbols) : Prop :=
  ∀ s ∈ t.all, ∀ d ∈ s.declarations, fit d

namespace Symbols

variable {fit : Declaration → Prop} {t : Symbols}

theorem Declares.alloc {s : Symbol} (h : t.Declares fit) (hs : ∀ d ∈ s.declarations, fit d) :
    (t.alloc s).2.Declares fit := by
  intro u hu
  rcases Array.mem_push.1 hu with hu | rfl
  · exact h u hu
  · exact hs

theorem Declares.modify {id : SymbolId} {f : Symbol → Symbol} (h : t.Declares fit)
    (hf : ∀ s, (∀ d ∈ s.declarations, fit d) → ∀ d ∈ (f s).declarations, fit d) :
    (t.modify id f).Declares fit := by
  intro u hu
  obtain ⟨i, hi, rfl⟩ := Array.mem_iff_getElem.1 hu
  simp only [Symbols.modify, Array.getElem_modify]
  split
  · exact hf _ (h _ (Array.getElem_mem _))
  · exact h _ (Array.getElem_mem _)

/-- Under a number that no symbol has nothing is declared. -/
theorem Declares.get (h : t.Declares fit) (id : SymbolId) :
    ∀ d ∈ (t.get id).declarations, fit d := by
  rw [Symbols.get, Array.getD_eq_getD_getElem?]
  cases hs : t.all[id.index]? with
  | none => exact fun d hd => absurd hd (Array.not_mem_empty d)
  | some s => exact h s (Array.mem_of_getElem? hs)

end Symbols

namespace Binder

variable {fit : Declaration → Prop}

/-- A step after which every declaration is fit if it was so before. -/
def Gives (fit : Declaration → Prop) {α : Type} (x : Bind α) (P : α → Prop) : Prop :=
  ∀ b, b.symbols.Declares fit → P (x.run b).1 ∧ (x.run b).2.symbols.Declares fit

/-- What is known of the steps of a binder that enters fit declarations only. -/
def judgment (fit : Declaration → Prop) : Judgment Bind where
  gives := Gives fit
  pure h _ hb := ⟨h, hb⟩
  bind hx hf b hb :=
    have ⟨ha, hb'⟩ := hx b hb
    hf _ ha _ hb'

/-- A step that only enters declarations that are fit. -/
abbrev Fit (fit : Declaration → Prop) {α : Type} (x : Bind α) : Prop := (judgment fit).holds x

open Judgment (holds_pure holds_bind holds_forIn holds_turn holds_for)

/-! ## Steps -/

theorem fit_get : Fit fit get := fun _ hb => ⟨trivial, hb⟩

theorem fit_modifySymbols {f : Symbols → Symbols}
    (h : ∀ t, t.Declares fit → (f t).Declares fit) : Fit fit (modifySymbols f) :=
  fun b hb => ⟨trivial, h b.symbols hb⟩

theorem fit_alloc {s : Symbol} (hs : ∀ d ∈ s.declarations, fit d) : Fit fit (alloc s) :=
  fun _ hb => ⟨trivial, hb.alloc hs⟩

/-- A report leaves the symbols alone. -/
theorem fit_reportAt {kind : DiagnosticKind} {file : SourceId} {node : Node} {detail : String} :
    Fit fit (reportAt kind file node detail) := fun _ hb => ⟨trivial, hb⟩

theorem fit_reportConflict {kind : DiagnosticKind} {name : String} {new : Declaration}
    {earlier : Array Declaration} : Fit fit (reportConflict kind name new earlier) := by
  refine holds_bind fit_reportAt fun _ => ?_
  rw [← Array.forIn_toList]
  exact holds_for fun d _ => fit_reportAt

theorem fit_enterName {file : SourceId} {name : String} {id : SymbolId} :
    Fit fit (enterName file name id) := by
  refine fit_modifySymbols fun t ht => ?_
  split
  · exact ht
  · exact ht

theorem fit_addExport {file : SourceId} {name : String} {target : ExportTarget} :
    Fit fit (addExport file name target) := fit_modifySymbols fun _ ht => ht

theorem fit_declare {name : String} {meaning : Meaning} {d : Declaration}
    {target : Option ImportTarget} (hd : fit d) : Fit fit (declare name meaning d target) := by
  refine holds_bind fit_get fun b => ?_
  dsimp only
  split
  · -- the symbol of that name takes the declaration up, whether or not there is a conflict
    have htake {id : SymbolId} : Fit fit (modifySymbols (·.modify id fun s => { s with
        meaning := s.meaning.union meaning
        declarations := s.declarations.push d
        importTarget := s.importTarget.or target })) := by
      refine fit_modifySymbols fun t ht => ht.modify fun s hs e he => ?_
      rcases Array.mem_push.1 he with he | rfl
      · exact hs e he
      · exact hd
    split
    · exact holds_bind fit_reportConflict fun _ => holds_bind htake fun _ => holds_pure
    · exact holds_bind htake fun _ => holds_pure
  · have hnew : ∀ e ∈ #[d], fit e := fun e he => List.mem_singleton.1 (Array.mem_toList_iff.2 he) ▸ hd
    exact holds_bind (fit_alloc hnew) fun id => holds_bind fit_enterName fun _ => holds_pure

/-! ## Statements -/

theorem fit_bindNamed {file : SourceId} {node : Node} {modifiers : Modifiers} {meaning : Meaning}
    (h : fit ⟨file, node⟩) : Fit fit (bindNamed file node modifiers meaning) := by
  unfold bindNamed
  split
  · exact holds_pure
  split
  · exact holds_pure
  refine holds_bind (fit_declare h) fun id => ?_
  split
  · exact fit_addExport
  · exact holds_pure

/-- An import is declared where its name stands. -/
theorem fit_bindImported {file : SourceId} {node name : Node} {target : ImportTarget}
    (hparent : name.parent? = some node) (h : fit ⟨file, node⟩) :
    Fit fit (bindImported file name target) := by
  unfold bindImported
  rw [hparent]
  exact holds_bind (fit_declare h) fun _ => holds_pure

theorem fit_bindTypeParameter {file : SourceId} {node : Node} (h : fit ⟨file, node⟩) :
    Fit fit (bindTypeParameter file node) := by
  unfold bindTypeParameter
  split
  · exact holds_pure
  · have hnew : ∀ e ∈ #[(⟨file, node⟩ : Declaration)], fit e :=
      fun e he => List.mem_singleton.1 (Array.mem_toList_iff.2 he) ▸ h
    exact holds_bind (fit_alloc hnew) fun id => fit_modifySymbols fun _ ht => ht

/-! ## Files -/

/-- If the declaration is a type alias, it is a statement of one of the files. -/
def IsStatement (inputs : List BindInput) (d : Declaration) : Prop :=
  d.kind = .typeAliasDecl → ∃ i ∈ inputs, i.file = d.file ∧ d.node ∈ i.root.statements

theorem isStatement_of_kind {inputs : List BindInput} {file : SourceId} {node : Node}
    (h : node.kind ≠ .typeAliasDecl) : IsStatement inputs ⟨file, node⟩ := fun hk => absurd hk h

variable {inputs : List BindInput}

theorem fit_bindSpecifier {file : SourceId} {module : Option SourceId} {specifier : String}
    {spec : Node} (h : spec.kind = .importSpecifier) :
    Fit (IsStatement inputs) (bindSpecifier file module specifier spec) := by
  unfold bindSpecifier
  extract_lets names
  split
  · rename_i imported own himported hown
    exact fit_bindImported (Node.parent?_of_childrenOf (List.mem_of_getLast? hown))
      (isStatement_of_kind (by simp [h]))
  · exact holds_pure

theorem fit_bindImport (input : BindInput) (node : Node) :
    Fit (IsStatement inputs) (bindImport input node) := by
  unfold bindImport
  split
  · exact holds_pure
  rename_i clause hclause
  have hkind := Node.kind_of_child? hclause
  -- the list of names, the import of the whole module, and the default import, each with the rest
  extract_lets specifier module list space
  have hlist : Fit (IsStatement inputs) (list ()) := by
    refine holds_for fun spec hspec => fit_bindSpecifier ?_
    cases hnames : clause.child? .namedImports with
    | none => simp [hnames] at hspec
    | some names =>
      rw [hnames] at hspec
      exact Node.kind_of_childrenOf hspec
  have hspace : Fit (IsStatement inputs) (space ()) := by
    dsimp only [space]
    split
    · rename_i name hname
      obtain ⟨ns, hchild, hname⟩ := Option.bind_eq_some_iff.1 hname
      refine holds_bind (fit_bindImported (Node.parent?_of_child? hname) ?_) fun _ => hlist
      exact isStatement_of_kind (by simp [Node.kind_of_child? hchild])
    · exact hlist
  split
  · rename_i name hname
    refine holds_bind (fit_bindImported (Node.parent?_of_child? hname) ?_) fun _ => hspace
    exact isStatement_of_kind (by simp [hkind])
  · exact hspace

/-- What a file declares and imports: of the statements only type aliases are entered as such. -/
theorem fit_bindDeclarations {input : BindInput} (h : input ∈ inputs) :
    Fit (IsStatement inputs) (bindDeclarations input) := by
  unfold bindDeclarations
  extract_lets file
  refine holds_bind (fit_modifySymbols fun _ ht => ht) fun _ => ?_
  refine holds_bind (holds_forIn fun s hs _ => ?_) fun _ =>
    holds_bind (holds_forIn fun n hn _ => ?_) fun _ => holds_pure
  · have hstatement {d : Node} (hd : d = s ∨ d.kind ≠ .typeAliasDecl) :
        IsStatement inputs ⟨file, d⟩ := by
      obtain rfl | hd := hd
      · exact fun _ => ⟨input, h, rfl, hs⟩
      · exact isStatement_of_kind hd
    split
    · exact holds_turn (fit_bindImport input s)
    · exact holds_turn (fit_bindNamed (hstatement (.inl rfl)))
    · exact holds_turn (fit_bindNamed (hstatement (.inl rfl)))
    · exact holds_turn (fit_bindNamed (hstatement (.inl rfl)))
    · refine holds_bind (holds_forIn fun d hd _ => holds_turn (fit_bindNamed ?_)) fun _ => holds_pure
      exact hstatement (.inr (by simp [Node.kind_of_childrenOf hd]))
    · exact holds_pure
  · split
    · rename_i hk
      refine holds_turn (fit_bindTypeParameter (isStatement_of_kind fun heq => ?_))
      simp [heq] at hk
    · exact holds_pure

/-! ## Exports -/

theorem fit_bindExported {file : SourceId} {source : Option (Option SourceId)} {spec : Node} :
    Fit fit (bindExported file source spec) := by
  unfold bindExported
  dsimp only
  split
  · split
    · exact fit_addExport
    · refine holds_bind fit_get fun b => ?_
      split
      · exact fit_addExport
      · exact fit_reportAt
  · exact holds_pure

theorem fit_bindExport (input : BindInput) (node : Node) : Fit fit (bindExport input node) := by
  unfold bindExport
  dsimp only
  split
  · split
    · exact fit_addExport
    · exact fit_modifySymbols fun _ ht => ht
  · exact holds_for fun spec _ => fit_bindExported

theorem fit_bindExportAssignment (file : SourceId) (node : Node) :
    Fit fit (bindExportAssignment file node) := by
  unfold bindExportAssignment
  split
  · exact holds_pure
  split
  · split
    · refine holds_bind fit_get fun b => ?_
      split
      · exact fit_addExport
      · exact holds_pure
    · exact holds_pure
  · exact holds_pure

theorem fit_bindExports (input : BindInput) : Fit fit (bindExports input) := by
  unfold bindExports
  refine holds_bind (holds_forIn fun s _ _ => ?_) fun _ => holds_pure
  split
  · exact holds_turn (fit_bindExport input s)
  · exact holds_turn (fit_bindExportAssignment input.file s)
  · exact holds_pure

theorem fit_bindModule (input : BindInput) : Fit fit (bindModule input) :=
  holds_bind (fit_alloc fun _ hd => absurd hd (Array.not_mem_empty _)) fun _ =>
    fit_modifySymbols fun _ ht => ht

end Binder

open Judgment in
/-- A type alias that a bound program declares is a statement of one of its files. -/
theorem bind_declares (inputs : List BindInput) :
    (bind inputs).symbols.Declares (Binder.IsStatement inputs) := by
  unfold bind
  extract_lets steps
  have hsteps : Binder.Fit (Binder.IsStatement inputs) steps := by
    refine holds_bind (holds_forIn fun i _ _ => holds_turn (Binder.fit_bindModule i)) fun _ => ?_
    refine holds_bind (holds_forIn fun i h _ => ?_) fun _ => ?_
    · exact holds_turn (Binder.fit_bindDeclarations h)
    · exact holds_for fun i _ => Binder.fit_bindExports i
  exact (hsteps {} fun s hs => absurd hs (Array.not_mem_empty s)).2

/-- The type aliases that a loaded program declares are statements of its files. -/
theorem Program.load_declares {sources : Sources} {roots : List String}
    {options : CompilerOptions} {h : Host} {p : Program}
    (hload : Program.load sources roots options h = .ok p) :
    p.symbols.Declares fun d => d.kind = .typeAliasDecl →
      ∃ f ∈ p.files, f.id = d.file ∧ d.node ∈ f.root.statements := by
  rw [Program.load] at hload
  dsimp only at hload
  cases hqueue : Program.loadQueue h ((Program.start h roots options).1.length + h.files.length + 1)
      { sources, queue := (Program.start h roots options).1 } with
  | error e =>
    rw [hqueue] at hload
    cases hload
  | ok l =>
    rw [hqueue] at hload
    obtain rfl := Except.ok.inj hload
    intro s hs d hd hk
    obtain ⟨i, hi, hfile, hnode⟩ := bind_declares _ s hs d hd hk
    obtain ⟨f, hf, rfl⟩ := List.mem_map.1 hi
    exact ⟨f, Array.mem_toList_iff.1 hf, hfile, hnode⟩

end DeclKit

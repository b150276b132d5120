/-
The binder loses nothing and enters nothing twice.

A step of the binder adds declarations to the record of what is bound, and a sequence of steps adds what
its parts add, one after the other; so a loop over statements adds the declarations of all of them. The
lists of exports, which come last, add nothing, and lead to symbols that are there.
-/
import DeclKit.Proofs.Symbol.Record

set_option autoImplicit false

namespace DeclKit

open Symbols

namespace Binder

/-! ## Steps that keep what is known of the table -/

/-- A step after which something holds of the table if it held before. -/
def Leaves (I : Symbols → Prop) {α : Type} (x : Bind α) (P : α → Prop) : Prop :=
  ∀ b, I b.symbols → P (x.run b).1 ∧ I (x.run b).2.symbols

/-- What is known of steps that keep what is known of the table. -/
def keeping (I : Symbols → Prop) : Judgment Bind where
  gives := Leaves I
  pure h _ hb := ⟨h, hb⟩
  bind hx hf b hb :=
    have ⟨ha, hb'⟩ := hx b hb
    hf _ ha _ hb'

/-- A step that keeps what is known of the table. -/
abbrev Keeps (I : Symbols → Prop) {α : Type} (x : Bind α) : Prop := (keeping I).holds x

open Judgment (holds_pure holds_bind holds_forIn holds_turn holds_for)

variable {I : Symbols → Prop}

theorem keeps_reportAt {kind : DiagnosticKind} {file : SourceId} {node : Node} {detail : String} :
    Keeps I (reportAt kind file node detail) := fun _ hb => ⟨trivial, hb⟩

theorem keeps_reportConflict {kind : DiagnosticKind} {name : String} {new : Declaration}
    {earlier : Array Declaration} : Keeps I (reportConflict kind name new earlier) := by
  refine holds_bind keeps_reportAt fun _ => ?_
  rw [← Array.forIn_toList]
  exact holds_for fun d _ => keeps_reportAt

/-- A conflict is reported, and the table is left alone. -/
theorem symbols_reportConflict (kind : DiagnosticKind) (name : String) (new : Declaration)
    (earlier : Array Declaration) (b : Binding) :
    ((reportConflict kind name new earlier).run b).2.symbols = b.symbols :=
  (keeps_reportConflict (I := fun t => t = b.symbols) b rfl).2

end Binder

/-- The table holds the declarations `ds` of names, and the type parameters `ps`. -/
def Recorded (modules : SourceId → Bool) (ds ps : List Declaration) (t : Symbols) : Prop :=
  ∃ roles, Records modules ds ps roles t

/-- The type parameters have different keys. -/
def Apart (ps : List Declaration) : Prop := ps.Pairwise fun d e => d.key ≠ e.key

namespace Binder

/-! ## Steps that add declarations -/

section

variable (modules : SourceId → Bool) (file : SourceId)

/-- A step that adds `ds` and `ps` to what is bound, while the file is being bound. -/
def Adds (ds ps : List Declaration) {α : Type} (x : Bind α) (P : α → Prop) : Prop :=
  ∀ b ds' ps', Apart (ps' ++ ps) → Recorded modules ds' ps' b.symbols →
    Begun modules file b.symbols →
      P (x.run b).1 ∧ Recorded modules (ds' ++ ds) (ps' ++ ps) (x.run b).2.symbols ∧
        Begun modules file (x.run b).2.symbols

/-- A step of which only matters what it adds. -/
abbrev AddsTo (ds ps : List Declaration) {α : Type} (x : Bind α) : Prop :=
  Adds modules file ds ps x fun _ => True

end

variable {modules : SourceId → Bool} {file : SourceId} {ds ps es qs : List Declaration}
  {d : Declaration}

theorem adds_pure {α : Type} {a : α} {P : α → Prop} (h : P a) :
    Adds modules file [] [] (pure a) P := by
  intro b ds' ps' _ hr hb
  rw [List.append_nil, List.append_nil]
  exact ⟨h, hr, hb⟩

theorem adds_bind {α β : Type} {x : Bind α} {f : α → Bind β} {P : α → Prop} {Q : β → Prop}
    (hx : Adds modules file ds ps x P) (hf : ∀ a, P a → Adds modules file es qs (f a) Q) :
    Adds modules file (ds ++ es) (ps ++ qs) (x >>= f) Q := by
  intro b ds' ps' hapart hr hb
  rw [← List.append_assoc] at hapart
  rw [← List.append_assoc, ← List.append_assoc]
  obtain ⟨ha, hr', hb'⟩ := hx b ds' ps' (hapart.sublist (List.sublist_append_left _ _)) hr hb
  exact hf _ ha _ _ _ hapart hr' hb'

/-- A turn of a loop that goes on. -/
abbrev Turns (modules : SourceId → Bool) (file : SourceId) (ds ps : List Declaration)
    (x : Bind (ForInStep PUnit)) : Prop :=
  Adds modules file ds ps x fun step => step = .yield ⟨⟩

theorem adds_turn {x : Bind PUnit} (h : AddsTo modules file ds ps x) :
    Turns modules file ds ps (do x; return ForInStep.yield PUnit.unit) := by
  have := adds_bind h fun _ _ => adds_pure (a := ForInStep.yield PUnit.unit) rfl
  rwa [List.append_nil, List.append_nil] at this

/-- A loop adds what its turns add, by induction on the list. -/
theorem adds_forIn {α : Type} {xs : List α} {f : α → PUnit → Bind (ForInStep PUnit)}
    {g k : α → List Declaration} (h : ∀ x ∈ xs, ∀ u, Turns modules file (g x) (k x) (f x u)) :
    AddsTo modules file (xs.flatMap g) (xs.flatMap k) (forIn xs PUnit.unit f) := by
  induction xs with
  | nil => exact adds_pure trivial
  | cons x xs ih =>
    rw [List.forIn_cons, List.flatMap_cons, List.flatMap_cons]
    refine adds_bind (h x List.mem_cons_self _) ?_
    rintro _ rfl
    exact ih fun y hy => h y (List.mem_cons_of_mem x hy)

/-- A loop that adds no type parameters. -/
theorem adds_for {α : Type} {xs : List α} {f : α → Bind PUnit} {g : α → List Declaration}
    (h : ∀ x ∈ xs, AddsTo modules file (g x) [] (f x)) :
    AddsTo modules file (xs.flatMap g) [] (do for x in xs do f x) := by
  have hloop := adds_forIn fun x hx _ => adds_turn (h x hx)
  have hall := adds_bind hloop fun _ _ =>
    adds_pure (a := PUnit.unit) (P := fun _ => True) trivial
  rw [List.append_nil, List.append_nil, List.flatMap_eq_nil_iff.2 fun _ _ => rfl] at hall
  exact hall

/-- The nodes of a list that are declarations, one by one and all together. -/
theorem flatMap_map_filter (p : Node → Bool) (ns : List Node) :
    (ns.flatMap fun n => ([n].filter p).map (Declaration.mk file)) =
      (ns.filter p).map (Declaration.mk file) := by
  induction ns with
  | nil => rfl
  | cons n ns ih => rw [List.flatMap_cons, ih, ← List.map_append, ← List.filter_append,
      List.singleton_append]

/-- What a declaration adds to a symbol. -/
def addTo (d : Declaration) (meaning : Meaning) (target : Option ImportTarget) (s : Symbol) :
    Symbol :=
  { s with
    meaning := s.meaning.union meaning
    declarations := s.declarations.push d
    importTarget := s.importTarget.or target }

/-- A declaration of a name that has a symbol, whether or not there is a conflict. -/
theorem run_declare_some (meaning : Meaning) (target : Option ImportTarget) {name : String}
    {id : SymbolId} {b : Binding} (h : existing? b.symbols d.file name = some id) :
    ((declare name meaning d target).run b).1 = id ∧
      ((declare name meaning d target).run b).2.symbols =
        b.symbols.modify id (addTo d meaning target) := by
  rw [declare]
  simp only [StateT.run_bind, StateT.run_get, pure_bind, h]
  split
  · rename_i kind _
    refine ⟨rfl, ?_⟩
    exact congrArg (·.modify id (addTo d meaning target))
      (symbols_reportConflict kind name d _ b)
  · exact ⟨rfl, rfl⟩

/-- A declaration of a name that has no symbol. -/
theorem run_declare_none (meaning : Meaning) (target : Option ImportTarget) {name : String}
    {b : Binding} (h : existing? b.symbols d.file name = none) :
    ((declare name meaning d target).run b).1 = ⟨b.symbols.all.size⟩ ∧
      ((declare name meaning d target).run b).2.symbols =
        (b.symbols.alloc { name, meaning, declarations := #[d], importTarget := target }).2.enter
          d.file name ⟨b.symbols.all.size⟩ := by
  rw [declare]
  simp only [StateT.run_bind, StateT.run_get, pure_bind, h]
  exact ⟨rfl, rfl⟩

/-- A declaration is added to what is bound, and its symbol is there. -/
theorem adds_declare (d : Declaration) (target : Option ImportTarget) {b : Binding}
    (hr : Recorded modules ds ps b.symbols) (hb : Begun modules d.file b.symbols) :
    let r := (declare d.name d.meaning d target).run b
    Recorded modules (ds ++ [d]) ps r.2.symbols ∧ Begun modules d.file r.2.symbols ∧
      r.2.symbols.Has r.1 := by
  intro r
  obtain ⟨roles, hr⟩ := hr
  have hexisting := existing?_eq hb d.name
  cases hid : b.symbols.inScope? (scopeOf modules d.file) d.name with
  | some id =>
    obtain ⟨hfst, hsnd⟩ := run_declare_some d.meaning target (hexisting.trans hid)
    rw [hfst, hsnd]
    refine ⟨⟨roles, hr.join hid⟩, hb, ?_⟩
    rw [Has, Symbols.modify, Array.size_modify]
    exact hr.has_of_role ((hr.named _ _ _).1 hid)
  | none =>
    obtain ⟨hfst, hsnd⟩ := run_declare_none d.meaning target (hexisting.trans hid)
    rw [hfst, hsnd]
    refine ⟨⟨_, hr.take hb hid ⟨rfl, rfl, rfl⟩⟩, begun_enter hb, ?_⟩
    rw [Has, enter_all, Symbols.alloc, Array.size_push]
    exact Nat.lt_succ_self _

/-! ## Statements -/

open Node

theorem adds_bindNamed {node : Node} {modifiers : Modifiers} {meaning : Meaning}
    (hkind : node.kind ≠ .importSpecifier) (hmeaning : meaning = node.declaredMeaning) :
    AddsTo modules file (([node].filter hasPlainName).map (Declaration.mk file)) []
      (bindNamed file node modifiers meaning) := by
  unfold bindNamed
  have hname : node.declaredName? = node.name? := by
    rw [declaredName?]
    split
    · rename_i h
      exact absurd h hkind
    · rfl
  split
  · rename_i hnone
    rw [List.filter_cons_of_neg (by simp [hasPlainName, hnone])]
    exact adds_pure trivial
  · rename_i nameNode hsome
    split
    · rename_i hraw
      rw [List.filter_cons_of_neg (by simp [hasPlainName, hsome, hraw])]
      exact adds_pure trivial
    · rename_i hplain
      rw [List.filter_cons_of_pos (by simp [hasPlainName, hsome, hplain])]
      intro b ds' ps' _ hr hb
      have hdeclared : nameNode.nameText = (Declaration.mk file node).name := by
        rw [Declaration.name, declaredName, hname, hsome]
        rfl
      obtain ⟨hr', hb', hhas⟩ := adds_declare ⟨file, node⟩ none hr hb
      rw [← hdeclared, Declaration.meaning, ← hmeaning] at hr' hb' hhas
      rw [List.append_nil, StateT.run_bind]
      generalize (declare nameNode.nameText meaning ⟨file, node⟩).run b = r at hr' hb' hhas
      obtain ⟨id, b'⟩ := r
      obtain ⟨roles, hr'⟩ := hr'
      dsimp only [Id.run, pure_bind]
      split
      · -- what the name is exported as leads to the symbol that has just been found or made
        refine ⟨trivial, ⟨roles, hr'.addExport fun id' hid => ?_⟩, begun_modifyFile (fun _ => rfl) hb'⟩
        cases hid
        exact hhas
      · exact ⟨trivial, ⟨roles, hr'⟩, hb'⟩
/-- The name of an import is declared by the part of the statement that it stands in. -/
theorem adds_bindImported (node : Node) {name : Node} {target : ImportTarget}
    (hparent : name.parent? = some node) (hname : node.declaredName? = some name)
    (hmeaning : node.declaredMeaning = { importAlias := true }) :
    AddsTo modules file [⟨file, node⟩] [] (bindImported file name target) := by
  unfold bindImported
  rw [hparent]
  intro b ds' ps' _ hr hb
  have hdeclared : name.nameText = (Declaration.mk file node).name := by
    rw [Declaration.name, declaredName, hname]
    rfl
  obtain ⟨hr', hb', -⟩ := adds_declare ⟨file, node⟩ (some target) hr hb
  rw [← hdeclared, Declaration.meaning, hmeaning] at hr' hb'
  rw [List.append_nil]
  exact ⟨trivial, hr', hb'⟩

/-- An item of an import list is bound if it has a name. -/
theorem adds_bindSpecifier {module : Option SourceId} {specifier : String} {spec : Node}
    (hkind : spec.kind = .importSpecifier) :
    AddsTo modules file (([spec].filter (·.declaredName?.isSome)).map (Declaration.mk file)) []
      (bindSpecifier file module specifier spec) := by
  have hname : spec.declaredName? = (spec.childrenOf .name).getLast? := by
    rw [declaredName?, hkind]
  unfold bindSpecifier
  extract_lets names
  split
  · rename_i imported own himported hown
    rw [List.filter_cons_of_pos (by rw [hname, hown]; rfl)]
    refine adds_bindImported spec (parent?_of_childrenOf (List.mem_of_getLast? hown)) (hname.trans hown) ?_
    rw [declaredMeaning, hkind]
  · rename_i hnone
    have hlast : names.getLast? = none := by
      cases hnames : names with
      | nil => rfl
      | cons n ns => exact (hnone n _ (by rw [hnames]; rfl) (by rw [hnames]; rfl)).elim
    rw [List.filter_cons_of_neg (by rw [hname, hlast]; exact Bool.false_ne_true)]
    exact adds_pure trivial

theorem adds_bindImport (input : BindInput) (node : Node) :
    AddsTo modules input.file (node.importBindings.map (Declaration.mk input.file)) []
      (bindImport input node) := by
  unfold bindImport
  split
  · rename_i hnone
    rw [importBindings, hnone]
    exact adds_pure trivial
  rename_i clause hclause
  have hkind := kind_of_child? hclause
  -- the list of names, the import of the whole module, and the default import, each with the rest
  extract_lets specifier module list space
  have hlist : AddsTo modules input.file
      ((clause.importItems.filter (·.declaredName?.isSome)).map (Declaration.mk input.file)) []
      (list ()) := by
    rw [← flatMap_map_filter]
    exact adds_for fun spec hspec => adds_bindSpecifier (kind_of_importItems hspec)
  have hspace : AddsTo modules input.file
      (((clause.child? .namespaceImport).toList.filter (·.name?.isSome) ++
        clause.importItems.filter (·.declaredName?.isSome)).map (Declaration.mk input.file)) []
      (space ()) := by
    dsimp only [space]
    rw [List.map_append]
    cases hchild : clause.child? .namespaceImport with
    | none => exact hlist
    | some ns =>
      rw [Option.bind_some]
      cases hname : ns.name? with
      | none =>
        rw [Option.toList_some, List.filter_cons_of_neg (by simp [hname])]
        exact hlist
      | some name =>
        rw [Option.toList_some, List.filter_cons_of_pos (by simp [hname])]
        have hns := kind_of_child? hchild
        refine adds_bind (adds_bindImported ns ?_ ?_ ?_) fun _ _ => hlist
        · exact parent?_of_child? hname
        · rw [declaredName?, hns]
          exact hname
        · rw [declaredMeaning, hns]
  rw [importBindings, hclause]
  dsimp only
  rw [List.map_append]
  cases hname : clause.name? with
  | none =>
    rw [List.filter_cons_of_neg (by simp [hname])]
    exact hspace
  | some name =>
    rw [List.filter_cons_of_pos (by simp [hname])]
    refine adds_bind (adds_bindImported clause ?_ ?_ ?_) fun _ _ => hspace
    · exact parent?_of_child? hname
    · rw [declaredName?, hkind]
      exact hname
    · rw [declaredMeaning, hkind]

theorem adds_bindTypeParameter {node : Node} (h : node.kind = .typeParam ∨ node.kind = .mappedTypeParam) :
    AddsTo modules file [] (([node].filter (·.name?.isSome)).map (Declaration.mk file))
      (bindTypeParameter file node) := by
  have hname : node.declaredName? = node.name? := by
    rw [declaredName?]
    rcases h with h | h <;> rw [h]
  have hmeaning : node.declaredMeaning = { typeParameter := true } := by
    rw [declaredMeaning]
    rcases h with h | h <;> rw [h]
  unfold bindTypeParameter
  split
  · rename_i hnone
    rw [List.filter_cons_of_neg (by simp [hnone])]
    exact adds_pure trivial
  · rename_i name hsome
    rw [List.filter_cons_of_pos (by simp [hsome])]
    intro b ds' ps' hapart hr hb
    obtain ⟨roles, hr⟩ := hr
    rw [List.append_nil]
    refine ⟨trivial, ⟨_, hr.param (d := ⟨file, node⟩) ?_ ⟨?_, rfl, hmeaning.symm⟩⟩, hb⟩
    · intro e he
      exact (List.pairwise_append.1 hapart).2.2 e he _ List.mem_cons_self
    · rw [Declaration.name, declaredName, hname, hsome]
      rfl

/-- What comes after a change of the table. -/
theorem recorded_after {α : Type} {g : Symbols → Symbols} {x : Unit → Bind α} {b : Binding}
    (hx : ∀ u, AddsTo modules file es qs (x u)) (hapart : Apart (ps ++ qs))
    (hr : Recorded modules ds ps (g b.symbols)) (hb : Begun modules file (g b.symbols)) :
    Recorded modules (ds ++ es) (ps ++ qs) ((modifySymbols g >>= x).run b).2.symbols :=
  (hx () { b with symbols := g b.symbols } ds ps hapart hr hb).2.1

theorem typeParams_eq (input : BindInput) : input.typeParams =
    input.root.descendants.flatMap fun n =>
      ([n].filter bindsType).map (Declaration.mk input.file) := by
  rw [flatMap_map_filter, BindInput.typeParams]

/-- A file that has not been entered before adds what it declares. -/
theorem recorded_bindDeclarations {input : BindInput} {b : Binding}
    (hr : Recorded modules ds ps b.symbols) (hfresh : ∀ d ∈ ds, d.file ≠ input.file)
    (hmodule : input.root.isModule = modules input.file)
    (hapart : Apart (ps ++ input.typeParams)) :
    Recorded modules (ds ++ input.declarations) (ps ++ input.typeParams)
      ((bindDeclarations input).run b).2.symbols := by
  unfold bindDeclarations
  extract_lets file
  obtain ⟨roles, hr⟩ := hr
  refine recorded_after (fun _ => ?_) hapart ⟨roles, hr.enterFile hfresh⟩
    ⟨{ isModule := input.root.isModule }, ?_, hmodule⟩
  · have hlists : input.declarations = (input.root.statements.flatMap fun s =>
        s.declarations.map (Declaration.mk input.file)) ++
          (input.root.descendants.flatMap (fun _ => []) ++ []) := by
      rw [BindInput.declarations, List.map_flatMap, List.flatMap_eq_nil_iff.2 fun _ _ => rfl]
      simp
    have hparams : input.typeParams = input.root.statements.flatMap (fun _ => []) ++
        (input.root.descendants.flatMap (fun n =>
          ([n].filter bindsType).map (Declaration.mk input.file)) ++ []) := by
      rw [typeParams_eq, List.flatMap_eq_nil_iff.2 fun _ _ => rfl]
      simp
    rw [hlists, hparams]
    refine adds_bind (adds_forIn fun s hs _ => ?_) fun _ _ =>
      adds_bind (adds_forIn fun n hn _ => ?_) fun _ _ => adds_pure trivial
    · -- a statement adds its declarations, by its kind
      split
      · rename_i hk
        rw [Node.declarations, hk]
        exact adds_turn (adds_bindImport input s)
      · rename_i hk
        rw [Node.declarations, hk]
        exact adds_turn (adds_bindNamed (by rw [hk]; decide) (by rw [declaredMeaning, hk]))
      · rename_i hk
        rw [Node.declarations, hk]
        exact adds_turn (adds_bindNamed (by rw [hk]; decide) (by rw [declaredMeaning, hk]))
      · rename_i hk
        rw [Node.declarations, hk]
        exact adds_turn (adds_bindNamed (by rw [hk]; decide) (by rw [declaredMeaning, hk]))
      · rename_i hk
        rw [Node.declarations, hk]
        dsimp only
        rw [← flatMap_map_filter]
        refine adds_turn (adds_for fun d hd => adds_bindNamed ?_ ?_)
        · rw [kind_of_childrenOf hd]
          decide
        · rw [declaredMeaning, kind_of_childrenOf hd, parent?_of_childrenOf hd]
          dsimp only [Option.map]
          cases s.variableKeyword <;> rfl
      · rename_i hno _ _ _ _
        have hnone : s.declarations = [] := by
          rw [Node.declarations]
          split <;> first | rfl | contradiction
        rw [hnone]
        exact adds_pure rfl
    · split
      · rename_i hk
        have hfilter : [n].filter bindsType = [n].filter (·.name?.isSome) := by
          rw [List.filter_congr]
          intro m hm
          rw [List.mem_singleton.1 hm, bindsType, hk, Bool.true_and]
        rw [hfilter]
        refine adds_turn (adds_bindTypeParameter ?_)
        simpa using hk
      · rename_i hk
        rw [List.filter_cons_of_neg (by simp [bindsType, eq_false_of_ne_true hk])]
        exact adds_pure rfl
  · rw [file?, Std.HashMap.getElem?_insert, if_pos (beq_self_eq_true _)]

/-! ## Exports and files -/

/-- What is looked up in a recorded table is there. -/
theorem has_of_lookup? {t : Symbols} {name : String} {id : SymbolId}
    (h : Recorded modules ds ps t) (hid : t.lookup? file name = some id) : t.Has id := by
  obtain ⟨roles, h⟩ := h
  rw [lookup?, Option.or_eq_some_iff] at hid
  rcases hid with hid | ⟨-, hid⟩
  · exact h.has_of_role ((h.named (some file) name id).1 hid)
  · exact h.has_of_role ((h.named none name id).1 hid)

theorem keeps_addExport {name : String} {target : ExportTarget} {m : SourceId}
    (htarget : ∀ id, target ≠ .local id) :
    Keeps (Recorded modules ds ps) (addExport m name target) := by
  rintro b ⟨roles, hr⟩
  exact ⟨trivial, roles, hr.addExport fun id hid => absurd hid (htarget id)⟩

/-- What a step does after a look at the table. -/
theorem keeps_get {I : Symbols → Prop} {f : Binding → Bind Unit}
    (h : ∀ b, I b.symbols → I ((f b).run b).2.symbols) : Keeps I (do f (← get)) :=
  fun b hb => ⟨trivial, h b hb⟩

/-- A name that is looked up and exported leads to the symbol that was found. -/
theorem recorded_addExport {own exported : String} {m : SourceId} {id : SymbolId} {b : Binding}
    (hr : Recorded modules ds ps b.symbols) (hid : b.symbols.lookup? m own = some id) :
    Recorded modules ds ps ((addExport m exported (.local id)).run b).2.symbols := by
  have hhas := has_of_lookup? hr hid
  obtain ⟨roles, hr⟩ := hr
  refine ⟨roles, hr.addExport fun k hk => ?_⟩
  cases hk
  exact hhas

open Judgment (holds_pure holds_bind holds_forIn holds_turn holds_for)

theorem keeps_bindExported {m : SourceId} {source : Option (Option SourceId)} {spec : Node} :
    Keeps (Recorded modules ds ps) (bindExported m source spec) := by
  unfold bindExported
  dsimp only
  split
  · split
    · exact keeps_addExport fun _ h => by cases h
    · refine keeps_get fun b hr => ?_
      split
      · rename_i id hid
        exact recorded_addExport hr hid
      · exact hr
  · exact holds_pure

theorem keeps_bindExport (input : BindInput) (node : Node) :
    Keeps (Recorded modules ds ps) (bindExport input node) := by
  unfold bindExport
  dsimp only
  split
  · split
    · exact keeps_addExport fun _ h => by cases h
    · rintro b ⟨roles, hr⟩
      exact ⟨trivial, roles, hr.addStar⟩
  · exact holds_for fun spec _ => keeps_bindExported

theorem keeps_bindExportAssignment (m : SourceId) (node : Node) :
    Keeps (Recorded modules ds ps) (bindExportAssignment m node) := by
  unfold bindExportAssignment
  split
  · exact holds_pure
  split
  · split
    · refine keeps_get fun b hr => ?_
      split
      · rename_i id hid
        exact recorded_addExport hr hid
      · exact hr
    · exact holds_pure
  · exact holds_pure

theorem keeps_bindExports (input : BindInput) :
    Keeps (Recorded modules ds ps) (bindExports input) := by
  unfold bindExports
  refine holds_bind (holds_forIn fun s _ _ => ?_) fun _ => holds_pure
  split
  · exact holds_turn (keeps_bindExport input s)
  · exact holds_turn (keeps_bindExportAssignment input.file s)
  · exact holds_pure

theorem keeps_bindModule (input : BindInput) :
    Keeps (Recorded modules ds ps) (bindModule input) := by
  rintro b ⟨roles, hr⟩
  exact ⟨trivial, _, hr.fileSymbol rfl⟩

/-- What files declare that are bound one after the other, by induction on the files. -/
theorem recorded_files {inputs : List BindInput} {b : Binding}
    (hr : Recorded modules ds ps b.symbols)
    (hfresh : ∀ d ∈ ds, ∀ i ∈ inputs, d.file ≠ i.file) (hfiles : (inputs.map (·.file)).Nodup)
    (hmodules : ∀ i ∈ inputs, i.root.isModule = modules i.file)
    (hapart : Apart (ps ++ inputs.flatMap (·.typeParams))) :
    Recorded modules (ds ++ inputs.flatMap (·.declarations)) (ps ++ inputs.flatMap (·.typeParams))
      ((forIn inputs PUnit.unit fun i _ => do
        bindDeclarations i
        return ForInStep.yield PUnit.unit : Bind PUnit).run b).2.symbols := by
  induction inputs generalizing b ds ps with
  | nil =>
    rw [List.flatMap_nil, List.flatMap_nil, List.append_nil, List.append_nil]
    exact hr
  | cons i inputs ih =>
    rw [List.map_cons, List.nodup_cons] at hfiles
    rw [List.flatMap_cons, ← List.append_assoc] at hapart
    rw [List.forIn_cons, List.flatMap_cons, List.flatMap_cons, ← List.append_assoc,
      ← List.append_assoc]
    have hfirst := recorded_bindDeclarations hr (fun d hd => hfresh d hd i List.mem_cons_self)
      (hmodules i List.mem_cons_self) (hapart.sublist (List.sublist_append_left _ _))
    refine ih hfirst ?_ hfiles.2 (fun j hj => hmodules j (List.mem_cons_of_mem i hj)) hapart
    intro d hd j hj
    rcases List.mem_append.1 hd with hd | hd
    · exact hfresh d hd j (List.mem_cons_of_mem i hj)
    · obtain ⟨n, -, rfl⟩ := List.mem_map.1 hd
      intro heq
      refine hfiles.1 ?_
      rw [show i.file = j.file from heq]
      exact List.mem_map_of_mem hj

end Binder

end DeclKit

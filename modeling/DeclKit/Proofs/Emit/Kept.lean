/-
What a module keeps.

A statement refers to a name by the first segment of a type name or `typeof` query, by a computed key,
by an item of an export list of the module's own names, or by exporting a single identifier. The
visible names are the least set that is closed under such references from the exports on, so nothing
that a kept statement refers to is lost: every declaration of the name is written, but for the
implementation of an overloaded function, and every import of the name keeps it.
-/
import DeclKit.Emit.Statements
import DeclKit.Proofs.Emit.Reach
import DeclKit.Proofs.Judgment
import DeclKit.Proofs.Marker.Edit
import DeclKit.Proofs.Typing.Intersection

set_option autoImplicit false

namespace DeclKit

/-! ## Inside a statement -/

/-- A node stands inside another one, and not in a body or an initializer, which are left unread. -/
inductive Node.Inside (n : Node) : Node → Prop where
  | self : Inside n n
  | child {m c : Node} : Inside n m → m.kind ≠ .functionBody → m.kind ≠ .initializer →
      c ∈ m.children → Inside n c

/-- What a name spells does not depend on where the node stands. -/
theorem Node.map_nameText_name? (t : Tree) (above : List Tree) :
    (Node.name? ⟨t, above⟩).map Node.nameText = (Node.name? ⟨t, []⟩).map Node.nameText := by
  simp only [Node.name?, Node.child?, Node.children, List.find?_map, Option.map_map]
  rfl

theorem Node.mem_children {n c : Node} (h : c ∈ n.children) :
    c.tree ∈ n.tree.children ∧ c.parent? = some n ∧ c.tree.isNode := by
  simp only [Node.children, List.mem_map, List.mem_filter] at h
  obtain ⟨t, ⟨ht, hnode⟩, rfl⟩ := h
  exact ⟨ht, rfl, hnode⟩

namespace Emit

open Decl (TypeNode Statement)

/-! ## References -/

theorem mem_namesInList {parent : Option Kind} {t : Tree} {ts : List Tree} {name : String}
    (ht : t ∈ ts) (h : name ∈ namesIn parent t) : name ∈ namesInList parent ts := by
  induction ts with
  | nil => cases ht
  | cons u us ih =>
    rw [namesInList]
    obtain rfl | ht := List.mem_cons.1 ht
    · exact List.mem_append_left _ h
    · exact List.mem_append_right _ (ih ht)

/-- The names that a node itself refers to do not depend on where it stands. -/
theorem ownNames_eq (parent : Option Kind) (t : Tree) (above : List Tree) :
    ownNames parent ⟨t, above⟩ = ownNames parent ⟨t, []⟩ := by
  unfold ownNames
  rw [Node.map_nameText_name?]
  rfl

/-- What a node itself refers to is among the names of its tree. -/
theorem mem_namesIn_of_own {parent : Option Kind} {m : Node} {name : String}
    (hnode : m.tree.isNode) (h : name ∈ ownNames parent m) : name ∈ namesIn parent m.tree := by
  obtain ⟨tree, above⟩ := m
  rw [ownNames_eq] at h
  cases tree with
  | token t => cases hnode
  | node k s e cs =>
    rw [namesIn]
    split
    · exact h
    · exact List.mem_append_left _ h

/-- What is inside a statement refers to nothing else than the statement does. -/
theorem mem_referencedNames_of_inside {n m : Node} {name : String} (hm : n.Inside m)
    (h : name ∈ namesIn (m.parent?.map (·.kind)) m.tree) : name ∈ referencedNames n := by
  induction hm with
  | self => exact h
  | @child m c _ hbody hinit hc ih =>
    obtain ⟨htree, hparent, -⟩ := Node.mem_children hc
    rw [hparent] at h
    refine ih ?_
    obtain ⟨tree, above⟩ := m
    cases tree with
    | token t => cases htree
    | node k s e cs =>
      have hread : ¬(k == Kind.functionBody || k == Kind.initializer) = true := by
        simpa using ⟨hbody, hinit⟩
      simp only [namesIn, if_neg hread]
      exact List.mem_append_right _ (mem_namesInList htree h)

theorem mem_referencedNames {n m : Node} {name : String} (hm : n.Inside m)
    (hnode : m.tree.isNode) (h : name ∈ ownNames (m.parent?.map (·.kind)) m) :
    name ∈ referencedNames n :=
  mem_referencedNames_of_inside hm (mem_namesIn_of_own hnode h)

/-- A statement refers to a name. Imports refer to nothing: what they name stands in other files. -/
inductive Refers (n : Node) : String → Prop where
  /-- The first segment of a type reference or `typeof` query. -/
  | typeName {m e : Node} {t : Token} : isDeclaration n → n.Inside m →
      m.kind = .typeRef ∨ m.kind = .typeQuery → e ∈ m.childrenOf .entityName →
      e.segments.head? = some t → Refers n t.text
  /-- The identifier in a computed key of a member. -/
  | memberKey {m x : Node} {bracket key : Token} {rest : List Token} : isDeclaration n →
      n.Inside m → m.kind = .propertySig ∨ m.kind = .methodSig → x ∈ m.childrenOf .name →
      x.words = bracket :: key :: rest → bracket.kind = .bracketOpen → key.kind = .ident →
      Refers n key.text
  /-- An item of an export list that names no module. -/
  | listed {s x : Node} : n.kind = .exportDecl → n.child? .moduleSpecifier = none →
      s ∈ exportSpecifiers n → s.name? = some x → Refers n x.nameText
  /-- A single identifier that is exported as a value. -/
  | exported {x : Node} {t : Token} : n.kind = .exportAssignment → x ∈ n.childrenOf .initializer →
      x.expressionTokens = [t] → t.kind = .ident → Refers n t.text

theorem mem_childrenOf {n c : Node} {k : Kind} (h : c ∈ n.childrenOf k) :
    c ∈ n.children ∧ c.kind = k := by
  obtain ⟨hc, hk⟩ := List.mem_filter.1 h
  exact ⟨hc, eq_of_beq hk⟩

/-- The names that a statement refers to are collected from it. -/
theorem Refers.mem {n : Node} {name : String} (h : Refers n name) : name ∈ referencedNames n := by
  cases h with
  | @typeName m e t _ hm hkind he ht =>
    obtain ⟨hc, hk⟩ := mem_childrenOf he
    have hin : n.Inside e := .child hm (by rintro hb; simp [hb] at hkind)
      (by rintro hb; simp [hb] at hkind) hc
    refine mem_referencedNames hin (Node.mem_children hc).2.2 ?_
    simp [ownNames, hk, ht]
  | @memberKey m x bracket key rest _ hm hkind hx hwords hbracket hkey =>
    obtain ⟨hc, hk⟩ := mem_childrenOf hx
    have hin : n.Inside x := .child hm (by rintro hb; simp [hb] at hkind)
      (by rintro hb; simp [hb] at hkind) hc
    refine mem_referencedNames hin (Node.mem_children hc).2.2 ?_
    have hparent : ((x.parent?.map (·.kind)) == some .propertySig ||
        (x.parent?.map (·.kind)) == some .methodSig) = true := by
      rw [(Node.mem_children hc).2.1]
      obtain h | h := hkind <;> simp [h]
    simp [ownNames, hk, hparent, computedKey, hwords, hbracket, hkey]
  | @listed s x hkind _ hs hx =>
    obtain ⟨list, hlist, hs⟩ : ∃ list, n.child? .namedExports = some list ∧
        s ∈ list.childrenOf .exportSpecifier := by
      unfold exportSpecifiers at hs
      cases hlist : n.child? .namedExports with
      | none => simp [hlist] at hs
      | some list => exact ⟨list, rfl, by simpa [hlist] using hs⟩
    obtain ⟨hc, hk⟩ := mem_childrenOf hs
    have hlistKind : list.kind = .namedExports := by simpa using List.find?_some hlist
    have hin : n.Inside s :=
      .child (.child .self (by simp [hkind]) (by simp [hkind]) (List.mem_of_find?_eq_some hlist))
        (by simp [hlistKind]) (by simp [hlistKind]) hc
    refine mem_referencedNames hin (Node.mem_children hc).2.2 ?_
    simp [ownNames, hk, hx]
  | @exported x t hkind hx htokens hident =>
    obtain ⟨hc, hk⟩ := mem_childrenOf hx
    have hin : n.Inside x := .child .self (by simp [hkind]) (by simp [hkind]) hc
    refine mem_referencedNames hin (Node.mem_children hc).2.2 ?_
    have hparent : ((x.parent?.map (·.kind)) == some .exportAssignment) = true := by
      simp [(Node.mem_children hc).2.1, hkind]
    simp [ownNames, hk, hparent, exportedName, htokens, hident]

/-! ## Names that suffice -/

/-- A set of names holds what the export lists, the exported declarations and the exported values of a
module refer to and, with a name, all that the declarations of the name refer to. -/
structure Suffices (statements : List Node) (names : Set String) : Prop where
  listed : ∀ n ∈ statements, n.kind = .exportDecl → n.child? .moduleSpecifier = none →
    ∀ s ∈ exportSpecifiers n, ∀ x, s.name? = some x → x.nameText ∈ names
  assigned : ∀ n ∈ statements, n.kind = .exportAssignment →
    ∀ name ∈ referencedNames n, name ∈ names
  exported : ∀ n ∈ statements, isExported n → ∀ name ∈ referencedNames n, name ∈ names
  declared : ∀ n ∈ statements, ∀ d ∈ declaredNames n, d ∈ names →
    ∀ name ∈ referencedNames n, name ∈ names

/-- What the statements of a file declare and refer to. -/
def references (statements : List Node) : References :=
  statements.map fun s => (declaredNames s, referencedNames s)

theorem mem_ownName {n : Node} {name : String} :
    name ∈ ownName n ↔ ∃ x, n.name? = some x ∧ x.nameText = name := by
  simp [ownName]

theorem isDeclaration_of_isExported {n : Node} (h : isExported n) : isDeclaration n :=
  (Bool.and_eq_true_iff.1 h).1

theorem exposedNames_listed {n : Node} (hkind : n.kind = .exportDecl) :
    exposedNames n =
      if (n.child? .moduleSpecifier).isSome then [] else (exportSpecifiers n).flatMap ownName := by
  unfold exposedNames
  rw [hkind]

theorem exposedNames_assigned {n : Node} (hkind : n.kind = .exportAssignment) :
    exposedNames n = referencedNames n := by
  unfold exposedNames
  rw [hkind]

theorem exposedNames_exported {n : Node} (h : isExported n) :
    exposedNames n = referencedNames n := by
  have hdecl := isDeclaration_of_isExported h
  unfold isDeclaration at hdecl
  unfold exposedNames
  split at hdecl <;> simp_all

theorem mem_exposedNames {n : Node} {name : String} : name ∈ exposedNames n ↔
    (n.kind = .exportDecl ∧ n.child? .moduleSpecifier = none ∧
      ∃ s ∈ exportSpecifiers n, name ∈ ownName s) ∨
    (n.kind = .exportAssignment ∨ isExported n) ∧ name ∈ referencedNames n := by
  by_cases hlist : n.kind = .exportDecl
  · have hnot : isExported n = false := by simp [isExported, isDeclaration, hlist]
    rw [exposedNames_listed hlist]
    cases n.child? .moduleSpecifier <;> simp [hlist, hnot]
  · by_cases hassign : n.kind = .exportAssignment
    · rw [exposedNames_assigned hassign]
      simp [hassign]
    · by_cases hexport : isExported n
      · rw [exposedNames_exported hexport]
        simp [hlist, hexport]
      · have hnone : exposedNames n = [] := by
          unfold exposedNames
          split
          · exact absurd ‹_› hlist
          · exact absurd ‹_› hassign
          · exact if_neg hexport
        simp [hnone, hlist, hassign, hexport]

theorem closes_iff_suffices {statements : List Node} {names : Set String} :
    (references statements).Closes (statements.flatMap exposedNames) names ↔
      Suffices statements names := by
  constructor
  · intro h
    have hroot {n : Node} (hn : n ∈ statements) {name : String} (hname : name ∈ exposedNames n) :
        name ∈ names := h.root name (List.mem_flatMap.2 ⟨n, hn, hname⟩)
    refine ⟨fun n hn hkind hmodule s hs x hx => ?_, fun n hn hkind name hname => ?_,
      fun n hn hexport name hname => ?_, fun n hn d hd hmem name hname => ?_⟩
    · exact hroot hn (mem_exposedNames.2 (.inl ⟨hkind, hmodule, s, hs, mem_ownName.2 ⟨x, hx, rfl⟩⟩))
    · exact hroot hn (mem_exposedNames.2 (.inr ⟨.inl hkind, hname⟩))
    · exact hroot hn (mem_exposedNames.2 (.inr ⟨.inr hexport, hname⟩))
    · exact h.next d hmem name (References.mem_of.2 ⟨_, List.mem_map_of_mem hn, hd, hname⟩)
  · intro h
    refine ⟨fun name hname => ?_, fun d hd name hname => ?_⟩
    · obtain ⟨n, hn, hname⟩ := List.mem_flatMap.1 hname
      obtain ⟨hkind, hmodule, s, hs, hname⟩ | ⟨hkind | hexport, hname⟩ := mem_exposedNames.1 hname
      · obtain ⟨x, hx, rfl⟩ := mem_ownName.1 hname
        exact h.listed n hn hkind hmodule s hs x hx
      · exact h.assigned n hn hkind name hname
      · exact h.exported n hn hexport name hname
    · obtain ⟨r, hr, hdecl, hname⟩ := References.mem_of.1 hname
      obtain ⟨n, hn, rfl⟩ := List.mem_map.1 hr
      exact h.declared n hn d hdecl hd name hname

/-- The visible names are the least set that suffices. -/
theorem visibleNames_isLeast (statements : List Node) :
    IsLeast {names | Suffices statements names} {name | name ∈ visibleNames statements} := by
  have hroots : ∀ name, name ∈ (statements.flatMap exposedNames).eraseDups ↔
      name ∈ statements.flatMap exposedNames := fun name => List.mem_eraseDups
  have h := reachFrom_roots (references statements) hroots
  simp only [closes_iff_suffices] at h
  exact h

/-! ## Kept statements -/

/-- A function with a body stands beside signatures of the same name. -/
structure Implements (statements : List Node) (n : Node) : Prop where
  isFunction : n.kind = .functionDecl
  hasBody : hasBody n
  signature : ∃ m ∈ statements, m.kind = .functionDecl ∧ ¬Emit.hasBody m ∧
    ∃ name ∈ ownName n, name ∈ ownName m

theorem implements_of_isHidden {statements : List Node} {n : Node}
    (h : isHiddenImplementation statements n) : Implements statements n := by
  simp only [isHiddenImplementation, Bool.and_eq_true, beq_iff_eq, List.any_eq_true,
    List.mem_filter, List.contains_iff_mem, decide_eq_true_eq, Bool.not_eq_true'] at h
  obtain ⟨⟨hkind, hbody⟩, name, hname, -, m, ⟨hm, hmkind, hmname⟩, hmbody⟩ := h
  exact ⟨hkind, hbody, m, hm, hmkind, by simp [hmbody], name, hname, hmname⟩

theorem mem_keptStatements {root n : Node} (hmodule : root.isModule) : n ∈ keptStatements root ↔
    n ∈ root.statements ∧ isKept (visibleNames root.statements) n ∧
      isHiddenImplementation root.statements n = false := by
  simp only [keptStatements, hmodule, if_true, List.mem_filter, Bool.not_eq_true', and_assoc]

theorem isDeclaration_of_declares {n : Node} {name : String} (h : name ∈ declaredNames n) :
    isDeclaration n := by
  unfold declaredNames at h
  unfold isDeclaration
  split at h <;> simp_all

/-- What a kept statement refers to is visible. -/
theorem mem_visibleNames_of_refers {root n : Node} {name : String} (hmodule : root.isModule)
    (hn : n ∈ keptStatements root) (h : Refers n name) : name ∈ visibleNames root.statements := by
  obtain ⟨hmem, hkept, -⟩ := (mem_keptStatements hmodule).1 hn
  have hleast := (visibleNames_isLeast root.statements).1
  have hdeclared (hdecl : isDeclaration n) : name ∈ visibleNames root.statements := by
    simp only [isKept, hdecl, Bool.not_true, Bool.false_or, Bool.or_eq_true, List.any_eq_true,
      List.contains_iff_mem] at hkept
    obtain hexport | ⟨d, hd, hvisible⟩ := hkept
    · exact hleast.exported n hmem hexport name h.mem
    · exact hleast.declared n hmem d hd hvisible name h.mem
  cases h with
  | typeName hdecl => exact hdeclared hdecl
  | memberKey hdecl => exact hdeclared hdecl
  | listed hkind hspecifier hs hx => exact hleast.listed n hmem hkind hspecifier _ hs _ hx
  | exported hkind hx htokens hident =>
    exact hleast.assigned n hmem hkind _ (Refers.exported hkind hx htokens hident).mem

/-- So the declarations of such a name are kept, but for an implementation. -/
theorem mem_keptStatements_of_refers {root n d : Node} {name : String} (hmodule : root.isModule)
    (hn : n ∈ keptStatements root) (h : Refers n name) (hd : d ∈ root.statements)
    (hname : name ∈ declaredNames d) : d ∈ keptStatements root ∨ Implements root.statements d := by
  cases hhidden : isHiddenImplementation root.statements d with
  | true => exact .inr (implements_of_isHidden hhidden)
  | false =>
    refine .inl ((mem_keptStatements hmodule).2 ⟨hd, ?_, hhidden⟩)
    simp only [isKept, Bool.or_eq_true, List.any_eq_true, List.contains_iff_mem]
    exact .inr ⟨name, hname, mem_visibleNames_of_refers hmodule hn h⟩

/-! ## Written statements -/

/-- A statement is written for a declaration: it has its origin and declares the same names. -/
inductive Writes (d : Node) : Statement → Prop where
  | typeAlias {s : Decl.TypeAlias} : d.kind = .typeAliasDecl → s.origin = some (.rebuilt d) →
      s.name = nameOr d.name? → Writes d (.typeAlias s)
  | interface {s : Decl.Interface} : d.kind = .interfaceDecl → s.origin = some (.rebuilt d) →
      s.name = nameOr d.name? → Writes d (.interface s)
  | function {s : Decl.Function} : d.kind = .functionDecl → s.origin = some (.rebuilt d) →
      s.name = nameOr d.name? → Writes d (.function s)
  | variableList {s : Decl.Variables} : d.kind = .variableStatement →
      s.origin = some (.rebuilt d) →
      s.items.map (·.name) = (d.childrenOf .variableDecl).map writtenName →
      Writes d (.variableList s)

section Written

variable {p : Program} (file : SourceId) (n : Node)

theorem aliasStatement_gives : (Check.judgment p).gives (aliasStatement file n) fun s =>
    ∃ a, s = .typeAlias a ∧ a.origin = some (.rebuilt n) ∧ a.name = nameOr n.name? :=
  Judgment.bind _ (Check.gives_any p _) fun _ _ => Judgment.bind _ (Check.gives_any p _)
    fun _ _ => Judgment.pure _ ⟨_, rfl, rfl, rfl⟩

theorem interfaceStatement_gives : (Check.judgment p).gives (interfaceStatement file n) fun s =>
    ∃ i, s = .interface i ∧ i.origin = some (.rebuilt n) ∧ i.name = nameOr n.name? :=
  Judgment.bind _ (Check.gives_any p _) fun _ _ => Judgment.bind _ (Check.gives_any p _)
    fun _ _ => Judgment.bind _ (Check.gives_any p _) fun _ _ => Judgment.pure _ ⟨_, rfl, rfl, rfl⟩

theorem functionStatement_gives : (Check.judgment p).gives (functionStatement file n) fun e =>
    ∃ f, e.1 = .function f ∧ f.origin = some (.rebuilt n) ∧ f.name = nameOr n.name? :=
  Judgment.bind _ (Check.gives_any p _) fun _ _ => Judgment.pure _ ⟨_, rfl, rfl, rfl⟩

theorem variableOf_gives (keyword : VariableKeyword) :
    (Check.judgment p).gives (variableOf file keyword n) fun v => v.1.name = writtenName n := by
  unfold variableOf
  dsimp only
  split
  · exact Judgment.bind _ (Check.gives_any p _) fun _ _ => Judgment.pure _ rfl
  · generalize (if keyword == .const then (n.child? .initializer).bind constInitializer?
      else none) = literal
    cases literal with
    | some text => exact Judgment.pure _ rfl
    | none => exact Judgment.bind _ (Check.gives_any p _) fun _ _ => Judgment.pure _ rfl

theorem map_name_of_forall₂ {ds : List Node} {vs : List (Decl.Variable × List Diagnostic)}
    (h : List.Forall₂ (fun d v => v.1.name = writtenName d) ds vs) :
    (vs.map (·.1)).map (·.name) = ds.map writtenName := by
  induction h with
  | nil => rfl
  | cons h _ ih => rw [List.map_cons, List.map_cons, List.map_cons, h, ih]

theorem variablesStatement_gives : (Check.judgment p).gives (variablesStatement file n) fun e =>
    ∃ v, e.1 = .variableList v ∧ v.origin = some (.rebuilt n) ∧
      v.items.map (·.name) = (n.childrenOf .variableDecl).map writtenName := by
  refine Judgment.bind _ (Judgment.gives_mapM fun d _ => variableOf_gives file d n.variableKeyword)
    fun built hbuilt => Judgment.pure _ ⟨_, rfl, rfl, map_name_of_forall₂ hbuilt⟩

/-- For every declaration a statement is written. -/
theorem emitStatement_gives (used : List String) :
    (Check.judgment p).gives (emitStatement file used n) fun e =>
      isDeclaration n → ∃ w, e = some w ∧ Writes n w.1 := by
  unfold emitStatement
  split
  case h_4 hkind =>
    refine Judgment.bind _ (aliasStatement_gives file n) fun s hs => Judgment.pure _ fun _ => ?_
    obtain ⟨a, rfl, horigin, hname⟩ := hs
    exact ⟨_, rfl, .typeAlias hkind horigin hname⟩
  case h_5 hkind =>
    refine Judgment.bind _ (interfaceStatement_gives file n) fun s hs => Judgment.pure _ fun _ => ?_
    obtain ⟨i, rfl, horigin, hname⟩ := hs
    exact ⟨_, rfl, .interface hkind horigin hname⟩
  case h_6 hkind =>
    refine Judgment.bind _ (functionStatement_gives file n) fun e he => Judgment.pure _ fun _ => ?_
    obtain ⟨f, hf, horigin, hname⟩ := he
    refine ⟨e, rfl, ?_⟩
    rw [hf]
    exact .function hkind horigin hname
  case h_7 hkind =>
    refine Judgment.bind _ (variablesStatement_gives file n) fun e he => Judgment.pure _ fun _ => ?_
    obtain ⟨v, hv, horigin, hnames⟩ := he
    refine ⟨e, rfl, ?_⟩
    rw [hv]
    exact .variableList hkind horigin hnames
  all_goals
    refine Judgment.pure _ fun hdecl => ?_
    simp_all [isDeclaration]

end Written

/-! ## Imports -/

/-- The names that an import binds. -/
def importedNames (n : Node) : List String :=
  match n.child? .importClause with
  | none => []
  | some clause =>
    ownName clause ++ (((clause.child? .namespaceImport).map ownName).getD []) ++
      (((clause.child? .namedImports).map (·.childrenOf .importSpecifier)).getD []).flatMap
        fun s => (((s.childrenOf .name).getLast?).map (·.nameText)).toList

/-- The names that a written import binds. -/
def boundNames (s : Decl.Import) : List String :=
  s.default.toList ++ s.namespace_.toList ++ (s.named.getD []).map (·.name)

theorem name_of_specifier? (n : Node) :
    (specifier? n).map (·.name) = ((n.childrenOf .name).getLast?).map (·.nameText) := by
  cases h : (n.childrenOf .name).getLast? <;> simp [specifier?, h]

theorem map_name_filterMap_specifier? (ns : List Node) :
    (ns.filterMap specifier?).map (·.name) =
      ns.flatMap fun n => (((n.childrenOf .name).getLast?).map (·.nameText)).toList := by
  rw [List.map_filterMap]
  simp only [name_of_specifier?]
  induction ns with
  | nil => rfl
  | cons n ns ih =>
    rw [List.filterMap_cons, List.flatMap_cons, ← ih]
    cases ((n.childrenOf .name).getLast?).map (·.nameText) <;> rfl

theorem toList_filter {α : Type} (o : Option α) (q : α → Bool) :
    (o.filter q).toList = o.toList.filter q := by
  cases o with
  | none => rfl
  | some a => cases h : q a <;> simp [Option.filter, h]

theorem getD_filter_isEmpty {α : Type} (o : Option (List α)) :
    (o.filter fun xs => !xs.isEmpty).getD [] = o.getD [] := by
  cases o with
  | none => rfl
  | some xs => cases xs <;> rfl

/-- An import of a module is trimmed to the names that are used; it is dropped when there are none. -/
theorem importStatement?_binds {used : List String} {n m : Node} {name : String}
    (hmodule : n.child? .moduleSpecifier = some m) (hname : name ∈ importedNames n)
    (hused : name ∈ used) :
    ∃ s, importStatement? used n = some (.importing s) ∧ s.origin = some (.rebuilt n) ∧
      s.module = moduleText m ∧ boundNames s = (importedNames n).filter used.contains := by
  cases hclause : n.child? .importClause with
  | none => simp [importedNames, hclause] at hname
  | some clause =>
    let default := (clause.name?.map (·.nameText)).filter used.contains
    let space := (((clause.child? .namespaceImport).bind (·.name?)).map (·.nameText)).filter
      used.contains
    let named := ((clause.child? .namedImports).map fun list =>
      ((list.childrenOf .importSpecifier).filterMap specifier?).filter fun s =>
        used.contains s.name).filter fun list => !list.isEmpty
    have hnamed : (named.getD []).map (·.name) =
        ((((clause.child? .namedImports).map (·.childrenOf .importSpecifier)).getD []).flatMap
          fun s => (((s.childrenOf .name).getLast?).map (·.nameText)).toList).filter
            used.contains := by
      rw [getD_filter_isEmpty, ← map_name_filterMap_specifier?, List.filter_map]
      cases clause.child? .namedImports <;> rfl
    have hspace : space.toList =
        (((clause.child? .namespaceImport).map ownName).getD []).filter used.contains := by
      rw [toList_filter]
      cases clause.child? .namespaceImport <;> rfl
    have hbound : default.toList ++ space.toList ++ (named.getD []).map (·.name) =
        (importedNames n).filter used.contains := by
      rw [toList_filter, hspace, hnamed]
      simp only [importedNames, hclause, List.filter_append]
      rfl
    have hsome : ¬(default.isNone && space.isNone && named.isNone) = true := by
      intro hnone
      simp only [Bool.and_eq_true, Option.isNone_iff_eq_none] at hnone
      obtain ⟨⟨hd, hs⟩, hn⟩ := hnone
      rw [hd, hs, hn] at hbound
      have hmem : name ∈ (importedNames n).filter used.contains :=
        List.mem_filter.2 ⟨hname, by simpa using hused⟩
      rw [← hbound] at hmem
      cases hmem
    refine ⟨{ origin := some (.rebuilt n), typeOnly := n.hasWord "type", default
              namespace_ := space, named, module := moduleText m }, ?_, rfl, rfl, hbound⟩
    simp only [importStatement?, hmodule, hclause]
    exact if_neg hsome

/-- An import is written as one, and binds nothing but used names. -/
theorem importStatement?_eq_some {used : List String} {n : Node} {w : Statement}
    (h : importStatement? used n = some w) :
    ∃ i, w = .importing i ∧ ∀ name ∈ boundNames i, name ∈ used := by
  have hsingle {o : Option String} {name : String}
      (hname : name ∈ (o.filter used.contains).toList) : name ∈ used := by
    rw [toList_filter] at hname
    simpa using (List.mem_filter.1 hname).2
  have hlisted {o : Option Node} {items : Node → List Decl.Specifier} {s : Decl.Specifier}
      (hs : s ∈ (o.map fun list => (items list).filter fun s => used.contains s.name).getD []) :
      s.name ∈ used := by
    cases o with
    | none => cases hs
    | some list => simpa using (List.mem_filter.1 hs).2
  unfold importStatement? at h
  obtain ⟨module, -, h⟩ := Option.bind_eq_some_iff.1 h
  dsimp only at h
  split at h
  · exact ⟨_, (Option.some.inj h).symm, fun name hname => nomatch hname⟩
  · split at h
    · cases h
    · refine ⟨_, (Option.some.inj h).symm, fun name hname => ?_⟩
      obtain hname | hname := List.mem_append.1 hname
      · exact (List.mem_append.1 hname).elim hsingle hsingle
      · rw [getD_filter_isEmpty] at hname
        obtain ⟨s, hs, rfl⟩ := List.mem_map.1 hname
        exact hlisted hs

/-- The import as it is written. -/
theorem emitStatement_gives_import {p : Program} {file : SourceId} {used : List String}
    {n m : Node} {name : String} (hkind : n.kind = .importDecl)
    (hmodule : n.child? .moduleSpecifier = some m) (hname : name ∈ importedNames n)
    (hused : name ∈ used) :
    (Check.judgment p).gives (emitStatement file used n) fun e => ∃ w, e = some w ∧
      ∃ s, w.1 = .importing s ∧ s.origin = some (.rebuilt n) ∧ s.module = moduleText m ∧
        name ∈ boundNames s := by
  obtain ⟨s, hs, horigin, htext, hbound⟩ := importStatement?_binds hmodule hname hused
  have hmem : name ∈ boundNames s := by
    rw [hbound]
    exact List.mem_filter.2 ⟨hname, by simpa using hused⟩
  unfold emitStatement
  rw [hkind]
  refine Judgment.pure _ ⟨(.importing s, []), ?_, s, rfl, horigin, htext, hmem⟩
  rw [hs]
  rfl

/-! ## The declarations of a module -/

theorem mem_withModuleMark {statements : List Statement} {s : Statement} (h : s ∈ statements) :
    s ∈ withModuleMark statements := by
  unfold withModuleMark
  split
  · exact List.mem_append_left _ h
  · exact h

/-- What is written for a kept statement of a module is among its declarations. -/
theorem declarations_gives {p : Program} {file : SourceId} {f : ProgramFile}
    (hfile : p.file? file = some f) (hmodule : f.root.isModule) {n : Node}
    (hn : n ∈ keptStatements f.root) {R : Statement → Prop}
    (hR : (Check.judgment p).gives (emitStatement file (usedNames (keptStatements f.root)) n)
      fun e => ∃ w, e = some w ∧ R w.1) :
    (Check.judgment p).gives (declarations file) fun d => ∃ s ∈ d.1.statements, R s := by
  refine Judgment.bind _ (Check.program_gives p) fun q hq => ?_
  subst hq
  rw [hfile]
  dsimp only
  refine Judgment.bind _ (Judgment.gives_filterMapM (Q := (· = n)) (R := fun _ w => R w.1)
    fun x _ => ?_) fun emitted hemitted => Judgment.pure _ ?_
  · by_cases hx : x = n
    · subst hx
      exact Judgment.gives_mono hR fun e he _ => he
    · exact Judgment.gives_mono (Check.gives_any _ _) fun e _ h => absurd h hx
  · obtain ⟨w, hw, hRw⟩ := hemitted n hn rfl
    refine ⟨w.1, ?_, hRw⟩
    rw [if_pos hmodule]
    exact mem_withModuleMark (List.mem_map_of_mem hw)

/-- A search that starts from what the exports of a module refer to ends with the visible names. -/
theorem mem_visible_iff {statements : List Node} {s t : Search}
    (hs : ∀ name, name ∈ s.pending ↔ ∃ n ∈ statements, name ∈ exposedNames n)
    (hempty : s.visible = [])
    (hrun : Relation.ReflTransGen (Search.Turn (references statements)) s t)
    (hover : t.pending = []) (name : String) :
    name ∈ t.visible ↔ name ∈ visibleNames statements := by
  have hsound : Search.Sound (references statements) (statements.flatMap exposedNames) s := by
    obtain ⟨pending, visible⟩ := s
    obtain rfl : visible = [] := hempty
    exact .start fun name => (hs name).trans List.mem_flatMap.symm
  have hleast := (hsound.run hrun).isLeast hover
  simp only [closes_iff_suffices] at hleast
  exact Set.ext_iff.1 (hleast.unique (visibleNames_isLeast statements)) name

/-- The declarations of a file, as a check writes them. -/
def writtenStatements (s : Setting) (c : Checker) (file : SourceId) : List Statement :=
  (((declarations file).run s).run c).1.1.statements

section Module

variable {s : Setting} {c : Checker} {file : SourceId} {f : ProgramFile} {n : Node} {name : String}

/-- The declarations of a name that a kept statement refers to are written. -/
theorem exists_writes_of_refers (hfile : s.program.file? file = some f)
    (hmodule : f.root.isModule) (hn : n ∈ keptStatements f.root) (h : Refers n name) {d : Node}
    (hd : d ∈ f.root.statements) (hname : name ∈ declaredNames d)
    (hnot : ¬Implements f.root.statements d) : ∃ w ∈ writtenStatements s c file, Writes d w := by
  have hkept := (mem_keptStatements_of_refers hmodule hn h hd hname).resolve_right hnot
  refine declarations_gives hfile hmodule hkept ?_ s c rfl
  exact Judgment.gives_mono (emitStatement_gives file d _) fun e he =>
    he (isDeclaration_of_declares hname)

/-- A statement that refers to something is no import. -/
theorem Refers.not_import (h : Refers n name) : n.kind ≠ .importDecl := by
  intro hkind
  cases h with
  | typeName hdecl => simp [isDeclaration, hkind] at hdecl
  | memberKey hdecl => simp [isDeclaration, hkind] at hdecl
  | listed hlist => simp [hkind] at hlist
  | exported hassign => simp [hkind] at hassign

/-- An import of a name that a kept statement refers to is written, and keeps the name. -/
theorem exists_importing_of_refers (hfile : s.program.file? file = some f)
    (hmodule : f.root.isModule) (hn : n ∈ keptStatements f.root) (h : Refers n name) {i m : Node}
    (hi : i ∈ f.root.statements) (hkind : i.kind = .importDecl)
    (hm : i.child? .moduleSpecifier = some m) (hname : name ∈ importedNames i) :
    ∃ w, .importing w ∈ writtenStatements s c file ∧ w.origin = some (.rebuilt i) ∧
      w.module = moduleText m ∧ name ∈ boundNames w := by
  have hkept : i ∈ keptStatements f.root := (mem_keptStatements hmodule).2
    ⟨hi, by simp [isKept, isDeclaration, hkind], by simp [isHiddenImplementation, hkind]⟩
  have hused : name ∈ usedNames (keptStatements f.root) :=
    List.mem_flatMap.2 ⟨n, List.mem_filter.2 ⟨hn, by simpa using h.not_import⟩, h.mem⟩
  obtain ⟨w, hw, v, rfl, hv⟩ := declarations_gives hfile hmodule hkept
    (R := fun w => ∃ v, w = .importing v ∧ v.origin = some (.rebuilt i) ∧
      v.module = moduleText m ∧ name ∈ boundNames v)
    (emitStatement_gives_import hkind hm hname hused) s c rfl
  exact ⟨v, hw, hv⟩

end Module

/-- What is written of a module holds together. A search for the names that its exports reach comes to
an end in whatever order it takes them, and what it has found then are the visible names, the least set
that holds what the exports refer to and what the declarations of its names refer to. And whatever a
kept statement refers to is written: every declaration of the name, but for implementations of
functions that have signatures, and every import of the name from a module. -/
theorem written_module_closed :
    (∀ statements : List Node,
      WellFounded (fun t s : Search => s.Turn (references statements) t) ∧
      (∀ s t : Search, (∀ name, name ∈ s.pending ↔ ∃ n ∈ statements, name ∈ exposedNames n) →
        s.visible = [] → Relation.ReflTransGen (Search.Turn (references statements)) s t →
        (t.pending ≠ [] → ∃ u, t.Turn (references statements) u) ∧
        (t.pending = [] → ∀ name, name ∈ t.visible ↔ name ∈ visibleNames statements)) ∧
      IsLeast {names | Suffices statements names} {name | name ∈ visibleNames statements}) ∧
    ∀ (s : Setting) (c : Checker) (file : SourceId) (f : ProgramFile) (n : Node) (name : String),
      s.program.file? file = some f → f.root.isModule → n ∈ keptStatements f.root →
      Refers n name →
      (∀ d ∈ f.root.statements, name ∈ declaredNames d → ¬Implements f.root.statements d →
        ∃ w ∈ writtenStatements s c file, Writes d w) ∧
      ∀ i ∈ f.root.statements, ∀ m, i.kind = .importDecl → i.child? .moduleSpecifier = some m →
        name ∈ importedNames i →
        ∃ w, .importing w ∈ writtenStatements s c file ∧ w.origin = some (.rebuilt i) ∧
          w.module = moduleText m ∧ name ∈ boundNames w := by
  refine ⟨fun statements => ⟨?_, fun s t hs hempty hrun => ⟨?_, ?_⟩, ?_⟩,
    fun s c file f n name hfile hmodule hn hrefers => ⟨?_, ?_⟩⟩
  · exact Search.wellFounded_turn _
  · exact Search.exists_turn
  · exact mem_visible_iff hs hempty hrun
  · exact visibleNames_isLeast statements
  · exact fun d hd hname hnot => exists_writes_of_refers hfile hmodule hn hrefers hd hname hnot
  · exact fun i hi m hkind hm hname =>
      exists_importing_of_refers hfile hmodule hn hrefers hi hkind hm hname

/-- The module `import { A } from "./a"; type B = A; export type C = B;`: its private alias is written
because the exported one refers to it, and the import because the private alias does. -/
theorem written_module_closed_private :
    let name (s : Nat) (text : String) : Tree := .node .name s (s + 1) [.token ⟨.ident, s, text⟩]
    let ref (s : Nat) (text : String) : Tree :=
      .node .typeRef s (s + 1) [.node .entityName s (s + 1) [.token ⟨.ident, s, text⟩]]
    let item : Tree := .node .importSpecifier 9 10 [name 9 "A"]
    let i : Tree := .node .importDecl 0 24 [.token ⟨.kwImport, 0, "import"⟩,
      .node .importClause 7 12 [.node .namedImports 7 12 [item]],
      .node .moduleSpecifier 18 23 [.token ⟨.stringLiteral, 18, "\"./a\""⟩]]
    let b : Tree := .node .typeAliasDecl 25 36 [name 30 "B", ref 34 "A"]
    let c : Tree := .node .typeAliasDecl 37 55
      [.token ⟨.kwExport, 37, "export"⟩, name 49 "C", ref 53 "B"]
    let root : Node := ⟨.node .root 0 55 [i, b, c], []⟩
    let p : Program := ⟨{}, {}, #[⟨⟨0⟩, root, []⟩], [], {}, [], [], []⟩
    Refers ⟨b, [root.tree]⟩ "A" ∧ Refers ⟨c, [root.tree]⟩ "B" ∧
      ⟨b, [root.tree]⟩ ∈ keptStatements root ∧ ⟨c, [root.tree]⟩ ∈ keptStatements root ∧
      ∀ free checker, (∃ w ∈ writtenStatements ⟨p, free⟩ checker ⟨0⟩, Writes ⟨b, [root.tree]⟩ w) ∧
        ∃ w, .importing w ∈ writtenStatements ⟨p, free⟩ checker ⟨0⟩ ∧ "A" ∈ boundNames w := by
  intro name ref item i b c root p
  have hmodule : root.isModule = true := by decide +kernel
  have hkept : keptStatements root = root.statements := by cbv
  have refersTo {at_ : Nat} {text : String} {t : Tree}
      (hdecl : isDeclaration ⟨t, [root.tree]⟩) (hk : t.kind = .typeAliasDecl)
      (hmem : ref at_ text ∈ t.children) : Refers ⟨t, [root.tree]⟩ text :=
    .typeName (m := ⟨ref at_ text, [t, root.tree]⟩)
      (e := ⟨.node .entityName at_ (at_ + 1) [.token ⟨.ident, at_, text⟩],
        [ref at_ text, t, root.tree]⟩)
      hdecl (.child .self (by simp [Node.kind, hk]) (by simp [Node.kind, hk])
        (List.mem_map.2 ⟨_, List.mem_filter.2 ⟨hmem, rfl⟩, rfl⟩)) (.inl rfl)
      (List.mem_singleton.2 rfl) rfl
  have hb : Refers ⟨b, [root.tree]⟩ "A" :=
    refersTo rfl rfl (List.mem_cons_of_mem _ List.mem_cons_self)
  have hc : Refers ⟨c, [root.tree]⟩ "B" :=
    refersTo rfl rfl (List.mem_cons_of_mem _ (List.mem_cons_of_mem _ List.mem_cons_self))
  have hmem : ∀ t ∈ [i, b, c], (⟨t, [root.tree]⟩ : Node) ∈ root.statements := by
    intro t ht
    have hstatements : root.statements = [i, b, c].map fun t => ⟨t, [root.tree]⟩ := rfl
    rw [hstatements]
    exact List.mem_map_of_mem ht
  have hkeptB : (⟨b, [root.tree]⟩ : Node) ∈ keptStatements root := hkept ▸ hmem b (by simp)
  have hkeptC : (⟨c, [root.tree]⟩ : Node) ∈ keptStatements root := hkept ▸ hmem c (by simp)
  have hdeclared : "B" ∈ declaredNames ⟨b, [root.tree]⟩ := List.mem_singleton.2 rfl
  have himported : "A" ∈ importedNames ⟨i, [root.tree]⟩ := List.mem_singleton.2 rfl
  refine ⟨hb, hc, hkeptB, hkeptC, fun free checker => ⟨?_, ?_⟩⟩
  · exact (written_module_closed.2 ⟨p, free⟩ checker ⟨0⟩ ⟨⟨0⟩, root, []⟩ ⟨c, [root.tree]⟩ "B" rfl
      hmodule hkeptC hc).1 _ (hmem b (by simp)) hdeclared fun h => absurd h.isFunction (by decide)
  · obtain ⟨w, hw, -, -, hbound⟩ := (written_module_closed.2 ⟨p, free⟩ checker ⟨0⟩ ⟨⟨0⟩, root, []⟩
      ⟨b, [root.tree]⟩ "A" rfl hmodule hkeptB hb).2 _ (hmem i (by simp)) _ rfl rfl himported
    exact ⟨w, hw, hbound⟩

end Emit

end DeclKit

/-
What makes a written file a module, and keeps its private declarations private.

A declaration file is a module by what is written in it, and in it everything counts as exported
unless an export list or an exported value says otherwise. Statements are lost on the way: imports
that are no longer used, declarations that nothing refers to, implementations of overloads, and all
that is not supported. So the empty export at the end is decided by what is left. What happens to the
declarations afterwards, in a bundle or through the markers, changes neither.
-/
import DeclKit.Emit.Output
import DeclKit.Proofs.Emit.Kept

set_option autoImplicit false

namespace DeclKit.Emit

open Decl (Statement TypeNode)

/-! ## Statements of a source -/

/-- A statement of a source makes its file a module. -/
def indicatesModule (n : Node) : Bool :=
  match n.kind with
  | .importDecl | .exportDecl | .exportAssignment => true
  | _ => n.hasToken .kwExport

/-- What is written for a statement says as much about its file as the statement does. -/
structure Stands (n : Node) (w : Statement) : Prop where
  marks : w.marksModule = indicatesModule n
  hides : isDeclaration n → isPrivate w = !n.hasToken .kwExport

/-- A script has no statement that would make it a module. -/
theorem indicatesModule_eq_false {root n : Node} (hscript : root.isModule = false)
    (hn : n ∈ root.statements) : indicatesModule n = false := by
  obtain ⟨hchild, hkind⟩ := List.mem_filter.1 hn
  have hnone := List.any_eq_false.1 hscript n hchild
  unfold indicatesModule
  split at hkind <;> simp_all

theorem mem_statements_of_kept {root n : Node} (hn : n ∈ keptStatements root) :
    n ∈ root.statements := by
  have hn := (List.mem_filter.1 hn).1
  split at hn
  · exact (List.mem_filter.1 hn).1
  · exact hn

section Written

variable {p : Program} (file : SourceId) (n : Node)

theorem aliasStatement_stands (hkind : n.kind = .typeAliasDecl) :
    (Check.judgment p).gives (aliasStatement file n) (Stands n) := by
  refine Judgment.bind _ (Check.gives_any p _) fun _ _ => ?_
  refine Judgment.bind _ (Check.gives_any p _) fun _ _ => Judgment.pure _ ⟨?_, fun _ => rfl⟩
  simp only [Statement.marksModule, modifiersOf, Node.modifiers, indicatesModule, hkind]

theorem interfaceStatement_stands (hkind : n.kind = .interfaceDecl) :
    (Check.judgment p).gives (interfaceStatement file n) (Stands n) := by
  refine Judgment.bind _ (Check.gives_any p _) fun _ _ => ?_
  refine Judgment.bind _ (Check.gives_any p _) fun _ _ => ?_
  refine Judgment.bind _ (Check.gives_any p _) fun _ _ => Judgment.pure _ ⟨?_, fun _ => rfl⟩
  simp only [Statement.marksModule, modifiersOf, Node.modifiers, indicatesModule, hkind]

theorem functionStatement_stands (hkind : n.kind = .functionDecl) :
    (Check.judgment p).gives (functionStatement file n) fun e => Stands n e.1 := by
  refine Judgment.bind _ (Check.gives_any p _) fun _ _ => Judgment.pure _ ⟨?_, fun _ => rfl⟩
  simp only [Statement.marksModule, modifiersOf, Node.modifiers, indicatesModule, hkind]

theorem variablesStatement_stands (hkind : n.kind = .variableStatement) :
    (Check.judgment p).gives (variablesStatement file n) fun e => Stands n e.1 := by
  refine Judgment.bind _ (Check.gives_any p _) fun _ _ => Judgment.pure _ ⟨?_, fun _ => rfl⟩
  simp only [Statement.marksModule, Node.modifiers, indicatesModule, hkind]

theorem importStatement?_stands {used : List String} {w : Statement}
    (hkind : n.kind = .importDecl) (h : importStatement? used n = some w) : Stands n w := by
  obtain ⟨i, rfl, -⟩ := importStatement?_eq_some h
  refine ⟨?_, fun hdecl => ?_⟩
  · simp only [Statement.marksModule, indicatesModule, hkind]
  · simp [isDeclaration, hkind] at hdecl

/-- Whatever is written for a statement stands for it, one case for each kind of statement. -/
theorem emitStatement_stands (used : List String) :
    (Check.judgment p).gives (emitStatement file used n) fun e => ∀ w ∈ e, Stands n w.1 := by
  unfold emitStatement
  split
  case h_1 hkind =>
    refine Judgment.pure _ fun w hw => ?_
    obtain ⟨i, hi, rfl⟩ := Option.map_eq_some_iff.1 (Option.mem_def.1 hw)
    exact importStatement?_stands n hkind hi
  case h_2 hkind =>
    refine Judgment.pure _ fun w hw => ?_
    obtain rfl := Option.mem_some.1 hw
    exact ⟨by simp only [Statement.marksModule, exportStatement, indicatesModule, hkind],
      fun hdecl => by simp [isDeclaration, hkind] at hdecl⟩
  case h_3 hkind =>
    refine Judgment.pure _ fun w hw => ?_
    obtain rfl := Option.mem_some.1 hw
    exact ⟨by simp only [Statement.marksModule, assignmentStatement, indicatesModule, hkind],
      fun hdecl => by simp [isDeclaration, hkind] at hdecl⟩
  case h_4 hkind =>
    refine Judgment.bind _ (aliasStatement_stands file n hkind) fun s hs => ?_
    exact Judgment.pure _ fun w hw => Option.mem_some.1 hw ▸ hs
  case h_5 hkind =>
    refine Judgment.bind _ (interfaceStatement_stands file n hkind) fun s hs => ?_
    exact Judgment.pure _ fun w hw => Option.mem_some.1 hw ▸ hs
  case h_6 hkind =>
    refine Judgment.bind _ (functionStatement_stands file n hkind) fun e he => ?_
    exact Judgment.pure _ fun w hw => Option.mem_some.1 hw ▸ he
  case h_7 hkind =>
    refine Judgment.bind _ (variablesStatement_stands file n hkind) fun e he => ?_
    exact Judgment.pure _ fun w hw => Option.mem_some.1 hw ▸ he
  case h_8 => exact Judgment.pure _ fun w hw => absurd hw (Option.not_mem_none w)

end Written

/-! ## The mark of a file -/

/-- The declarations of a file make it what its source is: a module if one of them says so, and a
script if none does. Where a module has private declarations, they are kept from being exported. -/
structure Marked (isModule : Bool) (d : Decl.File) : Prop where
  marks : d.statements.any (·.marksModule) = isModule
  closed : isModule → d.statements.any isPrivate → d.statements.any marksScope

/-- The empty export makes a module of whatever it stands behind. -/
theorem any_marksModule_withModuleMark (ws : List Statement) :
    (withModuleMark ws).any (·.marksModule) := by
  unfold withModuleMark
  split
  · simp [emptyExport, Statement.marksModule]
  · rename_i hnot
    rw [Bool.or_eq_true, not_or, Bool.not_eq_true', Bool.not_eq_false] at hnot
    exact hnot.1

/-- It is there whenever something is private and nothing else keeps it so. -/
theorem any_marksScope_withModuleMark {ws : List Statement}
    (h : (withModuleMark ws).any isPrivate) : (withModuleMark ws).any marksScope := by
  unfold withModuleMark at h ⊢
  split
  · simp [emptyExport, marksScope]
  · rename_i hnot
    rw [if_neg hnot] at h
    by_contra hscope
    rw [Bool.not_eq_true] at hscope
    simp [h, hscope] at hnot

/-- The declarations of a file are marked as its source is. In a script nothing is appended, so there
it depends on the statements one by one. -/
theorem declarations_marked {p : Program} {file : SourceId} {f : ProgramFile}
    (hfile : p.file? file = some f) :
    (Check.judgment p).gives (declarations file) fun d => Marked f.root.isModule d.1 := by
  refine Judgment.bind _ (Check.program_gives p) fun q hq => ?_
  subst hq
  rw [hfile]
  dsimp only
  refine Judgment.bind _ (Judgment.gives_filterMapM_all (R := fun n e => Stands n e.1)
    fun n _ => emitStatement_stands file n _) fun emitted hemitted => Judgment.pure _ ?_
  -- the empty export is appended in modules only
  cases hmodule : f.root.isModule with
  | true => exact ⟨any_marksModule_withModuleMark _, fun _ => any_marksScope_withModuleMark⟩
  | false =>
    refine ⟨?_, fun h => nomatch h⟩
    rw [if_neg Bool.false_ne_true, List.any_eq_false]
    intro w hw
    obtain ⟨e, he, rfl⟩ := List.mem_map.1 hw
    obtain ⟨n, hn, hstands⟩ := hemitted e he
    rw [hstands.marks, indicatesModule_eq_false hmodule (mem_statements_of_kept hn)]
    exact Bool.false_ne_true

/-! ## What happens to the declarations -/

/-- Two statements say the same about their file. -/
structure Alike (v w : Statement) : Prop where
  marks : w.marksModule = v.marksModule
  hides : isPrivate w = isPrivate v
  scope : marksScope w = marksScope v

/-- What is done to the declarations of a file before they are printed. -/
inductive Prepares (s : Setting) (d : Decl.File) : Decl.File → Prop where
  | markers (set : MarkerSet) (c : Checker) : Prepares s d (((Marker.edit set d).run s).run c).1
  | bundle (root : String) : Prepares s d (bundledFile s.program root d)

theorem any_eq_of_forall₂ {q : Statement → Bool} {vs ws : List Statement}
    (h : List.Forall₂ Alike vs ws) (hq : ∀ v w, Alike v w → q w = q v) : ws.any q = vs.any q := by
  induction h with
  | nil => rfl
  | cons hvw _ ih => rw [List.any_cons, List.any_cons, hq _ _ hvw, ih]

/-- Files whose statements are alike one by one are marked alike. -/
theorem Marked.of_alike {isModule : Bool} {d e : Decl.File} (h : Marked isModule d)
    (halike : List.Forall₂ Alike d.statements e.statements) : Marked isModule e where
  marks := by rw [any_eq_of_forall₂ halike fun _ _ => Alike.marks, h.marks]
  closed := by
    rw [any_eq_of_forall₂ halike fun _ _ => Alike.hides,
      any_eq_of_forall₂ halike fun _ _ => Alike.scope]
    exact h.closed

/-- An alias that the markers edit keeps its modifiers, whether it is baked or not. -/
theorem modifiers_of_aliasEdit {p : Program} {set : MarkerSet} {file : SourceId}
    {a b : Decl.TypeAlias} (h : Marker.AliasEdit p set file a b) : b.modifiers = a.modifiers := by
  cases h with
  | baked => rfl
  | edited _ hrel =>
    obtain ⟨-, -⟩ := hrel
    rfl

/-- Statements that differ in their types only are alike: only modifiers and kinds count. -/
theorem alike_of_rel {r : TypeNode → TypeNode → Prop}
    {aliases : Decl.TypeAlias → Decl.TypeAlias → Prop} {v w : Statement}
    (haliases : ∀ a b, aliases a b → b.modifiers = a.modifiers)
    (h : Decl.Statement.Rel r aliases v w) : Alike v w := by
  cases h with
  | importing | exporting | assignment => exact ⟨rfl, rfl, rfl⟩
  | typeAlias hab =>
    have hmodifiers := haliases _ _ hab
    exact ⟨by simp only [Statement.marksModule, hmodifiers],
      by simp only [isPrivate, hmodifiers], rfl⟩
  | interface => exact ⟨rfl, rfl, rfl⟩
  | function => exact ⟨rfl, rfl, rfl⟩
  | variableList => exact ⟨rfl, rfl, rfl⟩

/-- In a bundle modules are named anew, and nothing else. -/
theorem alike_bundledStatement (rename : String → String) (v : Statement) :
    Alike v (bundledStatement rename v) := by
  cases v <;> exact ⟨rfl, rfl, rfl⟩

/-- A step keeps every statement at its place, alike to what it was. -/
theorem Prepares.alike {s : Setting} {d e : Decl.File} (h : Prepares s d e) :
    List.Forall₂ Alike d.statements e.statements := by
  cases h with
  | markers set c =>
    -- an edit relates each statement to what has become of it
    have hallowed : (Marker.editor set d.source).Allowed (Check.judgment s.program)
        (Marker.Replaces s.program set) (Marker.AliasEdit s.program set d.source) :=
      Marker.editor_allowed
    obtain ⟨hrel⟩ := Decl.Editor.file_rel hallowed d s c rfl
    exact hrel.imp fun v w => alike_of_rel fun a b => modifiers_of_aliasEdit
  | bundle root =>
    unfold bundledFile
    split
    · exact List.forall₂_same.2 fun v _ => ⟨rfl, rfl, rfl⟩
    · exact List.forall₂_map_right_iff.2
        (List.forall₂_same.2 fun v _ => alike_bundledStatement _ v)

/-- What is written for a file of a program is marked as its source is, whatever the markers or a
bundle have made of it, and in whatever order: by induction on what was done. -/
theorem prepared_marked {s : Setting} (c : Checker) {file : SourceId} {f : ProgramFile}
    (hfile : s.program.file? file = some f) {d : Decl.File}
    (h : Relation.ReflTransGen (Prepares s) (((declarations file).run s).run c).1.1 d) :
    Marked f.root.isModule d := by
  induction h with
  | refl => exact declarations_marked hfile s c rfl
  | tail _ hstep ih => exact ih.of_alike hstep.alike

/-- The module `type B = 1; export type C = B;`: the alias that is not exported is still there when the
file has been edited and bundled, and so is something that keeps it from being exported. -/
theorem prepared_marked_private :
    let name (s : Nat) (text : String) : Tree := .node .name s (s + 1) [.token ⟨.ident, s, text⟩]
    let ref (s : Nat) (text : String) : Tree :=
      .node .typeRef s (s + 1) [.node .entityName s (s + 1) [.token ⟨.ident, s, text⟩]]
    let one : Tree := .node .literalType 9 10 [.token ⟨.numberLiteral, 9, "1"⟩]
    let b : Tree := .node .typeAliasDecl 0 11 [name 5 "B", one]
    let c : Tree := .node .typeAliasDecl 12 30
      [.token ⟨.kwExport, 12, "export"⟩, name 24 "C", ref 28 "B"]
    let root : Node := ⟨.node .root 0 30 [b, c], []⟩
    let p : Program := ⟨{}, {}, #[⟨⟨0⟩, root, []⟩], [], {}, [], [], []⟩
    ∀ (free : NodeKey → List SymbolId) (checker after : Checker) (set : MarkerSet) (out : String),
      let d := (((declarations ⟨0⟩).run ⟨p, free⟩).run checker).1.1
      let e := bundledFile p out (((Marker.edit set d).run ⟨p, free⟩).run after).1
      e.statements.any isPrivate ∧ e.statements.any marksScope := by
  intro name ref one b c root p free checker after set out d e
  have hmodule : root.isModule = true := by decide +kernel
  have hkept : (⟨b, [root.tree]⟩ : Node) ∈ keptStatements root := by
    have hall : keptStatements root = [b, c].map fun t => ⟨t, [root.tree]⟩ := by cbv
    rw [hall]
    exact List.mem_cons_self
  have hprivate : d.statements.any isPrivate := by
    have hstatement : (Check.judgment p).gives
        (emitStatement ⟨0⟩ (usedNames (keptStatements root)) ⟨b, [root.tree]⟩)
        fun e => ∃ w, e = some w ∧ isPrivate w.1 := by
      intro s c hs
      -- one lemma says that something is written, the other what it says of the file
      obtain ⟨w, hw, -⟩ := emitStatement_gives ⟨0⟩ ⟨b, [root.tree]⟩ _ s c hs rfl
      have hstands := emitStatement_stands ⟨0⟩ ⟨b, [root.tree]⟩ _ s c hs w (Option.mem_def.2 hw)
      exact ⟨w, hw, hstands.hides rfl⟩
    have hfile : p.file? ⟨0⟩ = some ⟨⟨0⟩, root, []⟩ := rfl
    obtain ⟨w, hw, hhidden⟩ := declarations_gives (R := fun w => isPrivate w) hfile hmodule hkept
      hstatement ⟨p, free⟩ checker rfl
    exact List.any_eq_true.2 ⟨w, hw, hhidden⟩
  have hedit : Prepares ⟨p, free⟩ d (((Marker.edit set d).run ⟨p, free⟩).run after).1 :=
    .markers set after
  have hbundle : Prepares ⟨p, free⟩ (((Marker.edit set d).run ⟨p, free⟩).run after).1 e :=
    .bundle out
  have hleft : e.statements.any isPrivate := by
    rw [any_eq_of_forall₂ hbundle.alike fun _ _ => Alike.hides,
      any_eq_of_forall₂ hedit.alike fun _ _ => Alike.hides, hprivate]
  have hmarked := prepared_marked (s := ⟨p, free⟩) checker (f := ⟨⟨0⟩, root, []⟩) rfl
    (.tail (.single hedit) hbundle)
  exact ⟨hleft, hmarked.closed hmodule hleft⟩

end DeclKit.Emit

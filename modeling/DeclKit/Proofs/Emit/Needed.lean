/-
Nothing private is written without need.

A name is needed when an export of the module refers to it, or a declaration of a needed name does.
The visible names are needed, but some only because of statements that are not written themselves: an
implementation of an overloaded function is left out, and still all that it refers to is visible. Where
the signatures of such a function refer to as much, what is needed by the source is needed by what is
written. An imported name is kept when any other written statement refers to it, an export list of
another module included, which means a name of that module.
-/
import DeclKit.Proofs.Emit.Mark

set_option autoImplicit false

namespace DeclKit.Emit

open Decl (Statement)

/-! ## Needed names -/

/-- The statement is an export: a list of the module's own names, a value or an exported declaration. -/
def exposes (n : Node) : Bool :=
  match n.kind with
  | .exportDecl => (n.child? .moduleSpecifier).isNone
  | .exportAssignment => true
  | _ => isExported n

/-- An export among the statements refers to the name, directly or through declarations. -/
inductive Needed (statements : List Node) : String → Prop where
  | exposed {n : Node} {name : String} : n ∈ statements → exposes n → name ∈ referencedNames n →
      Needed statements name
  | through {n : Node} {d name : String} : n ∈ statements → d ∈ declaredNames n →
      Needed statements d → name ∈ referencedNames n → Needed statements name

/-- One statement does for a name what another does. -/
structure SpeaksFor (m n : Node) (name : String) : Prop where
  exposes : exposes n → exposes m
  declares : ∀ d ∈ declaredNames n, d ∈ declaredNames m
  refers : name ∈ referencedNames m

theorem SpeaksFor.self {n : Node} {name : String} (h : name ∈ referencedNames n) :
    SpeaksFor n n name := ⟨id, fun _ => id, h⟩

theorem exposes_of_isExported {n : Node} (h : isExported n) : exposes n := by
  have hdecl := isDeclaration_of_isExported h
  unfold isDeclaration at hdecl
  unfold exposes
  split at hdecl <;> simp_all

/-- An export is one of three kinds of statements. -/
theorem exposes_iff {n : Node} : exposes n ↔
    n.kind = .exportDecl ∧ n.child? .moduleSpecifier = none ∨ n.kind = .exportAssignment ∨
      isExported n := by
  constructor
  · intro h
    unfold exposes at h
    split at h
    case h_1 hkind => exact .inl ⟨hkind, Option.isNone_iff_eq_none.1 h⟩
    case h_2 hkind => exact .inr (.inl hkind)
    case h_3 => exact .inr (.inr h)
  · rintro (⟨hkind, hmodule⟩ | hkind | hexport)
    · simp [exposes, hkind, hmodule]
    · simp [exposes, hkind]
    · exact exposes_of_isExported hexport

/-- The visible names are needed by any statements that speak for those that made them visible. They
are the least names that suffice, so it is enough that the needed ones among them do. -/
theorem needed_of_visible {statements written : List Node}
    (h : ∀ n ∈ statements, exposes n ∨ (∃ d ∈ declaredNames n, d ∈ visibleNames statements) →
      ∀ name ∈ referencedNames n, ∃ m ∈ written, SpeaksFor m n name)
    {name : String} (hname : name ∈ visibleNames statements) : Needed written name := by
  have hleast := visibleNames_isLeast statements
  have hexposed {n : Node} {x : String} (hn : n ∈ statements) (hexposes : exposes n)
      (hx : x ∈ referencedNames n) : Needed written x := by
    obtain ⟨m, hm, hspeaks⟩ := h n hn (.inl hexposes) x hx
    exact .exposed hm (hspeaks.exposes hexposes) hspeaks.refers
  -- what a visible name leads to is visible, and what a needed one leads to is needed
  have hsuffices : Suffices statements
      {x | x ∈ visibleNames statements ∧ Needed written x} := by
    refine ⟨fun n hn hkind hmodule s hs x hx => ⟨?_, ?_⟩, fun n hn hkind x hx => ⟨?_, ?_⟩,
      fun n hn hexport x hx => ⟨?_, ?_⟩, fun n hn d hd hneeded x hx => ⟨?_, ?_⟩⟩
    · exact hleast.1.listed n hn hkind hmodule s hs x hx
    · exact hexposed hn (exposes_iff.2 (.inl ⟨hkind, hmodule⟩)) (Refers.listed hkind hmodule hs hx).mem
    · exact hleast.1.assigned n hn hkind x hx
    · exact hexposed hn (exposes_iff.2 (.inr (.inl hkind))) hx
    · exact hleast.1.exported n hn hexport x hx
    · exact hexposed hn (exposes_of_isExported hexport) hx
    · exact hleast.1.declared n hn d hd hneeded.1 x hx
    · obtain ⟨m, hm, hspeaks⟩ := h n hn (.inr ⟨d, hd, hneeded.1⟩) x hx
      exact .through hm (hspeaks.declares d hd) hneeded.2 hspeaks.refers
  exact (hleast.2 hsuffices hname).2

/-! ## Overloaded functions -/

/-- The signatures of overloaded functions refer to all that the implementations do. -/
def SignaturesCover (statements : List Node) : Prop :=
  ∀ n ∈ statements, Implements statements n → ∀ name ∈ referencedNames n,
    ∃ m ∈ statements, ¬hasBody m ∧ SpeaksFor m n name

section Kept

variable {root : Node} {n : Node} {name : String}

/-- Exports and declarations of visible names are written, but for implementations. -/
theorem mem_keptStatements_of_visible (hmodule : root.isModule) (hn : n ∈ root.statements)
    (h : exposes n ∨ ∃ d ∈ declaredNames n, d ∈ visibleNames root.statements)
    (hhidden : isHiddenImplementation root.statements n = false) : n ∈ keptStatements root := by
  refine (mem_keptStatements hmodule).2 ⟨hn, ?_, hhidden⟩
  simp only [isKept, Bool.or_eq_true, Bool.not_eq_true', List.any_eq_true, List.contains_iff_mem]
  obtain hexposes | hvisible := h
  · obtain ⟨hkind, -⟩ | hkind | hexport := exposes_iff.1 hexposes
    · exact .inl (.inl (by simp [isDeclaration, hkind]))
    · exact .inl (.inl (by simp [isDeclaration, hkind]))
    · exact .inl (.inr hexport)
  · exact .inr hvisible

/-- A statement that made names visible is written, or signatures that speak for it are. -/
theorem exists_kept_speaksFor (hmodule : root.isModule) (hcover : SignaturesCover root.statements)
    (hn : n ∈ root.statements)
    (h : exposes n ∨ ∃ d ∈ declaredNames n, d ∈ visibleNames root.statements)
    (hname : name ∈ referencedNames n) : ∃ m ∈ keptStatements root, SpeaksFor m n name := by
  cases hhidden : isHiddenImplementation root.statements n with
  | false => exact ⟨n, mem_keptStatements_of_visible hmodule hn h hhidden, .self hname⟩
  | true =>
    -- the implementation is left out, but a signature refers to the name as well
    obtain ⟨m, hm, hbody, hspeaks⟩ := hcover n hn (implements_of_isHidden hhidden) name hname
    refine ⟨m, mem_keptStatements_of_visible hmodule hm ?_ ?_, hspeaks⟩
    · exact h.imp hspeaks.exposes fun ⟨d, hd, hvisible⟩ => ⟨d, hspeaks.declares d hd, hvisible⟩
    · simp [isHiddenImplementation, hbody]

/-- The source of a module needs a name, and what is written of it does too if its signatures refer to
what its implementations refer to. -/
structure IsNeeded (root : Node) (name : String) : Prop where
  source : Needed root.statements name
  written : SignaturesCover root.statements → Needed (keptStatements root) name

theorem isNeeded_of_visible (hmodule : root.isModule)
    (hname : name ∈ visibleNames root.statements) : IsNeeded root name where
  source := needed_of_visible (fun n hn _ _ hx => ⟨n, hn, .self hx⟩) hname
  written hcover := needed_of_visible
    (fun _ hn h _ hx => exists_kept_speaksFor hmodule hcover hn h hx) hname

/-- A private declaration is written because of a name that is needed. -/
theorem exists_isNeeded_of_private (hmodule : root.isModule) (hn : n ∈ keptStatements root)
    (hdecl : isDeclaration n) (hprivate : isExported n = false) :
    ∃ d ∈ declaredNames n, IsNeeded root d := by
  obtain ⟨-, hkept, -⟩ := (mem_keptStatements hmodule).1 hn
  simp only [isKept, hdecl, hprivate, Bool.not_true, Bool.false_or, List.any_eq_true,
    List.contains_iff_mem] at hkept
  obtain ⟨d, hd, hvisible⟩ := hkept
  exact ⟨d, hd, isNeeded_of_visible hmodule hvisible⟩

/-! ## Used names -/

/-- An export list of another module refers to the name, which is one of that module there. -/
def Relisted (statements : List Node) (name : String) : Prop :=
  ∃ n ∈ statements, n.kind = .exportDecl ∧ (n.child? .moduleSpecifier).isSome ∧
    name ∈ referencedNames n

/-- What the written statements use is needed, as they are exports or declare something needed; only
the export lists of other modules are neither. -/
theorem isNeeded_of_used (hmodule : root.isModule)
    (hused : name ∈ usedNames (keptStatements root)) :
    IsNeeded root name ∨ Relisted (keptStatements root) name := by
  obtain ⟨n, hn, hname⟩ := List.mem_flatMap.1 hused
  obtain ⟨hn, himport⟩ := List.mem_filter.1 hn
  have hmem := mem_statements_of_kept hn
  by_cases hexposes : exposes n
  · exact .inl ⟨.exposed hmem hexposes hname, fun _ => .exposed hn hexposes hname⟩
  by_cases hlist : n.kind = .exportDecl
  · refine .inr ⟨n, hn, hlist, ?_, hname⟩
    rw [Option.isSome_iff_ne_none]
    exact fun hnone => hexposes (exposes_iff.2 (.inl ⟨hlist, hnone⟩))
  · -- what is left is a private declaration, and that is there because of a needed name
    have hexport : isExported n = false := by
      rw [← Bool.not_eq_true]
      exact fun h => hexposes (exposes_of_isExported h)
    have hassign : n.kind ≠ .exportAssignment := fun h => hexposes (exposes_iff.2 (.inr (.inl h)))
    have hdecl : isDeclaration n := by
      have hkind := (List.mem_filter.1 hmem).2
      unfold isDeclaration
      split at hkind <;> simp_all
    obtain ⟨d, hd, hneeded⟩ := exists_isNeeded_of_private hmodule hn hdecl hexport
    exact .inl ⟨.through hmem hd hneeded.source hname,
      fun hcover => .through hn hd (hneeded.written hcover) hname⟩

end Kept

/-! ## Written statements -/

/-- A statement is written for one of the source. -/
inductive StandsFor (used : List String) (n : Node) (w : Statement) : Prop where
  | importing {i : Decl.Import} : n.kind = .importDecl → w = .importing i →
      (∀ name ∈ boundNames i, name ∈ used) → StandsFor used n w
  | exporting : n.kind = .exportDecl → w = exportStatement n → StandsFor used n w
  | assignment : n.kind = .exportAssignment → w = assignmentStatement n → StandsFor used n w
  | declaration : isDeclaration n → Writes n w → isPrivate w = !isExported n → StandsFor used n w

section Written

variable {p : Program} {file : SourceId} {f : ProgramFile} (n : Node) (used : List String)

theorem emitStatement_standsFor :
    (Check.judgment p).gives (emitStatement file used n) fun e => ∀ w ∈ e, StandsFor used n w.1 := by
  cases hdecl : isDeclaration n with
  | true =>
    intro s c hs w hw
    obtain ⟨v, hv, hwrites⟩ := emitStatement_gives file n used s c hs hdecl
    obtain rfl : v = w := Option.some.inj (hv.symm.trans (Option.mem_def.1 hw))
    refine .declaration hdecl hwrites ?_
    rw [(emitStatement_stands file n used s c hs v hw).hides hdecl, isExported, hdecl, Bool.true_and]
    rfl
  | false =>
    unfold emitStatement
    split
    case h_1 hkind =>
      refine Judgment.pure _ fun w hw => ?_
      obtain ⟨v, hv, rfl⟩ := Option.map_eq_some_iff.1 (Option.mem_def.1 hw)
      obtain ⟨i, hi, hused⟩ := importStatement?_eq_some hv
      exact .importing hkind hi hused
    case h_2 hkind =>
      exact Judgment.pure _ fun w hw => .exporting hkind (Option.mem_some.1 hw ▸ rfl)
    case h_3 hkind =>
      exact Judgment.pure _ fun w hw => .assignment hkind (Option.mem_some.1 hw ▸ rfl)
    case h_8 => exact Judgment.pure _ fun w hw => absurd hw (Option.not_mem_none w)
    all_goals simp_all [isDeclaration]

/-- Only an import may be left out. -/
theorem emitStatement_isSome {root : Node} (hn : n ∈ root.statements) (himport : n.kind ≠ .importDecl) :
    (Check.judgment p).gives (emitStatement file used n) fun e => ∃ w, e = some w := by
  cases hdecl : isDeclaration n with
  | true =>
    refine Judgment.gives_mono (emitStatement_gives file n used) fun e he => ?_
    obtain ⟨w, hw, -⟩ := he hdecl
    exact ⟨w, hw⟩
  | false =>
    have hkind := (List.mem_filter.1 hn).2
    unfold emitStatement
    split
    case h_2 => exact Judgment.pure _ ⟨_, rfl⟩
    case h_3 => exact Judgment.pure _ ⟨_, rfl⟩
    all_goals simp_all [isDeclaration]

/-- What is written of a module stands for what is kept of it, but for an export of nothing. -/
theorem declarations_standFor (hfile : p.file? file = some f) (hmodule : f.root.isModule) :
    (Check.judgment p).gives (declarations file) fun d => ∀ w ∈ d.1.statements, w = emptyExport ∨
      ∃ n ∈ keptStatements f.root, StandsFor (usedNames (keptStatements f.root)) n w := by
  refine Judgment.bind _ (Check.program_gives p) fun q hq => ?_
  subst hq
  rw [hfile]
  dsimp only
  refine Judgment.bind _ (Judgment.gives_filterMapM_all fun n _ => emitStatement_standsFor n _)
    fun emitted hemitted => Judgment.pure _ fun w hw => ?_
  rw [if_pos hmodule] at hw
  have hstands (hw : w ∈ emitted.map (·.1)) : ∃ n ∈ keptStatements f.root,
      StandsFor (usedNames (keptStatements f.root)) n w := by
    obtain ⟨e, he, rfl⟩ := List.mem_map.1 hw
    exact hemitted e he
  unfold withModuleMark at hw
  split at hw
  · obtain hw | hw := List.mem_append.1 hw
    · exact .inr (hstands hw)
    · exact .inl (List.mem_singleton.1 hw)
  · exact .inr (hstands hw)

end Written

/-- Nothing is written of a module without need. Its exports and what it keeps of its declarations are
all written. What it writes beside its exports declares a name that is needed, and its imports bind
names that are needed, or listed again from another module.

A name is needed as it is collected: by its text, wherever a type refers to it in the source of a
statement that is kept. A type parameter of the same name does not hide it, so a declaration can be needed
for a reference that means the parameter. -/
theorem written_only_needed (s : Setting) (c : Checker) (file : SourceId) (f : ProgramFile)
    (hfile : s.program.file? file = some f) (hmodule : f.root.isModule) :
    (∀ n ∈ keptStatements f.root, n.kind ≠ .importDecl → ∃ w ∈ writtenStatements s c file,
      StandsFor (usedNames (keptStatements f.root)) n w) ∧
    (∀ w ∈ writtenStatements s c file, isPrivate w → ∃ n ∈ keptStatements f.root, Writes n w ∧
      ∃ d ∈ declaredNames n, IsNeeded f.root d) ∧
    ∀ i, .importing i ∈ writtenStatements s c file → ∀ name ∈ boundNames i,
      IsNeeded f.root name ∨ Relisted (keptStatements f.root) name := by
  have hstand := declarations_standFor hfile hmodule s c rfl
  refine ⟨fun n hn himport => ?_, fun w hw hprivate => ?_, fun i hi name hname => ?_⟩
  · refine declarations_gives hfile hmodule hn (fun s c hs => ?_) s c rfl
    obtain ⟨w, hw⟩ := emitStatement_isSome n _ (mem_statements_of_kept hn) himport s c hs
    exact ⟨w, hw, emitStatement_standsFor n _ s c hs w (Option.mem_def.2 hw)⟩
  · obtain rfl | ⟨n, hn, hstands⟩ := hstand w hw
    · cases hprivate
    cases hstands with
    | importing _ himport =>
      subst himport
      cases hprivate
    | exporting _ hexport =>
      subst hexport
      cases hprivate
    | assignment _ hassign =>
      subst hassign
      cases hprivate
    | declaration hdecl hwrites hhides =>
      rw [hprivate, eq_comm, Bool.not_eq_true'] at hhides
      exact ⟨n, hn, hwrites, exists_isNeeded_of_private hmodule hn hdecl hhides⟩
  · obtain hempty | ⟨n, hn, hstands⟩ := hstand _ hi
    · cases hempty
    cases hstands with
    | importing _ himport hused =>
      obtain rfl := Statement.importing.inj himport
      exact isNeeded_of_used hmodule (hused name hname)
    | exporting _ hexport => cases hexport
    | assignment _ hassign => cases hassign
    | declaration _ hwrites => cases hwrites

/-- The module `import { A } from "./a"; type B = A; export function p(): B; export function p(): B {}`:
the alias is written because the signature refers to it, and the import because the alias does. -/
theorem written_only_needed_overloaded :
    let name (s : Nat) (text : String) : Tree := .node .name s (s + 1) [.token ⟨.ident, s, text⟩]
    let ref (s : Nat) (text : String) : Tree :=
      .node .typeRef s (s + 1) [.node .entityName s (s + 1) [.token ⟨.ident, s, text⟩]]
    let i : Tree := .node .importDecl 0 24 [.token ⟨.kwImport, 0, "import"⟩,
      .node .importClause 7 12
        [.node .namedImports 7 12 [.node .importSpecifier 9 10 [name 9 "A"]]],
      .node .moduleSpecifier 18 23 [.token ⟨.stringLiteral, 18, "\"./a\""⟩]]
    let b : Tree := .node .typeAliasDecl 25 36 [name 30 "B", ref 34 "A"]
    let signature (s : Nat) : List Tree :=
      [.token ⟨.kwExport, s, "export"⟩, name (s + 16) "p",
        .node .returnType (s + 19) (s + 22) [ref (s + 21) "B"]]
    let p₁ : Tree := .node .functionDecl 37 60 (signature 37)
    let p₂ : Tree := .node .functionDecl 61 86 (signature 61 ++ [.node .functionBody 84 86 []])
    let root : Node := ⟨.node .root 0 86 [i, b, p₁, p₂], []⟩
    let p : Program := ⟨{}, {}, #[⟨⟨0⟩, root, []⟩], [], {}, [], [], []⟩
    ∀ free checker, let ws := writtenStatements ⟨p, free⟩ checker ⟨0⟩
      (∃ w ∈ ws, isPrivate w) ∧ (∀ w ∈ ws, isPrivate w → ∃ n ∈ keptStatements root, Writes n w ∧
        ∃ d ∈ declaredNames n, Needed (keptStatements root) d) ∧
      (∃ v, .importing v ∈ ws ∧ "A" ∈ boundNames v) ∧
        ∀ v, .importing v ∈ ws → ∀ x ∈ boundNames v, Needed (keptStatements root) x := by
  intro name ref i b signature p₁ p₂ root p free checker ws
  have hmodule : root.isModule = true := by decide +kernel
  have hfile : p.file? ⟨0⟩ = some ⟨⟨0⟩, root, []⟩ := rfl
  have hstatements : root.statements = [i, b, p₁, p₂].map fun t => ⟨t, [root.tree]⟩ := rfl
  have hkept : keptStatements root = [i, b, p₁].map fun t => ⟨t, [root.tree]⟩ := by cbv
  have hcover : SignaturesCover root.statements := by
    intro n hn himplements x hx
    refine ⟨⟨p₁, [root.tree]⟩, by simp [hstatements], by decide +kernel, ?_⟩
    simp only [hstatements, List.map_cons, List.map_nil, List.mem_cons, List.not_mem_nil,
      or_false] at hn
    obtain rfl | rfl | rfl | rfl := hn
    · exact absurd himplements.isFunction (by decide)
    · exact absurd himplements.isFunction (by decide)
    · exact absurd himplements.hasBody (by decide +kernel)
    · exact ⟨fun _ => rfl, fun _ hd => hd, hx⟩
  obtain ⟨hall, hprivate, himports⟩ :=
    written_only_needed ⟨p, free⟩ checker ⟨0⟩ ⟨⟨0⟩, root, []⟩ hfile hmodule
  refine ⟨?_, fun w hw hhides => ?_, ?_, fun v hv x hx => ?_⟩
  · obtain ⟨w, hw, hstands⟩ := hall ⟨b, [root.tree]⟩ (by simp [hkept]) (by decide)
    cases hstands with
    | importing hkind => cases hkind
    | exporting hkind => cases hkind
    | assignment hkind => cases hkind
    | declaration _ _ hhides => exact ⟨w, hw, hhides⟩
  · obtain ⟨n, hn, hwrites, d, hd, hneeded⟩ := hprivate w hw hhides
    exact ⟨n, hn, hwrites, d, hd, hneeded.written hcover⟩
  · have hused : "A" ∈ usedNames (keptStatements root) := by rw [hkept]; decide +kernel
    have hn : (⟨i, [root.tree]⟩ : Node) ∈ keptStatements root := by simp [hkept]
    obtain ⟨w, hw, v, rfl, -, -, hbound⟩ := declarations_gives hfile hmodule hn (R := fun w =>
        ∃ v, w = .importing v ∧ v.origin = _ ∧ v.module = _ ∧ "A" ∈ boundNames v)
      (emitStatement_gives_import rfl rfl (List.mem_singleton.2 rfl) hused) ⟨p, free⟩ checker rfl
    exact ⟨v, hw, hbound⟩
  · obtain hneeded | ⟨n, hn, hlist, -⟩ := himports v hv x hx
    · exact hneeded.written hcover
    · rw [hkept] at hn
      simp only [List.map_cons, List.map_nil, List.mem_cons, List.not_mem_nil, or_false] at hn
      obtain rfl | rfl | rfl := hn <;> cases hlist

end DeclKit.Emit

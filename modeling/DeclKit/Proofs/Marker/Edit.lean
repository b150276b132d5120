/-
What the markers can change in a declaration file.

The edit that the markers ask for is made while types are checked, so its answers depend on all that
the checker has met. What they have in common does not: a reference is replaced only through a marked
alias, by `unknown` or by its first argument, and of a baked alias nothing but its type is replaced.
-/
import DeclKit.Marker.Basic
import DeclKit.Proofs.Decl.Edit
import DeclKit.Proofs.Program.Keys
import DeclKit.Proofs.Symbol.Binder

set_option autoImplicit false

namespace DeclKit

namespace Marker

open Decl (TypeNode TypeAlias Rewritten)

/-- The comments in front of the declarations of an alias. -/
def aliasComments (p : Program) (symbol : SymbolId) : List String :=
  ((p.symbols.get symbol).declarationsOf .typeAliasDecl).flatMap (commentsOf p)

/-- A reference through a marked alias, and what stands in its place. -/
inductive Replaces (p : Program) (set : MarkerSet) : TypeNode → TypeNode → Prop where
  | newtype {n name args symbol} : n.form = .reference name args →
      set.marks .newtype (aliasComments p symbol) → Replaces p set n (.keyword .unknown)
  | unwrap {n name args symbol} : n.form = .reference name args →
      set.marks .unwrap (aliasComments p symbol) → Replaces p set n (args.head?.getD n)

/-- An alias and what has become of it: a baked one has another type at most, and the types of any
other one are rewritten. -/
inductive AliasEdit (p : Program) (set : MarkerSet) (file : SourceId) :
    TypeAlias → TypeAlias → Prop where
  | baked {a type} : set.marks .bake (commentsAt p file a.origin) →
      AliasEdit p set file a { a with type }
  | edited {a b} : ¬set.marks .bake (commentsAt p file a.origin) →
      TypeAlias.Rel (Rewritten (Replaces p set) .any) a b → AliasEdit p set file a b

/-- Without comments there is no marker. -/
@[simp]
theorem marks_nil (set : MarkerSet) (k : Marker) : set.marks k [] = false := rfl

/-! ## The answers of the edit -/

variable {p : Program} {set : MarkerSet} {file : SourceId}

/-- The declarations that a reference leads to are none, or those of one symbol. -/
theorem aliasDeclarations_gives (n : TypeNode) :
    (Check.judgment p).gives (aliasDeclarations n) fun ds =>
      ds = [] ∨ ∃ symbol, ds = (p.symbols.get symbol).declarationsOf .typeAliasDecl := by
  unfold aliasDeclarations
  split
  · refine Judgment.bind _ (Check.gives_any p _) fun id _ => ?_
    cases id with
    | none => exact Judgment.pure _ (.inl rfl)
    | some id =>
      refine Judgment.bind _ (Check.gives_any p _) fun table _ => ?_
      split
      · exact Judgment.pure _ (.inl rfl)
      · refine Judgment.bind _ (Check.program_gives p) fun q hq => ?_
        subst hq
        exact Judgment.pure _ (.inr ⟨_, rfl⟩)
  · exact Judgment.pure _ (.inl rfl)

theorem replacement?_gives (n : TypeNode) :
    (Check.judgment p).gives (replacement? set n) fun r => ∀ u ∈ r, Replaces p set n u := by
  unfold replacement?
  split
  case h_2 => exact Judgment.pure _ fun u hu => nomatch hu
  case h_1 name args hn =>
    refine Judgment.bind _ (Check.program_gives p) fun q hq => ?_
    subst hq
    refine Judgment.bind _ (aliasDeclarations_gives n) fun ds hds => ?_
    -- a marker is found only if there are declarations, and then they are those of one symbol
    have marked {k : Marker} (hk : set.marks k (ds.flatMap (commentsOf q)) = true) :
        ∃ symbol, set.marks k (aliasComments q symbol) := by
      obtain rfl | ⟨symbol, rfl⟩ := hds
      · simp at hk
      · exact ⟨symbol, hk⟩
    dsimp only
    split
    · rename_i hnew
      obtain ⟨symbol, hsymbol⟩ := marked hnew
      refine Judgment.pure _ fun u hu => ?_
      obtain rfl := Option.mem_some.1 hu
      exact .newtype hn hsymbol
    split
    · rename_i hunwrap
      obtain ⟨symbol, hsymbol⟩ := marked hunwrap
      refine Judgment.pure _ fun u hu => ?_
      obtain rfl := Option.mem_some.1 hu
      exact .unwrap hn hsymbol
    · exact Judgment.pure _ fun u hu => nomatch hu

/-- Baking an alias changes its type at most, whatever the checker answers. -/
theorem bakeAlias_gives (a : TypeAlias) :
    (Check.judgment p).gives (bakeAlias file a) fun b => ∃ type, b = { a with type } := by
  unfold bakeAlias
  refine Judgment.bind _ (Check.gives_any p _) fun id _ => ?_
  cases id with
  | none => exact Judgment.pure _ ⟨a.type, rfl⟩
  | some id =>
    refine Judgment.bind _ (Check.gives_any p _) fun type _ => ?_
    cases type with
    | none => exact Judgment.pure _ ⟨a.type, rfl⟩
    | some type => exact Judgment.pure _ ⟨type, rfl⟩

theorem editor_allowed : (editor set file).Allowed (Check.judgment p) (Replaces p set)
    (AliasEdit p set file) where
  type := replacement?_gives
  typeAlias a := by
    refine Judgment.bind _ (Check.program_gives p) fun q hq => ?_
    subst hq
    dsimp only
    split
    · rename_i hbake
      refine Judgment.bind _ (bakeAlias_gives a) fun b hb => ?_
      obtain ⟨type, rfl⟩ := hb
      exact Judgment.pure _ (.baked hbake)
    · rename_i hbake
      exact Judgment.pure _ fun b hb => .edited hbake hb

/-! ## The frame -/

/-- The markers change nothing but types: the edited file has the same source and the same statements
in the same order, of the same kinds and with the same names, modifiers, origins and type parameters,
down to the members and parameters; types are missing where they were missing. A type is kept with its
parts rewritten, or it is a reference through a marked alias and is replaced; and of a baked alias
everything but its type stays. -/
theorem edit_changes_only_types (set : MarkerSet) (f : Decl.File) (s : Setting) (c : Checker) :
    Decl.File.Rel (Rewritten (Replaces s.program set) .any) (AliasEdit s.program set f.source) f
      (((edit set f).run s).run c).1 :=
  Decl.Editor.file_rel editor_allowed f s c rfl

/-! ## Nothing is marked -/

/-- No type alias of a program is marked, neither as a new type nor as transparent. -/
def Unmarked (p : Program) (set : MarkerSet) : Prop :=
  ∀ f ∈ p.files, ∀ n ∈ f.root.statements, n.kind = .typeAliasDecl →
    set.marks .newtype (commentsOf p ⟨f.id, n⟩) = false ∧
      set.marks .unwrap (commentsOf p ⟨f.id, n⟩) = false

/-- A marker in front of several declarations is in front of one of them. -/
theorem marks_flatMap {α : Type} {set : MarkerSet} {k : Marker} {xs : List α}
    {comments : α → List String} :
    set.marks k (xs.flatMap comments) = true ↔ ∃ x ∈ xs, set.marks k (comments x) = true := by
  simp only [MarkerSet.marks, isAmong, List.any_flatMap, List.any_eq_true]

/-- Without a marked alias no type is replaced: a reference leads to declarations of one symbol, and
those are statements of the program. -/
theorem Unmarked.not_replaces {set : MarkerSet} {p : Program} (h : Unmarked p set)
    (hdeclares : p.symbols.Declares fun d => d.kind = .typeAliasDecl →
      ∃ f ∈ p.files, f.id = d.file ∧ d.node ∈ f.root.statements)
    (t u : TypeNode) : ¬Replaces p set t u := by
  have none {k : Marker} {symbol : SymbolId} (hk : set.marks k (aliasComments p symbol) = true) :
      ∃ f ∈ p.files, ∃ n ∈ f.root.statements, n.kind = .typeAliasDecl ∧
        set.marks k (commentsOf p ⟨f.id, n⟩) = true := by
    obtain ⟨d, hd, hk⟩ := marks_flatMap.1 hk
    obtain ⟨hd, hkind⟩ := List.mem_filter.1 hd
    have hkind := eq_of_beq hkind
    obtain ⟨f, hf, hfile, hn⟩ := hdeclares.get symbol d (Array.mem_toList_iff.1 hd) hkind
    refine ⟨f, hf, d.node, hn, hkind, ?_⟩
    rw [hfile]
    exact hk
  intro hreplaces
  cases hreplaces with
  | newtype _ hk =>
    obtain ⟨f, hf, n, hn, hkind, hk⟩ := none hk
    rw [(h f hf n hn hkind).1] at hk
    cases hk
  | unwrap _ hk =>
    obtain ⟨f, hf, n, hn, hkind, hk⟩ := none hk
    rw [(h f hf n hn hkind).2] at hk
    cases hk

/-- Where nothing is marked nothing changes: if in a loaded program no type alias is marked as a new
type or as transparent, then a declaration file without a baked alias comes back as it was, in every
state of the check. -/
theorem edit_unmarked (set : MarkerSet) (f : Decl.File) (free : NodeKey → List SymbolId)
    (c : Checker) {sources : Sources} {roots : List String} {options : CompilerOptions} {h : Host}
    {p : Program} (hload : Program.load sources roots options h = .ok p) (hp : Unmarked p set)
    (hf : ∀ a, .typeAlias a ∈ f.statements →
      set.marks .bake (commentsAt p f.source a.origin) = false) :
    (((edit set f).run ⟨p, free⟩).run c).1 = f := by
  have hR := hp.not_replaces (Program.load_declares hload)
  have hrel : Decl.File.Rel (Rewritten (Replaces p set) .any) (AliasEdit p set f.source) f
      (((edit set f).run ⟨p, free⟩).run c).1 :=
    Decl.Editor.file_rel editor_allowed f ⟨p, free⟩ c rfl
  refine hrel.eq hR fun a b ha hab => ?_
  cases hab with
  | baked hbake =>
    rw [hf a ha] at hbake
    cases hbake
  | edited _ hab => exact hab.eq hR

/-- The marker of another namespace is no marker: a program in which there is only that one. -/
theorem edit_unmarked_other_namespace :
    let text := "//! x::newtype\ntype A=B"
    let file : Decl.File := ⟨⟨0⟩, [.typeAlias ⟨some ⟨some ⟨0⟩, 0, 15, 23⟩, {}, "A", [],
      .mk (.reference ["B"] []) (some ⟨some ⟨0⟩, 22, 22, 23⟩)⟩]⟩
    ∃ p, Program.load {} ["/a.ts"] { noLib := true } (Host.addFile {} "/a.ts" (some text)) = .ok p ∧
      Unmarked p {} ∧ (∀ a, .typeAlias a ∈ file.statements →
        MarkerSet.marks {} .bake (commentsAt p file.source a.origin) = false) ∧
      ∀ free c, (((edit {} file).run ⟨p, free⟩).run c).1 = file := by
  intro text file
  have hlex : Token.lex text = [⟨.lineComment, 0, "//! x::newtype"⟩, ⟨.newline, 14, "\n"⟩,
      ⟨.ident, 15, "type"⟩, ⟨.whitespace, 19, " "⟩,
      ⟨.ident, 20, "A"⟩, ⟨.equals, 21, "="⟩, ⟨.ident, 22, "B"⟩] := by
    cbv
  have hcomments : Comment.leadingTexts text 0 = ["//! x::newtype"] := by
    cbv
  have hmarks (k : Marker) : MarkerSet.marks {} k ["//! x::newtype"] = false := by
    cases k <;> cbv
  have hparse : (parse ⟨0⟩ text).toOption.any (fun q =>
      (Program.specifiers ⟨q.tree, []⟩).isEmpty &&
        (Node.mk q.tree []).statements.all (·.fullStart == 0)) = true := by
    rw [parse, parseWith, Parser.State.afterFile, Parser.State.start, hlex]
    decide +kernel
  have hstart : Program.start (Host.addFile {} "/a.ts" (some text)) ["/a.ts"]
      { noLib := true } = ([⟨.module, "/a.ts", text, true⟩], []) := by
    cbv
  cases hq : parse ⟨0⟩ text with
  | error e =>
    rw [hq] at hparse
    cases hparse
  | ok q =>
    rw [hq] at hparse
    obtain ⟨hspec, hstarts⟩ := Bool.and_eq_true_iff.1 hparse
    obtain ⟨p, hload, hfiles, htext⟩ :=
      Program.load_single hstart hq (List.isEmpty_iff.1 hspec)
    have hp : Unmarked p {} := by
      intro f hf n hn _
      obtain rfl := by simpa [hfiles] using hf
      have hzero : n.fullStart = 0 := eq_of_beq (List.all_eq_true.1 hstarts n hn)
      simp only [commentsOf, htext, hzero, hcomments]
      exact ⟨hmarks _, hmarks _⟩
    have hfile : ∀ a, .typeAlias a ∈ file.statements →
        MarkerSet.marks {} .bake (commentsAt p file.source a.origin) = false := by
      intro a ha
      obtain rfl : a = _ := by simpa [file] using ha
      simp only [commentsAt, Option.getD_some, htext, hcomments]
      exact hmarks _
    exact ⟨p, hload, hp, hfile, fun free c => edit_unmarked {} file free c hload hp hfile⟩

end Marker

end DeclKit

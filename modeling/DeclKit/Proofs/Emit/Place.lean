/-
Where declarations are written, and what they can meet there.

A declaration file has the name of its source with another extension, in the directory of the source or
at the same place below the output directory. Two sources of one directory get one declaration file when
their names come from one stem through extensions that are not told apart. A source outside the directory
that places are counted from goes to the output directory itself, wherever it is. Nothing else makes two
files meet, and what is overwritten in the sources are declaration files at most.
-/
import DeclKit.Emit.Output
import DeclKit.Proofs.Path.Directory
import DeclKit.Proofs.Text.Offset

set_option autoImplicit false

namespace DeclKit

/-! ## Names -/

namespace Path

open Text (stripSuffix?_eq_some stripSuffix?_append_eq_none)

/-- The names that give a stem with the extension of plain declarations. -/
inductive NamedBy (stem : String) : String → Prop where
  | ts : NamedBy stem (stem ++ ".ts")
  | tsx : NamedBy stem (stem ++ ".tsx")
  | bare : (∀ e ∈ declarationExtensions, Text.stripSuffix? stem e.1 = none) → NamedBy stem stem

/-- Two names whose declaration files have one name. -/
def SameStem (a b : String) : Prop := a = b ∨ ∃ stem, NamedBy stem a ∧ NamedBy stem b

theorem declarationName_of_namedBy {stem n : String} (h : NamedBy stem n) :
    declarationName n = stem ++ ".d.ts" := by
  cases h with
  | ts =>
    have hx : Text.stripSuffix? (stem ++ ".ts") ".tsx" = none :=
      stripSuffix?_append_eq_none (by decide) (by decide)
    have hm : Text.stripSuffix? (stem ++ ".ts") ".mts" = none :=
      stripSuffix?_append_eq_none (by decide) (by decide)
    have hc : Text.stripSuffix? (stem ++ ".ts") ".cts" = none :=
      stripSuffix?_append_eq_none (by decide) (by decide)
    have ht : Text.stripSuffix? (stem ++ ".ts") ".ts" = some stem := stripSuffix?_eq_some.2 rfl
    simp [declarationName, declarationExtensions, hx, hm, hc, ht]
  | tsx =>
    have hx : Text.stripSuffix? (stem ++ ".tsx") ".tsx" = some stem := stripSuffix?_eq_some.2 rfl
    simp [declarationName, declarationExtensions, hx]
  | bare h =>
    have hnone : declarationExtensions.findSome? (fun e => (Text.stripSuffix? stem e.1).map (· ++ e.2)) =
        none := by
      rw [List.findSome?_eq_none_iff]
      intro e he
      rw [h e he, Option.map_none]
    rw [declarationName, hnone, Option.getD_none]

/-- The extension of a name decides what its declaration file is called. -/
theorem declarationName_cases (n : String) :
    (∃ stem, NamedBy stem n ∧ declarationName n = stem ++ ".d.ts") ∨
      (∃ stem, n = stem ++ ".mts" ∧ declarationName n = stem ++ ".d.mts") ∨
      ∃ stem, n = stem ++ ".cts" ∧ declarationName n = stem ++ ".d.cts" := by
  cases hx : Text.stripSuffix? n ".tsx" with
  | some stem =>
    obtain rfl := stripSuffix?_eq_some.1 hx
    exact .inl ⟨stem, .tsx, declarationName_of_namedBy .tsx⟩
  | none =>
    cases hm : Text.stripSuffix? n ".mts" with
    | some stem =>
      refine .inr (.inl ⟨stem, stripSuffix?_eq_some.1 hm, ?_⟩)
      simp [declarationName, declarationExtensions, hx, hm]
    | none =>
      cases hc : Text.stripSuffix? n ".cts" with
      | some stem =>
        refine .inr (.inr ⟨stem, stripSuffix?_eq_some.1 hc, ?_⟩)
        simp [declarationName, declarationExtensions, hx, hm, hc]
      | none =>
        cases ht : Text.stripSuffix? n ".ts" with
        | some stem =>
          obtain rfl := stripSuffix?_eq_some.1 ht
          exact .inl ⟨stem, .ts, declarationName_of_namedBy .ts⟩
        | none =>
          have hbare : NamedBy n n := .bare fun e he => by
            simp only [declarationExtensions, List.mem_cons, List.not_mem_nil, or_false] at he
            rcases he with rfl | rfl | rfl | rfl
            · exact hx
            · exact hm
            · exact hc
            · exact ht
          exact .inl ⟨n, hbare, declarationName_of_namedBy hbare⟩

theorem eq_of_append_eq {a b ending : String} (h : a ++ ending = b ++ ending) : a = b := by
  have ha := stripSuffix?_eq_some.2 (rfl : a ++ ending = a ++ ending)
  rw [h, stripSuffix?_eq_some.2 rfl] at ha
  exact (Option.some.inj ha).symm

theorem append_ne_append {a b x y : String} (hxy : ¬x.toList <:+ y.toList)
    (hyx : ¬y.toList <:+ x.toList) : a ++ x ≠ b ++ y := by
  intro h
  have hnone : Text.stripSuffix? (a ++ x) y = none := stripSuffix?_append_eq_none hxy hyx
  rw [h, stripSuffix?_eq_some.2 rfl] at hnone
  cases hnone

/-- Only names of one stem give one declaration file, and they do. -/
theorem declarationName_eq_iff {a b : String} :
    declarationName a = declarationName b ↔ SameStem a b := by
  constructor
  · intro h
    rcases declarationName_cases a with ⟨x, hx, hax⟩ | ⟨x, rfl, hax⟩ | ⟨x, rfl, hax⟩ <;>
      rcases declarationName_cases b with ⟨y, hy, hby⟩ | ⟨y, rfl, hby⟩ | ⟨y, rfl, hby⟩ <;>
      rw [hax, hby] at h
    · obtain rfl := eq_of_append_eq h
      exact .inr ⟨x, hx, hy⟩
    · exact absurd h (append_ne_append (by decide) (by decide))
    · exact absurd h (append_ne_append (by decide) (by decide))
    · exact absurd h (append_ne_append (by decide) (by decide))
    · rw [eq_of_append_eq h]
      exact .inl rfl
    · exact absurd h (append_ne_append (by decide) (by decide))
    · exact absurd h (append_ne_append (by decide) (by decide))
    · exact absurd h (append_ne_append (by decide) (by decide))
    · rw [eq_of_append_eq h]
      exact .inl rfl
  · rintro (rfl | ⟨stem, ha, hb⟩)
    · rfl
    · rw [declarationName_of_namedBy ha, declarationName_of_namedBy hb]

/-- The name of a declaration file ends as such names do, and it is a name if its source has one. -/
theorem declarationName_spec (n : String) :
    ∃ stem, ∃ ending ∈ [".d.ts", ".d.mts", ".d.cts"], declarationName n = stem ++ ending ∧
      stem.toList <+: n.toList := by
  have hlead (stem ending : String) : stem.toList <+: (stem ++ ending).toList := by
    rw [String.toList_append]
    exact List.prefix_append _ _
  rcases declarationName_cases n with ⟨stem, hstem, h⟩ | ⟨stem, rfl, h⟩ | ⟨stem, rfl, h⟩
  · refine ⟨stem, ".d.ts", by simp, h, ?_⟩
    cases hstem with
    | ts => exact hlead stem ".ts"
    | tsx => exact hlead stem ".tsx"
    | bare => exact List.prefix_refl _
  · exact ⟨stem, ".d.mts", by simp, h, hlead stem ".mts"⟩
  · exact ⟨stem, ".d.cts", by simp, h, hlead stem ".cts"⟩

theorem isSegment_declarationName {n : String} (h : '/' ∉ n.toList) :
    Component.IsSegment (.name (declarationName n)) := by
  obtain ⟨stem, ending, hending, heq, hlead⟩ := declarationName_spec n
  have hstem : '/' ∉ stem.toList := fun hmem => h (hlead.subset hmem)
  have hboth : 3 ≤ ending.length ∧ '/' ∉ ending.toList := by
    simp only [List.mem_cons, List.not_mem_nil, or_false] at hending
    rcases hending with rfl | rfl | rfl <;> exact ⟨by decide, by decide⟩
  rw [heq]
  refine Component.isSegment_name ?_ ?_
  · rw [String.length_append]
    exact Nat.le_add_left_of_le hboth.1
  · rw [String.toList_append, List.mem_append, not_or]
    exact ⟨hstem, hboth.2⟩

end Path

namespace Emit

open DeclKit.Path (Component components normalComponents SameStem)

/-! ## Places -/

variable (p : Program) (f : ProgramFile)

/-- The directory of a source. -/
def sourceDirectory : String := (Path.parent? (p.source f.id).path).getD "/"

/-- The file name of a source. -/
def sourceName : String := (Path.fileName? (p.source f.id).path).getD ""

/-- The directory that output is sent to, if it does not go beside the sources. -/
def outputTarget? : Option String := p.options.declarationDir.or p.options.outDir

/-- The directory that the declarations of a file go to. -/
def outputDirectory : String :=
  match outputTarget? p with
  | some out => match Path.below? (sourceDirectory p f) (sourceRoot p) with
    | some rest => Path.join out rest
    | none => out
  | none => sourceDirectory p f

/-- The path of the declarations of a file. -/
abbrev writtenPath : String := declarationPath p (sourceRoot p) f.id

/-- Names lead from the directory that places are counted from to the directory of the source. -/
def IsPlaced : Prop :=
  ∃ names : List String,
    components (sourceDirectory p f) = components (sourceRoot p) ++ names.map .name

variable {p f}

/-- The name of a source has no slashes. -/
theorem slash_not_mem_sourceName : '/' ∉ (sourceName p f).toList := by
  rw [sourceName, Path.fileName?]
  split
  · rename_i s hlast
    exact (Path.isSegment_of_name_mem (List.mem_of_getLast? hlast)).noSlash
  · exact List.not_mem_nil

/-- The declarations of a file stand in their directory under the name that the source gives. -/
theorem components_writtenPath : components (writtenPath p f) =
    normalComponents (outputDirectory p f) ++ [.name (Path.declarationName (sourceName p f))] := by
  have hsegment := Path.isSegment_declarationName (slash_not_mem_sourceName (p := p) (f := f))
  have hname : Path.declarationName (sourceName p f) =
      Path.ofComponents [.name (Path.declarationName (sourceName p f))] := by
    simp [Path.ofComponents, Component.text]
  have hone : ∀ c ∈ [Component.name (Path.declarationName (sourceName p f))], c.IsSegment := by
    intro c hc
    rw [List.mem_singleton.1 hc]
    exact hsegment
  rw [writtenPath, declarationPath, Path.components_normalize]
  change normalComponents (Path.join (outputDirectory p f) (Path.declarationName (sourceName p f))) = _
  rw [hname, Path.normalComponents_join _ (fun c hc => ⟨_, List.mem_singleton.1 hc⟩) hone, ← hname]

/-- A placed file goes to its place below the output directory. -/
theorem normalComponents_outputDirectory {out : String} {names : List String}
    (hout : outputTarget? p = some out)
    (hnames : components (sourceDirectory p f) = components (sourceRoot p) ++ names.map .name) :
    normalComponents (outputDirectory p f) = normalComponents out ++ names.map .name := by
  have hunder : Path.isUnder (sourceDirectory p f) (sourceRoot p) = true := by
    rw [Path.isUnder, hnames, List.isPrefixOf_iff_prefix]
    exact List.prefix_append _ _
  have hbelow : Path.below? (sourceDirectory p f) (sourceRoot p) =
      some (Path.ofComponents (names.map .name)) := by
    rw [Path.below?, if_pos hunder, hnames, List.drop_left' rfl]
  have hsegments : ∀ c ∈ names.map Component.name, c.IsSegment := by
    intro c hc
    have hmem : c ∈ components (sourceDirectory p f) := hnames ▸ List.mem_append_right _ hc
    obtain ⟨s, -, rfl⟩ := List.mem_map.1 hc
    exact Path.isSegment_of_name_mem hmem
  have hdirectory : outputDirectory p f = Path.join out (Path.ofComponents (names.map .name)) := by
    rw [outputDirectory, hout, hbelow]
  rw [hdirectory, Path.normalComponents_join out (fun c hc => ?_) hsegments]
  obtain ⟨s, -, rfl⟩ := List.mem_map.1 hc
  exact ⟨s, rfl⟩

/-! ## Meetings -/

/-- Two files that are written to one path have names of one stem and come from one directory, unless
one of them has no place below the output directory. -/
theorem sameStem_of_writtenPath_eq {g : ProgramFile} (h : writtenPath p f = writtenPath p g) :
    SameStem (sourceName p f) (sourceName p g) ∧
      (normalComponents (sourceDirectory p f) = normalComponents (sourceDirectory p g) ∨
        (outputTarget? p).isSome ∧ ¬(IsPlaced p f ∧ IsPlaced p g)) := by
  have hcomponents := congrArg components h
  rw [components_writtenPath, components_writtenPath] at hcomponents
  -- the last components are the names, what is before them are the directories
  obtain ⟨hdirectory, hname⟩ :=
    List.append_inj' hcomponents (by rw [List.length_singleton, List.length_singleton])
  refine ⟨Path.declarationName_eq_iff.1 (Component.name.inj (List.cons.inj hname).1), ?_⟩
  cases hout : outputTarget? p with
  | none =>
    have hbeside (f : ProgramFile) : outputDirectory p f = sourceDirectory p f := by
      rw [outputDirectory, hout]
    rw [hbeside, hbeside] at hdirectory
    exact .inl hdirectory
  | some out =>
    by_cases hplaced : IsPlaced p f ∧ IsPlaced p g
    · -- both are below the same directory, so the names that lead there agree
      obtain ⟨⟨names, hf⟩, ⟨others, hg⟩⟩ := hplaced
      rw [normalComponents_outputDirectory hout hf, normalComponents_outputDirectory hout hg] at hdirectory
      have hnames := List.append_cancel_left hdirectory
      refine .inl ?_
      rw [normalComponents, normalComponents, hf, hg, hnames]
    · exact .inr ⟨rfl, hplaced⟩

/-- Files of one directory with names of one stem are written to one path. -/
theorem writtenPath_eq_of_sameStem {g : ProgramFile}
    (hname : SameStem (sourceName p f) (sourceName p g))
    (hdirectory : components (sourceDirectory p f) = components (sourceDirectory p g)) :
    writtenPath p f = writtenPath p g := by
  have hnormal : normalComponents (outputDirectory p f) = normalComponents (outputDirectory p g) := by
    rw [outputDirectory, outputDirectory]
    cases outputTarget? p with
    | none =>
      change normalComponents (sourceDirectory p f) = normalComponents (sourceDirectory p g)
      rw [normalComponents, normalComponents, hdirectory]
    | some out =>
      have hbelow : Path.below? (sourceDirectory p f) (sourceRoot p) =
          Path.below? (sourceDirectory p g) (sourceRoot p) := by
        rw [Path.below?, Path.below?, Path.isUnder, Path.isUnder, hdirectory]
      rw [hbelow]
  have hcomponents : components (writtenPath p f) = components (writtenPath p g) := by
    rw [components_writtenPath, components_writtenPath, hnormal, Path.declarationName_eq_iff.2 hname]
  rw [writtenPath, writtenPath, declarationPath, declarationPath, Path.components_normalize,
    Path.components_normalize] at hcomponents
  rw [writtenPath, writtenPath, declarationPath, declarationPath, Path.normalize, Path.normalize,
    hcomponents]

/-- What is written goes to the path of a source only where that is a declaration file. -/
theorem fileName?_of_writtenPath_same {path : String} (h : Path.same (writtenPath p f) path) :
    ∃ stem, ∃ ending ∈ [".d.ts", ".d.mts", ".d.cts"], Path.fileName? path = some (stem ++ ending) := by
  obtain ⟨stem, ending, hending, hname, -⟩ := Path.declarationName_spec (sourceName p f)
  refine ⟨stem, ending, hending, ?_⟩
  have hcomponents : components path = _ := (eq_of_beq h).symm.trans components_writtenPath
  rw [Path.fileName?, hcomponents, List.getLast?_concat, hname]

/-- Where the common directory counts, every file that is written has a place. -/
theorem isPlaced_of_rootDir_eq_none (hroot : p.options.rootDir = none)
    (hpaths : ∀ g ∈ p.outputs, Path.isAbsolute (p.source g.id).path = true ∧
      .parent ∉ components (p.source g.id).path) (hf : f ∈ p.outputs) : IsPlaced p f := by
  have hmem := List.mem_map_of_mem (f := fun g : ProgramFile => (p.source g.id).path) hf
  -- some file is written, so there is a common directory
  obtain ⟨common, hcommon⟩ : ∃ common,
      Path.commonDirectory? (p.outputs.map fun g => (p.source g.id).path) = some common := by
    cases hpaths : p.outputs.map fun g => (p.source g.id).path with
    | nil => rw [hpaths] at hmem; cases hmem
    | cons path paths => exact ⟨_, rfl⟩
  have hsource : sourceRoot p = common := by
    rw [sourceRoot, hroot, Option.getD_none, Program.commonDirectory, hcommon, Option.getD_some]
  have hall : ∀ path ∈ p.outputs.map fun g => (p.source g.id).path, Path.isAbsolute path = true := by
    intro path hpath
    obtain ⟨g, hg, rfl⟩ := List.mem_map.1 hpath
    exact (hpaths g hg).1
  obtain ⟨habs, hup⟩ := hpaths f hf
  obtain ⟨hroot, hleads⟩ := Path.commonDirectory?_leads hcommon hall
  have hlead := hleads _ hmem
  rw [Path.components_directory habs] at hlead
  rw [IsPlaced, hsource]
  exact Path.exists_names_of_leads hroot hlead (Path.parent_not_mem_directory habs hup)

/-- What declarations can meet where they are written. Two files go to one path only if their names have
one stem and they are in one directory, or if there is an output directory and not both have a place
below it; and files of one directory whose names have one stem do go to one path. A declaration file is
written over a source only if that is a declaration file itself. And where the common directory counts,
every file has a place, so that only names of one stem in one directory meet. -/
theorem writtenPath_apart (p : Program) :
    (∀ f g : ProgramFile, writtenPath p f = writtenPath p g →
      SameStem (sourceName p f) (sourceName p g) ∧
        (normalComponents (sourceDirectory p f) = normalComponents (sourceDirectory p g) ∨
          (outputTarget? p).isSome ∧ ¬(IsPlaced p f ∧ IsPlaced p g))) ∧
    (∀ f g : ProgramFile, SameStem (sourceName p f) (sourceName p g) →
      components (sourceDirectory p f) = components (sourceDirectory p g) →
      writtenPath p f = writtenPath p g) ∧
    (∀ f g : ProgramFile, Path.same (writtenPath p f) (p.source g.id).path →
      ∃ stem, ∃ ending ∈ [".d.ts", ".d.mts", ".d.cts"],
        Path.fileName? (p.source g.id).path = some (stem ++ ending)) ∧
    (p.options.rootDir = none →
      (∀ f ∈ p.outputs, Path.isAbsolute (p.source f.id).path = true ∧
        .parent ∉ components (p.source f.id).path) →
      ∀ f ∈ p.outputs, IsPlaced p f) := by
  refine ⟨fun f g h => ?_, fun f g hname hdirectory => ?_, fun f g h => ?_,
    fun hroot hpaths f hf => ?_⟩
  · exact sameStem_of_writtenPath_eq h
  · exact writtenPath_eq_of_sameStem hname hdirectory
  · exact fileName?_of_writtenPath_same h
  · exact isPlaced_of_rootDir_eq_none hroot hpaths hf

/-- Two sources beside each other in `/p/src`, a third one elsewhere in `/p`, and a declaration file
that is already where the first two are written. -/
theorem writtenPath_apart_twins :
    let source (path : String) : Source := ⟨.module, path, "", .ofText ""⟩
    let file (n : Nat) : ProgramFile := ⟨⟨n⟩, ⟨.node .root 0 0 [], []⟩, []⟩
    let p : Program := ⟨⟨#[source "/p/src/a.ts", source "/p/src/a.tsx", source "/p/lib/b.mts",
      source "/out/src/a.d.ts"]⟩, { outDir := some "/out" }, #[file 0, file 1, file 2, file 3], [], {},
      [], [], []⟩
    p.outputs = [file 0, file 1, file 2] ∧ writtenPath p (file 0) = "/out/src/a.d.ts" ∧
      writtenPath p (file 1) = "/out/src/a.d.ts" ∧ SameStem "a.ts" "a.tsx" ∧
      (∀ f ∈ p.outputs, IsPlaced p f) ∧ writtenPath p (file 2) ≠ writtenPath p (file 0) ∧
      (∃ stem, ∃ ending ∈ [".d.ts", ".d.mts", ".d.cts"],
        Path.fileName? (p.source ⟨3⟩).path = some (stem ++ ending)) := by
  intro source file p
  obtain ⟨hmeet, hjoin, hover, hplace⟩ := writtenPath_apart p
  have houtputs : p.outputs = [file 0, file 1, file 2] := by
    change List.filter _ [file 0, file 1, file 2, file 3] = _
    rw [List.filter_cons_of_pos, List.filter_cons_of_pos, List.filter_cons_of_pos,
      List.filter_cons_of_neg, List.filter_nil] <;> decide +kernel
  have hpaths : ∀ f ∈ p.outputs, Path.isAbsolute (p.source f.id).path = true ∧
      .parent ∉ components (p.source f.id).path := by
    rw [houtputs]
    intro f hf
    simp only [List.mem_cons, List.not_mem_nil, or_false] at hf
    rcases hf with rfl | rfl | rfl <;> decide +kernel
  have hzero : writtenPath p (file 0) = "/out/src/a.d.ts" := by decide +kernel
  have hstem : SameStem "a.ts" "a.tsx" := .inr ⟨"a", .ts, .tsx⟩
  have hboth : writtenPath p (file 0) = writtenPath p (file 1) := by
    refine hjoin (file 0) (file 1) ?_ (by decide +kernel)
    have hfirst : sourceName p (file 0) = "a.ts" := by decide +kernel
    have hsecond : sourceName p (file 1) = "a.tsx" := by decide +kernel
    rw [hfirst, hsecond]
    exact hstem
  refine ⟨houtputs, hzero, hboth ▸ hzero, hstem, hplace rfl hpaths, fun h => ?_,
    hover (file 0) (file 3) (by decide +kernel)⟩
  have hnames := Path.declarationName_eq_iff.2 (hmeet _ _ h).1
  revert hnames
  decide +kernel

/-- A host of empty files. -/
def emptyFiles (paths : List String) : Host :=
  paths.foldl (fun h path => h.addFile path (some "")) { directory := "/p" }

/-- What a load that succeeds comes to. -/
theorem load_of_map_eq {roots : List String} {options : CompilerOptions} {h : Host} {α : Type}
    {q : Program → α} {a : α}
    (heq : (Program.load {} roots options h).toOption.map q = some a) :
    ∃ p, Program.load {} roots options h = .ok p ∧ q p = a := by
  cases hload : Program.load {} roots options h with
  | error e =>
    rw [hload] at heq
    cases heq
  | ok p =>
    rw [hload] at heq
    exact ⟨p, rfl, Option.some.inj heq⟩

/-- Declarations can meet: those of two sources of one directory, those of sources of which one lies
outside the root directory, and those of a source and a declaration file that is a source itself. -/
theorem exists_writtenPath_meet :
    (∃ p, Program.load {} ["a.ts", "a.tsx"] { noLib := true } (emptyFiles ["/p/a.ts", "/p/a.tsx"]) =
        .ok p ∧ ¬(p.outputs.map (writtenPath p)).Nodup) ∧
    (∃ p, Program.load {} ["src/a.ts", "a.ts"]
        { noLib := true, rootDir := some "/p/src", outDir := some "/out" }
        (emptyFiles ["/p/src/a.ts", "/p/a.ts"]) = .ok p ∧
      ¬(p.outputs.map (writtenPath p)).Nodup) ∧
    ∃ p, Program.load {} ["a.ts", "a.d.ts"] { noLib := true } (emptyFiles ["/p/a.ts", "/p/a.d.ts"]) =
        .ok p ∧
      ∃ path ∈ p.outputs.map (writtenPath p), path ∈ p.files.toList.map fun f => (p.source f.id).path := by
  have hbeside : (Program.load {} ["a.ts", "a.tsx"] { noLib := true }
      (emptyFiles ["/p/a.ts", "/p/a.tsx"])).toOption.map (fun p => p.outputs.map (writtenPath p)) =
        some ["/p/a.d.ts", "/p/a.d.ts"] := by
    decide +kernel
  have houtside : (Program.load {} ["src/a.ts", "a.ts"]
      { noLib := true, rootDir := some "/p/src", outDir := some "/out" }
      (emptyFiles ["/p/src/a.ts", "/p/a.ts"])).toOption.map
        (fun p => p.outputs.map (writtenPath p)) = some ["/out/a.d.ts", "/out/a.d.ts"] := by
    decide +kernel
  have hover : (Program.load {} ["a.ts", "a.d.ts"] { noLib := true }
      (emptyFiles ["/p/a.ts", "/p/a.d.ts"])).toOption.map (fun p =>
        (p.outputs.map (writtenPath p), p.files.toList.map fun f => (p.source f.id).path)) =
        some (["/p/a.d.ts"], ["/p/a.ts", "/p/a.d.ts"]) := by
    decide +kernel
  refine ⟨?_, ?_, ?_⟩
  · obtain ⟨p, hload, hpaths⟩ := load_of_map_eq hbeside
    exact ⟨p, hload, by rw [hpaths]; decide⟩
  · obtain ⟨p, hload, hpaths⟩ := load_of_map_eq houtside
    exact ⟨p, hload, by rw [hpaths]; decide⟩
  · obtain ⟨p, hload, hpaths⟩ := load_of_map_eq hover
    obtain ⟨houtputs, hfiles⟩ := Prod.mk.inj hpaths
    exact ⟨p, hload, "/p/a.d.ts", by rw [houtputs]; decide, by rw [hfiles]; decide⟩

end Emit

end DeclKit

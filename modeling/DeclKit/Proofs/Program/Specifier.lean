/-
Whether a printed module specifier finds its file again.

A specifier leaves out the extension of a file and an `index`, and a lookup puts back what it knows of.
Looking comes down to the stem of the file: what that says outright is looked for first, then the stem
with an extension behind it, then an index below it. The file is found again unless its extension is none
of those, or something else that exists is looked for before it.
-/
import DeclKit.Proofs.Path.Specifier
import DeclKit.Proofs.Program.Registry

set_option autoImplicit false

namespace DeclKit

open DeclKit.Path
open Text (stripSuffix? stripSuffix?_eq_some)

/-- No other file of the host has the path of a file without its extension and a final index. -/
def Host.IsAlone (h : Host) (path : String) : Prop :=
  ∀ p, isAbsolute p = true → normalize p = p → h.exists? p = true → bare p = bare path → p = path

/-- It is enough to look at the entries of the host. -/
theorem Host.isAlone_of_files {h : Host} {path : String}
    (hfiles : ∀ entry ∈ h.files, bare (ofComponents entry.1) = bare path → ofComponents entry.1 = path) :
    h.IsAlone path := by
  intro p _ hnormal hexists hbare
  obtain ⟨entry, hentry⟩ := Option.isSome_iff_exists.1 hexists
  have hwritten : ofComponents (normalComponents p) = p := hnormal
  have hsame := hfiles _ (mem_files hentry)
  rw [hwritten] at hsame
  exact hsame hbare

namespace Module

/-! ## Where a specifier is looked for -/

/-- What a text says outright: the source of the compiled file that it names, or itself. -/
def outright (s : String) : List String :=
  (compiledExtensions.filterMap fun (js, ts) => (stripSuffix? s js).map (· ++ ts)) ++
    if namesSource s then [s] else []

/-- A path with the extensions that are put behind it. -/
def extended (base : String) : List String := [".ts", ".tsx", ".d.ts"].map (base ++ ·)

/-- The files that stand for a directory. -/
def indexed (base : String) : List String := ["index.ts", "index.d.ts"].map (Path.join base ·)

section Candidates

variable {directory containing pre z : String} {rest : List Component}

theorem endsWith_eq (s e : String) : s.endsWith e = (stripSuffix? s e).isSome := by
  rw [Bool.eq_iff_iff, ← String.endsWith_toSlice, String.Slice.endsWith_string_iff,
    String.copy_toSlice, Option.isSome_iff_exists]
  constructor
  · rintro ⟨v, hv⟩
    refine ⟨String.ofList v, stripSuffix?_eq_some.2 ?_⟩
    rw [← String.toList_inj, String.toList_append, String.toList_ofList, hv]
  · rintro ⟨v, hv⟩
    rw [stripSuffix?_eq_some.1 hv, String.toList_append]
    exact List.suffix_append _ _

theorem namesSource_eq (s : String) :
    namesSource s = [".ts", ".tsx", ".mts", ".cts"].any fun e => (stripSuffix? s e).isSome := by
  simp only [namesSource, endsWith_eq]

theorem mem_outright {x s : String} :
    x ∈ outright s ↔
      (∃ v, ∃ p ∈ compiledExtensions, s = v ++ p.1 ∧ x = v ++ p.2) ∨ namesSource s = true ∧ x = s := by
  rw [outright, List.mem_append, List.mem_filterMap]
  refine or_congr ⟨?_, ?_⟩ ?_
  · rintro ⟨p, hp, hx⟩
    obtain ⟨v, hv, rfl⟩ := Option.map_eq_some_iff.1 hx
    exact ⟨v, p, hp, stripSuffix?_eq_some.1 hv, rfl⟩
  · rintro ⟨v, p, hp, hs, rfl⟩
    exact ⟨p, hp, Option.map_eq_some_iff.2 ⟨v, stripSuffix?_eq_some.2 hs, rfl⟩⟩
  · split
    · rename_i hsource
      rw [List.mem_singleton, and_iff_right hsource]
    · rename_i hsource
      rw [iff_false_left List.not_mem_nil]
      exact fun h => hsource h.1

/-- What a text says outright is as long as the text. -/
theorem length_of_mem_outright {x s : String} (h : x ∈ outright s) : x.length = s.length := by
  rcases mem_outright.1 h with ⟨v, p, hp, rfl, rfl⟩ | ⟨-, rfl⟩
  · have hlen : ∀ p ∈ compiledExtensions, p.2.length = p.1.length := by decide
    rw [String.length_append, String.length_append, hlen p hp]
  · rfl

/-- It ends in the extension of a source, and has no more slashes than the text. -/
theorem isSegment_of_mem_outright {x s : String} (h : x ∈ outright s) (hs : '/' ∉ s.toList) :
    Component.IsSegment (.name x) := by
  have hpair : ∀ p ∈ compiledExtensions, 3 ≤ p.2.length ∧ '/' ∉ p.2.toList := by decide
  rcases mem_outright.1 h with ⟨v, p, hp, rfl, rfl⟩ | ⟨hsource, rfl⟩
  · refine Component.isSegment_name ?_ ?_
    · rw [String.length_append]
      exact Nat.le_add_left_of_le (hpair p hp).1
    · rw [String.toList_append, List.mem_append, not_or] at hs ⊢
      exact ⟨hs.1, (hpair p hp).2⟩
  · have hlong : ∀ e ∈ [".ts", ".tsx", ".mts", ".cts"], 3 ≤ e.length := by decide
    rw [namesSource_eq, List.any_eq_true] at hsource
    obtain ⟨e, he, hv⟩ := hsource
    obtain ⟨v, hv⟩ := Option.isSome_iff_exists.1 hv
    refine Component.isSegment_name ?_ hs
    rw [stripSuffix?_eq_some.1 hv, String.length_append]
    exact Nat.le_add_left_of_le (hlong e he)

theorem outright_lead (hpre : IsLead pre) : outright (pre ++ z) = (outright z).map (pre ++ ·) := by
  have hpairs : ∀ p ∈ compiledExtensions, '/' ∉ p.1.toList := by decide
  have hslash : ∀ e ∈ [".ts", ".tsx", ".mts", ".cts"], '/' ∉ e.toList := by decide
  have hsource : namesSource (pre ++ z) = namesSource z := by
    rw [namesSource_eq, namesSource_eq, Bool.eq_iff_iff, List.any_eq_true, List.any_eq_true]
    refine exists_congr fun e => and_congr_right fun he => ?_
    rw [stripSuffix?_lead hpre (hslash e he), Option.isSome_map]
  rw [outright, outright, hsource, List.map_append, List.map_filterMap]
  refine congrArg₂ (· ++ ·) ?_ ?_
  · refine List.filterMap_congr ?_
    rintro ⟨js, ts⟩ hp
    dsimp only
    rw [stripSuffix?_lead hpre (hpairs _ hp), Option.map_map, Option.map_map]
    refine congrArg (Option.map · _) (funext fun v => ?_)
    rw [Function.comp_apply, Function.comp_apply, String.append_assoc]
  · split
    · rw [List.map_singleton]
    · rw [List.map_nil]

/-- What a blunt text says outright is nothing. -/
theorem outright_of_isBlunt {s : String} (h : IsBlunt s) : outright s = [] := by
  have hpairs : ∀ p ∈ compiledExtensions, IsSharp p.1 := by decide
  have hends : ∀ e ∈ [".ts", ".tsx", ".mts", ".cts"], IsSharp e := by decide
  rw [List.eq_nil_iff_forall_not_mem]
  intro x hx
  rcases mem_outright.1 hx with ⟨v, p, hp, hs, -⟩ | ⟨hsource, -⟩
  · have hnone := h.stripSuffix? (hpairs p hp)
    rw [stripSuffix?_eq_some.2 hs] at hnone
    cases hnone
  · rw [namesSource_eq, List.any_eq_true] at hsource
    obtain ⟨e, he, hv⟩ := hsource
    rw [h.stripSuffix? (hends e he)] at hv
    cases hv

/-- What a specifier says outright comes first, then what stands at its path with an extension, then
what stands below it. -/
theorem candidates_eq (specifier : String) (hd : (parent? containing).getD "/" = directory) :
    candidates specifier containing =
      (outright specifier).map (fun x => normalize (Path.join directory x)) ++
        (extended (normalize (Path.join directory specifier)) ++
          indexed (normalize (Path.join directory specifier))) := by
  rw [candidates, hd, outright, extended, indexed, ← List.append_assoc, List.append_left_inj,
    List.append_left_inj, List.map_append, List.map_filterMap]
  refine congrArg₂ (· ++ ·) ?_ ?_
  · refine List.filterMap_congr ?_
    rintro ⟨js, ts⟩ -
    dsimp only
    rw [Option.map_map, Function.comp_def]
  · split
    · rw [List.map_singleton]
    · rw [List.map_nil]

/-- A text that leads to a path is looked for at that path. -/
theorem candidates_of_leadsTo (h : LeadsTo directory pre rest) (hz : '/' ∉ z.toList)
    (hne : directory ≠ "") (hd : (parent? containing).getD "/" = directory) :
    candidates (pre ++ z) containing = outright (beneath rest ++ z) ++
      (extended (normalize (beneath rest ++ z)) ++ indexed (normalize (beneath rest ++ z))) := by
  rw [candidates_eq (pre ++ z) hd, h.normalize hne hz, outright_lead h.isLead,
    outright_lead (isLead_beneath rest), List.map_map]
  refine congrArg (· ++ _) (List.map_congr_left fun x hx => ?_)
  have hsegment := isSegment_of_mem_outright hx hz
  rw [Function.comp_apply, h.normalize hne (x := x) hsegment.noSlash]
  exact (isPlain_beneath h.plain hsegment).normalize_eq

end Candidates

/-! ## What is looked for first -/

/-- The reasons for which a specifier does not find its file, though no other file of the host has the
same path without its extension and a final index. -/
inductive Misread (h : Host) (directory target : String) : Prop where
  /-- The extension is none that is put behind a path. -/
  | unsought (ending : ∀ x, target ≠ x ++ ".ts" ∧ target ≠ x ++ ".tsx")
  /-- An index with this extension does not stand for its directory. -/
  | unindexed {x : String} (ending : target = x ++ "/index.tsx")
  /-- The name is nothing but dots without its extension. -/
  | unnamed (dots : normalize (stem target) ≠ stem target)
  /-- The directory lies below the file itself. -/
  | above (below : isUnder directory target = true)
  /-- The specifier names a file outright that is there: one that is compiled to the stem, or the stem
  itself. -/
  | outright {path : String} (apart : ¬ Encloses directory target) (named : path ∈ outright (stem target))
      (found : h.exists? path = true)
  /-- The directory of an index is the root or is called index, and has a file of its name beside it. -/
  | beside {e : String} (index : ∃ x, withoutExtension target = x ++ "/index")
      (directory : stem target = "/" ∨ ∃ x, stem target = x ++ "/index")
      (extension : e ∈ [".ts", ".tsx", ".d.ts"]) (found : h.exists? (stem target ++ e) = true)
  /-- The stem ends in `.d`, and its declarations are there. -/
  | declared {x : String} (declaration : stem target = x ++ ".d")
      (found : h.exists? (stem target ++ ".ts") = true)

/-- The paths at which the specifier for a file is looked for. -/
inductive LookedFor (directory target : String) : List String → Prop where
  | above (below : isUnder directory target = true) :
      LookedFor directory target (extended target ++ indexed target)
  | enclosing (below : isUnder directory target = false) (encloses : Encloses directory target) :
      LookedFor directory target (extended (stem target) ++ indexed (stem target))
  | named (below : isUnder directory target = false) (apart : ¬ Encloses directory target) :
      LookedFor directory target (outright (stem target) ++
        (extended (normalize (stem target)) ++ indexed (normalize (stem target))))

section Lookup

variable {h : Host} {directory containing target specifier e b c f : String}
  {up init : List Component}

theorem lookedFor_candidates (hfile : IsFile target init f) (hne : directory ≠ "")
    (hd : (parent? containing).getD "/" = directory) (hs : Specified directory target specifier) :
    LookedFor directory target (candidates specifier containing) := by
  have hblunt {spec p : String} (hp : IsPlain p) (hspec : IsBlunt spec)
      (hlands : normalComponents (Path.join directory spec) = components p) :
      candidates spec containing = extended p ++ indexed p := by
    have hbase : normalize (Path.join directory spec) = p := by
      rw [Path.normalize, hlands, ← hp.normalComponents_eq]
      exact hp.normalize_eq
    rw [candidates_eq spec hd, hbase, outright_of_isBlunt hspec, List.map_nil, List.nil_append]
  cases hs with
  | above below blunt relative lands =>
    rw [hblunt ⟨_, hfile.plain, hfile.eq⟩ blunt lands]
    exact .above below
  | enclosing below encloses blunt relative lands =>
    have hindex : withoutExtension f = "index" := by
      obtain ⟨⟨front, hfront⟩, -⟩ := encloses
      by_contra hindex
      have hstrip := stripSuffix?_index (isLead_beneath init) (slash_not_mem_withoutExtension hfile.noSlash)
      rw [← hfile.withoutExtension_eq, if_neg hindex, hfront, stripSuffix?_eq_some.2 rfl] at hstrip
      cases hstrip
    have hstem := hfile.stem_eq
    rw [if_pos hindex] at hstem
    rw [hblunt ⟨init, hfile.plain.of_append, hstem⟩ blunt lands]
    exact .enclosing below encloses
  | named below apart leads segment stem_eq =>
    rw [candidates_of_leadsTo leads segment hne hd, ← stem_eq]
    exact .named below apart

/-! ## What is not found -/

theorem mem_extended : c ∈ extended b ↔ ∃ e ∈ [".ts", ".tsx", ".d.ts"], c = b ++ e := by
  simp only [extended, List.mem_map, eq_comm]

theorem mem_indexed : c ∈ indexed b ↔ ∃ e ∈ [".ts", ".d.ts"], c = Path.join b "index" ++ e := by
  have hsplit (e : String) : Path.join b "index" ++ e = Path.join b ("index" ++ e) :=
    (join_append (by decide)).symm
  simp only [indexed, List.mem_map, List.mem_cons, List.not_mem_nil, or_false, exists_eq_or_imp,
    exists_eq_left, hsplit, eq_comm]
  rfl

theorem eq_ts_or_tsx_of_mem (hc : c ∈ extended b ++ indexed b) :
    ∃ x, c = x ++ ".ts" ∨ c = x ++ ".tsx" := by
  have hdeclared (x : String) : x ++ ".d.ts" = x ++ ".d" ++ ".ts" := by
    rw [String.append_assoc]
    rfl
  rcases List.mem_append.1 hc with hc | hc
  · obtain ⟨e, he, rfl⟩ := mem_extended.1 hc
    simp only [List.mem_cons, List.not_mem_nil, or_false] at he
    rcases he with rfl | rfl | rfl
    · exact ⟨b, .inl rfl⟩
    · exact ⟨b, .inr rfl⟩
    · exact ⟨b ++ ".d", .inl (hdeclared b)⟩
  · obtain ⟨e, he, rfl⟩ := mem_indexed.1 hc
    simp only [List.mem_cons, List.not_mem_nil, or_false] at he
    rcases he with rfl | rfl
    · exact ⟨_, .inl rfl⟩
    · exact ⟨_, .inl (hdeclared _)⟩

theorem length_lt_of_mem (hc : c ∈ extended b ++ indexed b) : b.length < c.length := by
  have hlen : ∀ e ∈ [".ts", ".tsx", ".d.ts"], 0 < e.length := by decide
  rcases List.mem_append.1 hc with hc | hc
  · obtain ⟨e, he, rfl⟩ := mem_extended.1 hc
    rw [String.length_append]
    exact Nat.lt_add_of_pos_right (hlen e he)
  · obtain ⟨e, he, rfl⟩ := mem_indexed.1 hc
    have hjoin : b.length ≤ (Path.join b "index").length := by
      rw [Path.join]
      split
      · rename_i hor
        rw [show isAbsolute "index" = false by decide, Bool.false_or] at hor
        rw [eq_of_beq hor]
        exact Nat.zero_le _
      · split <;> simp only [String.length_append] <;> omega
    have hpos : 0 < e.length := by
      simp only [List.mem_cons, List.not_mem_nil, or_false] at he
      rcases he with rfl | rfl <;> decide
    rw [String.length_append]
    omega

/-- What is found stands at the front as soon as anything there is found. -/
theorem mem_of_find?_append {p : String → Bool} {as bs : List String} (hc : c ∈ as) (hp : p c = true)
    (hfind : (as ++ bs).find? p = some target) : target ∈ as := by
  rw [List.find?_append] at hfind
  cases has : as.find? p with
  | none => exact absurd hp (List.find?_eq_none.1 has c hc)
  | some a =>
    rw [has, Option.some_or] at hfind
    exact List.mem_of_find?_eq_some (Option.some.inj hfind ▸ has)

theorem find?_append_of_forall {p : String → Bool} {as bs : List String} (ht : target ∈ as)
    (hp : p target = true) (hall : ∀ c ∈ as, p c = true → c = target) :
    (as ++ bs).find? p = some target := by
  rw [List.find?_append]
  cases has : as.find? p with
  | none => exact absurd hp (List.find?_eq_none.1 has target ht)
  | some a =>
    rw [hall a (List.mem_of_find?_eq_some has) (List.find?_some has), Option.some_or]

/-- An index does not stand beside its directory. -/
theorem index_not_mem_extended {rest : List Component} :
    beneath rest ++ "index" ++ e ∉ extended (ofComponents (.root :: rest)) := by
  intro hmem
  obtain ⟨e', he', heq⟩ := mem_extended.1 hmem
  have hdot : ∀ e ∈ [".ts", ".tsx", ".d.ts"], e.toList.head? = some '.' := by decide
  have hhead := hdot e' he'
  rw [String.append_assoc, beneath] at heq
  split at heq
  · rename_i hnil
    rw [hnil, show ofComponents [.root] = "/" by decide +kernel] at heq
    rw [← (String.append_right_inj "/").1 heq, String.toList_append] at hhead
    cases hhead
  · rw [String.append_assoc] at heq
    rw [← (String.append_right_inj _).1 heq, String.toList_append] at hhead
    cases hhead

/-- A file with an extension behind it is that file without the extension, or has declarations for its
stem. -/
theorem withoutExtension_of_mem_extended (hc : c ∈ extended b) :
    withoutExtension c = b ∨ ∃ x, b = x ++ ".d" ∧ c = b ++ ".ts" ∧ withoutExtension c = x := by
  obtain ⟨e, he, rfl⟩ := mem_extended.1 hc
  by_cases hdeclared : e = ".ts" ∧ ∃ x, b = x ++ ".d"
  · -- the extension of a declaration file is taken away whole
    obtain ⟨rfl, x, rfl⟩ := hdeclared
    refine .inr ⟨x, rfl, rfl, ?_⟩
    rw [String.append_assoc]
    exact withoutExtension_append (e := ".d.ts") (by decide) fun hne => absurd hne (by decide)
  · exact .inl (withoutExtension_append he fun hts x hx => hdeclared ⟨hts, x, hx⟩)

theorem withoutExtension_of_mem_indexed {rest : List Component} (hrest : IsPlainRest rest)
    (hc : c ∈ indexed (ofComponents (.root :: rest))) : withoutExtension c = beneath rest ++ "index" := by
  obtain ⟨e, he, rfl⟩ := mem_indexed.1 hc
  have hmem : ∀ e ∈ [".ts", ".d.ts"], e ∈ [".ts", ".tsx", ".d.ts"] := by decide
  rw [join_ofComponents hrest (by decide)]
  exact withoutExtension_append (hmem e he) fun _ x => append_ne_append (by decide) (by decide)

/-- A file is not looked for where normalizing changes its stem. -/
theorem not_mem_of_normalize_ne (hfile : IsFile target init f) (hstemmed : Stemmed target e)
    (hne : normalize (stem target) ≠ stem target) :
    target ∉ extended (normalize (stem target)) ++ indexed (normalize (stem target)) := by
  obtain ⟨rest, hrest, hbase⟩ := isPlain_normalize hfile.isAbsolute_stem
  cases hstemmed with
  | index plain directory eq inside => exact absurd (IsPlain.normalize_eq ⟨_, plain, directory⟩) hne
  | named eq whole apart =>
    intro hmem
    rcases List.mem_append.1 hmem with hmem | hmem
    · rcases withoutExtension_of_mem_extended hmem with hwithout | ⟨x, hx, -, hwithout⟩
      · exact hne (hwithout.symm.trans whole)
      · have hstem := hfile.stem_eq
        by_cases hindex : withoutExtension f = "index"
        · rw [if_pos hindex] at hstem
          exact hne (IsPlain.normalize_eq ⟨_, hfile.plain.of_append, hstem⟩)
        · rw [if_neg hindex] at hstem
          rw [← whole.symm.trans hwithout, hstem, String.append_assoc] at hx
          exact normalize_ne_declared hfile.plain.of_append
            (slash_not_mem_withoutExtension hfile.noSlash) hx
    · rw [hbase] at hmem
      obtain ⟨x, hx⟩ := exists_beneath_index rest
      exact apart x (whole.symm.trans ((withoutExtension_of_mem_indexed hrest hmem).trans hx))

theorem not_mem_outright (he : e ∈ moduleExtensions) (hstemmed : Stemmed target e) :
    target ∉ outright (stem target) := by
  intro hmem
  have hsame := length_of_mem_outright hmem
  have hshort := hstemmed.length_lt he
  omega

/-- Where a file is looked for at all, it is looked for at its stem. -/
theorem LookedFor.of_mem {paths : List String} (hpaths : LookedFor directory target paths)
    (hfile : IsFile target init f) (he : e ∈ moduleExtensions) (hstemmed : Stemmed target e)
    (hmem : target ∈ paths) :
    isUnder directory target = false ∧ normalize (stem target) = stem target ∧
      target ∈ extended (stem target) ++ indexed (stem target) := by
  cases hpaths with
  | above below => exact absurd (length_lt_of_mem hmem) (Nat.lt_irrefl _)
  | enclosing below encloses =>
    obtain ⟨⟨x, hx⟩, -⟩ := encloses
    cases hstemmed with
    | named eq whole apart => exact absurd (whole.symm.trans hx) (apart x)
    | index plain directory eq inside =>
      exact ⟨below, IsPlain.normalize_eq ⟨_, plain, directory⟩, hmem⟩
  | named below apart =>
    have hmem := (List.mem_append.1 hmem).resolve_left (not_mem_outright he hstemmed)
    have hnormal : normalize (stem target) = stem target := by
      by_contra hne
      exact not_mem_of_normalize_ne hfile hstemmed hne hmem
    exact ⟨below, hnormal, hnormal ▸ hmem⟩

/-- Nothing is looked for before what is looked for at the stem, or what the specifier says outright. -/
theorem LookedFor.eq_append {paths : List String} (hpaths : LookedFor directory target paths)
    (hbelow : isUnder directory target = false) (hnormal : normalize (stem target) = stem target) :
    ∃ front, paths = front ++ (extended (stem target) ++ indexed (stem target)) ∧
      (∀ c ∈ front, c ∈ outright (stem target) ∧ ¬ Encloses directory target) ∧
      (¬ Encloses directory target → front = outright (stem target)) := by
  cases hpaths with
  | above below =>
    rw [hbelow] at below
    cases below
  | enclosing below encloses =>
    exact ⟨[], rfl, fun c hc => absurd hc List.not_mem_nil, fun apart => absurd encloses apart⟩
  | named below apart =>
    rw [hnormal]
    exact ⟨_, rfl, fun c hc => ⟨hc, apart⟩, fun _ => rfl⟩

theorem not_mem_extended_of_index (hstemmed : Stemmed target e)
    (hindex : ∃ x, withoutExtension target = x ++ "/index") : target ∉ extended (stem target) := by
  intro hmem
  cases hstemmed with
  | named eq whole apart =>
    obtain ⟨x, hx⟩ := hindex
    exact apart x (whole.symm.trans hx)
  | index plain directory eq inside =>
    rw [directory, eq] at hmem
    exact index_not_mem_extended hmem

/-- An index with the extension `.tsx` is not looked for. -/
theorem not_mem_of_unindexed {x : String} (hstemmed : Stemmed target e)
    (hending : target = x ++ "/index.tsx") :
    target ∉ extended (stem target) ++ indexed (stem target) := by
  intro hmem
  have hsplit : x ++ "/index.tsx" = x ++ "/index" ++ ".tsx" := by
    rw [String.append_assoc]
    rfl
  have hindex : withoutExtension target = x ++ "/index" := by
    rw [hending, hsplit]
    exact withoutExtension_append (by decide) fun hne => absurd hne (by decide)
  obtain ⟨e', he', heq⟩ := mem_indexed.1
    ((List.mem_append.1 hmem).resolve_left (not_mem_extended_of_index hstemmed ⟨x, hindex⟩))
  rw [hending] at heq
  simp only [List.mem_cons, List.not_mem_nil, or_false] at he'
  rcases he' with rfl | rfl
  · exact append_ne_append (by decide) (by decide) heq
  · exact append_ne_append (by decide) (by decide) heq

/-- A stem that ends in `.d` is not that of its declarations. -/
theorem ne_of_declared {x : String} (hstemmed : Stemmed target e)
    (hdeclaration : stem target = x ++ ".d") : target ≠ stem target ++ ".ts" := by
  intro htarget
  cases hstemmed with
  | named eq whole apart =>
    rw [hdeclaration, String.append_assoc] at htarget
    have hwithout : withoutExtension target = x := by
      refine (congrArg withoutExtension htarget).trans ?_
      exact withoutExtension_append (e := ".d.ts") (by decide) fun hne => absurd hne (by decide)
    have hlen := congrArg String.length (hwithout.symm.trans (whole.trans hdeclaration))
    rw [String.length_append] at hlen
    exact absurd hlen (by simp)
  | index plain directory eq inside =>
    rw [directory] at htarget
    rw [eq] at htarget
    exact index_not_mem_extended (mem_extended.2 ⟨".ts", by decide, htarget⟩)

theorem not_found_of_misread (hfile : IsFile target init f) (he : e ∈ moduleExtensions)
    (hstemmed : Stemmed target e) {paths : List String} (hpaths : LookedFor directory target paths)
    (hmisread : Misread h directory target) : paths.find? h.exists? ≠ some target := by
  intro hfind
  obtain ⟨hbelow, hnormal, hmem⟩ := hpaths.of_mem hfile he hstemmed (List.mem_of_find?_eq_some hfind)
  obtain ⟨front, rfl, hfront, hall⟩ := hpaths.eq_append hbelow hnormal
  have hnot : target ∉ front := fun hin => not_mem_outright he hstemmed (hfront target hin).1
  cases hmisread with
  | unsought ending =>
    obtain ⟨x, hx | hx⟩ := eq_ts_or_tsx_of_mem hmem
    · exact (ending x).1 hx
    · exact (ending x).2 hx
  | unindexed ending => exact not_mem_of_unindexed hstemmed ending hmem
  | unnamed dots => exact dots hnormal
  | above below =>
    rw [hbelow] at below
    cases below
  | outright apart named found =>
    exact hnot (mem_of_find?_append (hall apart ▸ named) found hfind)
  | beside index directory extension found =>
    rw [← List.append_assoc] at hfind
    have hin := mem_of_find?_append
      (List.mem_append_right front (mem_extended.2 ⟨_, extension, rfl⟩)) found hfind
    exact (List.mem_append.1 hin).elim hnot (not_mem_extended_of_index hstemmed index)
  | declared declaration found =>
    -- the declarations are the first file that is looked for at the stem
    have hsplit : front ++ (extended (stem target) ++ indexed (stem target)) =
        (front ++ [stem target ++ ".ts"]) ++
          ([stem target ++ ".tsx", stem target ++ ".d.ts"] ++ indexed (stem target)) := by
      simp [extended]
    rw [hsplit] at hfind
    have hin := mem_of_find?_append (List.mem_append_right front List.mem_cons_self) found hfind
    exact ne_of_declared hstemmed declaration
      (List.mem_singleton.1 ((List.mem_append.1 hin).resolve_left hnot))

/-! ## What is found -/

/-- What stands at the stem of a file with an extension has that stem. -/
theorem stem_of_mem_extended (hplain : IsPlain (stem target)) (hread : ¬ Misread h directory target)
    (hc : c ∈ extended (stem target)) (hfound : h.exists? c = true) :
    withoutExtension c = stem target ∧ IsPlain c := by
  have hlong : ∀ e ∈ [".ts", ".tsx", ".d.ts"], 3 ≤ e.length ∧ '/' ∉ e.toList := by decide
  constructor
  · rcases withoutExtension_of_mem_extended hc with hwithout | ⟨x, hx, rfl, -⟩
    · exact hwithout
    · exact absurd (.declared hx hfound) hread
  · obtain ⟨e, he, rfl⟩ := mem_extended.1 hc
    exact hplain.append (hlong e he).1 (hlong e he).2

/-- The extension of a file that is not misread is one that is put behind a path. -/
theorem mem_of_not_misread {y : String} (he : e ∈ moduleExtensions) (heq : target = y ++ e)
    (hread : ¬ Misread h directory target) : e ∈ [".ts", ".tsx", ".d.ts"] := by
  by_contra hnot
  refine hread (.unsought fun x => ?_)
  rw [heq]
  simp only [moduleExtensions, List.mem_cons, List.not_mem_nil, or_false] at he hnot
  rcases he with rfl | rfl | rfl | rfl | rfl | rfl | rfl
  case inl | inr.inr.inr.inl | inr.inr.inr.inr.inl => exact absurd (by decide) hnot
  all_goals
    exact ⟨append_ne_append (by decide) (by decide), append_ne_append (by decide) (by decide)⟩

theorem bare_eq_of_withoutExtension {p q : String} (heq : withoutExtension p = withoutExtension q) :
    bare p = bare q := by
  rw [bare, bare, heq]

/-- A file that is no index is found with its extension. -/
theorem found_of_named (he : e ∈ moduleExtensions) (heq : target = stem target ++ e)
    (hwhole : withoutExtension target = stem target) (hplain : IsPlain (stem target))
    (hexists : h.exists? target = true) (halone : h.IsAlone target)
    (hread : ¬ Misread h directory target) (more : List String) :
    (extended (stem target) ++ more).find? h.exists? = some target := by
  refine find?_append_of_forall
    (mem_extended.2 ⟨e, mem_of_not_misread he heq hread, heq⟩) hexists fun c hc hfound => ?_
  obtain ⟨hwithout, hcplain⟩ := stem_of_mem_extended hplain hread hc hfound
  exact halone c hcplain.isAbsolute hcplain.normalize_eq hfound
    (bare_eq_of_withoutExtension (hwithout.trans hwhole.symm))

section Index

variable {rest : List Component}

/-- What stands beside the directory of an index is the same without its extension as the index without
its name, unless the directory is the root or is called index. -/
theorem eq_of_mem_extended (hrest : IsPlainRest rest) (hstem : stem target = ofComponents (.root :: rest))
    (hinside : withoutExtension target = beneath rest ++ "index") (halone : h.IsAlone target)
    (hread : ¬ Misread h directory target) (hc : c ∈ extended (stem target))
    (hfound : h.exists? c = true) : c = target := by
  obtain ⟨hwithout, hcplain⟩ := stem_of_mem_extended ⟨rest, hrest, hstem⟩ hread hc hfound
  refine halone c hcplain.isAbsolute hcplain.normalize_eq hfound ?_
  have hodd : ¬ (stem target = "/" ∨ ∃ x, stem target = x ++ "/index") := fun hodd => by
    obtain ⟨e, he, rfl⟩ := mem_extended.1 hc
    obtain ⟨x, hx⟩ := exists_beneath_index rest
    exact hread (.beside ⟨x, hinside.trans hx⟩ hodd he hfound)
  rw [not_or] at hodd
  have hroot : rest ≠ [] := by
    rintro rfl
    exact hodd.1 (hstem.trans (by decide +kernel))
  have hnone : stripSuffix? (stem target) "/index" = none := Option.eq_none_iff_forall_ne_some.2
    fun x hx => hodd.2 ⟨x, stripSuffix?_eq_some.1 hx⟩
  rw [bare, bare, hwithout, hnone, hinside, stripSuffix?_index (isLead_beneath rest) (by decide),
    if_pos rfl, stripSuffix?_beneath, if_neg hroot, Option.getD_none, Option.getD_some, hstem]

/-- Below the directory of an index there is no other index that is looked for. -/
theorem eq_of_mem_indexed (hrest : IsPlainRest rest) (hstem : stem target = ofComponents (.root :: rest))
    (hinside : withoutExtension target = beneath rest ++ "index") (halone : h.IsAlone target)
    (hc : c ∈ indexed (stem target)) (hfound : h.exists? c = true) : c = target := by
  rw [hstem] at hc
  have hwithout := withoutExtension_of_mem_indexed hrest hc
  obtain ⟨e, he, rfl⟩ := mem_indexed.1 hc
  have hname : ∀ e ∈ [".ts", ".d.ts"], 3 ≤ ("index" ++ e).length ∧ '/' ∉ ("index" ++ e).toList := by
    decide
  have hcplain : IsPlain (Path.join (ofComponents (.root :: rest)) "index" ++ e) := by
    rw [join_ofComponents hrest (by decide), String.append_assoc]
    exact isPlain_beneath hrest (Component.isSegment_name (hname e he).1 (hname e he).2)
  exact halone _ hcplain.isAbsolute hcplain.normalize_eq hfound
    (bare_eq_of_withoutExtension (hwithout.trans hinside.symm))

/-- An index is found below its directory. -/
theorem found_of_index (he : e ∈ moduleExtensions) (hrest : IsPlainRest rest)
    (hstem : stem target = ofComponents (.root :: rest)) (heq : target = beneath rest ++ "index" ++ e)
    (hinside : withoutExtension target = beneath rest ++ "index") (hexists : h.exists? target = true)
    (halone : h.IsAlone target) (hread : ¬ Misread h directory target) :
    (extended (stem target) ++ indexed (stem target)).find? h.exists? = some target := by
  have hindexed : e ∈ [".ts", ".d.ts"] := by
    have hextended := mem_of_not_misread he heq hread
    simp only [List.mem_cons, List.not_mem_nil, or_false] at hextended
    rcases hextended with rfl | rfl | rfl
    · decide
    · obtain ⟨x, hx⟩ := exists_beneath_index rest
      rw [hx, String.append_assoc] at heq
      exact absurd (.unindexed heq) hread
    · decide
  have hplace : target ∈ indexed (stem target) := by
    rw [hstem]
    refine mem_indexed.2 ⟨e, hindexed, ?_⟩
    rw [join_ofComponents hrest (by decide)]
    exact heq
  rw [← List.append_nil (extended _ ++ indexed _)]
  refine find?_append_of_forall (List.mem_append_right _ hplace) hexists fun c hc hfound => ?_
  rcases List.mem_append.1 hc with hc | hc
  · exact eq_of_mem_extended hrest hstem hinside halone hread hc hfound
  · exact eq_of_mem_indexed hrest hstem hinside halone hc hfound

end Index

theorem found_of_not_misread (hfile : IsFile target init f) (he : e ∈ moduleExtensions)
    (hstemmed : Stemmed target e) (hexists : h.exists? target = true) (halone : h.IsAlone target)
    {paths : List String} (hpaths : LookedFor directory target paths)
    (hread : ¬ Misread h directory target) : paths.find? h.exists? = some target := by
  have hnormal : normalize (stem target) = stem target := by
    by_contra hne
    exact hread (.unnamed hne)
  have hbelow : isUnder directory target = false := by
    rw [Bool.eq_false_iff]
    exact fun habove => hread (.above habove)
  obtain ⟨front, rfl, hfront, -⟩ := hpaths.eq_append hbelow hnormal
  have hnone : front.find? h.exists? = none := List.find?_eq_none.2 fun c hc hfound =>
    hread (.outright (hfront c hc).2 (hfront c hc).1 hfound)
  rw [List.find?_append, hnone, Option.none_or]
  cases hstemmed with
  | named eq whole apart =>
    have hplain : IsPlain (stem target) := hnormal ▸ isPlain_normalize hfile.isAbsolute_stem
    exact found_of_named he eq whole hplain hexists halone hread _
  | index plain directory eq inside =>
    exact found_of_index he plain directory eq inside hexists halone hread

/-- The specifier that is printed for a source file of a host, in a host that has no other file of its
path without the extension and a final index, finds the file again exactly if it is not misread. -/
theorem found_iff_not_misread (hc : isAbsolute containing = true)
    (hcn : normalize containing = containing) (ht : isAbsolute target = true)
    (htn : normalize target = target) (hexists : h.exists? target = true)
    (hsource : ∃ e ∈ moduleExtensions, ∃ x, target = x ++ e) (halone : h.IsAlone target) :
    resolve? h (moduleSpecifier ((parent? containing).getD "/") target) containing = some target ↔
      ¬ Misread h ((parent? containing).getD "/") target := by
  have hplain : IsPlain target := htn ▸ isPlain_normalize ht
  obtain ⟨up, hdirectory, hup⟩ := exists_components_directory (hcn ▸ isPlain_normalize hc)
  obtain ⟨init, f, hfile⟩ := exists_isFile hplain hsource
  obtain ⟨e, he, hstemmed⟩ := hfile.stemmed hsource
  have hne : (parent? containing).getD "/" ≠ "" := by
    intro hempty
    rw [hempty] at hdirectory
    cases hdirectory
  have hpaths := lookedFor_candidates hfile hne rfl (specified_moduleSpecifier hdirectory hup hfile)
  have hrelative : isRelative (moduleSpecifier ((parent? containing).getD "/") target) = true := by
    rw [moduleSpecifier_eq rfl]
    exact isRelative_dotted _
  rw [resolve?, if_pos hrelative]
  constructor
  · exact fun hfind hmisread => not_found_of_misread hfile he hstemmed hpaths hmisread hfind
  · exact found_of_not_misread hfile he hstemmed hexists halone hpaths

/-- An index of declarations is found again, an index with the extension `.tsx` is not. -/
theorem found_iff_not_misread_index :
    let h := Emit.emptyFiles ["/p/src/m.ts", "/p/lib/index.d.ts", "/p/view/index.tsx"]
    moduleSpecifier "/p/src" "/p/lib/index.d.ts" = "../lib" ∧
      resolve? h "../lib" "/p/src/m.ts" = some "/p/lib/index.d.ts" ∧
      ¬ Misread h "/p/src" "/p/lib/index.d.ts" ∧
      moduleSpecifier "/p/src" "/p/view/index.tsx" = "../view" ∧
      Misread h "/p/src" "/p/view/index.tsx" ∧
      resolve? h "../view" "/p/src/m.ts" ≠ some "/p/view/index.tsx" := by
  intro h
  have hcontaining : isAbsolute "/p/src/m.ts" = true := by decide +kernel
  have hparent : (parent? "/p/src/m.ts").getD "/" = "/p/src" := by decide +kernel
  have hlib : moduleSpecifier "/p/src" "/p/lib/index.d.ts" = "../lib" := by decide +kernel
  have hview : moduleSpecifier "/p/src" "/p/view/index.tsx" = "../view" := by decide +kernel
  have hfound : resolve? h "../lib" "/p/src/m.ts" = some "/p/lib/index.d.ts" := by decide +kernel
  have hmisread : Misread h "/p/src" "/p/view/index.tsx" := .unindexed (x := "/p/view") (by decide +kernel)
  have hlibalone : h.IsAlone "/p/lib/index.d.ts" := Host.isAlone_of_files (by decide +kernel)
  have hviewalone : h.IsAlone "/p/view/index.tsx" := Host.isAlone_of_files (by decide +kernel)
  have hread := found_iff_not_misread (h := h) hcontaining
    (by decide +kernel) (by decide +kernel) (by decide +kernel) (by decide +kernel)
    ⟨".d.ts", by decide +kernel, "/p/lib/index", by decide +kernel⟩ hlibalone
  have hlost := found_iff_not_misread (h := h) hcontaining
    (by decide +kernel) (by decide +kernel) (by decide +kernel) (by decide +kernel)
    ⟨".tsx", by decide +kernel, "/p/view/index", by decide +kernel⟩ hviewalone
  rw [hparent, hlib] at hread
  rw [hparent, hview] at hlost
  exact ⟨hlib, hfound, hread.1 hfound, hview, hmisread, fun heq => hlost.1 heq hmisread⟩

end Lookup

end Module

end DeclKit

/-
The directory of a path, and the directory that several paths have in common.

A directory is cut out of the text of a path, and the common directory is folded over the paths in their
order. For absolute paths both come down to components: a directory has all of them but the last, and
the common directory leads every directory.
-/
import DeclKit.Proofs.Path.Join
import Mathlib.Data.List.TakeWhile

set_option autoImplicit false

namespace DeclKit.Path

/-! ## The directory of a path -/

/-- What is dropped at the end is no component. -/
theorem filterMap_trimSegments (segs : List String) :
    (trimSegments segs).filterMap ofSegment? = segs.filterMap ofSegment? := by
  have hdrop : (segs.reverse.takeWhile fun s => s == "" || s == ".").filterMap ofSegment? = [] := by
    rw [List.filterMap_eq_nil_iff]
    intro s hs
    rw [ofSegment?, if_pos (List.mem_takeWhile_imp hs)]
  have hsplit := List.takeWhile_append_dropWhile (l := segs.reverse)
    (p := fun s => s == "" || s == ".")
  have hmap := congrArg (fun l => (l.filterMap ofSegment?).reverse) hsplit
  simp only [List.filterMap_append, hdrop, List.nil_append, List.filterMap_reverse,
    List.reverse_reverse] at hmap
  rw [trimSegments, List.filterMap_reverse, hmap]

theorem mem_of_mem_trimSegments {s : String} {segs : List String} (h : s ∈ trimSegments segs) :
    s ∈ segs := by
  rw [trimSegments, List.mem_reverse] at h
  exact List.mem_reverse.1 ((List.dropWhile_sublist _).subset h)

/-- The last segment that is left is a component. -/
theorem ofSegment?_of_trimSegments {segs before : List String} {last : String}
    (h : (trimSegments segs).reverse = last :: before) : ∃ c, ofSegment? last = some c := by
  rw [trimSegments, List.reverse_reverse] at h
  have hnot := List.head?_dropWhile_not (fun s => s == "" || s == ".") segs.reverse
  rw [h, List.head?_cons] at hnot
  have hnot : (last == "" || last == ".") = false := by simpa using hnot
  rw [ofSegment?, hnot, if_neg Bool.false_ne_true]
  split
  · exact ⟨_, rfl⟩
  · exact ⟨_, rfl⟩

/-- Segments have no slashes. -/
theorem slash_not_mem_segments {p s : String} (h : s ∈ segments p) : '/' ∉ s.toList := by
  obtain ⟨piece, hpiece, rfl⟩ := List.mem_map.1 h
  rw [String.toList_ofList]
  exact slash_not_mem_splitSlashes hpiece

theorem segments_of_isAbsolute {p : String} (h : isAbsolute p = true) :
    ∃ body, segments p = "" :: body := by
  rw [isAbsolute, beq_iff_eq] at h
  obtain ⟨cs, hcs⟩ := List.head?_eq_some_iff.1 h
  refine ⟨(splitSlashes cs).map String.ofList, ?_⟩
  rw [segments, hcs, splitSlashes, if_pos (beq_self_eq_true _)]
  rfl

/-- Segments that are written behind a slash are read back as the steps that they are. -/
theorem components_slash_intercalate {segs : List String} (hne : segs ≠ [])
    (h : ∀ s ∈ segs, '/' ∉ s.toList) :
    components ("/".intercalate ("" :: segs)) = .root :: segs.filterMap ofSegment? := by
  have hlist : ("/".intercalate ("" :: segs)).toList =
      ['/'].intercalate (("" :: segs).map String.toList) := by
    simp
  have hslash : ∀ piece ∈ ("" :: segs).map String.toList, '/' ∉ piece := by
    intro piece hpiece
    obtain ⟨s, hs, rfl⟩ := List.mem_map.1 hpiece
    rcases List.mem_cons.1 hs with rfl | hs
    · exact List.not_mem_nil
    · exact h s hs
  have hsegments : segments ("/".intercalate ("" :: segs)) = "" :: segs := by
    have hne : ("" :: segs).map String.toList ≠ [] := List.cons_ne_nil _ _
    rw [segments, hlist, splitSlashes_intercalate hne hslash, List.map_map]
    refine (List.map_congr_left fun s _ => ?_).trans (List.map_id _)
    rw [Function.comp_apply, String.ofList_toList, id]
  have habs : isAbsolute ("/".intercalate ("" :: segs)) = true := by
    cases segs with
    | nil => exact absurd rfl hne
    | cons s segs =>
      rw [isAbsolute, beq_iff_eq, String.intercalate_cons_cons]
      simp
  rw [components_of_isAbsolute habs, hsegments]
  rfl

/-- The directory of an absolute path has all its components but the last. -/
theorem components_parent? {p directory : String} (h : isAbsolute p = true)
    (hd : parent? p = some directory) : components directory = (components p).dropLast := by
  obtain ⟨body, hbody⟩ := segments_of_isAbsolute h
  rw [parent?, hbody] at hd
  simp only [h, if_true] at hd
  split at hd
  · rename_i last before hbefore
    obtain ⟨c, hc⟩ := ofSegment?_of_trimSegments hbefore
    have htrim : trimSegments body = before.reverse ++ [last] := by
      rw [← List.reverse_inj, hbefore]
      simp
    have hsteps : body.filterMap ofSegment? = before.reverse.filterMap ofSegment? ++ [c] := by
      rw [← filterMap_trimSegments body, htrim, List.filterMap_append, List.filterMap_cons_some hc]
      rfl
    have hall : components p = .root :: (before.reverse.filterMap ofSegment? ++ [c]) := by
      rw [components_of_isAbsolute h, hbody, List.filterMap_cons_none rfl, hsteps]
    rw [hall, ← List.cons_append, List.dropLast_concat, ← filterMap_trimSegments before.reverse]
    cases hkept : trimSegments before.reverse with
    | nil =>
      rw [hkept] at hd
      obtain rfl := Option.some.inj hd
      rfl
    | cons s kept =>
      rw [hkept] at hd
      obtain rfl := Option.some.inj hd
      refine components_slash_intercalate (List.cons_ne_nil _ _) fun x hx => ?_
      -- what is kept are segments of the path
      have hbody' : x ∈ trimSegments body := by
        rw [htrim]
        exact List.mem_append_left _ (mem_of_mem_trimSegments (hkept ▸ hx))
      exact slash_not_mem_segments (hbody ▸ List.mem_cons_of_mem "" (mem_of_mem_trimSegments hbody'))
  · cases hd

/-- An absolute path without a directory is the root. -/
theorem components_of_parent?_eq_none {p : String} (h : isAbsolute p = true)
    (hd : parent? p = none) : components p = [.root] := by
  obtain ⟨body, hbody⟩ := segments_of_isAbsolute h
  rw [parent?, hbody] at hd
  simp only [h, if_true] at hd
  split at hd
  · split at hd <;> cases hd
  · rename_i hnone
    have htrim : trimSegments body = [] := List.reverse_eq_nil_iff.1 hnone
    rw [components_of_isAbsolute h, hbody, List.filterMap_cons_none rfl,
      ← filterMap_trimSegments body, htrim]
    rfl

/-! ## The common directory -/

theorem sharedFront_prefix_left (as bs : List Component) : sharedFront as bs <+: as := by
  induction as generalizing bs with
  | nil => exact List.nil_prefix
  | cons a as ih =>
    cases bs with
    | nil => exact List.nil_prefix
    | cons b bs =>
      rw [sharedFront]
      split
      · exact List.cons_prefix_cons.2 ⟨rfl, ih bs⟩
      · exact List.nil_prefix

theorem sharedFront_prefix_right (as bs : List Component) : sharedFront as bs <+: bs := by
  induction as generalizing bs with
  | nil => exact List.nil_prefix
  | cons a as ih =>
    cases bs with
    | nil => exact List.nil_prefix
    | cons b bs =>
      rw [sharedFront]
      split
      · rename_i heq
        exact List.cons_prefix_cons.2 ⟨eq_of_beq heq, ih bs⟩
      · exact List.nil_prefix

/-- The front that the components of two absolute paths share is written as an absolute path. -/
theorem components_sharedFront {p q : String} (hp : isAbsolute p = true)
    (hq : isAbsolute q = true) :
    components (ofComponents (sharedFront (components p) (components q))) =
      sharedFront (components p) (components q) := by
  have hlead := sharedFront_prefix_left (components p) (components q)
  rw [components_of_isAbsolute hp, components_of_isAbsolute hq, sharedFront,
    if_pos (beq_self_eq_true _)] at hlead ⊢
  refine components_ofComponents fun c hc => isSegment_of_mem (p := p) ?_
  exact (List.cons_prefix_cons.1 hlead).2.subset hc

theorem isAbsolute_iff_root_mem {p : String} : isAbsolute p = true ↔ .root ∈ components p := by
  constructor
  · intro h
    rw [components_of_isAbsolute h]
    exact List.mem_cons_self
  · intro h
    by_contra habs
    rw [components_eq_front, front, if_neg habs, List.mem_append] at h
    rcases h with h | h
    · split at h
      · cases List.mem_singleton.1 h
      · cases h
    · exact absurd (isSegment_of_mem h).back (by decide)

/-- Folding over directories keeps an absolute path that leads all of them. -/
theorem foldl_sharedFront_leads {first : String} {directories : List String}
    (hfirst : isAbsolute first = true) (h : ∀ d ∈ directories, isAbsolute d = true) :
    let common := directories.foldl (fun common d =>
      ofComponents (sharedFront (components common) (components d))) first
    isAbsolute common = true ∧ ∀ d ∈ first :: directories, components common <+: components d := by
  induction directories generalizing first with
  | nil =>
    refine ⟨hfirst, fun d hd => ?_⟩
    rw [List.mem_singleton.1 hd]
    exact List.prefix_refl _
  | cons next directories ih =>
    have hnext := h next List.mem_cons_self
    have hread := components_sharedFront hfirst hnext
    have habs : isAbsolute (ofComponents (sharedFront (components first) (components next))) = true := by
      rw [isAbsolute_iff_root_mem, hread, components_of_isAbsolute hfirst,
        components_of_isAbsolute hnext, sharedFront, if_pos (beq_self_eq_true _)]
      exact List.mem_cons_self
    obtain ⟨hcommon, hleads⟩ := ih habs fun d hd => h d (List.mem_cons_of_mem _ hd)
    have hshared := hleads _ List.mem_cons_self
    rw [hread] at hshared
    refine ⟨hcommon, fun d hd => ?_⟩
    rcases List.mem_cons.1 hd with rfl | hd
    · exact hshared.trans (sharedFront_prefix_left _ _)
    · rcases List.mem_cons.1 hd with rfl | hd
      · exact hshared.trans (sharedFront_prefix_right _ _)
      · exact hleads d (List.mem_cons_of_mem _ hd)

/-- The common directory of absolute paths is absolute, and leads the directory of each. -/
theorem commonDirectory?_leads {paths : List String} {common : String}
    (h : commonDirectory? paths = some common) (habs : ∀ p ∈ paths, isAbsolute p = true) :
    isAbsolute common = true ∧
      ∀ p ∈ paths, components common <+: components ((parent? p).getD p) := by
  have hdirectory : ∀ p ∈ paths, isAbsolute ((parent? p).getD p) = true := by
    intro p hp
    cases hd : parent? p with
    | none => exact habs p hp
    | some d => exact isAbsolute_parent? (habs p hp) hd
  cases paths with
  | nil => cases h
  | cons first rest =>
    rw [commonDirectory?] at h
    obtain rfl := Option.some.inj h
    have hrest : ∀ d ∈ rest.map fun p => (parent? p).getD p, isAbsolute d = true := by
      intro d hd
      obtain ⟨p, hp, rfl⟩ := List.mem_map.1 hd
      exact hdirectory p (List.mem_cons_of_mem _ hp)
    obtain ⟨hcommon, hleads⟩ := foldl_sharedFront_leads (hdirectory first List.mem_cons_self) hrest
    rw [List.foldl_map] at hcommon hleads
    exact ⟨hcommon, fun p hp => hleads _ (List.mem_map_of_mem (f := fun p => (parent? p).getD p) hp)⟩

/-- Where an absolute path has no directory, the root stands for it. -/
theorem components_directory {p : String} (h : isAbsolute p = true) :
    components ((parent? p).getD p) = components ((parent? p).getD "/") := by
  cases hd : parent? p with
  | none => exact components_of_parent?_eq_none h hd
  | some d => rfl

/-- A directory goes up only where its path does. -/
theorem parent_not_mem_directory {p : String} (h : isAbsolute p = true)
    (hup : .parent ∉ components p) : .parent ∉ components ((parent? p).getD "/") := by
  cases hd : parent? p with
  | none => exact of_decide_eq_true rfl
  | some d =>
    rw [Option.getD_some, components_parent? h hd]
    exact fun hmem => hup ((List.dropLast_sublist _).subset hmem)

/-- Below an absolute directory names lead on, unless the way goes up. -/
theorem exists_names_of_leads {directory p : String} (hd : isAbsolute directory = true)
    (hlead : components directory <+: components p) (hup : .parent ∉ components p) :
    ∃ names : List String, components p = components directory ++ names.map .name := by
  obtain ⟨rest, hrest⟩ := hlead
  have habs : isAbsolute p = true := by
    rw [isAbsolute_iff_root_mem, ← hrest]
    exact List.mem_append_left _ (isAbsolute_iff_root_mem.1 hd)
  have hsteps : ∀ c ∈ rest, c ∈ steps p := by
    intro c hc
    rw [components_of_isAbsolute hd, components_of_isAbsolute habs, List.cons_append] at hrest
    rw [steps, ← (List.cons.inj hrest).2]
    exact List.mem_append_right _ hc
  have hname : ∀ c ∈ rest, ∃ s, c = .name s := by
    intro c hc
    refine (isSegment_of_mem (hsteps c hc)).eq_parent_or_name.resolve_left ?_
    rintro rfl
    exact hup (hrest ▸ List.mem_append_right _ hc)
  refine ⟨rest.map Component.text, ?_⟩
  rw [List.map_map, ← hrest]
  congr 1
  refine ((List.map_congr_left fun c hc => ?_).trans (List.map_id rest)).symm
  obtain ⟨s, rfl⟩ := hname c hc
  rfl

end DeclKit.Path

/-
Joining and normalizing, whatever the path.

Nothing is said here about where a path starts. A text that is put behind a path adds the steps between
its slashes, a normalized path is read back as its components, and the directory of an absolute path has
all of its components but the last.
-/
import DeclKit.Proofs.Path

set_option autoImplicit false

namespace DeclKit.Path

/-! ## Behind a slash -/

/-- The steps between the slashes of a path, without what the path starts from. -/
def steps (p : String) : List Component := (segments p).filterMap ofSegment?

/-- What a path starts from: the root, a dot, or nothing. -/
def front (p : String) : List Component :=
  if isAbsolute p then [.root] else if (segments p).head? == some "." then [.current] else []

theorem components_eq_front (p : String) : components p = front p ++ steps p := rfl

theorem splitSlashes_append_slash (us vs : List Char) :
    splitSlashes (us ++ '/' :: vs) = splitSlashes us ++ splitSlashes vs := by
  induction us with
  | nil => rfl
  | cons c us ih =>
    rw [List.cons_append, splitSlashes, splitSlashes, ih]
    by_cases hc : (c == '/') = true
    · rw [if_pos hc, if_pos hc, List.cons_append]
    · rw [if_neg hc, if_neg hc]
      cases hsplit : splitSlashes us with
      | nil => exact absurd hsplit (splitSlashes_ne_nil us)
      | cons piece more => rfl

theorem segments_append_slash (p q : String) :
    segments (p ++ "/" ++ q) = segments p ++ segments q := by
  rw [segments, segments, segments, String.toList_append, String.toList_append,
    show "/".toList = ['/'] from rfl, List.append_assoc, List.singleton_append,
    splitSlashes_append_slash, List.map_append]

theorem segments_ne_nil (p : String) : segments p ≠ [] := by
  rw [segments, ne_eq, List.map_eq_nil_iff]
  exact splitSlashes_ne_nil _

theorem isAbsolute_append_of_ne {p : String} (hp : p ≠ "") (q : String) :
    isAbsolute (p ++ q) = isAbsolute p := by
  have hne : p.toList ≠ [] := fun h => hp (String.toList_eq_nil_iff.1 h)
  rw [isAbsolute, isAbsolute, String.toList_append, List.head?_append_of_ne_nil _ hne]

/-- What is put behind a path and a slash adds its steps. -/
theorem components_append_slash {p : String} (hp : p ≠ "") (q : String) :
    components (p ++ "/" ++ q) = components p ++ steps q := by
  have hfront : front (p ++ "/" ++ q) = front p := by
    rw [front, front, segments_append_slash, String.append_assoc, isAbsolute_append_of_ne hp,
      List.head?_append_of_ne_nil _ (segments_ne_nil p)]
  rw [components_eq_front, components_eq_front, hfront, steps, segments_append_slash,
    List.filterMap_append, ← List.append_assoc]
  rfl

/-- The same where the slash is already there. -/
theorem components_append_of_endsWith {base : String} (hend : base.endsWith "/") (p : String) :
    components (base ++ p) = components base ++ steps p := by
  obtain ⟨a, rfl⟩ : ∃ a, base = a ++ "/" := by
    rw [← String.endsWith_toSlice, String.Slice.endsWith_string_iff, String.copy_toSlice] at hend
    obtain ⟨cs, hcs⟩ := hend
    refine ⟨String.ofList cs, ?_⟩
    rw [← String.toList_inj, String.toList_append, String.toList_ofList, hcs]
  by_cases ha : a = ""
  · subst ha
    have habs : isAbsolute ("" ++ "/" ++ p) = true :=
      isAbsolute_append (p := "" ++ "/") (by decide) p
    rw [components_of_isAbsolute habs, segments_append_slash]
    rfl
  · have hnone : steps "" = [] := rfl
    rw [components_append_slash ha, ← String.append_empty (s := a ++ "/"),
      components_append_slash ha, hnone, List.append_nil]

/-- A path that is put together adds the steps of the second part, unless that starts anew. -/
theorem components_join {base p : String} (habs : isAbsolute p = false) (hbase : base ≠ "") :
    components (join base p) = components base ++ steps p := by
  rw [join, habs, Bool.false_or, if_neg (by simpa using hbase)]
  split
  · rename_i hend
    exact components_append_of_endsWith hend p
  · exact components_append_slash hbase p

/-- A name among the components of a path is a segment of it. -/
theorem isSegment_of_name_mem {p s : String} (h : .name s ∈ components p) :
    Component.IsSegment (.name s) := by
  rw [components_eq_front, front, List.mem_append] at h
  rcases h with h | h
  · split at h
    · cases List.mem_singleton.1 h
    · split at h
      · cases List.mem_singleton.1 h
      · cases h
  · exact isSegment_of_mem h

/-! ## Written segments -/

section Segments

variable {cs : List Component}

/-- Segments are written one behind the other. -/
theorem toList_ofComponents_segments (h : ∀ c ∈ cs, c.IsSegment) :
    (ofComponents cs).toList = ['/'].intercalate (cs.map fun c => c.text.toList) := by
  have hroot : ∀ rest, cs ≠ .root :: rest := by
    rintro rest rfl
    exact absurd (h .root List.mem_cons_self).back (by decide)
  rw [ofComponents]
  · simp [List.map_map, Function.comp_def]
  · exact hroot

theorem segments_ofComponents (h : ∀ c ∈ cs, c.IsSegment) (hne : cs ≠ []) :
    segments (ofComponents cs) = cs.map Component.text := by
  have hslash : ∀ piece ∈ cs.map fun c => c.text.toList, '/' ∉ piece := by
    intro piece hpiece
    obtain ⟨c, hc, rfl⟩ := List.mem_map.1 hpiece
    exact (h c hc).noSlash
  rw [segments, toList_ofComponents_segments h,
    splitSlashes_intercalate (by simpa using hne) hslash, List.map_map]
  refine List.map_congr_left fun c _ => ?_
  rw [Function.comp_apply, String.ofList_toList]

theorem steps_ofComponents (h : ∀ c ∈ cs, c.IsSegment) : steps (ofComponents cs) = cs := by
  by_cases hne : cs = []
  · subst hne
    rfl
  · rw [steps, segments_ofComponents h hne, List.filterMap_map]
    refine (List.filterMap_congr fun c hc => ?_).trans List.filterMap_some
    exact (h c hc).back

/-- A path of segments starts from nothing: no segment is empty, and none is a dot. -/
theorem front_ofComponents (h : ∀ c ∈ cs, c.IsSegment) : front (ofComponents cs) = [] := by
  cases cs with
  | nil => rfl
  | cons c cs =>
    have hsegments := segments_ofComponents h (List.cons_ne_nil c cs)
    have hback := (h c List.mem_cons_self).back
    have habs : isAbsolute (ofComponents (c :: cs)) = false := by
      rw [isAbsolute, beq_eq_false_iff_ne]
      intro hhead
      obtain ⟨rest, hrest⟩ := List.head?_eq_some_iff.1 hhead
      rw [segments, hrest, splitSlashes, if_pos (beq_self_eq_true _), List.map_cons, List.map_cons] at hsegments
      rw [← (List.cons.inj hsegments).1] at hback
      cases hback
    have hdot : ((segments (ofComponents (c :: cs))).head? == some ".") = false := by
      rw [hsegments, List.map_cons, List.head?_cons, beq_eq_false_iff_ne]
      intro heq
      rw [Option.some.inj heq] at hback
      cases hback
    rw [front, habs, hdot, if_neg Bool.false_ne_true, if_neg Bool.false_ne_true]

theorem components_ofComponents_segments (h : ∀ c ∈ cs, c.IsSegment) :
    components (ofComponents cs) = cs := by
  rw [components_eq_front, front_ofComponents h, steps_ofComponents h, List.nil_append]

/-- Segments that are taken from a base directory stand behind its components. -/
theorem components_join_segments (base : String) (h : ∀ c ∈ cs, c.IsSegment) :
    components (join base (ofComponents cs)) = components base ++ cs := by
  have habs : isAbsolute (ofComponents cs) = false := by
    by_contra hnot
    have hfront := front_ofComponents h
    rw [front, if_pos (by simpa using hnot)] at hfront
    cases hfront
  by_cases hbase : base = ""
  · subst hbase
    rw [join, beq_self_eq_true, Bool.or_true, if_pos rfl, components_ofComponents_segments h]
    rfl
  · rw [components_join habs hbase, steps_ofComponents h]

/-- Names that are taken from a base directory stand behind its normal components. -/
theorem normalComponents_join (base : String) (hnames : ∀ c ∈ cs, ∃ s, c = .name s)
    (h : ∀ c ∈ cs, c.IsSegment) :
    normalComponents (join base (ofComponents cs)) = normalComponents base ++ cs := by
  rw [normalComponents, components_join_segments base h, List.foldl_append,
    foldl_normalizeStep_names hnames, List.reverse_append, List.reverse_reverse, normalComponents]

end Segments

/-! ## Normal paths -/

/-- Whether a path starts from the root or not, what has been read of it so far are segments. -/
theorem normalizeStep_segments {start out : List Component} {c : Component}
    (hstart : start = [] ∨ start = [.root]) (hout : ∀ d ∈ out, d.IsSegment) (hc : c.IsSegment) :
    ∃ out', (∀ d ∈ out', d.IsSegment) ∧ normalizeStep (out ++ start) c = out' ++ start := by
  have hcons : ∀ d ∈ c :: out, d.IsSegment := fun d hd =>
    (List.mem_cons.1 hd).elim (fun heq => heq ▸ hc) (hout d)
  rcases hc.eq_parent_or_name with rfl | ⟨s, rfl⟩
  · cases out with
    | nil =>
      refine ⟨[.parent], hcons, ?_⟩
      rcases hstart with rfl | rfl <;> rfl
    | cons d out =>
      refine ⟨out, fun e he => hout e (List.mem_cons_of_mem d he), ?_⟩
      rcases (hout d List.mem_cons_self).eq_parent_or_name with rfl | ⟨s, rfl⟩ <;> rfl
  · exact ⟨.name s :: out, hcons, rfl⟩

theorem foldl_normalizeStep_segments {start cs : List Component}
    (hstart : start = [] ∨ start = [.root]) (hcs : ∀ c ∈ cs, c.IsSegment) :
    ∃ out, (∀ d ∈ out, d.IsSegment) ∧ cs.foldl normalizeStep start = out ++ start := by
  refine List.foldlRecOn cs _ (motive := fun acc => ∃ out, (∀ d ∈ out, d.IsSegment) ∧
    acc = out ++ start) ⟨[], fun d hd => absurd hd List.not_mem_nil, rfl⟩ ?_
  rintro _ ⟨out, hout, rfl⟩ c hc
  exact normalizeStep_segments hstart hout (hcs c hc)

/-- A normalized path is read back as its normal components. -/
theorem components_normalize (p : String) : components (normalize p) = normalComponents p := by
  have hsteps : ∀ c ∈ steps p, c.IsSegment := fun c hc => isSegment_of_mem hc
  rw [normalize, normalComponents, components_eq_front p, List.foldl_append]
  by_cases habs : isAbsolute p = true
  · have hfront : (front p).foldl normalizeStep [] = [.root] := by
      rw [front, if_pos habs]
      rfl
    obtain ⟨out, hout, heq⟩ := foldl_normalizeStep_segments (.inr rfl) hsteps
    rw [hfront, heq, List.reverse_append, List.reverse_singleton, List.singleton_append]
    exact components_ofComponents fun c hc => hout c (List.mem_reverse.1 hc)
  · have hfront : (front p).foldl normalizeStep [] = [] := by
      rw [front, if_neg habs]
      split <;> rfl
    obtain ⟨out, hout, heq⟩ := foldl_normalizeStep_segments (.inl rfl) hsteps
    rw [hfront, heq, List.append_nil]
    exact components_ofComponents_segments fun c hc => hout c (List.mem_reverse.1 hc)

end DeclKit.Path

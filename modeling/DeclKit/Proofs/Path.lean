/-
Plain paths.

A plain path is written as its components say: it starts at the root, has no dots, and goes up at most
right behind the root, where there is nothing to take back. Normalizing leaves such a path as it is, and
two of them are the same text as soon as they have the same components. Everything that a load looks up
is plain: what normalizing an absolute path gives, and what is made of that by putting an extension or a
file name behind.
-/
import DeclKit.Path
import Mathlib.Data.List.Basic

set_option autoImplicit false

namespace DeclKit.Path

/-! ## Splitting at slashes -/

theorem splitSlashes_ne_nil (cs : List Char) : splitSlashes cs ≠ [] := by
  cases cs with
  | nil => exact List.cons_ne_nil _ _
  | cons c cs =>
    rw [splitSlashes]
    split
    · exact List.cons_ne_nil _ _
    · split <;> exact List.cons_ne_nil _ _

/-- The pieces have no slashes. -/
theorem slash_not_mem_splitSlashes {cs piece : List Char} (h : piece ∈ splitSlashes cs) :
    '/' ∉ piece := by
  induction cs generalizing piece with
  | nil =>
    obtain rfl := List.mem_singleton.1 h
    exact List.not_mem_nil
  | cons c cs ih =>
    rw [splitSlashes] at h
    split at h
    · rcases List.mem_cons.1 h with rfl | h
      · exact List.not_mem_nil
      · exact ih h
    · rename_i hc
      have hne : '/' ≠ c := fun heq => hc (beq_iff_eq.2 heq.symm)
      split at h
      · rename_i first more hsplit
        rcases List.mem_cons.1 h with rfl | h
        · rw [List.mem_cons, not_or]
          exact ⟨hne, ih (hsplit ▸ List.mem_cons_self)⟩
        · exact ih (hsplit ▸ List.mem_cons_of_mem _ h)
      · obtain rfl := List.mem_singleton.1 h
        rwa [List.mem_singleton]

/-- A text without slashes is a single piece. -/
theorem splitSlashes_of_not_mem {cs : List Char} (h : '/' ∉ cs) : splitSlashes cs = [cs] := by
  induction cs with
  | nil => rfl
  | cons c cs ih =>
    rw [List.mem_cons, not_or] at h
    rw [splitSlashes, if_neg (fun heq => h.1 (beq_iff_eq.1 heq).symm), ih h.2]

/-- A slash ends a piece. -/
theorem splitSlashes_append {us : List Char} (h : '/' ∉ us) (vs : List Char) :
    splitSlashes (us ++ '/' :: vs) = us :: splitSlashes vs := by
  induction us with
  | nil => rfl
  | cons c us ih =>
    rw [List.mem_cons, not_or] at h
    rw [List.cons_append, splitSlashes, if_neg (fun heq => h.1 (beq_iff_eq.1 heq).symm), ih h.2]

/-- What is put together with slashes comes apart again. -/
theorem splitSlashes_intercalate {pieces : List (List Char)} (hne : pieces ≠ [])
    (h : ∀ piece ∈ pieces, '/' ∉ piece) :
    splitSlashes (['/'].intercalate pieces) = pieces := by
  induction pieces with
  | nil => exact absurd rfl hne
  | cons piece pieces ih =>
    have hpiece := h piece List.mem_cons_self
    cases pieces with
    | nil =>
      rw [List.intercalate_singleton]
      exact splitSlashes_of_not_mem hpiece
    | cons next more =>
      rw [List.intercalate_cons_of_ne_nil (List.cons_ne_nil _ _), List.append_assoc,
        List.singleton_append, splitSlashes_append hpiece,
        ih (List.cons_ne_nil _ _) fun x hx => h x (List.mem_cons_of_mem _ hx)]

/-! ## Components between slashes -/

/-- The component can stand between slashes, and is read there as itself. -/
structure Component.IsSegment (c : Component) : Prop where
  back : ofSegment? c.text = some c
  noSlash : '/' ∉ c.text.toList

namespace Component

theorem isSegment_parent : IsSegment .parent := ⟨rfl, by decide⟩

/-- A text of three or more characters is a name: the empty text and the dots are shorter. -/
theorem isSegment_name {s : String} (hlen : 3 ≤ s.length) (hslash : '/' ∉ s.toList) :
    IsSegment (.name s) := by
  refine ⟨?_, hslash⟩
  have hne (t : String) (ht : t.length < 3) : (s == t) = false :=
    beq_eq_false_iff_ne.2 fun heq => absurd hlen (by rw [heq]; exact Nat.not_le.2 ht)
  rw [text, ofSegment?, hne "" (by decide), hne "." (by decide), hne ".." (by decide)]
  rfl

theorem IsSegment.eq_parent_or_name {c : Component} (h : c.IsSegment) :
    c = .parent ∨ ∃ s, c = .name s := by
  cases c with
  | root => exact absurd h.back (by decide)
  | current => exact absurd h.back (by decide)
  | parent => exact .inl rfl
  | name s => exact .inr ⟨s, rfl⟩

theorem text_of_ofSegment? {s : String} {c : Component} (h : ofSegment? s = some c) :
    c.text = s := by
  rw [ofSegment?] at h
  split at h
  · cases h
  · split at h
    · rename_i hdots
      obtain rfl := Option.some.inj h
      exact (eq_of_beq hdots).symm
    · obtain rfl := Option.some.inj h
      rfl

end Component

/-- The components of an absolute path are the root and segments. -/
theorem components_of_isAbsolute {p : String} (h : isAbsolute p = true) :
    components p = .root :: (segments p).filterMap ofSegment? := by
  rw [components, if_pos h, List.singleton_append]

theorem isSegment_of_mem {p : String} {c : Component}
    (h : c ∈ (segments p).filterMap ofSegment?) : c.IsSegment := by
  obtain ⟨s, hs, hc⟩ := List.mem_filterMap.1 h
  obtain ⟨piece, hpiece, rfl⟩ := List.mem_map.1 hs
  have htext := Component.text_of_ofSegment? hc
  refine ⟨htext.symm ▸ hc, ?_⟩
  rw [htext, String.toList_ofList]
  exact slash_not_mem_splitSlashes hpiece

/-! ## Plain paths -/

/-- What stands behind the root of a plain path: segments, of which only the first may lead up. -/
structure IsPlainRest (rest : List Component) : Prop where
  segment : ∀ c ∈ rest, c.IsSegment
  named : .parent ∉ rest.tail

/-- The path is written as a root and its segments. -/
def IsPlain (p : String) : Prop := ∃ rest, IsPlainRest rest ∧ p = ofComponents (.root :: rest)

/-- Normalizing keeps names. -/
theorem foldl_normalizeStep_names {cs : List Component} (h : ∀ c ∈ cs, ∃ s, c = .name s)
    (out : List Component) : cs.foldl normalizeStep out = cs.reverse ++ out := by
  induction cs generalizing out with
  | nil => rfl
  | cons c cs ih =>
    obtain ⟨s, rfl⟩ := h c List.mem_cons_self
    rw [List.foldl_cons, ih fun c hc => h c (List.mem_cons_of_mem _ hc), List.reverse_cons,
      List.append_assoc]
    rfl

namespace IsPlainRest

variable {rest : List Component}

theorem nil : IsPlainRest [] := ⟨fun _ h => absurd h List.not_mem_nil, List.not_mem_nil⟩

theorem of_append {more : List Component} (h : IsPlainRest (rest ++ more)) : IsPlainRest rest where
  segment c hc := h.segment c (List.mem_append_left _ hc)
  named hup := by
    cases rest with
    | nil => exact List.not_mem_nil hup
    | cons c rest => exact h.named (List.mem_append_left more hup)

theorem concat_name {s : String} (h : IsPlainRest rest) (hs : Component.IsSegment (.name s)) :
    IsPlainRest (rest ++ [.name s]) where
  segment c hc := by
    rcases List.mem_append.1 hc with hc | hc
    · exact h.segment c hc
    · rwa [List.mem_singleton.1 hc]
  named hup := by
    cases rest with
    | nil => exact List.not_mem_nil hup
    | cons c rest =>
      rcases List.mem_append.1 (show _ ∈ rest ++ [_] from hup) with hup | hup
      · exact h.named hup
      · cases List.mem_singleton.1 hup

/-- Normalizing does nothing to what is plain. -/
theorem foldl_normalizeStep (h : IsPlainRest rest) :
    rest.foldl normalizeStep [.root] = (.root :: rest).reverse := by
  cases rest with
  | nil => rfl
  | cons c rest =>
    -- behind the first segment there are only names
    have hrest : ∀ d ∈ rest, ∃ s, d = .name s := fun d hd =>
      (h.segment d (List.mem_cons_of_mem _ hd)).eq_parent_or_name.resolve_left
        fun heq => h.named (heq ▸ hd)
    have hfirst : normalizeStep [.root] c = [c, .root] := by
      rcases (h.segment c List.mem_cons_self).eq_parent_or_name with rfl | ⟨s, rfl⟩ <;> rfl
    rw [List.foldl_cons, hfirst, foldl_normalizeStep_names hrest, List.reverse_cons,
      List.reverse_cons, List.append_assoc, List.singleton_append]

/-- A step of normalizing keeps what has been read so far plain. -/
theorem normalizeStep {c : Component} (h : IsPlainRest rest) (hc : c.IsSegment) :
    ∃ rest', IsPlainRest rest' ∧
      Path.normalizeStep (.root :: rest).reverse c = (.root :: rest').reverse := by
  rcases hc.eq_parent_or_name with rfl | ⟨s, rfl⟩
  · rcases List.eq_nil_or_concat' rest with rfl | ⟨before, d, rfl⟩
    · refine ⟨[.parent], ⟨fun c hc => ?_, List.not_mem_nil⟩, rfl⟩
      rw [List.mem_singleton.1 hc]
      exact Component.isSegment_parent
    · refine ⟨before, h.of_append, ?_⟩
      have hd := h.segment d (List.mem_append_right _ (List.mem_singleton_self d))
      rw [← List.cons_append, List.reverse_append, List.reverse_singleton, List.singleton_append]
      rcases hd.eq_parent_or_name with rfl | ⟨s, rfl⟩ <;> rfl
  · refine ⟨rest ++ [.name s], h.concat_name hc, ?_⟩
    rw [← List.cons_append, List.reverse_append]
    rfl

end IsPlainRest

theorem toList_ofComponents (rest : List Component) :
    (ofComponents (.root :: rest)).toList =
      '/' :: ['/'].intercalate (rest.map fun c => c.text.toList) := by
  simp [ofComponents, List.map_map, Function.comp_def]

/-- The last segment stands behind a slash. -/
theorem ofComponents_concat (before : List Component) (c : Component) :
    ofComponents (.root :: (before ++ [c])) =
      (if before = [] then "/" else ofComponents (.root :: before) ++ "/") ++ c.text := by
  split
  · rename_i hnil
    rw [hnil, List.nil_append, ofComponents, List.map_singleton, String.intercalate_singleton]
  · rename_i hne
    rw [ofComponents, ofComponents, List.map_append, String.intercalate_append_of_ne_nil
      (by simpa using hne) (by simp), List.map_singleton, String.intercalate_singleton]
    simp only [String.append_assoc]

/-- Components that are written as a path are read back. -/
theorem components_ofComponents {rest : List Component} (h : ∀ c ∈ rest, c.IsSegment) :
    components (ofComponents (.root :: rest)) = .root :: rest := by
  have habs : isAbsolute (ofComponents (.root :: rest)) = true := by
    rw [isAbsolute, toList_ofComponents]
    rfl
  have hslash : ∀ piece ∈ rest.map fun c => c.text.toList, '/' ∉ piece := by
    intro piece hpiece
    obtain ⟨c, hc, rfl⟩ := List.mem_map.1 hpiece
    exact (h c hc).noSlash
  rw [components_of_isAbsolute habs, segments, toList_ofComponents,
    splitSlashes, if_pos (beq_self_eq_true _)]
  congr 1
  cases rest with
  | nil => rfl
  | cons c rest =>
    have hne : (c :: rest).map (fun c => c.text.toList) ≠ [] := List.cons_ne_nil _ _
    rw [splitSlashes_intercalate hne hslash, List.map_cons, List.filterMap_cons_none rfl,
      List.map_map, List.filterMap_map]
    refine (List.filterMap_congr fun d hd => ?_).trans List.filterMap_some
    rw [Function.comp_apply, Function.comp_apply, String.ofList_toList]
    exact (h d hd).back

namespace IsPlain

variable {p q : String}

theorem components_eq {rest : List Component} (h : IsPlainRest rest) :
    components (ofComponents (.root :: rest)) = .root :: rest :=
  components_ofComponents h.segment

/-- Plain paths have the same text when they have the same components. -/
theorem eq_of_components (hp : IsPlain p) (hq : IsPlain q) (h : components p = components q) :
    p = q := by
  obtain ⟨rest, hrest, rfl⟩ := hp
  obtain ⟨rest', hrest', rfl⟩ := hq
  rw [components_eq hrest, components_eq hrest'] at h
  rw [h]

theorem isAbsolute (hp : IsPlain p) : isAbsolute p = true := by
  obtain ⟨rest, -, rfl⟩ := hp
  rw [Path.isAbsolute, toList_ofComponents]
  rfl

theorem normalComponents_eq (hp : IsPlain p) : normalComponents p = components p := by
  obtain ⟨rest, hrest, rfl⟩ := hp
  rw [normalComponents, components_eq hrest, List.foldl_cons]
  exact (congrArg List.reverse hrest.foldl_normalizeStep).trans (List.reverse_reverse _)

end IsPlain

/-- Normalizing an absolute path makes it plain. -/
theorem isPlain_normalize {p : String} (h : isAbsolute p = true) : IsPlain (normalize p) := by
  have hsegs : ∀ c ∈ (segments p).filterMap ofSegment?, c.IsSegment := fun c hc => isSegment_of_mem hc
  have hfold : ∃ rest, IsPlainRest rest ∧
      ((segments p).filterMap ofSegment?).foldl normalizeStep [.root] = (.root :: rest).reverse := by
    refine List.foldlRecOn _ _ (motive := fun out => ∃ rest, IsPlainRest rest ∧
      out = (.root :: rest).reverse) ⟨[], .nil, rfl⟩ ?_
    rintro _ ⟨rest, hrest, rfl⟩ c hc
    exact hrest.normalizeStep (hsegs c hc)
  obtain ⟨rest, hrest, heq⟩ := hfold
  refine ⟨rest, hrest, ?_⟩
  rw [normalize, normalComponents, components_of_isAbsolute h, List.foldl_cons]
  rw [show normalizeStep [] .root = [.root] from rfl, heq, List.reverse_reverse]

/-! ## Joining -/

theorem isAbsolute_append {p : String} (h : isAbsolute p = true) (q : String) :
    isAbsolute (p ++ q) = true := by
  rw [isAbsolute, beq_iff_eq] at h ⊢
  rw [String.toList_append, List.head?_append, h]
  rfl

theorem isAbsolute_join {base : String} (h : isAbsolute base = true) (p : String) :
    isAbsolute (join base p) = true := by
  rw [join]
  split
  · rename_i hp
    rcases Bool.or_eq_true_iff.1 hp with hp | hbase
    · exact hp
    · rw [eq_of_beq hbase] at h
      exact absurd h (by decide)
  · split
    · exact isAbsolute_append h p
    · exact isAbsolute_append (isAbsolute_append h _) p

theorem isPlain_resolve {base : String} (h : isAbsolute base = true) (p : String) :
    IsPlain (resolve base p) :=
  isPlain_normalize (isAbsolute_join h p)

/-- The directory of an absolute path is absolute. -/
theorem isAbsolute_parent? {p directory : String} (h : isAbsolute p = true)
    (hd : parent? p = some directory) : isAbsolute directory = true := by
  have hsegs : ∃ body, segments p = "" :: body := by
    rw [isAbsolute, beq_iff_eq] at h
    obtain ⟨cs, hcs⟩ := List.head?_eq_some_iff.1 h
    refine ⟨(splitSlashes cs).map String.ofList, ?_⟩
    rw [segments, hcs, splitSlashes, if_pos (beq_self_eq_true _)]
    rfl
  obtain ⟨body, hbody⟩ := hsegs
  rw [parent?, hbody] at hd
  simp only [h, if_true] at hd
  split at hd
  · rename_i before hbefore
    -- what is left of the segments is put behind the slash, if anything is
    cases hkept : trimSegments before.reverse with
    | nil =>
      rw [hkept] at hd
      obtain rfl := Option.some.inj hd
      decide
    | cons s kept =>
      rw [hkept] at hd
      obtain rfl := Option.some.inj hd
      rw [isAbsolute, beq_iff_eq, List.singleton_append, String.intercalate_cons_cons]
      simp
  · cases hd

namespace IsPlain

variable {p : String}

/-- An extension of three or more characters keeps a path plain: it makes the last segment a name. -/
theorem append {extension : String} (hp : IsPlain p) (hlen : 3 ≤ extension.length)
    (hslash : '/' ∉ extension.toList) : IsPlain (p ++ extension) := by
  obtain ⟨rest, hrest, rfl⟩ := hp
  rcases List.eq_nil_or_concat' rest with rfl | ⟨before, c, rfl⟩
  · refine ⟨[.name extension], IsPlainRest.nil.concat_name (Component.isSegment_name hlen hslash), ?_⟩
    rfl
  · have hc := hrest.segment c (List.mem_append_right _ (List.mem_singleton_self c))
    have hname : Component.IsSegment (.name (c.text ++ extension)) := by
      refine Component.isSegment_name ?_ ?_
      · rw [String.length_append]
        exact Nat.le_add_left_of_le hlen
      · rw [String.toList_append, List.mem_append, not_or]
        exact ⟨hc.noSlash, hslash⟩
    refine ⟨before ++ [.name (c.text ++ extension)], hrest.of_append.concat_name hname, ?_⟩
    rw [ofComponents_concat, ofComponents_concat, String.append_assoc]
    rfl

/-- A plain path ends in a slash only if it is the root: no segment is empty or has a slash. -/
theorem endsWith_slash {rest : List Component} (h : IsPlainRest rest) :
    (ofComponents (.root :: rest)).endsWith "/" = decide (rest = []) := by
  rw [Bool.eq_iff_iff, decide_eq_true_iff, ← String.endsWith_toSlice,
    String.Slice.endsWith_string_iff, String.copy_toSlice]
  rcases List.eq_nil_or_concat' rest with rfl | ⟨before, c, rfl⟩
  · exact iff_of_true (by decide) rfl
  · have hc := h.segment c (List.mem_append_right _ (List.mem_singleton_self c))
    refine iff_of_false (fun hsuffix => ?_) (by simp)
    obtain ⟨front, hfront⟩ := hsuffix
    have hlast := congrArg List.getLast? hfront
    rw [ofComponents_concat, String.toList_append, List.getLast?_append, List.getLast?_append] at hlast
    cases htext : c.text.toList.getLast? with
    | none =>
      have hback := hc.back
      rw [show c.text = "" by simpa using htext] at hback
      cases hback
    | some x =>
      rw [htext] at hlast
      obtain rfl : '/' = x := by simpa using hlast
      exact hc.noSlash (List.mem_of_getLast? htext)

/-- A file name behind a plain path keeps it plain. -/
theorem join {name : String} (hp : IsPlain p) (hlen : 3 ≤ name.length)
    (hslash : '/' ∉ name.toList) : IsPlain (Path.join p name) := by
  have hname := Component.isSegment_name hlen hslash
  have hrel : Path.isAbsolute name = false := by
    rw [Path.isAbsolute, beq_eq_false_iff_ne]
    exact fun heq => hslash (List.mem_of_head? heq)
  have hne : (p == "") = false := by
    rw [beq_eq_false_iff_ne]
    rintro rfl
    exact absurd hp.isAbsolute (by decide)
  rw [Path.join, hrel, hne, Bool.or_false, if_neg Bool.false_ne_true]
  obtain ⟨rest, hrest, rfl⟩ := hp
  refine ⟨rest ++ [.name name], hrest.concat_name hname, ?_⟩
  rw [ofComponents_concat, endsWith_slash hrest]
  by_cases hroot : rest = []
  · rw [if_pos (decide_eq_true hroot), if_pos hroot, hroot]
    rfl
  · rw [if_neg (by simpa using hroot), if_neg hroot]
    rfl

end IsPlain

end DeclKit.Path

/-
The stem of a file.

The stem is the path without the extension of a module and without a final `index`. The extension is
taken from the last segment alone, since no extension has a slash in it, and so are all other endings
that are looked for.
-/
import DeclKit.Proofs.Emit.Place
import DeclKit.Proofs.Path.Directory
import DeclKit.Proofs.Path.Join

set_option autoImplicit false

namespace DeclKit.Path

open Text (stripSuffix? stripSuffix?_eq_some stripSuffix?_append_eq_none)

/-! ## Endings -/

/-- Nothing, or a text up to a slash: what may stand before a segment. -/
def IsLead (pre : String) : Prop := pre = "" ∨ ∃ q, pre = q ++ "/"

section Endings

variable {pre w e : String}

/-- What stands at the end of a text that ends in a slash has a slash. -/
theorem eq_empty_of_append_slash {x u q : String} (h : x ++ u = q ++ "/") (hu : '/' ∉ u.toList) :
    u = "" := by
  by_contra hne
  have hlast : (x ++ u).toList.getLast? = (q ++ "/").toList.getLast? := by rw [h]
  rw [String.toList_append, String.toList_append, show "/".toList = ['/'] from rfl,
    List.getLast?_concat, List.getLast?_append_of_ne_nil _ (by simpa using hne)] at hlast
  exact hu (List.mem_of_getLast? hlast)

/-- An ending without a slash is one of the last segment. -/
theorem stripSuffix?_lead (hpre : IsLead pre) (he : '/' ∉ e.toList) :
    stripSuffix? (pre ++ w) e = (stripSuffix? w e).map (pre ++ ·) := by
  cases hw : stripSuffix? w e with
  | some v =>
    obtain rfl := stripSuffix?_eq_some.1 hw
    rw [Option.map_some, stripSuffix?_eq_some, String.append_assoc]
  | none =>
    rw [Option.map_none, Option.eq_none_iff_forall_ne_some]
    intro x hx
    have heq := stripSuffix?_eq_some.1 hx
    have hlist := congrArg String.toList heq
    rw [String.toList_append, String.toList_append] at hlist
    have hsuffix : e.toList <:+ pre.toList ++ w.toList := hlist ▸ List.suffix_append _ _
    rcases List.suffix_or_suffix_of_suffix hsuffix (List.suffix_append _ _) with hshort | ⟨u, hu⟩
    · -- the segment has the ending
      obtain ⟨v, hv⟩ := hshort
      have : stripSuffix? w e = some (String.ofList v) := by
        rw [stripSuffix?_eq_some, ← String.toList_inj, String.toList_append, String.toList_ofList, hv]
      rw [hw] at this
      cases this
    · -- the ending reaches over the segment, and there is a slash before that
      have hu' : e = String.ofList u ++ w := by
        rw [← String.toList_inj, String.toList_append, String.toList_ofList, hu]
      have hslash : '/' ∉ (String.ofList u).toList := by
        rw [String.toList_ofList]
        exact fun hmem => he (hu ▸ List.mem_append_left _ hmem)
      rw [hu', ← String.append_assoc] at heq
      have hfront : String.ofList u = "" := by
        rcases hpre with rfl | ⟨q, rfl⟩
        · exact (String.append_eq_empty_iff.1 (eq_of_append_eq heq).symm).2
        · exact eq_empty_of_append_slash (eq_of_append_eq heq).symm hslash
      rw [hu', hfront, String.empty_append, stripSuffix?_eq_some.2 (String.empty_append ..).symm] at hw
      cases hw

/-- Behind a slash `index` is all of a segment. -/
theorem stripSuffix?_index (hpre : IsLead pre) (hw : '/' ∉ w.toList) :
    stripSuffix? (pre ++ w) "/index" = if w = "index" then stripSuffix? pre "/" else none := by
  have hsplit (x : String) : x ++ "/index" = x ++ "/" ++ "index" := by
    rw [String.append_assoc]
    rfl
  split
  · rename_i hindex
    subst hindex
    ext x
    rw [stripSuffix?_eq_some, stripSuffix?_eq_some, hsplit]
    exact ⟨eq_of_append_eq, fun h => congrArg (· ++ "index") h⟩
  · rename_i hindex
    rw [Option.eq_none_iff_forall_ne_some]
    intro x hx
    have heq := stripSuffix?_eq_some.1 hx
    rw [hsplit] at heq
    have hstrip := stripSuffix?_lead (w := w) hpre (show '/' ∉ "index".toList by decide)
    rw [stripSuffix?_eq_some.2 heq] at hstrip
    obtain ⟨v, hv, hlead⟩ := Option.map_eq_some_iff.1 hstrip.symm
    obtain rfl := stripSuffix?_eq_some.1 hv
    -- what stands before it in the segment would end in the slash
    have hv : v = "" := eq_empty_of_append_slash hlead fun hmem => hw (by
      rw [String.toList_append]
      exact List.mem_append_left _ hmem)
    subst hv
    exact hindex (String.empty_append ..)

end Endings

/-! ## Segments behind a slash -/

/-- The text of a path without its last segment, the root and its segments being given. -/
def beneath (rest : List Component) : String :=
  if rest = [] then "/" else ofComponents (.root :: rest) ++ "/"

/-- The same for segments of which the first does not stand behind the root. -/
def lead (cs : List Component) : String := if cs = [] then "" else ofComponents cs ++ "/"

section Segments

variable {cs rest : List Component} {c : Component} {x : String}

theorem isLead_beneath (rest : List Component) : IsLead (beneath rest) := by
  rw [beneath]
  split
  · exact .inr ⟨"", rfl⟩
  · exact .inr ⟨_, rfl⟩

theorem isLead_lead (cs : List Component) : IsLead (lead cs) := by
  rw [lead]
  split
  · exact .inl rfl
  · exact .inr ⟨_, rfl⟩

theorem ofComponents_root_concat (rest : List Component) (c : Component) :
    ofComponents (.root :: (rest ++ [c])) = beneath rest ++ c.text := ofComponents_concat rest c

theorem ofComponents_segments (h : ∀ c ∈ cs, c.IsSegment) :
    ofComponents cs = "/".intercalate (cs.map Component.text) := by
  rw [ofComponents]
  rintro rest rfl
  exact absurd (h .root List.mem_cons_self).back (by decide)

theorem ofComponents_segments_concat (h : ∀ d ∈ cs ++ [c], d.IsSegment) :
    ofComponents (cs ++ [c]) = lead cs ++ c.text := by
  have hcs : ∀ d ∈ cs, d.IsSegment := fun d hd => h d (List.mem_append_left _ hd)
  rw [ofComponents_segments h, lead, ofComponents_segments hcs]
  split
  · rename_i hnil
    rw [hnil, List.nil_append, List.map_singleton, String.intercalate_singleton, String.empty_append]
  · rename_i hne
    rw [List.map_append, String.intercalate_append_of_ne_nil (by simpa using hne) (by simp),
      List.map_singleton, String.intercalate_singleton]

theorem segments_of_slash_not_mem (hx : '/' ∉ x.toList) : segments x = [x] := by
  rw [segments, splitSlashes_of_not_mem hx, List.map_singleton, String.ofList_toList]

theorem steps_of_slash_not_mem (hx : '/' ∉ x.toList) : steps x = (ofSegment? x).toList := by
  rw [steps, segments_of_slash_not_mem hx]
  cases hc : ofSegment? x with
  | none => rw [List.filterMap_cons_none hc, List.filterMap_nil, Option.toList_none]
  | some c => rw [List.filterMap_cons_some hc, List.filterMap_nil, Option.toList_some]

theorem steps_append_slash (q x : String) : steps (q ++ "/" ++ x) = steps q ++ steps x := by
  rw [steps, segments_append_slash, List.filterMap_append]
  rfl

theorem steps_slash (q : String) : steps (q ++ "/") = steps q := by
  rw [← String.append_empty (s := q ++ "/"), steps_append_slash]
  exact List.append_nil _

/-- A segment behind a text that ends in a slash adds itself to the steps. -/
theorem steps_append_lead {pre : String} (hpre : IsLead pre) (hx : '/' ∉ x.toList) :
    steps (pre ++ x) = steps pre ++ (ofSegment? x).toList := by
  rcases hpre with rfl | ⟨q, rfl⟩
  · rw [String.empty_append, steps_of_slash_not_mem hx]
    rfl
  · rw [steps_append_slash, steps_slash, steps_of_slash_not_mem hx]

theorem steps_lead (h : ∀ c ∈ cs, c.IsSegment) : steps (lead cs) = cs := by
  rw [lead]
  split
  · rename_i hnil
    rw [hnil]
    rfl
  · rw [steps_slash, steps_ofComponents h]

theorem isAbsolute_ofComponents (h : ∀ c ∈ cs, c.IsSegment) : isAbsolute (ofComponents cs) = false := by
  by_contra hnot
  have hfront := front_ofComponents h
  rw [front, if_pos (by simpa using hnot)] at hfront
  cases hfront

theorem isAbsolute_lead (h : ∀ c ∈ cs, c.IsSegment) : isAbsolute (lead cs) = false := by
  rw [lead]
  split
  · rfl
  · rename_i hne
    have hwritten : ofComponents cs ≠ "" := fun hempty => hne (by
      rw [← steps_ofComponents h, hempty]
      rfl)
    rw [isAbsolute_append_of_ne hwritten, isAbsolute_ofComponents h]

/-- A segment behind a text that does not start at the root does not change that. -/
theorem isAbsolute_append_segment {pre : String} (hpre : isAbsolute pre = false) (hx : '/' ∉ x.toList) :
    isAbsolute (pre ++ x) = false := by
  by_cases hempty : pre = ""
  · rw [hempty, String.empty_append, isAbsolute, beq_eq_false_iff_ne]
    exact fun hhead => hx (List.mem_of_head? hhead)
  · rwa [isAbsolute_append_of_ne hempty]

theorem isAbsolute_ofComponents_root (rest : List Component) :
    isAbsolute (ofComponents (.root :: rest)) = true := by
  rw [isAbsolute, toList_ofComponents]
  rfl

theorem ofComponents_root_ne_empty (rest : List Component) : ofComponents (.root :: rest) ≠ "" := by
  intro hempty
  have := toList_ofComponents rest
  rw [hempty] at this
  cases this

theorem beneath_ne_empty (rest : List Component) : beneath rest ≠ "" := by
  rw [beneath]
  split
  · decide
  · exact fun hempty => absurd (String.append_eq_empty_iff.1 hempty).2 (by decide)

/-- A segment behind a path that is given by its segments. -/
theorem components_beneath (hrest : ∀ c ∈ rest, c.IsSegment) (hx : '/' ∉ x.toList) :
    components (beneath rest ++ x) = .root :: (rest ++ (ofSegment? x).toList) := by
  have hwritten := components_ofComponents hrest
  rw [beneath]
  split
  · rename_i hnil
    rw [components_append_of_endsWith (by decide +kernel), steps_of_slash_not_mem hx, hnil]
    rfl
  · rw [components_append_slash (ofComponents_root_ne_empty rest), hwritten, steps_of_slash_not_mem hx, List.cons_append]

theorem isPlain_beneath {rest : List Component} {x : String} (h : IsPlainRest rest)
    (hx : Component.IsSegment (.name x)) : IsPlain (beneath rest ++ x) := by
  refine ⟨rest ++ [.name x], h.concat_name hx, ?_⟩
  rw [ofComponents_root_concat]
  rfl

/-- A text behind the last segment of a plain path. -/
theorem join_ofComponents (h : IsPlainRest rest) (hx : '/' ∉ x.toList) :
    join (ofComponents (.root :: rest)) x = beneath rest ++ x := by
  have hrelative : isAbsolute x = false := by
    rw [isAbsolute, beq_eq_false_iff_ne]
    exact fun hhead => hx (List.mem_of_head? hhead)
  rw [join, hrelative, Bool.false_or, if_neg (by simpa using ofComponents_root_ne_empty rest),
    IsPlain.endsWith_slash h, beneath]
  by_cases hroot : rest = []
  · rw [if_pos (decide_eq_true hroot), if_pos hroot, hroot]
    rfl
  · rw [if_neg (by simpa using hroot), if_neg hroot]

theorem foldl_normalizeStep_root (h : IsPlainRest rest) :
    (Component.root :: rest).foldl normalizeStep [] = (.root :: rest).reverse := by
  rw [List.foldl_cons]
  exact h.foldl_normalizeStep

/-- Normalizing leaves a plain path as it is. -/
theorem IsPlain.normalize_eq {p : String} (hp : IsPlain p) : normalize p = p := by
  rw [normalize, hp.normalComponents_eq]
  obtain ⟨rest, hrest, rfl⟩ := hp
  rw [IsPlain.components_eq hrest]

end Segments

/-! ## Stems -/

/-- The path without the extension of a module. -/
def withoutExtension (p : String) : String :=
  (moduleExtensions.findSome? (stripSuffix? p ·)).getD p

/-- What a path says without its extension and a final index. -/
def bare (p : String) : String :=
  (stripSuffix? (withoutExtension p) "/index").getD (withoutExtension p)

/-- The same as a path: nothing is left of the index of the root, which stands for the root. -/
def stem (p : String) : String := if bare p = "" then "/" else bare p

theorem slash_not_mem_moduleExtensions : ∀ e ∈ moduleExtensions, '/' ∉ e.toList := by decide

theorem withoutExtension_lead {pre : String} (hpre : IsLead pre) (f : String) :
    withoutExtension (pre ++ f) = pre ++ withoutExtension f := by
  have hfind (es : List String) (hes : ∀ e ∈ es, '/' ∉ e.toList) :
      es.findSome? (stripSuffix? (pre ++ f) ·) = (es.findSome? (stripSuffix? f ·)).map (pre ++ ·) := by
    induction es with
    | nil => rfl
    | cons e es ih =>
      rw [List.findSome?_cons, List.findSome?_cons, stripSuffix?_lead hpre (hes e List.mem_cons_self),
        ih fun e' he' => hes e' (List.mem_cons_of_mem e he')]
      cases stripSuffix? f e <;> rfl
  rw [withoutExtension, withoutExtension, hfind _ slash_not_mem_moduleExtensions]
  cases moduleExtensions.findSome? (stripSuffix? f ·) <;> rfl

/-- A text that ends in a dot or a slash has no extension. -/
def IsBlunt (s : String) : Prop := ∃ x, s = x ++ "." ∨ s = x ++ "/"

/-- What can stand at the end of a text that is not blunt only. -/
def IsSharp (e : String) : Prop :=
  ¬ ".".toList <:+ e.toList ∧ ¬ "/".toList <:+ e.toList ∧ 2 ≤ e.toList.length

instance (e : String) : Decidable (IsSharp e) := inferInstanceAs (Decidable (_ ∧ _ ∧ _))

theorem isSharp_of_mem_moduleExtensions : ∀ e ∈ moduleExtensions, IsSharp e := by decide

theorem IsBlunt.stripSuffix? {s e : String} (h : IsBlunt s) (he : IsSharp e) :
    stripSuffix? s e = none := by
  obtain ⟨hdot, hslash, hlen⟩ := he
  have hlong (a : String) (ha : a.toList.length = 1) : ¬ e.toList <:+ a.toList := fun hsuffix => by
    have := hsuffix.length_le
    omega
  obtain ⟨x, rfl | rfl⟩ := h
  · exact stripSuffix?_append_eq_none hdot (hlong "." rfl)
  · exact stripSuffix?_append_eq_none hslash (hlong "/" rfl)

/-- A blunt text has no extension, and is no index. -/
theorem withoutExtension_of_isBlunt {rel : String} (h : rel = "" ∨ IsBlunt rel) :
    withoutExtension rel = rel ∧ Text.stripSuffix? rel "/index" = none ∧ rel ≠ "index" := by
  rcases h with rfl | h
  · decide +kernel
  · refine ⟨?_, h.stripSuffix? (by decide), ?_⟩
    · rw [withoutExtension, List.findSome?_eq_none_iff.2, Option.getD_none]
      exact fun e he => h.stripSuffix? (isSharp_of_mem_moduleExtensions e he)
    · rintro rfl
      have hnone : Text.stripSuffix? "index" "index" = none := h.stripSuffix? (by decide)
      rw [stripSuffix?_eq_some.2 (String.empty_append ..).symm] at hnone
      cases hnone

/-! ## What is left of a file name -/

section Files

variable {directory target f : String} {init up : List Component}

/-- What is left of a text without its extension stands at the front of it. -/
theorem prefix_withoutExtension (p : String) : (withoutExtension p).toList <+: p.toList := by
  rw [withoutExtension]
  cases hfind : moduleExtensions.findSome? (stripSuffix? p ·) with
  | none => exact List.prefix_refl _
  | some v =>
    obtain ⟨e, -, hv⟩ := List.exists_of_findSome?_eq_some hfind
    rw [stripSuffix?_eq_some.1 hv, Option.getD_some, String.toList_append]
    exact List.prefix_append _ _

theorem slash_not_mem_withoutExtension (hf : '/' ∉ f.toList) : '/' ∉ (withoutExtension f).toList :=
  fun hmem => hf ((prefix_withoutExtension f).subset hmem)

/-- The directory of a path, without the slash behind it. -/
theorem stripSuffix?_beneath (rest : List Component) :
    stripSuffix? (beneath rest) "/" =
      some (if rest = [] then "" else ofComponents (.root :: rest)) := by
  rw [stripSuffix?_eq_some, beneath]
  split <;> rfl

/-- The stem of a file is its directory if the file is an index, and otherwise ends in what is left of
its name. -/
theorem stem_beneath (hf : '/' ∉ f.toList) :
    stem (beneath init ++ f) = if withoutExtension f = "index" then ofComponents (.root :: init)
      else beneath init ++ withoutExtension f := by
  have hbare : bare (beneath init ++ f) = if withoutExtension f = "index" then
      (if init = [] then "" else ofComponents (.root :: init)) else beneath init ++ withoutExtension f := by
    rw [bare, withoutExtension_lead (isLead_beneath init),
      stripSuffix?_index (isLead_beneath init) (slash_not_mem_withoutExtension hf)]
    split
    · rw [stripSuffix?_beneath, Option.getD_some]
    · rw [Option.getD_none]
  rw [stem, hbare]
  by_cases hindex : withoutExtension f = "index"
  · rw [if_pos hindex, if_pos hindex]
    by_cases hinit : init = []
    · rw [if_pos hinit, if_pos rfl, hinit]
      rfl
    · rw [if_neg hinit, if_neg (ofComponents_root_ne_empty init)]
  · have hne : beneath init ++ withoutExtension f ≠ "" := fun hempty =>
      beneath_ne_empty init (String.append_eq_empty_iff.1 hempty).1
    rw [if_neg hindex, if_neg hindex, if_neg hne]

theorem exists_beneath_index (rest : List Component) : ∃ x, beneath rest ++ "index" = x ++ "/index" := by
  have hstrip := stripSuffix?_index (isLead_beneath rest) (show '/' ∉ "index".toList by decide)
  rw [if_pos rfl, stripSuffix?_beneath] at hstrip
  exact ⟨_, stripSuffix?_eq_some.1 hstrip⟩

end Files

/-! ## Extensions that are put back -/

theorem exists_eq_append_withoutExtension {p : String} (h : ∃ e ∈ moduleExtensions, ∃ x, p = x ++ e) :
    ∃ e ∈ moduleExtensions, p = withoutExtension p ++ e := by
  rw [withoutExtension]
  cases hfind : moduleExtensions.findSome? (stripSuffix? p ·) with
  | none =>
    obtain ⟨e, he, x, hx⟩ := h
    have hnone := List.findSome?_eq_none_iff.1 hfind e he
    rw [stripSuffix?_eq_some.2 hx] at hnone
    cases hnone
  | some v =>
    obtain ⟨e, he, hv⟩ := List.exists_of_findSome?_eq_some hfind
    exact ⟨e, he, stripSuffix?_eq_some.1 hv⟩

/-- An extension that is put behind a text is the one that is taken away again. Only a text that ends in
`.d` looks like declarations afterwards. -/
theorem withoutExtension_append {b e : String} (he : e ∈ [".ts", ".tsx", ".d.ts"])
    (hb : e = ".ts" → ∀ x, b ≠ x ++ ".d") : withoutExtension (b ++ e) = b := by
  have hself : stripSuffix? (b ++ e) e = some b := stripSuffix?_eq_some.2 rfl
  have hother {e' : String} (h : ¬ e.toList <:+ e'.toList) (h' : ¬ e'.toList <:+ e.toList) :
      stripSuffix? (b ++ e) e' = none := stripSuffix?_append_eq_none h h'
  rw [withoutExtension, moduleExtensions]
  simp only [List.mem_cons, List.not_mem_nil, or_false] at he
  rcases he with rfl | rfl | rfl
  · have hdeclared : stripSuffix? (b ++ ".ts") ".d.ts" = none := by
      rw [Option.eq_none_iff_forall_ne_some]
      intro x hx
      have heq : b ++ ".ts" = x ++ ".d" ++ ".ts" := by
        rw [stripSuffix?_eq_some.1 hx, String.append_assoc]
        rfl
      exact hb rfl x (eq_of_append_eq heq)
    rw [List.findSome?_cons, hdeclared, List.findSome?_cons, hother (by decide) (by decide),
      List.findSome?_cons, hother (by decide) (by decide), List.findSome?_cons,
      hother (by decide) (by decide), List.findSome?_cons, hself]
    rfl
  · rw [List.findSome?_cons, hother (by decide) (by decide), List.findSome?_cons,
      hother (by decide) (by decide), List.findSome?_cons, hother (by decide) (by decide),
      List.findSome?_cons, hself]
    rfl
  · rw [List.findSome?_cons, hself]
    rfl

theorem join_append {base x y : String} (hx : x ≠ "") : join base (x ++ y) = join base x ++ y := by
  rw [join, join, isAbsolute_append_of_ne hx]
  split
  · rfl
  · split <;> simp only [String.append_assoc]

/-- A file by its directory and its name. -/
structure IsFile (target : String) (init : List Component) (f : String) : Prop where
  eq : target = ofComponents (.root :: (init ++ [.name f]))
  plain : IsPlainRest (init ++ [.name f])

/-- A path that has an extension ends in a name. -/
theorem exists_isFile {target : String} (hplain : IsPlain target)
    (hsource : ∃ e ∈ moduleExtensions, ∃ x, target = x ++ e) : ∃ init f, IsFile target init f := by
  have hblunt : ¬ IsBlunt target := by
    obtain ⟨e, he, x, hx⟩ := hsource
    intro hblunt
    have hnone := hblunt.stripSuffix? (isSharp_of_mem_moduleExtensions e he)
    rw [stripSuffix?_eq_some.2 hx] at hnone
    cases hnone
  obtain ⟨rest, hrest, rfl⟩ := hplain
  rcases List.eq_nil_or_concat' rest with rfl | ⟨init, last, rfl⟩
  · exact absurd ⟨"", .inr rfl⟩ hblunt
  · have hlast := hrest.segment last (List.mem_append_right _ List.mem_cons_self)
    rcases hlast.eq_parent_or_name with rfl | ⟨f, rfl⟩
    · refine absurd ⟨beneath init ++ ".", .inl ?_⟩ hblunt
      rw [ofComponents_root_concat, String.append_assoc]
      rfl
    · exact ⟨init, f, rfl, hrest⟩

namespace IsFile

variable {target f : String} {init : List Component}

theorem noSlash (h : IsFile target init f) : '/' ∉ f.toList :=
  (h.plain.segment (.name f) (List.mem_append_right _ List.mem_cons_self)).noSlash

theorem components_eq (h : IsFile target init f) :
    components target = .root :: (init ++ [.name f]) := by
  rw [h.eq, components_ofComponents h.plain.segment]

theorem eq_beneath (h : IsFile target init f) : target = beneath init ++ f := by
  rw [h.eq, ofComponents_root_concat]
  rfl

theorem withoutExtension_eq (h : IsFile target init f) :
    withoutExtension target = beneath init ++ withoutExtension f := by
  rw [h.eq_beneath, withoutExtension_lead (isLead_beneath init)]

theorem stem_eq (h : IsFile target init f) :
    stem target = if withoutExtension f = "index" then ofComponents (.root :: init)
      else beneath init ++ withoutExtension f := by
  rw [h.eq_beneath]
  exact stem_beneath h.noSlash

theorem isAbsolute_stem (h : IsFile target init f) : isAbsolute (stem target) = true := by
  have hbeneath : isAbsolute (beneath init) = true := by
    rw [beneath]
    split
    · decide
    · exact isAbsolute_append (isAbsolute_ofComponents_root init) _
  rw [h.stem_eq]
  split
  · exact isAbsolute_ofComponents_root init
  · exact isAbsolute_append hbeneath _

end IsFile

/-- What normalizing makes of a path whose last segment may be no name. -/
theorem normalComponents_beneath {init : List Component} {g : String} (h : IsPlainRest init)
    (hg : '/' ∉ g.toList) :
    normalComponents (beneath init ++ g) =
      ((ofSegment? g).toList.foldl normalizeStep (.root :: init).reverse).reverse := by
  rw [normalComponents, components_beneath h.segment hg, ← List.cons_append, List.foldl_append,
    foldl_normalizeStep_root h]

theorem ofSegment?_declared (g : String) : ofSegment? (g ++ ".d") = some (.name (g ++ ".d")) := by
  have hempty : (g ++ ".d" == "") = false := by
    rw [beq_eq_false_iff_ne]
    exact fun h => absurd (String.append_eq_empty_iff.1 h).2 (by decide)
  have hdot : (g ++ ".d" == ".") = false := by
    rw [beq_eq_false_iff_ne]
    exact append_ne_append (b := "") (y := ".") (by decide) (by decide)
  have hdots : (g ++ ".d" == "..") = false := by
    rw [beq_eq_false_iff_ne]
    exact append_ne_append (b := "") (y := "..") (by decide) (by decide)
  rw [ofSegment?, hempty, hdot, hdots]
  rfl

/-- Normalizing does not put `.d` behind a path. -/
theorem normalize_ne_declared {init : List Component} {g : String} (h : IsPlainRest init)
    (hg : '/' ∉ g.toList) :
    normalize (beneath init ++ g) ≠ beneath init ++ (g ++ ".d") := by
  intro heq
  have hgd : '/' ∉ (g ++ ".d").toList := by
    rw [String.toList_append, List.mem_append, not_or]
    exact ⟨hg, by decide⟩
  have hcomponents := congrArg components heq
  rw [components_normalize, components_beneath h.segment hgd, ofSegment?_declared,
    normalComponents_beneath h hg, ← List.reverse_inj, List.reverse_reverse, Option.toList_some,
    ← List.cons_append, List.reverse_append, List.reverse_singleton, List.singleton_append] at hcomponents
  cases hc : ofSegment? g with
  | none =>
    rw [hc] at hcomponents
    exact List.cons_ne_self _ _ hcomponents.symm
  | some c =>
    have htext := Component.text_of_ofSegment? hc
    have hsegment : c.IsSegment := ⟨htext.symm ▸ hc, htext.symm ▸ hg⟩
    rw [hc] at hcomponents
    rcases hsegment.eq_parent_or_name with rfl | ⟨x, rfl⟩
    · rcases List.eq_nil_or_concat' init with rfl | ⟨before, d, rfl⟩
      · cases hcomponents
      · -- the last segment is taken back
        have hd := h.segment d (List.mem_append_right _ List.mem_cons_self)
        have hback : normalizeStep (.root :: (before ++ [d])).reverse .parent =
            (.root :: before).reverse := by
          rw [← List.cons_append, List.reverse_append]
          rcases hd.eq_parent_or_name with rfl | ⟨y, rfl⟩ <;> rfl
        have hlen := congrArg List.length (hback.symm.trans hcomponents)
        simp only [List.length_reverse, List.length_cons, List.length_append, List.length_nil] at hlen
        omega
    · have hname := Component.name.inj (List.cons.inj hcomponents).1
      have hlen := congrArg String.length (htext.symm.trans hname)
      rw [String.length_append] at hlen
      exact absurd hlen (by simp)

/-- The directory of a plain path is given by its segments. -/
theorem exists_components_directory {p : String} (hp : IsPlain p) :
    ∃ up, components ((parent? p).getD "/") = .root :: up ∧ IsPlainRest up := by
  have habs := hp.isAbsolute
  cases hd : parent? p with
  | none => exact ⟨[], by decide, .nil⟩
  | some d =>
    have hcomponents := components_parent? habs hd
    obtain ⟨rest, hrest, rfl⟩ := hp
    rw [IsPlain.components_eq hrest] at hcomponents
    rcases List.eq_nil_or_concat' rest with rfl | ⟨before, c, rfl⟩
    · have hroot := components_of_isAbsolute (isAbsolute_parent? habs hd)
      rw [hcomponents] at hroot
      cases hroot
    · rw [← List.cons_append, List.dropLast_concat] at hcomponents
      exact ⟨before, hcomponents, hrest.of_append⟩

/-- How a file stands to its stem: an extension is put behind it, or an index is put below it. -/
inductive Stemmed (target e : String) : Prop where
  | named (eq : target = stem target ++ e) (whole : withoutExtension target = stem target)
      (apart : ∀ x, stem target ≠ x ++ "/index")
  | index {rest : List Component} (plain : IsPlainRest rest)
      (directory : stem target = ofComponents (.root :: rest)) (eq : target = beneath rest ++ "index" ++ e)
      (inside : withoutExtension target = beneath rest ++ "index")

theorem IsFile.stemmed {target f : String} {init : List Component} (h : IsFile target init f)
    (hsource : ∃ e ∈ moduleExtensions, ∃ x, target = x ++ e) :
    ∃ e ∈ moduleExtensions, Stemmed target e := by
  obtain ⟨e, he, heq⟩ := exists_eq_append_withoutExtension hsource
  have hwithout := h.withoutExtension_eq
  have hstem := h.stem_eq
  refine ⟨e, he, ?_⟩
  by_cases hindex : withoutExtension f = "index"
  · rw [if_pos hindex] at hstem
    rw [hindex] at hwithout
    exact .index h.plain.of_append hstem (hwithout ▸ heq) hwithout
  · rw [if_neg hindex, ← hwithout] at hstem
    refine .named (hstem ▸ heq) hstem.symm fun x hx => ?_
    have hstrip := stripSuffix?_index (isLead_beneath init) (slash_not_mem_withoutExtension h.noSlash)
    rw [← hwithout, ← hstem, hx, if_neg hindex, stripSuffix?_eq_some.2 rfl] at hstrip
    cases hstrip

theorem length_le_beneath (rest : List Component) :
    (ofComponents (.root :: rest)).length ≤ (beneath rest).length := by
  rw [beneath]
  split
  · rename_i hnil
    rw [hnil]
    decide
  · rw [String.length_append]
    exact Nat.le_add_right _ _

/-- The stem of a file is shorter than the file. -/
theorem Stemmed.length_lt {target e : String} (h : Stemmed target e) (he : e ∈ moduleExtensions) :
    (stem target).length < target.length := by
  have hlen : ∀ e ∈ moduleExtensions, 0 < e.length := by decide
  cases h with
  | named eq whole apart =>
    have := congrArg String.length eq
    rw [String.length_append] at this
    have := hlen e he
    omega
  | @index rest plain directory eq inside =>
    have := congrArg String.length eq
    rw [String.length_append, String.length_append] at this
    have := hlen e he
    have := length_le_beneath rest
    rw [directory]
    omega

end DeclKit.Path

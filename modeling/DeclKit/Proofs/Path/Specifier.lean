/-
What a module specifier says.

A specifier is the way from a directory to a file without the ending of the file, and without `index` if
that is all that is left of its name. Seen from the directory it leads to the stem of the file, or to
what normalizing makes of it.
-/
import DeclKit.Proofs.Path.Stem
import DeclKit.Program.Host

set_option autoImplicit false

namespace DeclKit.Path

open Text (stripSuffix? stripSuffix?_eq_some)

section Ways

variable {cs rest : List Component} {c : Component} {x : String}

/-! ## Ways from a directory -/

/-- A text, taken from a directory, leads to a path that is given by its segments. -/
structure LeadsTo (directory pre : String) (rest : List Component) : Prop where
  isLead : IsLead pre
  isRelative : isAbsolute pre = false
  plain : IsPlainRest rest
  reaches : (components directory ++ steps pre).foldl normalizeStep [] = (.root :: rest).reverse

/-- A segment behind such a text is taken from that path. -/
theorem LeadsTo.normalComponents {directory pre : String} (h : LeadsTo directory pre rest)
    (hdirectory : directory ≠ "") (hx : '/' ∉ x.toList) :
    normalComponents (join directory (pre ++ x)) = normalComponents (beneath rest ++ x) := by
  rw [Path.normalComponents, Path.normalComponents,
    components_join (isAbsolute_append_segment h.isRelative hx) hdirectory,
    steps_append_lead h.isLead hx, components_beneath h.plain.segment hx, ← List.append_assoc,
    List.foldl_append, h.reaches, ← List.cons_append, List.foldl_append,
    foldl_normalizeStep_root h.plain]

theorem LeadsTo.normalize {directory pre : String} (h : LeadsTo directory pre rest)
    (hdirectory : directory ≠ "") (hx : '/' ∉ x.toList) :
    normalize (join directory (pre ++ x)) = Path.normalize (beneath rest ++ x) := by
  rw [Path.normalize, Path.normalize, h.normalComponents hdirectory hx]

/-- Some levels up and some segments behind them. -/
theorem isSegment_way {mid : List Component} (n : Nat) (hmid : ∀ c ∈ mid, c.IsSegment) :
    ∀ c ∈ List.replicate n .parent ++ mid, c.IsSegment := by
  intro c hc
  rcases List.mem_append.1 hc with hc | hc
  · rw [List.eq_of_mem_replicate hc]
    exact Component.isSegment_parent
  · exact hmid c hc

/-- As many levels up as segments have been read take these back. -/
theorem foldl_normalizeStep_parents {out base : List Component} (hout : ∀ c ∈ out, c.IsSegment) :
    (List.replicate out.length Component.parent).foldl normalizeStep (out ++ base) = base := by
  induction out with
  | nil => rfl
  | cons c out ih =>
    have hstep : normalizeStep (c :: out ++ base) .parent = out ++ base := by
      rcases (hout c List.mem_cons_self).eq_parent_or_name with rfl | ⟨s, rfl⟩ <;> rfl
    rw [List.length_cons, List.replicate_succ, List.foldl_cons, hstep]
    exact ih fun d hd => hout d (List.mem_cons_of_mem c hd)

/-- What two lists share contains every front of both. -/
theorem prefix_sharedFront {front as bs : List Component} (ha : front <+: as) (hb : front <+: bs) :
    front <+: sharedFront as bs := by
  induction front generalizing as bs with
  | nil => exact List.nil_prefix
  | cons c front ih =>
    obtain ⟨as', rfl⟩ := ha
    obtain ⟨bs', rfl⟩ := hb
    rw [List.cons_append, List.cons_append, sharedFront, if_pos (beq_self_eq_true c)]
    exact List.cons_prefix_cons.2 ⟨rfl, ih (List.prefix_append _ _) (List.prefix_append _ _)⟩

/-- The way from a directory to a path goes up to the last directory of both and down from there. -/
theorem relative_spec {directory target : String} {up down : List Component}
    (hdirectory : components directory = .root :: up) (hup : ∀ c ∈ up, c.IsSegment)
    (htarget : components target = .root :: down) (hdown : ∀ c ∈ down, c.IsSegment) :
    ∃ shared more rest, up = shared ++ more ∧ down = shared ++ rest ∧
      (∀ front, front <+: up → front <+: down → front <+: shared) ∧
      relative directory target =
        ofComponents (List.replicate more.length .parent ++ rest) := by
  have hfront (front : List Component) (hu : front <+: up) (hd : front <+: down) :
      front <+: sharedFront up down := prefix_sharedFront hu hd
  obtain ⟨more, hmore⟩ := sharedFront_prefix_left up down
  obtain ⟨rest, hrest⟩ := sharedFront_prefix_right up down
  have hrelative : relative directory target = "/".intercalate
      (List.replicate (up.length - (sharedFront up down).length) ".." ++
        (down.drop (sharedFront up down).length).map Component.text) := by
    rw [relative, hdirectory, htarget, sharedFront, if_pos (beq_self_eq_true _),
      List.length_cons, List.length_cons, Nat.add_sub_add_right, List.drop_succ_cons]
  generalize sharedFront up down = shared at *
  subst hmore hrest
  refine ⟨shared, more, rest, rfl, rfl, hfront, ?_⟩
  have hsegments := isSegment_way more.length fun c hc => hdown c (List.mem_append_right shared hc)
  rw [hrelative, ofComponents_segments hsegments, List.length_append, Nat.add_sub_cancel_left,
    List.drop_left, List.map_append, List.map_replicate]
  rfl

/-- The way that goes up and down again leads to where it goes. -/
theorem leadsTo_lead {directory : String} {shared more rest : List Component}
    (hdirectory : components directory = .root :: (shared ++ more))
    (hup : IsPlainRest (shared ++ more)) (hdown : IsPlainRest (shared ++ rest)) :
    LeadsTo directory (lead (List.replicate more.length .parent ++ rest)) (shared ++ rest) := by
  have hsegments := isSegment_way more.length fun c hc =>
    hdown.segment c (List.mem_append_right shared hc)
  refine ⟨isLead_lead _, isAbsolute_lead hsegments, hdown, ?_⟩
  have hshared : shared.foldl normalizeStep [.root] = (.root :: shared).reverse :=
    hup.of_append.foldl_normalizeStep
  have hrest := hdown.foldl_normalizeStep
  rw [List.foldl_append, hshared] at hrest
  have hback : (List.replicate more.length Component.parent).foldl normalizeStep
      (more.reverse ++ (.root :: shared).reverse) = (.root :: shared).reverse := by
    rw [show more.length = more.reverse.length from List.length_reverse.symm]
    refine foldl_normalizeStep_parents fun c hc => ?_
    exact hup.segment c (List.mem_append_right _ (List.mem_reverse.1 hc))
  rw [hdirectory, steps_lead hsegments, List.foldl_append, foldl_normalizeStep_root hup,
    ← List.cons_append, List.reverse_append, List.foldl_append, hback]
  exact hrest

/-- The way that only goes up leads to the directory at which it stops. -/
theorem leadsTo_up {directory : String} {shared more : List Component}
    (hdirectory : components directory = .root :: (shared ++ more)) (hup : IsPlainRest (shared ++ more)) :
    LeadsTo directory (lead (List.replicate more.length .parent)) shared := by
  have hdown : IsPlainRest (shared ++ []) := by
    rw [List.append_nil]
    exact hup.of_append
  have hlead := leadsTo_lead hdirectory hup hdown
  rwa [List.append_nil, List.append_nil] at hlead

end Ways

/-! ## Specifiers -/

/-- A way as a specifier, which starts with a dot. -/
def dotted (rel : String) : String :=
  if rel.startsWith "../" || rel == ".." || rel == "." then rel else "./" ++ rel

theorem moduleSpecifier_eq {directory target rel : String}
    (h : withoutExtension (relative directory target) = rel) :
    moduleSpecifier directory target =
      dotted ((stripSuffix? rel "/index").getD (if rel == "index" then "." else rel)) := by
  rw [withoutExtension] at h
  rw [moduleSpecifier, h]
  cases stripSuffix? rel "/index" with
  | none => rw [Option.getD_none, dotted]
  | some front => rw [Option.getD_some, dotted]

theorem dotted_cases (rel : String) : dotted rel = rel ∨ dotted rel = "./" ++ rel := by
  rw [dotted]
  split
  · exact .inl rfl
  · exact .inr rfl

theorem isRelative_dotted (rel : String) : Module.isRelative (dotted rel) = true := by
  rw [dotted, Module.isRelative]
  split
  · rename_i hdots
    simp only [Bool.or_eq_true] at hdots ⊢
    tauto
  · have hstart : ("./" ++ rel).startsWith "./" = true := by
      rw [← String.startsWith_toSlice]
      simp
    rw [hstart]
    simp

theorem IsBlunt.dot {rel : String} (h : rel = "" ∨ IsBlunt rel) : IsBlunt ("./" ++ rel) := by
  rcases h with rfl | ⟨x, rfl | rfl⟩
  · exact ⟨".", .inr rfl⟩
  · exact ⟨"./" ++ x, .inl (String.append_assoc ..).symm⟩
  · exact ⟨"./" ++ x, .inr (String.append_assoc ..).symm⟩

theorem isBlunt_dotted {rel : String} (h : rel = "" ∨ IsBlunt rel) : IsBlunt (dotted rel) := by
  rcases dotted_cases rel with heq | heq
  · rcases h with rfl | h
    · rw [show dotted "" = "./" ++ "" by decide +kernel]
      exact .dot (.inl rfl)
    · rwa [heq]
  · rw [heq]
    exact .dot h

/-- Levels up are written as dots. -/
theorem isBlunt_parents (n : Nat) :
    ofComponents (List.replicate n .parent) = "" ∨ IsBlunt (ofComponents (List.replicate n .parent)) := by
  cases n with
  | zero => exact .inl rfl
  | succ n =>
    have hsegments : ∀ c ∈ List.replicate n Component.parent ++ [.parent], c.IsSegment := by
      intro c hc
      rw [← List.replicate_succ'] at hc
      rw [List.eq_of_mem_replicate hc]
      exact Component.isSegment_parent
    refine .inr ⟨lead (List.replicate n .parent) ++ ".", .inl ?_⟩
    rw [List.replicate_succ', ofComponents_segments_concat hsegments, String.append_assoc]
    rfl

theorem steps_dotted (rel : String) : steps (dotted rel) = steps rel := by
  rcases dotted_cases rel with heq | heq
  · rw [heq]
  · rw [heq]
    exact steps_append_slash "." rel

theorem isAbsolute_dotted {rel : String} (h : isAbsolute rel = false) :
    isAbsolute (dotted rel) = false := by
  rcases dotted_cases rel with heq | heq
  · rwa [heq]
  · rw [heq, isAbsolute_append_of_ne (by decide)]
    decide

/-- A way that is written with a dot in front leads to the same place. -/
theorem LeadsTo.dotted {directory pre z : String} {rest : List Component}
    (h : LeadsTo directory pre rest) :
    ∃ pre', dotted (pre ++ z) = pre' ++ z ∧ LeadsTo directory pre' rest := by
  rcases dotted_cases (pre ++ z) with heq | heq
  · exact ⟨pre, heq, h⟩
  · refine ⟨"./" ++ pre, by rw [heq, String.append_assoc], ?_, ?_, h.plain, ?_⟩
    · rcases h.isLead with rfl | ⟨q, rfl⟩
      · exact .inr ⟨".", rfl⟩
      · exact .inr ⟨"./" ++ q, (String.append_assoc ..).symm⟩
    · rw [isAbsolute_append_of_ne (by decide)]
      decide
    · rw [show steps ("./" ++ pre) = steps pre from steps_append_slash "." pre]
      exact h.reaches

/-- A way that goes on with the steps of another leads to the same place, dotted or not. -/
theorem LeadsTo.lands {directory rel : String} {cs rest : List Component}
    (h : LeadsTo directory (lead cs) rest) (hdirectory : directory ≠ "")
    (hcs : ∀ c ∈ cs, c.IsSegment) (habs : isAbsolute rel = false) (hrel : steps rel = cs) :
    Path.normalComponents (join directory (Path.dotted rel)) = .root :: rest := by
  have hreaches := h.reaches
  rw [steps_lead hcs, ← hrel] at hreaches
  rw [Path.normalComponents, components_join (isAbsolute_dotted habs) hdirectory, steps_dotted,
    hreaches, List.reverse_reverse]

/-- The file is an index of the directory, or of one above it. A specifier for it goes up at most. -/
def Encloses (directory target : String) : Prop :=
  (∃ front, withoutExtension target = front ++ "/index") ∧ isUnder directory (stem target) = true

/-- How a specifier reads that is taken from a directory. -/
inductive Specified (directory target : String) : String → Prop where
  /-- The way to a file at or above the directory only goes up. -/
  | above {spec : String} (above : isUnder directory target = true) (blunt : IsBlunt spec)
      (relative : isAbsolute spec = false)
      (lands : normalComponents (join directory spec) = components target) :
      Specified directory target spec
  /-- So does the way to an index of the directory or of one above it. -/
  | enclosing (below : isUnder directory target = false) (encloses : Encloses directory target)
      {spec : String} (blunt : IsBlunt spec) (relative : isAbsolute spec = false)
      (lands : normalComponents (join directory spec) = components (stem target)) :
      Specified directory target spec
  /-- Every other way ends in the last segment of the stem. -/
  | named (below : isUnder directory target = false) (apart : ¬ Encloses directory target)
      {pre z : String} {rest : List Component} (leads : LeadsTo directory pre rest)
      (segment : '/' ∉ z.toList) (stem_eq : stem target = beneath rest ++ z) :
      Specified directory target (pre ++ z)

/-- A way to an index leads to its directory. -/
theorem getD_lead_index (cs : List Component) :
    (stripSuffix? (lead cs ++ "index") "/index").getD
      (if lead cs ++ "index" == "index" then "." else lead cs ++ "index") =
        if cs = [] then "." else ofComponents cs := by
  rw [stripSuffix?_index (isLead_lead cs) (by decide), if_pos rfl, lead]
  by_cases hcs : cs = []
  · rw [if_pos hcs, if_pos hcs]
    rfl
  · rw [if_neg hcs, if_neg hcs, stripSuffix?_eq_some.2 rfl, Option.getD_some]

/-- A way to any other file is left as it is. -/
theorem getD_lead_of_ne {cs : List Component} {w : String} (hw : '/' ∉ w.toList)
    (hne : w ≠ "index") :
    (stripSuffix? (lead cs ++ w) "/index").getD
      (if lead cs ++ w == "index" then "." else lead cs ++ w) = lead cs ++ w := by
  rw [stripSuffix?_index (isLead_lead cs) hw, if_neg hne, Option.getD_none, if_neg]
  intro heq
  have hstrip := stripSuffix?_lead (w := w) (isLead_lead cs) (show '/' ∉ "index".toList by decide)
  rw [eq_of_beq heq, stripSuffix?_eq_some.2 (String.empty_append ..).symm] at hstrip
  obtain ⟨v, hv, hlead⟩ := Option.map_eq_some_iff.1 hstrip.symm
  rw [stripSuffix?_eq_some.1 hv, (String.append_eq_empty_iff.1 hlead).2] at hne
  exact hne (String.empty_append ..)

/-! ## Where a directory and a file part -/

/-- A directory and a file below the root, by what they share and what is left of either. -/
structure Parted (directory target : String) (shared more mid : List Component) (f : String) :
    Prop where
  directory_eq : components directory = .root :: (shared ++ more)
  plain : IsPlainRest (shared ++ more)
  file : IsFile target (shared ++ mid) f
  /-- They share no more than that. -/
  greatest : ∀ front ≠ [], shared ++ front <+: shared ++ mid ++ [.name f] →
    ¬ shared ++ front <+: shared ++ more
  relative_eq : relative directory target =
    ofComponents (List.replicate more.length .parent ++ mid ++ [.name f])

theorem isUnder_iff {directory p : String} {up cs : List Component}
    (hdirectory : components directory = .root :: up) (hp : components p = .root :: cs) :
    isUnder directory p = true ↔ cs <+: up := by
  rw [isUnder, hp, hdirectory, List.isPrefixOf_iff_prefix, List.cons_prefix_cons]
  exact ⟨fun h => h.2, fun h => ⟨rfl, h⟩⟩

/-- The way to a file at or above the directory only goes up. -/
theorem specified_above {directory target : String} {shared more : List Component}
    (hdirectory : components directory = .root :: (shared ++ more))
    (hup : IsPlainRest (shared ++ more)) (htarget : components target = .root :: shared)
    (hrelative : relative directory target = ofComponents (List.replicate more.length .parent)) :
    Specified directory target (moduleSpecifier directory target) := by
  have hne : directory ≠ "" := by
    rintro rfl
    cases hdirectory
  have hlead := leadsTo_up hdirectory hup
  have hcs : ∀ c ∈ List.replicate more.length Component.parent, c.IsSegment := fun c hc =>
    List.eq_of_mem_replicate hc ▸ Component.isSegment_parent
  have hblunt := isBlunt_parents more.length
  obtain ⟨hext, hstrip, hindex⟩ := withoutExtension_of_isBlunt hblunt
  rw [← hrelative] at hext
  rw [moduleSpecifier_eq (hext.trans hrelative), hstrip, Option.getD_none,
    if_neg (by simpa using hindex)]
  refine .above ?_ (isBlunt_dotted hblunt) (isAbsolute_dotted (isAbsolute_ofComponents hcs)) ?_
  · exact (isUnder_iff hdirectory htarget).2 (List.prefix_append _ _)
  · rw [htarget]
    exact hlead.lands hne hcs (isAbsolute_ofComponents hcs) (steps_ofComponents hcs)

namespace Parted

variable {directory target f : String} {shared more mid : List Component}

theorem plainMid (h : Parted directory target shared more mid f) : IsPlainRest (shared ++ mid) :=
  h.file.plain.of_append

theorem isSegment_mid (h : Parted directory target shared more mid f) : ∀ c ∈ mid, c.IsSegment :=
  fun c hc => h.plainMid.segment c (List.mem_append_right _ hc)

theorem ne_empty (h : Parted directory target shared more mid f) : directory ≠ "" := by
  rintro rfl
  cases h.directory_eq

theorem below (h : Parted directory target shared more mid f) : isUnder directory target = false := by
  rw [Bool.eq_false_iff, ne_eq, isUnder_iff h.directory_eq h.file.components_eq,
    List.append_assoc]
  exact h.greatest _ (by simp) (List.append_assoc .. ▸ List.prefix_refl _)

/-- The way to the file, without its extension. -/
theorem withoutExtension_relative (h : Parted directory target shared more mid f) :
    withoutExtension (relative directory target) =
      lead (List.replicate more.length .parent ++ mid) ++ withoutExtension f := by
  have hplain := h.file.plain
  rw [List.append_assoc] at hplain
  have hdown : ∀ c ∈ mid ++ [.name f], c.IsSegment := fun c hc =>
    hplain.segment c (List.mem_append_right _ hc)
  have hsegments := isSegment_way more.length hdown
  rw [← List.append_assoc] at hsegments
  rw [h.relative_eq, ofComponents_segments_concat hsegments, Component.text,
    withoutExtension_lead (isLead_lead _)]

/-- An index in the directory or in one above it. -/
theorem specified_enclosing (h : Parted directory target shared more [] f)
    (hindex : withoutExtension f = "index") :
    Specified directory target (moduleSpecifier directory target) := by
  have hext := h.withoutExtension_relative
  have hwithout := h.file.withoutExtension_eq
  have hstem := h.file.stem_eq
  rw [if_pos hindex] at hstem
  rw [hindex] at hext hwithout
  rw [List.append_nil] at hext hwithout hstem
  have hshared : IsPlainRest shared := h.plain.of_append
  have hstemmed : components (stem target) = .root :: shared := by
    rw [hstem, components_ofComponents hshared.segment]
  have hstrip : stripSuffix? (withoutExtension target) "/index" =
      some (if shared = [] then "" else ofComponents (.root :: shared)) := by
    rw [hwithout, stripSuffix?_index (isLead_beneath _) (by decide), if_pos rfl, stripSuffix?_beneath]
  have hencloses : Encloses directory target :=
    ⟨⟨_, stripSuffix?_eq_some.1 hstrip⟩,
      (isUnder_iff h.directory_eq hstemmed).2 (List.prefix_append _ _)⟩
  have hlead := leadsTo_up h.directory_eq h.plain
  have hcs : ∀ c ∈ List.replicate more.length Component.parent, c.IsSegment := fun c hc =>
    List.eq_of_mem_replicate hc ▸ Component.isSegment_parent
  rw [moduleSpecifier_eq hext, getD_lead_index]
  split
  · -- the index of the directory itself
    rename_i hnil
    rw [hnil] at hcs hlead
    refine .enclosing h.below hencloses (isBlunt_dotted (.inr ⟨"", .inl rfl⟩))
      (isAbsolute_dotted (by decide)) ?_
    rw [hstemmed]
    exact hlead.lands h.ne_empty hcs (by decide) (by decide +kernel)
  · have hblunt := isBlunt_parents more.length
    refine .enclosing h.below hencloses (isBlunt_dotted hblunt)
      (isAbsolute_dotted (isAbsolute_ofComponents hcs)) ?_
    rw [hstemmed]
    exact hlead.lands h.ne_empty hcs (isAbsolute_ofComponents hcs) (steps_ofComponents hcs)

/-- An index of a directory elsewhere is named by that directory. -/
theorem specified_index {last : Component} (h : Parted directory target shared more (mid ++ [last]) f)
    (hindex : withoutExtension f = "index") :
    Specified directory target (moduleSpecifier directory target) := by
  have hext := h.withoutExtension_relative
  have hstem := h.file.stem_eq
  rw [if_pos hindex] at hstem
  rw [hindex] at hext
  have hplain := h.plainMid
  rw [← List.append_assoc] at hplain hstem
  have hlast : last.IsSegment := hplain.segment last (List.mem_append_right _ List.mem_cons_self)
  have hopen : ¬ Encloses directory target := by
    rintro ⟨-, hund⟩
    rw [hstem, isUnder_iff h.directory_eq (components_ofComponents hplain.segment),
      List.append_assoc] at hund
    exact h.greatest _ (by simp) (List.prefix_append _ _) hund
  have hsegments := isSegment_way more.length h.isSegment_mid
  rw [← List.append_assoc] at hsegments hext
  rw [moduleSpecifier_eq hext, getD_lead_index, if_neg (by simp),
    ofComponents_segments_concat hsegments]
  obtain ⟨pre, hpre, hleads⟩ :=
    (leadsTo_lead h.directory_eq h.plain hplain.of_append).dotted (z := last.text)
  rw [hpre]
  refine .named h.below hopen hleads hlast.noSlash ?_
  rw [hstem, ofComponents_root_concat]

/-- Any other file is named by what is left of its name. -/
theorem specified_named (h : Parted directory target shared more mid f)
    (hindex : withoutExtension f ≠ "index") :
    Specified directory target (moduleSpecifier directory target) := by
  have hw := slash_not_mem_withoutExtension h.file.noSlash
  have hstem := h.file.stem_eq
  rw [if_neg hindex] at hstem
  have hopen : ¬ Encloses directory target := by
    rintro ⟨⟨front, hfront⟩, -⟩
    have hstrip := stripSuffix?_index (isLead_beneath (shared ++ mid)) hw
    rw [← h.file.withoutExtension_eq, if_neg hindex, hfront, stripSuffix?_eq_some.2 rfl] at hstrip
    cases hstrip
  rw [moduleSpecifier_eq h.withoutExtension_relative, getD_lead_of_ne hw hindex]
  obtain ⟨pre, hpre, hleads⟩ :=
    (leadsTo_lead h.directory_eq h.plain h.plainMid).dotted (z := withoutExtension f)
  rw [hpre]
  exact .named h.below hopen hleads hw hstem

end Parted

/-- A specifier is the way to the file, without what its name does not say. -/
theorem specified_moduleSpecifier {directory target f : String} {init up : List Component}
    (hdirectory : components directory = .root :: up) (hup : IsPlainRest up)
    (hfile : IsFile target init f) :
    Specified directory target (moduleSpecifier directory target) := by
  obtain ⟨shared, more, rest, rfl, hdown, hgreatest, hrelative⟩ :=
    relative_spec hdirectory hup.segment hfile.components_eq hfile.plain.segment
  rcases List.eq_nil_or_concat' rest with rfl | ⟨mid, last, rfl⟩
  · rw [List.append_nil] at hrelative hdown
    exact specified_above hdirectory hup (hdown ▸ hfile.components_eq) hrelative
  · rw [← List.append_assoc] at hdown hrelative
    obtain ⟨rfl, hlast⟩ := List.append_inj' hdown rfl
    obtain rfl := (List.cons.inj hlast).1
    have hparted : Parted directory target shared more mid f :=
      { directory_eq := hdirectory, plain := hup, file := hfile,
        greatest := fun front hfront hin hout => by
          have hlen := (hgreatest _ hout hin).length_le
          rw [List.length_append] at hlen
          exact hfront (List.length_eq_zero_iff.1 (by omega))
        relative_eq := hrelative }
    by_cases hindex : withoutExtension f = "index"
    · rcases List.eq_nil_or_concat' mid with rfl | ⟨mid, last, rfl⟩
      · exact hparted.specified_enclosing hindex
      · exact hparted.specified_index hindex
    · exact hparted.specified_named hindex

end DeclKit.Path

/-
What a load looks up, and what it registers.

A specifier is looked for at plain paths only, so what it leads to is registered under a path that no
other text stands for. Registering never changes what has been registered before: a table of sources
grows at its end, and every path that it knew leads to the same source as before.
-/
import DeclKit.Program.Basic
import DeclKit.Proofs.Path
import DeclKit.Proofs.Program.Keys

set_option autoImplicit false

namespace DeclKit

open DeclKit.Path

/-! ## Hosts -/

namespace Host

variable {h : Host} {path : String}

/-- Every file of the host can be read, as those can that are kept in memory. -/
def IsReadable (h : Host) : Prop := ∀ e ∈ h.files, e.2.isSome = true

theorem mem_files {entry : Option String} (he : h.entry? path = some entry) :
    (normalComponents path, entry) ∈ h.files := by
  obtain ⟨before, after, hfiles, -⟩ := List.lookup_eq_some_iff.1 he
  rw [hfiles]
  exact List.mem_append_right _ List.mem_cons_self

/-- A file that exists can be read. -/
theorem IsReadable.read?_of_exists? (hr : h.IsReadable) (he : h.exists? path = true) :
    ∃ text, h.read? path = some text := by
  obtain ⟨entry, hentry⟩ := Option.isSome_iff_exists.1 he
  obtain ⟨text, rfl⟩ := Option.isSome_iff_exists.1 (hr _ (mem_files hentry))
  exact ⟨text, by rw [read?, hentry]; rfl⟩

/-- A file that can be read has an entry under the components of its path. -/
theorem mem_keys_of_read? {text : String} (hp : IsPlain path) (hr : h.read? path = some text) :
    components path ∈ h.files.map Prod.fst := by
  rw [read?, Option.join_eq_some_iff] at hr
  rw [← hp.normalComponents_eq]
  exact List.mem_map_of_mem (mem_files hr)

end Host

/-! ## Modules -/

namespace Module

variable {h : Host} {specifier containing target : String}

/-- A file that is at an absolute path looks for modules at plain paths. -/
theorem isPlain_of_mem_candidates (hc : isAbsolute containing = true)
    (ht : target ∈ candidates specifier containing) : IsPlain target := by
  have hdirectory : isAbsolute ((parent? containing).getD "/") = true := by
    cases hparent : parent? containing with
    | none => rfl
    | some directory => exact isAbsolute_parent? hc hparent
  have hnormal (s : String) :
      IsPlain (normalize (Path.join ((parent? containing).getD "/") s)) :=
    isPlain_normalize (isAbsolute_join hdirectory s)
  rw [candidates, List.mem_append, List.mem_append, List.mem_append] at ht
  rcases ht with ((hcompiled | hitself) | hextended) | hindex
  · obtain ⟨⟨js, ts⟩, -, hstem⟩ := List.mem_filterMap.1 hcompiled
    obtain ⟨stem, -, rfl⟩ := Option.map_eq_some_iff.1 hstem
    exact hnormal _
  · split at hitself
    · rw [List.mem_singleton.1 hitself]
      exact hnormal _
    · cases hitself
  · obtain ⟨extension, hmem, rfl⟩ := List.mem_map.1 hextended
    refine (hnormal _).append ?_ ?_
    · fin_cases hmem <;> decide
    · fin_cases hmem <;> decide
  · obtain ⟨name, hmem, rfl⟩ := List.mem_map.1 hindex
    refine (hnormal _).join ?_ ?_
    · fin_cases hmem <;> decide
    · fin_cases hmem <;> decide

theorem resolve?_spec (hc : isAbsolute containing = true)
    (ht : resolve? h specifier containing = some target) :
    IsPlain target ∧ h.exists? target = true := by
  rw [resolve?] at ht
  split at ht
  · exact ⟨isPlain_of_mem_candidates hc (List.mem_of_find?_eq_some ht), List.find?_some ht⟩
  · cases ht

end Module

/-! ## Sources -/

namespace Sources

variable {m m' m'' : Sources} {path text : String} {kind : SourceKind} {id : SourceId}

/-- The places of the registered files, in the order of their ids. -/
def places (m : Sources) : List (List Component) := m.files.toList.map fun s => components s.path

theorem length_places (m : Sources) : m.places.length = m.files.size := by
  rw [places, List.length_map, Array.length_toList]

theorem places_get (hid : id.index < m.files.size) :
    m.places[id.index]? = some (components (m.get id).path) := by
  rw [places, List.getElem?_map, Array.getElem?_toList, get, Array.getD_eq_getD_getElem?,
    Array.getElem?_eq_getElem hid]
  rfl

theorem get_mem (hid : id.index < m.files.size) : m.get id ∈ m.files := by
  rw [get, Array.getD_eq_getD_getElem?, Array.getElem?_eq_getElem hid]
  exact Array.getElem_mem hid

theorem lookup?_eq_none : m.lookup? path = none ↔ components path ∉ m.places := by
  rw [lookup?, Option.map_eq_none_iff, Array.findIdx?_eq_none_iff, places, List.mem_map]
  simp [same]

/-- What is found has the components that were looked for. -/
theorem components_of_lookup? (h : m.lookup? path = some id) :
    components (m.get id).path = components path := by
  obtain ⟨i, hi, rfl⟩ := Option.map_eq_some_iff.1 h
  obtain ⟨hlt, hsame, -⟩ := Array.findIdx?_eq_some_iff_getElem.1 hi
  rw [get, Array.getD_eq_getD_getElem?, Array.getElem?_eq_getElem hlt]
  exact eq_of_beq hsame

/-- Where no place is taken twice, a place leads to the one file that is there. -/
theorem lookup?_eq_some (hd : m.places.Nodup) (hid : id.index < m.files.size)
    (hp : components (m.get id).path = components path) : m.lookup? path = some id := by
  cases hfound : m.lookup? path with
  | none =>
    refine absurd ?_ (lookup?_eq_none.1 hfound)
    exact hp ▸ List.mem_of_getElem? (places_get hid)
  | some other =>
    have hother := places_get (lookup?_lt hfound)
    rw [components_of_lookup? hfound, ← hp, ← places_get hid] at hother
    have hindex := (List.getElem?_inj (length_places m ▸ lookup?_lt hfound) hd).1 hother
    exact congrArg some (by cases id; cases other; exact congrArg SourceId.mk hindex)

/-- More files have been registered. -/
def Extends (m m' : Sources) : Prop := m.files.toList <+: m'.files.toList

namespace Extends

theorem refl (m : Sources) : Extends m m := List.prefix_refl _

theorem trans (h : Extends m m') (h' : Extends m' m'') : Extends m m'' := List.IsPrefix.trans h h'

theorem size_le (h : Extends m m') : m.files.size ≤ m'.files.size := by
  rw [← Array.length_toList, ← Array.length_toList]
  exact List.IsPrefix.length_le h

/-- What was registered before is still there. -/
theorem get_eq (h : Extends m m') (hid : id.index < m.files.size) : m'.get id = m.get id := by
  obtain ⟨more, hmore⟩ := h
  rw [get, get, Array.getD_eq_getD_getElem?, Array.getD_eq_getD_getElem?, ← Array.getElem?_toList,
    ← Array.getElem?_toList, ← hmore, List.getElem?_append_left]
  rwa [Array.length_toList]

theorem places_le (h : Extends m m') : m.places <+: m'.places := List.IsPrefix.map _ h

/-- A path that was known leads to the same file. -/
theorem lookup?_eq (h : Extends m m') (hd : m'.places.Nodup) (hfound : m.lookup? path = some id) :
    m'.lookup? path = some id := by
  have hid := lookup?_lt hfound
  refine lookup?_eq_some hd (Nat.lt_of_lt_of_le hid h.size_le) ?_
  rw [h.get_eq hid, components_of_lookup? hfound]

end Extends

theorem extends_push (m : Sources) (s : Source) : m.Extends ⟨m.files.push s⟩ :=
  ⟨[s], Array.toList_push.symm⟩

theorem places_push (m : Sources) (s : Source) :
    (⟨m.files.push s⟩ : Sources).places = m.places ++ [components s.path] := by
  rw [places, Array.toList_push, List.map_append]
  rfl

theorem get_push (m : Sources) (s : Source) :
    (⟨m.files.push s⟩ : Sources).get ⟨m.files.size⟩ = s := by
  simp [get]

theorem add_of_lookup? (h : m.lookup? path = some id) : m.add kind path text = (id, m) := by
  rw [add, h]

theorem add_of_none (h : m.lookup? path = none) :
    m.add kind path text =
      (⟨m.files.size⟩, ⟨m.files.push ⟨kind, path, text, .ofText text⟩⟩) := by
  rw [add, h]

end Sources

/-! ## What is registered -/

/-- What a file may be registered as: the library, or a module at a plain path with the text that the
host has there. -/
inductive Genuine (h : Host) : SourceKind → String → String → Prop where
  | library : Genuine h .defaultLib Library.name Library.text
  | module {path text : String} (plain : IsPlain path) (read : h.read? path = some text) :
      Genuine h .module path text

namespace Genuine

variable {h : Host} {kind kind' : SourceKind} {path path' text text' : String}

/-- The library is at no plain path. -/
theorem components_ne_library (hp : IsPlain path) : components path ≠ components Library.name := by
  rw [components_of_isAbsolute hp.isAbsolute]
  intro heq
  have hhead := congrArg List.head? heq
  rw [show (components Library.name).head? = some (.name "lib.d.ts") by decide +kernel] at hhead
  cases hhead

/-- The place of a file settles the rest of it. -/
theorem unique (hg : Genuine h kind path text) (hg' : Genuine h kind' path' text')
    (hp : components path = components path') : kind = kind' ∧ path = path' ∧ text = text' := by
  cases hg with
  | library =>
    cases hg' with
    | library => exact ⟨rfl, rfl, rfl⟩
    | module plain _ => exact absurd hp.symm (components_ne_library plain)
  | module plain read =>
    cases hg' with
    | library => exact absurd hp (components_ne_library plain)
    | module plain' read' =>
      obtain rfl := plain.eq_of_components plain' hp
      exact ⟨rfl, rfl, Option.some.inj (read.symm.trans read')⟩

/-- A module is one by its kind. -/
theorem isModule (hg : Genuine h kind path text) (hk : kind ≠ .defaultLib) :
    kind = .module ∧ IsPlain path ∧ h.read? path = some text := by
  cases hg with
  | library => exact absurd rfl hk
  | module plain read => exact ⟨rfl, plain, read⟩

/-- What is at the place of a plain path is a module at this path. -/
theorem eq_of_isPlain {target : String} (hg : Genuine h kind path text) (ht : IsPlain target)
    (heq : components path = components target) : kind = .module ∧ path = target := by
  cases hg with
  | library => exact absurd heq.symm (components_ne_library ht)
  | module plain read => exact ⟨rfl, plain.eq_of_components ht heq⟩

end Genuine

namespace Sources

/-- The registered files are what they may be, and no place is taken twice. -/
structure Sound (h : Host) (m : Sources) : Prop where
  genuine : ∀ s ∈ m.files, Genuine h s.kind s.path s.text
  distinct : m.places.Nodup

namespace Sound

variable {h : Host} {m : Sources} {path text : String} {kind : SourceKind} {id : SourceId}

theorem empty (h : Host) : Sound h {} :=
  ⟨fun _ hs => absurd hs (Array.not_mem_empty _), List.nodup_nil⟩

theorem get (hm : m.Sound h) (hid : id.index < m.files.size) :
    Genuine h (m.get id).kind (m.get id).path (m.get id).text :=
  hm.genuine _ (get_mem hid)

theorem push (hm : m.Sound h) (hg : Genuine h kind path text) (hnew : components path ∉ m.places) :
    Sound h ⟨m.files.push ⟨kind, path, text, .ofText text⟩⟩ where
  genuine s hs := by
    rcases Array.mem_push.1 hs with hs | rfl
    · exact hm.genuine s hs
    · exact hg
  distinct := by
    rw [places_push]
    exact hm.distinct.append (List.nodup_singleton _)
      fun c hc hc' => hnew (List.mem_singleton.1 hc' ▸ hc)

/-- Registering a file makes its path lead to it. Nothing else is new. -/
theorem add (hm : m.Sound h) (hg : Genuine h kind path text) :
    ∃ id m', m.add kind path text = (id, m') ∧ m'.Sound h ∧ m.Extends m' ∧
      m'.lookup? path = some id ∧
      ((m'.get id).kind = kind ∧ (m'.get id).path = path ∧ (m'.get id).text = text) ∧
      ∀ other : SourceId, other.index < m'.files.size → other.index < m.files.size ∨ other = id := by
  cases hfound : m.lookup? path with
  | some id =>
    refine ⟨id, m, add_of_lookup? hfound, hm, .refl m, hfound, ?_, fun _ h => .inl h⟩
    exact (hm.get (lookup?_lt hfound)).unique hg (components_of_lookup? hfound)
  | none =>
    have hsound := hm.push hg (lookup?_eq_none.1 hfound)
    refine ⟨_, _, add_of_none hfound, hsound, extends_push m _, ?_, ?_, fun other hother => ?_⟩
    · refine lookup?_eq_some hsound.distinct (by simp) ?_
      rw [get_push]
    · rw [get_push]
      exact ⟨rfl, rfl, rfl⟩
    · rw [Array.size_push] at hother
      rcases Nat.lt_or_eq_of_le (Nat.le_of_lt_succ hother) with hlt | heq
      · exact .inl hlt
      · exact .inr (by cases other; exact congrArg SourceId.mk heq)

end Sound

end Sources

end DeclKit

/-
Loading goes on until nothing waits.

The same file can come up twice, as a root and as what another file imports, in either order, and
imports may go in circles. What keeps a load straight is that a file is registered as soon as it is met,
and that what is registered is loaded or waits. Each turn takes a file from the queue, and what it adds
to the queue it has registered for the first time, so the turns are bounded by the files of the host.
-/
import DeclKit.Proofs.Program.Library
import DeclKit.Proofs.Program.Registry
import Mathlib

set_option autoImplicit false

namespace DeclKit.Program

open DeclKit.Path

/-! ## Specifiers -/

/-- The paths that the specifiers of a file at a path lead to. -/
def targets (h : Host) (path : String) (root : Node) : List String :=
  (specifiers root).filterMap fun n => Module.resolve? h n.specifierValue path

/-- The reference of a specifier whose file, if there is one, is registered. -/
def referenceTo (h : Host) (path : String) (m : Sources) (n : Node) : ModuleReference :=
  ⟨n.specifierValue, n.start, n.stop, (Module.resolve? h n.specifierValue path).bind m.lookup?⟩

variable {h : Host}

/-- How many places of the host no file is registered at. -/
def unmet (h : Host) (m : Sources) : Nat :=
  ((h.files.map Prod.fst).toFinset \ m.places.toFinset).card

theorem unmet_le_length (h : Host) (m : Sources) : unmet h m ≤ h.files.length := by
  rw [← List.length_map Prod.fst]
  exact (Finset.card_le_card Finset.sdiff_subset).trans (List.toFinset_card_le _)

theorem unmet_mono {m m' : Sources} (hle : m.Extends m') : unmet h m' ≤ unmet h m := by
  refine Finset.card_le_card (Finset.sdiff_subset_sdiff (Finset.Subset.refl _) fun c hc => ?_)
  rw [List.mem_toFinset] at hc ⊢
  exact hle.places_le.subset hc

/-- A file of the host that is registered anew was not met before. -/
theorem unmet_push {m : Sources} {s : Source} (hnew : components s.path ∉ m.places)
    (hkey : components s.path ∈ h.files.map Prod.fst) :
    1 + unmet h ⟨m.files.push s⟩ ≤ unmet h m := by
  rw [Nat.add_comm]
  refine Finset.card_lt_card (Finset.ssubset_iff_of_subset ?_ |>.2 ⟨components s.path, ?_, ?_⟩)
  · refine Finset.sdiff_subset_sdiff (Finset.Subset.refl _) fun c hc => ?_
    rw [List.mem_toFinset] at hc ⊢
    exact (Sources.extends_push m s).places_le.subset hc
  · rw [Finset.mem_sdiff, List.mem_toFinset, List.mem_toFinset]
    exact ⟨hkey, hnew⟩
  · rw [Finset.mem_sdiff, List.mem_toFinset, List.mem_toFinset, Sources.places_push]
    exact fun hc => hc.2 (List.mem_append_right _ (List.mem_singleton_self _))

/-- Some files that are led to have been registered and wait: each of them is new, what else is led to
was known, and nothing but the table of sources and the queue has changed. -/
structure Met (h : Host) (ts : List String) (l l' : Loading) (ps : List Pending) : Prop where
  kept : l' = { l with sources := l'.sources, queue := l.queue ++ ps }
  sound : l'.sources.Sound h
  grows : l.sources.Extends l'.sources
  pending : ∀ p ∈ ps, p.isRoot = false ∧ p.kind = .module ∧ Genuine h p.kind p.path p.text ∧
    p.path ∈ ts
  added : ∀ id : SourceId, id.index < l'.sources.files.size →
    id.index < l.sources.files.size ∨ ∃ p ∈ ps, p.path = (l'.sources.get id).path
  known : ∀ t ∈ ts, ∃ id, l'.sources.lookup? t = some id
  cost : ps.length + unmet h l'.sources ≤ unmet h l.sources

namespace Met

variable {ts ts' : List String} {l l' l'' : Loading} {ps ps' : List Pending}

theorem refl (hs : l.sources.Sound h) (hknown : ∀ t ∈ ts, ∃ id, l.sources.lookup? t = some id) :
    Met h ts l l [] where
  kept := by rw [List.append_nil]
  sound := hs
  grows := .refl _
  pending _ hp := absurd hp List.not_mem_nil
  added _ hid := .inl hid
  known := hknown
  cost := by rw [List.length_nil, Nat.zero_add]

theorem trans (hm : Met h ts l l' ps) (hm' : Met h ts' l' l'' ps') :
    Met h (ts ++ ts') l l'' (ps ++ ps') where
  kept := by
    rw [hm'.kept, hm.kept]
    simp only [List.append_assoc]
  sound := hm'.sound
  grows := hm.grows.trans hm'.grows
  pending p hp := by
    rcases List.mem_append.1 hp with hp | hp
    · obtain ⟨hr, hk, hg, ht⟩ := hm.pending p hp
      exact ⟨hr, hk, hg, List.mem_append_left _ ht⟩
    · obtain ⟨hr, hk, hg, ht⟩ := hm'.pending p hp
      exact ⟨hr, hk, hg, List.mem_append_right _ ht⟩
  added id hid := by
    rcases hm'.added id hid with hid | ⟨p, hp, hpath⟩
    · rcases hm.added id hid with hold | ⟨p, hp, hpath⟩
      · exact .inl hold
      · refine .inr ⟨p, List.mem_append_left _ hp, ?_⟩
        rw [hpath, hm'.grows.get_eq hid]
    · exact .inr ⟨p, List.mem_append_right _ hp, hpath⟩
  known t ht := by
    rcases List.mem_append.1 ht with ht | ht
    · obtain ⟨id, hid⟩ := hm.known t ht
      exact ⟨id, hm'.grows.lookup?_eq hm'.sound.distinct hid⟩
    · exact hm'.known t ht
  cost := by
    have := hm.cost
    have := hm'.cost
    rw [List.length_append]
    omega

end Met

/-- A reference stays as it is when more files are registered. -/
theorem referenceTo_eq {path : String} {m m' : Sources} {n : Node} (hle : m.Extends m')
    (hs : m'.Sound h)
    (hknown : ∀ t ∈ Module.resolve? h n.specifierValue path, ∃ id, m.lookup? t = some id) :
    referenceTo h path m' n = referenceTo h path m n := by
  rw [referenceTo, referenceTo]
  cases htarget : Module.resolve? h n.specifierValue path with
  | none => rfl
  | some t =>
    obtain ⟨id, hid⟩ := hknown t htarget
    rw [Option.bind_some, Option.bind_some, hid, hle.lookup?_eq hs.distinct hid]

/-- Following one specifier. -/
theorem addReference_met {path : String} {l : Loading} (hr : h.IsReadable)
    (hpath : isAbsolute path = true) (hs : l.sources.Sound h) (node : Node)
    (refs : List ModuleReference) :
    ∃ ps, Met h (Module.resolve? h node.specifierValue path).toList l
        (addReference h path node l refs).1 ps ∧
      (addReference h path node l refs).2 =
        refs ++ [referenceTo h path (addReference h path node l refs).1.sources node] := by
  unfold addReference referenceTo
  dsimp only
  cases htarget : Module.resolve? h node.specifierValue path with
  | none => exact ⟨[], .refl hs (fun _ ht => absurd ht List.not_mem_nil), rfl⟩
  | some target =>
    dsimp only
    cases hfound : l.sources.lookup? target with
    | some id =>
      refine ⟨[], .refl hs fun t ht => ⟨id, ?_⟩, ?_⟩
      · rwa [List.mem_singleton.1 ht]
      · rw [Option.bind_some, hfound]
    | none =>
      obtain ⟨hplain, hexists⟩ := Module.resolve?_spec hpath htarget
      obtain ⟨text, hread⟩ := hr.read?_of_exists? hexists
      have hnew := Sources.lookup?_eq_none.1 hfound
      have hsound := hs.push (.module hplain hread) hnew
      have hgrows := Sources.extends_push l.sources ⟨.module, target, text, .ofText text⟩
      have hnext : (⟨l.sources.files.push ⟨.module, target, text, .ofText text⟩⟩ : Sources).lookup?
          target = some ⟨l.sources.files.size⟩ := by
        refine Sources.lookup?_eq_some hsound.distinct (by simp) ?_
        rw [Sources.get_push]
      rw [hread]
      dsimp only
      rw [Sources.add_of_none hfound]
      refine ⟨[⟨.module, target, text, false⟩], ⟨rfl, hsound, hgrows, ?_, ?_, ?_, ?_⟩, ?_⟩
      · intro p hp
        obtain rfl := List.mem_singleton.1 hp
        exact ⟨rfl, rfl, .module hplain hread, List.mem_singleton_self _⟩
      · intro id hid
        rw [Array.size_push] at hid
        rcases Nat.lt_or_eq_of_le (Nat.le_of_lt_succ hid) with hlt | heq
        · exact .inl hlt
        · refine .inr ⟨_, List.mem_singleton_self _, ?_⟩
          rw [show id = ⟨l.sources.files.size⟩ by cases id; exact congrArg SourceId.mk heq,
            Sources.get_push]
      · intro t ht
        rw [List.mem_singleton.1 ht]
        exact ⟨_, hnext⟩
      · exact unmet_push hnew (Host.mem_keys_of_read? hplain hread)
      · rw [Option.bind_some, hnext]

/-- Following all specifiers of a file. -/
theorem foldl_addReference_met {path : String} (hr : h.IsReadable)
    (hpath : isAbsolute path = true) (nodes : List Node) {l : Loading} (hs : l.sources.Sound h)
    (refs : List ModuleReference) :
    let out := nodes.foldl (fun x node => addReference h path node x.1 x.2) (l, refs)
    ∃ ps, Met h (nodes.filterMap fun n => Module.resolve? h n.specifierValue path) l out.1 ps ∧
      out.2 = refs ++ nodes.map (referenceTo h path out.1.sources) := by
  induction nodes generalizing l refs with
  | nil => exact ⟨[], .refl hs (fun _ ht => absurd ht List.not_mem_nil), (List.append_nil _).symm⟩
  | cons node nodes ih =>
    obtain ⟨ps, hmet, hrefs⟩ := addReference_met hr hpath hs node refs
    obtain ⟨ps', hmet', hrefs'⟩ := ih hmet.sound (addReference h path node l refs).2
    refine ⟨ps ++ ps', ?_, ?_⟩
    · rw [List.filterMap_cons]
      have hboth := hmet.trans hmet'
      cases htarget : Module.resolve? h node.specifierValue path with
      | none =>
        rw [htarget] at hboth
        exact hboth
      | some t =>
        rw [htarget] at hboth
        exact hboth
    · have hhead := referenceTo_eq hmet'.grows hmet'.sound fun t ht =>
        hmet.known t (Option.mem_toList.2 ht)
      refine hrefs'.trans ((congrArg (· ++ _) hrefs).trans ?_)
      rw [← hhead]
      exact List.append_assoc ..

/-! ## One file -/

/-- A registered file is parsed under some number, which is its own unless it is the library. -/
theorem parseSource_eq (m : Sources) (id : SourceId) :
    ∃ source, parseSource m id = parse source (m.get id).text := by
  rw [parseSource]
  split
  · rename_i hlibrary
    rw [Bool.and_eq_true, beq_iff_eq] at hlibrary
    exact ⟨⟨0⟩, by rw [hlibrary.2]; rfl⟩
  · exact ⟨id, rfl⟩

theorem parseSource_of_module {m : Sources} {id : SourceId} (hk : (m.get id).kind = .module) :
    parseSource m id = parse id (m.get id).text := by
  rw [parseSource, if_neg (by simp [Source.isDefaultLib, hk])]

/-- A file that has been loaded: its tree is that of its text, it has a reference for each of its
specifiers, and what these lead to is registered. -/
structure FileOf (h : Host) (m : Sources) (f : ProgramFile) : Prop where
  registered : f.id.index < m.files.size
  parsed : ∃ q, parseSource m f.id = .ok q ∧ f.root = ⟨q.tree, []⟩
  references : f.references = (specifiers f.root).map (referenceTo h (m.get f.id).path m)
  known : ∀ t ∈ targets h (m.get f.id).path f.root, ∃ id, m.lookup? t = some id

theorem FileOf.mono {m m' : Sources} {f : ProgramFile} (hf : FileOf h m f) (hle : m.Extends m')
    (hs : m'.Sound h) : FileOf h m' f where
  registered := Nat.lt_of_lt_of_le hf.registered hle.size_le
  parsed := by
    rw [parseSource, hle.get_eq hf.registered]
    exact hf.parsed
  references := by
    rw [hle.get_eq hf.registered, hf.references]
    refine List.map_congr_left fun n hn => (referenceTo_eq hle hs fun t ht => ?_).symm
    exact hf.known t (List.mem_filterMap.2 ⟨n, hn, ht⟩)
  known t ht := by
    rw [hle.get_eq hf.registered] at ht
    obtain ⟨id, hid⟩ := hf.known t ht
    exact ⟨id, hle.lookup?_eq hs.distinct hid⟩

/-- The file that was waiting has been loaded, and what it has met for the first time waits. -/
structure Loads (h : Host) (p : Pending) (l l' : Loading) (f : ProgramFile) (ps : List Pending) :
    Prop where
  fresh : ∀ g ∈ l.files, g.id ≠ f.id
  files_eq : l'.files = l.files.push f
  queue_eq : l'.queue = l.queue ++ ps
  roots_eq : l'.roots = if p.isRoot then l.roots.push f.id else l.roots
  sound : l'.sources.Sound h
  grows : l.sources.Extends l'.sources
  file : FileOf h l'.sources f
  kind_eq : (l'.sources.get f.id).kind = p.kind
  path_eq : (l'.sources.get f.id).path = p.path
  pending : ∀ e ∈ ps, e.isRoot = false ∧ e.kind = .module ∧ Genuine h e.kind e.path e.text ∧
    p.kind = .module ∧ e.path ∈ targets h p.path f.root
  added : ∀ id : SourceId, id.index < l'.sources.files.size → id.index < l.sources.files.size ∨
    id = f.id ∨ ∃ e ∈ ps, e.path = (l'.sources.get id).path
  cost : ps.length + unmet h l'.sources ≤ unmet h l.sources

/-- The specifiers of the library or of a module are followed; the library has none. -/
theorem follow_met {kind : SourceKind} {path text : String} {l : Loading} {source : SourceId}
    {q : ParsedFile} (hr : h.IsReadable) (hg : Genuine h kind path text) (hs : l.sources.Sound h)
    (hq : parse source text = .ok q) :
    ∃ l' ps, (specifiers ⟨q.tree, []⟩).foldl (fun x node => addReference h path node x.1 x.2) (l, []) =
        (l', (specifiers ⟨q.tree, []⟩).map (referenceTo h path l'.sources)) ∧
      Met h (targets h path ⟨q.tree, []⟩) l l' ps ∧ (ps ≠ [] → kind = .module) := by
  cases hg with
  | library =>
    have hnone := specifiers_library hq
    rw [targets, hnone]
    exact ⟨l, [], rfl, .refl hs (fun _ ht => absurd ht List.not_mem_nil), fun hne => absurd rfl hne⟩
  | module plain read =>
    obtain ⟨ps, hmet, hrefs⟩ := foldl_addReference_met hr plain.isAbsolute (specifiers ⟨q.tree, []⟩)
      hs []
    exact ⟨_, ps, Prod.ext rfl hrefs, hmet, fun _ => rfl⟩

/-- A file that is not loaded yet is parsed, and either that fails or the file is loaded. -/
theorem loadFile_fresh {p : Pending} {l : Loading} (hr : h.IsReadable)
    (hs : l.sources.Sound h) (hp : Genuine h p.kind p.path p.text)
    (hsize : ∀ g ∈ l.files, g.id.index < l.sources.files.size)
    (hfresh : ∀ g ∈ l.files, l.sources.lookup? p.path ≠ some g.id) :
    (∃ e source, loadFile h p l = .error e ∧ parse source p.text = .error e) ∨
      ∃ l' f ps, loadFile h p l = .ok l' ∧ Loads h p l l' f ps := by
  obtain ⟨id, m, hadd, hm, hgrows, hfound, ⟨hkind, hpath, htext⟩, honly⟩ := hs.add hp
  have hnot : ¬ (l.sources.lookup? p.path).any (fun id => l.files.any (·.id == id)) = true := by
    rw [Option.any_eq_true]
    rintro ⟨other, hother, hany⟩
    obtain ⟨g, hg, heq⟩ := Array.any_eq_true'.1 hany
    exact hfresh g hg (hother.trans (congrArg some (eq_of_beq heq).symm))
  obtain ⟨source, hparse⟩ := parseSource_eq m id
  rw [htext] at hparse
  unfold loadFile
  rw [if_neg hnot, hadd]
  dsimp only
  cases hq : parseSource m id with
  | error e => exact .inl ⟨e, source, rfl, hparse.symm.trans hq⟩
  | ok q =>
    obtain ⟨l2, ps, hfold, hmet, hmodule⟩ := follow_met (l := { l with
      sources := m
      roots := if p.isRoot = true then l.roots.push id else l.roots
      diagnostics := l.diagnostics ++ q.diagnostics }) hr hp hm (hparse.symm.trans hq)
    have hid : id.index < m.files.size := Sources.lookup?_lt hfound
    have hget : l2.sources.get id = m.get id := hmet.grows.get_eq hid
    set f : ProgramFile := ⟨id, ⟨q.tree, []⟩,
      (specifiers ⟨q.tree, []⟩).map (referenceTo h p.path l2.sources)⟩ with hf
    refine .inr ⟨{ l2 with files := l2.files.push f }, f, ps, ?_, ?_⟩
    · show Except.ok _ = _
      rw [hfold]
    have hkept := hmet.kept
    have hfile : FileOf h l2.sources f := by
      refine ⟨Nat.lt_of_lt_of_le hid hmet.grows.size_le, ⟨q, ?_, rfl⟩, ?_, ?_⟩
      · rw [parseSource, hget]
        exact hq
      · rw [hget, hpath]
      · rw [hget, hpath]
        exact hmet.known
    refine ⟨fun g hg heq => ?_, by rw [hkept], by rw [hkept], by rw [hkept], hmet.sound,
      hgrows.trans hmet.grows, hfile, by rw [hget, hkind], by rw [hget, hpath], fun e he => ?_,
      fun other hother => ?_, hmet.cost.trans (unmet_mono hgrows)⟩
    · -- a file with this number would be at this path, and that is not loaded
      refine hfresh g hg (Sources.lookup?_eq_some hs.distinct (hsize g hg) ?_)
      rw [← hgrows.get_eq (hsize g hg), heq, hpath]
    · obtain ⟨hroot, hkind', hgenuine, htarget⟩ := hmet.pending e he
      exact ⟨hroot, hkind', hgenuine, hmodule (List.ne_nil_of_mem he), htarget⟩
    · rcases hmet.added other hother with hold | hnew
      · exact (honly other hold).imp_right .inl
      · exact .inr (.inr hnew)

/-! ## One turn -/

/-- What holds of a load at any time: what is registered and what waits may be there, files are loaded
once, and what is registered is loaded or waits. -/
structure Valid (h : Host) (l : Loading) : Prop where
  sound : l.sources.Sound h
  waiting : ∀ p ∈ l.queue, Genuine h p.kind p.path p.text
  once : (l.files.toList.map (·.id)).Nodup
  loaded : ∀ f ∈ l.files, FileOf h l.sources f
  awaited : ∀ id : SourceId, id.index < l.sources.files.size →
    (∃ f ∈ l.files, f.id = id) ∨ ∃ p ∈ l.queue, p.path = (l.sources.get id).path

/-- A turn takes the first file from the queue and loads it, unless it is loaded. -/
inductive Turn (h : Host) : Loading → Loading → Prop where
  | passed {l : Loading} {p : Pending} {rest : List Pending} {f : ProgramFile}
      (queue : l.queue = p :: rest) (mem : f ∈ l.files)
      (found : l.sources.lookup? p.path = some f.id) : Turn h l { l with queue := rest }
  | loads {l l' : Loading} {p : Pending} {rest ps : List Pending} {f : ProgramFile}
      (queue : l.queue = p :: rest) (loads : Loads h p { l with queue := rest } l' f ps) : Turn h l l'

/-- The first file of the queue is parsed, and unless that fails the load goes on with a turn. -/
theorem loadFile_turn {l : Loading} {p : Pending} {rest : List Pending} (hr : h.IsReadable)
    (hl : Valid h l) (hqueue : l.queue = p :: rest) :
    (∃ e source, loadFile h p { l with queue := rest } = .error e ∧ parse source p.text = .error e) ∨
      ∃ l', loadFile h p { l with queue := rest } = .ok l' ∧ Turn h l l' := by
  by_cases hfound : ∃ f ∈ l.files, l.sources.lookup? p.path = some f.id
  · obtain ⟨f, hf, hfound⟩ := hfound
    refine .inr ⟨_, ?_, .passed hqueue hf hfound⟩
    have hany : (l.sources.lookup? p.path).any (fun id => l.files.any (·.id == id)) = true := by
      rw [hfound, Option.any_some, Array.any_eq_true']
      exact ⟨f, hf, beq_self_eq_true _⟩
    unfold loadFile
    rw [if_pos hany]
    rfl
  · have hp := hl.waiting p (hqueue ▸ List.mem_cons_self)
    rcases loadFile_fresh (l := { l with queue := rest }) hr hl.sound hp
      (fun g hg => (hl.loaded g hg).registered) (fun g hg heq => hfound ⟨g, hg, heq⟩) with
      herror | ⟨l', f, ps, hload, hloads⟩
    · exact .inl herror
    · exact .inr ⟨l', hload, .loads hqueue hloads⟩

section Turn

variable {l l' : Loading}

theorem Turn.grows (ht : Turn h l l') : l.sources.Extends l'.sources := by
  cases ht with
  | passed => exact .refl _
  | loads _ hloads => exact hloads.grows

theorem Turn.files_subset (ht : Turn h l l') {f : ProgramFile} (hf : f ∈ l.files) : f ∈ l'.files := by
  cases ht with
  | passed => exact hf
  | loads _ hloads =>
    rw [hloads.files_eq]
    exact Array.mem_push_of_mem _ hf

/-- A turn shortens the queue, or what is added to it was not met before. -/
theorem Turn.cost_lt (ht : Turn h l l') :
    l'.queue.length + unmet h l'.sources < l.queue.length + unmet h l.sources := by
  cases ht with
  | passed hqueue =>
    rw [hqueue, List.length_cons]
    exact Nat.add_lt_add_right (Nat.lt_succ_self _) _
  | loads hqueue hloads =>
    have hcost := hloads.cost
    rw [hloads.queue_eq, hqueue, List.length_append, List.length_cons]
    dsimp only at hcost ⊢
    omega

/-- Only the start puts the library into the queue. -/
theorem Turn.library_mem (ht : Turn h l l') (hlib : ∃ p ∈ l'.queue, p.kind = .defaultLib) :
    ∃ p ∈ l.queue, p.kind = .defaultLib := by
  obtain ⟨e, he, hkind⟩ := hlib
  cases ht with
  | @passed p rest f hqueue _ _ => exact ⟨e, hqueue ▸ List.mem_cons_of_mem p he, hkind⟩
  | @loads _ p rest ps f hqueue hloads =>
    rw [hloads.queue_eq] at he
    rcases List.mem_append.1 he with he | he
    · exact ⟨e, hqueue ▸ List.mem_cons_of_mem p he, hkind⟩
    · rw [(hloads.pending e he).2.1] at hkind
      cases hkind

theorem Valid.turn (hl : Valid h l) (ht : Turn h l l') : Valid h l' := by
  cases ht with
  | @passed p rest f hqueue hf hfound =>
    refine ⟨hl.sound, fun e he => hl.waiting e (hqueue ▸ List.mem_cons_of_mem p he), hl.once,
      hl.loaded, fun id hid => ?_⟩
    rcases hl.awaited id hid with hloaded | ⟨e, he, hpath⟩
    · exact .inl hloaded
    · rw [hqueue] at he
      rcases List.mem_cons.1 he with rfl | he
      · -- what has waited under this path is the file that is loaded
        have hsame := Sources.lookup?_eq_some hl.sound.distinct hid (congrArg components hpath.symm)
        rw [hfound] at hsame
        exact .inl ⟨f, hf, Option.some.inj hsame⟩
      · exact .inr ⟨e, he, hpath⟩
  | @loads _ p rest ps f hqueue hloads =>
    have hold (g : ProgramFile) (hg : g ∈ l.files) : FileOf h l'.sources g :=
      (hl.loaded g hg).mono hloads.grows hloads.sound
    refine ⟨hloads.sound, fun e he => ?_, ?_, fun g hg => ?_, fun id hid => ?_⟩
    · rw [hloads.queue_eq] at he
      rcases List.mem_append.1 he with he | he
      · exact hl.waiting e (hqueue ▸ List.mem_cons_of_mem p he)
      · exact (hloads.pending e he).2.2.1
    · rw [hloads.files_eq, Array.toList_push, List.map_append]
      refine hl.once.append (List.nodup_singleton _) fun id hid hid' => ?_
      obtain ⟨g, hg, rfl⟩ := List.mem_map.1 hid
      exact hloads.fresh g (Array.mem_toList_iff.1 hg) (List.mem_singleton.1 hid')
    · rw [hloads.files_eq] at hg
      rcases Array.mem_push.1 hg with hg | rfl
      · exact hold g hg
      · exact hloads.file
    · have hloaded : ∃ g ∈ l'.files, g.id = f.id :=
        ⟨f, by rw [hloads.files_eq]; exact Array.mem_push_self, rfl⟩
      rcases hloads.added id hid with hid' | rfl | ⟨e, he, hpath⟩
      · rcases hl.awaited id hid' with ⟨g, hg, hgid⟩ | ⟨e, he, hpath⟩
        · exact .inl ⟨g, by rw [hloads.files_eq]; exact Array.mem_push_of_mem _ hg, hgid⟩
        · rw [← hloads.grows.get_eq hid'] at hpath
          rw [hqueue] at he
          rcases List.mem_cons.1 he with rfl | he
          · -- it is the file that has been loaded, since no two files are at one place
            have hsame := Sources.lookup?_eq_some hloads.sound.distinct hid
              (congrArg components hpath.symm)
            have hself := Sources.lookup?_eq_some hloads.sound.distinct hloads.file.registered
              (congrArg components hloads.path_eq)
            rw [hself] at hsame
            rwa [← Option.some.inj hsame, or_iff_left_of_imp fun _ => hloaded]
          · exact .inr ⟨e, by rw [hloads.queue_eq]; exact List.mem_append_left _ he, hpath⟩
      · exact .inl hloaded
      · exact .inr ⟨e, by rw [hloads.queue_eq]; exact List.mem_append_right _ he, hpath⟩

end Turn

/-! ## Whole loads -/

/-- A queue is loaded turn by turn until nothing waits, or until a parse fails. -/
theorem loadQueue_turns {n : Nat} {l : Loading} (hr : h.IsReadable) (hl : Valid h l)
    (hn : l.queue.length + unmet h l.sources ≤ n) :
    (∃ e source kind path text, loadQueue h n l = .error e ∧ Genuine h kind path text ∧
        (kind = .defaultLib → ∃ p ∈ l.queue, p.kind = .defaultLib) ∧
        parse source text = .error e) ∨
      ∃ l', loadQueue h n l = .ok l' ∧ Relation.ReflTransGen (Turn h) l l' ∧ Valid h l' ∧
        l'.queue = [] := by
  induction n generalizing l with
  | zero =>
    have hnone : l.queue = [] := List.length_eq_zero_iff.1 (by omega)
    exact .inr ⟨l, rfl, .refl, hl, hnone⟩
  | succ n ih =>
    cases hqueue : l.queue with
    | nil => exact .inr ⟨l, loadQueue_nil hqueue, .refl, hl, hqueue⟩
    | cons p rest =>
      rw [loadQueue, hqueue]
      dsimp only
      rcases loadFile_turn hr hl hqueue with ⟨e, source, hload, hparse⟩ | ⟨l1, hload, hturn⟩
      · rw [hload]
        have hp : p ∈ l.queue := hqueue ▸ List.mem_cons_self
        exact .inl ⟨e, source, p.kind, p.path, p.text, rfl, hl.waiting p hp,
          fun hkind => ⟨p, List.mem_cons_self, hkind⟩, hparse⟩
      · rw [hload]
        have hcost := hturn.cost_lt
        rcases ih (hl.turn hturn) (by omega) with
          ⟨e, source, kind, path, text, hload', hgenuine, hlib, hparse⟩ |
            ⟨l', hload', hturns, hl', hnone⟩
        · exact .inl ⟨e, source, kind, path, text, hload', hgenuine,
            fun hkind => hqueue ▸ hturn.library_mem (hlib hkind), hparse⟩
        · exact .inr ⟨l', hload', .head hturn hturns, hl', hnone⟩

end DeclKit.Program

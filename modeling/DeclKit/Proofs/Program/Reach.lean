/-
A program is what its roots reach.

When nothing waits any more all that has been met is loaded. Nothing else is: a set of paths that has the
roots and what the loaded files lead to is never left. And since the roots wait in front of everything
that is met later, they are loaded first, in their order, so that a root which comes up again is one that
is loaded already.
-/
import DeclKit.Proofs.Program.Load

set_option autoImplicit false

namespace DeclKit.Program

open DeclKit.Path

variable {h : Host}

/-! ## Nothing too much -/

/-- With the path of a module a set has all that its specifiers lead to. -/
def LeadsInto (h : Host) (S : Set String) (m : Sources) (f : ProgramFile) : Prop :=
  (m.get f.id).kind = .module → (m.get f.id).path ∈ S →
    ∀ t ∈ targets h (m.get f.id).path f.root, t ∈ S

/-- All modules that are registered or wait are in a set. -/
structure Within (S : Set String) (l : Loading) : Prop where
  registered : ∀ id : SourceId, id.index < l.sources.files.size →
    (l.sources.get id).kind = .module → (l.sources.get id).path ∈ S
  waiting : ∀ p ∈ l.queue, p.kind = .module → p.path ∈ S

section Turns

variable {l l' : Loading} {S : Set String}

theorem LeadsInto.of_extends {m m' : Sources} {f : ProgramFile} (hf : LeadsInto h S m' f)
    (hle : m.Extends m') (hid : f.id.index < m.files.size) : LeadsInto h S m f := by
  rw [LeadsInto, hle.get_eq hid] at hf
  exact hf

theorem Within.turn (hw : Within S l) (ht : Turn h l l')
    (hS : ∀ f ∈ l'.files, LeadsInto h S l'.sources f) : Within S l' := by
  cases ht with
  | @passed p rest f hqueue hf hfound =>
    exact ⟨hw.registered, fun e he => hw.waiting e (hqueue ▸ List.mem_cons_of_mem p he)⟩
  | @loads _ p rest ps f hqueue hloads =>
    have hpath : p.kind = .module → p.path ∈ S := hw.waiting p (hqueue ▸ List.mem_cons_self)
    have hled : ∀ e ∈ ps, e.path ∈ S := by
      intro e he
      obtain ⟨-, -, -, hkind, htarget⟩ := hloads.pending e he
      have hf := hS f (by rw [hloads.files_eq]; exact Array.mem_push_self)
      rw [LeadsInto, hloads.kind_eq, hloads.path_eq] at hf
      exact hf hkind (hpath hkind) _ htarget
    refine ⟨fun id hid hkind => ?_, fun e he hkind => ?_⟩
    · rcases hloads.added id hid with hold | rfl | ⟨e, he, heq⟩
      · rw [hloads.grows.get_eq hold] at hkind ⊢
        exact hw.registered id hold hkind
      · rw [hloads.kind_eq] at hkind
        rw [hloads.path_eq]
        exact hpath hkind
      · rw [← heq]
        exact hled e he
    · rw [hloads.queue_eq] at he
      rcases List.mem_append.1 he with he | he
      · exact hw.waiting e (hqueue ▸ List.mem_cons_of_mem p he) hkind
      · exact hled e he

theorem valid_turns (hl : Valid h l) (ht : Relation.ReflTransGen (Turn h) l l') : Valid h l' := by
  induction ht with
  | refl => exact hl
  | tail _ hturn ih => exact ih.turn hturn

/-- A set that the modules of a load do not lead out of is not left. -/
theorem within_turns (hl : Valid h l) (hw : Within S l) (ht : Relation.ReflTransGen (Turn h) l l')
    (hS : ∀ f ∈ l'.files, LeadsInto h S l'.sources f) : Within S l' := by
  induction ht with
  | refl => exact hw
  | @tail l1 l2 hturns hturn ih =>
    refine (ih fun f hf => ?_).turn hturn hS
    exact (hS f (hturn.files_subset hf)).of_extends hturn.grows
      ((valid_turns hl hturns).loaded f hf).registered

end Turns

/-! ## Roots in their order -/

/-- The paths of the roots that have been loaded. -/
def loadedRoots (l : Loading) : List String := l.roots.toList.map fun id => (l.sources.get id).path

/-- The paths of the roots among files that wait. -/
def waitingRoots (ps : List Pending) : List String := (ps.filter (·.isRoot)).map (·.path)

/-- The roots of the start are at the front of the queue, and as long as one of them waits all modules
that have been loaded are roots. So the roots that are loaded, with those that wait and are not loaded
yet, stay the same list. -/
def Rooted (all : List String) (l : Loading) : Prop :=
  ∃ todo rest, l.queue = todo ++ rest ∧ (∀ p ∈ todo, p.isRoot = true ↔ p.kind = .module) ∧
    (∀ p ∈ rest, p.isRoot = false) ∧ (∀ id ∈ l.roots, ∃ f ∈ l.files, f.id = id) ∧
    (todo ≠ [] → ∀ f ∈ l.files, (l.sources.get f.id).kind = .module → f.id ∈ l.roots) ∧
    loadedRoots l ++ ((waitingRoots todo).filter fun q => q ∉ loadedRoots l).eraseDups = all

theorem waitingRoots_cons_of_not_root {p : Pending} {ps : List Pending} (hp : p.isRoot = false) :
    waitingRoots (p :: ps) = waitingRoots ps := by
  rw [waitingRoots, List.filter_cons_of_neg (by rw [hp]; exact Bool.false_ne_true)]
  rfl

theorem waitingRoots_cons_of_root {p : Pending} {ps : List Pending} (hp : p.isRoot = true) :
    waitingRoots (p :: ps) = p.path :: waitingRoots ps := by
  rw [waitingRoots, List.filter_cons_of_pos hp]
  rfl

/-- A root that comes up for the first time takes its place behind the roots before it. -/
theorem eraseDups_next {done next : List String} {q : String} (hq : q ∉ done) :
    done ++ ((q :: next).filter fun x => x ∉ done).eraseDups =
      (done ++ [q]) ++ (next.filter fun x => x ∉ done ++ [q]).eraseDups := by
  rw [List.filter_cons_of_pos (by simpa using hq), List.eraseDups_cons, List.filter_filter,
    List.append_assoc, List.singleton_append]
  congr 3
  refine List.filter_congr fun x _ => ?_
  simp only [List.mem_append, List.mem_singleton, not_or, Bool.decide_and]
  rw [Bool.and_comm, Bool.eq_iff_iff]
  simp

section Roots

variable {l l' : Loading} {all : List String}

/-- The file at the place of what has been waiting is what has been waiting. -/
theorem Valid.eq_of_lookup? (hl : Valid h l) {p : Pending} (hp : p ∈ l.queue) {id : SourceId}
    (hfound : l.sources.lookup? p.path = some id) :
    (l.sources.get id).kind = p.kind ∧ (l.sources.get id).path = p.path := by
  obtain ⟨hkind, hpath, -⟩ := (hl.sound.get (Sources.lookup?_lt hfound)).unique (hl.waiting p hp)
    (Sources.components_of_lookup? hfound)
  exact ⟨hkind, hpath⟩

theorem Rooted.turn (hl : Valid h l) (hroot : Rooted all l) (ht : Turn h l l') : Rooted all l' := by
  obtain ⟨todo, rest, hqueue, hkinds, hrest, hmem, hfirst, hall⟩ := hroot
  cases ht with
  | @passed p more f hhead hf hfound =>
    rw [hhead] at hqueue
    cases todo with
    | nil =>
      obtain rfl : rest = p :: more := hqueue.symm
      exact ⟨[], more, rfl, hkinds, fun e he => hrest e (List.mem_cons_of_mem p he), hmem, hfirst, hall⟩
    | cons p' todo =>
      obtain ⟨rfl, rfl⟩ := List.cons.inj hqueue
      refine ⟨todo, rest, rfl, fun e he => hkinds e (List.mem_cons_of_mem p he), hrest, hmem,
        fun _ => hfirst (List.cons_ne_nil _ _), ?_⟩
      rw [← hall]
      cases hisRoot : p.isRoot with
      | false => rw [waitingRoots_cons_of_not_root hisRoot]; rfl
      | true =>
        -- a root that is loaded already is among the loaded roots
        obtain ⟨hkind, hpath⟩ := hl.eq_of_lookup? (hhead ▸ List.mem_cons_self) hfound
        have hin : p.path ∈ loadedRoots l := by
          refine List.mem_map.2 ⟨f.id, Array.mem_toList_iff.2 ?_, hpath⟩
          refine hfirst (List.cons_ne_nil _ _) f hf ?_
          rw [hkind]
          exact (hkinds p List.mem_cons_self).1 hisRoot
        rw [waitingRoots_cons_of_root hisRoot, List.filter_cons_of_neg (by simpa using hin)]
        rfl
  | @loads _ p more ps f hhead hloads =>
    have hold : ∀ g ∈ l.files, (l'.sources.get g.id) = l.sources.get g.id := fun g hg =>
      hloads.grows.get_eq (hl.loaded g hg).registered
    have hpaths : l.roots.toList.map (fun id => (l'.sources.get id).path) = loadedRoots l := by
      refine List.map_congr_left fun id hid => ?_
      obtain ⟨g, hg, rfl⟩ := hmem id (Array.mem_toList_iff.1 hid)
      rw [hold g hg]
    have hmem' : ∀ id ∈ l'.roots, ∃ g ∈ l'.files, g.id = id := by
      intro id hid
      rw [hloads.files_eq]
      rw [hloads.roots_eq] at hid
      have hkept : id ∈ l.roots → ∃ g ∈ l.files.push f, g.id = id := fun hid => by
        obtain ⟨g, hg, rfl⟩ := hmem id hid
        exact ⟨g, Array.mem_push_of_mem _ hg, rfl⟩
      split at hid
      · rcases Array.mem_push.1 hid with hid | rfl
        · exact hkept hid
        · exact ⟨f, Array.mem_push_self, rfl⟩
      · exact hkept hid
    have hps : ∀ e ∈ ps, e.isRoot = false := fun e he => (hloads.pending e he).1
    have hkept : p.isRoot = false → l'.roots = l.roots ∧ loadedRoots l' = loadedRoots l := by
      intro hno
      have hroots : l'.roots = l.roots := by rw [hloads.roots_eq, hno]; rfl
      exact ⟨hroots, by rw [loadedRoots, hroots, hpaths]⟩
    rw [hhead] at hqueue
    cases todo with
    | nil =>
      obtain rfl : rest = p :: more := hqueue.symm
      refine ⟨[], more ++ ps, hloads.queue_eq, hkinds, fun e he => ?_, hmem',
        fun hne => absurd rfl hne, ?_⟩
      · exact (List.mem_append.1 he).elim (fun he => hrest e (List.mem_cons_of_mem p he)) (hps e)
      · rw [(hkept (hrest p List.mem_cons_self)).2]
        exact hall
    | cons p' todo =>
      obtain ⟨rfl, rfl⟩ := List.cons.inj hqueue
      refine ⟨todo, rest ++ ps, hloads.queue_eq.trans (List.append_assoc ..),
        fun e he => hkinds e (List.mem_cons_of_mem p he),
        fun e he => (List.mem_append.1 he).elim (hrest e) (hps e), hmem', fun _ g hg hkind => ?_, ?_⟩
      · rw [hloads.files_eq] at hg
        rw [hloads.roots_eq]
        rcases Array.mem_push.1 hg with hg | rfl
        · rw [hold g hg] at hkind
          have hin := hfirst (List.cons_ne_nil _ _) g hg hkind
          split
          · exact Array.mem_push_of_mem _ hin
          · exact hin
        · rw [hloads.kind_eq] at hkind
          rw [if_pos ((hkinds p List.mem_cons_self).2 hkind)]
          exact Array.mem_push_self
      · rw [← hall]
        cases hisRoot : p.isRoot with
        | false => rw [(hkept hisRoot).2, waitingRoots_cons_of_not_root hisRoot]
        | true =>
          -- the path is not that of a loaded root, for this file was not loaded
          have hnew : p.path ∉ loadedRoots l := by
            intro hin
            obtain ⟨id, hid, hpath⟩ := List.mem_map.1 hin
            obtain ⟨g, hg, rfl⟩ := hmem id (Array.mem_toList_iff.1 hid)
            refine hloads.fresh g hg ?_
            have hg' := Sources.lookup?_eq_some hloads.sound.distinct
              (Nat.lt_of_lt_of_le (hl.loaded g hg).registered hloads.grows.size_le)
              (congrArg components ((congrArg Source.path (hold g hg)).trans hpath))
            have hf := Sources.lookup?_eq_some hloads.sound.distinct hloads.file.registered
              (congrArg components hloads.path_eq)
            exact Option.some.inj (hg'.symm.trans hf)
          have hroots : loadedRoots l' = loadedRoots l ++ [p.path] := by
            rw [loadedRoots, hloads.roots_eq, if_pos hisRoot, Array.toList_push, List.map_append,
              hpaths, List.map_singleton, hloads.path_eq]
          rw [hroots, waitingRoots_cons_of_root hisRoot]
          exact (eraseDups_next hnew).symm

theorem rooted_turns (hl : Valid h l) (hroot : Rooted all l)
    (ht : Relation.ReflTransGen (Turn h) l l') : Rooted all l' := by
  induction ht with
  | refl => exact hroot
  | tail hturns hturn ih => exact ih.turn (valid_turns hl hturns) hturn

/-- When nothing waits any more all roots have been loaded, in their order and once. -/
theorem Rooted.done (hroot : Rooted all l) (hnone : l.queue = []) : loadedRoots l = all := by
  obtain ⟨todo, rest, hqueue, -, -, -, -, hall⟩ := hroot
  rw [hnone] at hqueue
  obtain rfl : todo = [] := (List.append_eq_nil_iff.1 hqueue.symm).1
  rw [← hall]
  exact (List.append_nil _).symm

end Roots

/-! ## The start -/

/-- The paths at which the roots are looked for, in their order. -/
def rootPaths (h : Host) (roots : List String) : List String := roots.map (Path.resolve h.directory)

/-- The report of a root that is missing. -/
def missingRoot (path : String) : Diagnostic := .detailed .fileNotFound none [shownPath path]

/-- A turn that queues a root which is there and reports one which is not goes through all roots in
their order. -/
theorem foldl_queues {turn : List Pending × List Diagnostic → String → List Pending × List Diagnostic}
    (hthere : ∀ x name text, h.read? (Path.resolve h.directory name) = some text →
      turn x name = (x.1 ++ [⟨.module, Path.resolve h.directory name, text, true⟩], x.2))
    (hmissing : ∀ x name, h.read? (Path.resolve h.directory name) = none →
      turn x name = (x.1, x.2 ++ [missingRoot (Path.resolve h.directory name)]))
    (roots : List String) (queue : List Pending) (missing : List Diagnostic) :
    roots.foldl turn (queue, missing) =
      (queue ++ (rootPaths h roots).filterMap (fun path =>
          (h.read? path).map fun text => ⟨.module, path, text, true⟩),
        missing ++ ((rootPaths h roots).filter fun path => (h.read? path).isNone).map missingRoot) := by
  unfold rootPaths
  induction roots generalizing queue missing with
  | nil => simp
  | cons name roots ih =>
    rw [List.foldl_cons]
    cases hread : h.read? (Path.resolve h.directory name) with
    | some text =>
      rw [hthere _ _ _ hread, ih]
      simp [hread]
    | none =>
      rw [hmissing _ _ hread, ih]
      simp [hread]

/-- The library waits first, then the roots that are there. The others are reported. -/
theorem start_eq (h : Host) (roots : List String) (options : CompilerOptions) :
    start h roots options =
      ((if options.noLib then [] else [⟨.defaultLib, Library.name, Library.text, false⟩]) ++
        (rootPaths h roots).filterMap (fun path =>
          (h.read? path).map fun text => ⟨.module, path, text, true⟩),
      ((rootPaths h roots).filter fun path => (h.read? path).isNone).map missingRoot) := by
  refine foldl_queues (fun x name text hread => ?_) (fun x name hread => ?_) roots _ []
  · simp only [hread]
  · simp only [hread]
    rfl

/-- At the start the library, unless it is switched off, and the roots that are there wait. -/
theorem mem_start {roots : List String} {options : CompilerOptions} (hd : isAbsolute h.directory = true)
    {p : Pending} (hp : p ∈ (start h roots options).1) :
    (options.noLib = false ∧ p = ⟨.defaultLib, Library.name, Library.text, false⟩) ∨
      p.isRoot = true ∧ p.kind = .module ∧ p.path ∈ rootPaths h roots ∧ IsPlain p.path ∧
        h.read? p.path = some p.text := by
  rw [start_eq] at hp
  rcases List.mem_append.1 hp with hp | hp
  · split at hp
    · cases hp
    · rename_i hlib
      exact .inl ⟨Bool.eq_false_of_not_eq_true hlib, List.mem_singleton.1 hp⟩
  · obtain ⟨path, hpath, hread⟩ := List.mem_filterMap.1 hp
    obtain ⟨text, htext, rfl⟩ := Option.map_eq_some_iff.1 hread
    have hplain : IsPlain path := by
      obtain ⟨name, -, hname⟩ := List.mem_map.1 hpath
      rw [← hname]
      exact isPlain_resolve hd name
    exact .inr ⟨rfl, rfl, hpath, hplain, htext⟩

theorem waitingRoots_start (h : Host) (roots : List String) (options : CompilerOptions) :
    waitingRoots (start h roots options).1 =
      (rootPaths h roots).filter fun path => (h.read? path).isSome := by
  have hroots (paths : List String) : waitingRoots (paths.filterMap fun path =>
      (h.read? path).map fun text => ⟨.module, path, text, true⟩) =
        paths.filter fun path => (h.read? path).isSome := by
    induction paths with
    | nil => rfl
    | cons path paths ih =>
      cases hread : h.read? path with
      | none =>
        rw [List.filterMap_cons_none (by rw [hread]; rfl), ih, List.filter_cons_of_neg (by simp [hread])]
      | some text =>
        rw [List.filterMap_cons_some (by rw [hread]; rfl), waitingRoots_cons_of_root rfl, ih,
          List.filter_cons_of_pos (by simp [hread])]
  rw [start_eq]
  cases options.noLib with
  | true => exact hroots _
  | false => exact (waitingRoots_cons_of_not_root rfl).trans (hroots _)

/-- Before the first turn nothing is registered, and all roots wait. -/
theorem start_valid (roots : List String) (options : CompilerOptions) {l : Loading}
    (hd : isAbsolute h.directory = true)
    (hl : l = { sources := {}, queue := (start h roots options).1 }) :
    Valid h l ∧ Rooted ((rootPaths h roots).filter fun path => (h.read? path).isSome).eraseDups l := by
  subst hl
  refine ⟨⟨.empty h, fun p hp => ?_, List.nodup_nil, fun f hf => absurd hf (Array.not_mem_empty f),
    fun id hid => absurd hid (Nat.not_lt_zero _)⟩, (start h roots options).1, [],
      (List.append_nil _).symm, fun p hp => ?_, fun p hp => absurd hp List.not_mem_nil,
      fun id hid => absurd hid (Array.not_mem_empty id),
      fun _ f hf => absurd hf (Array.not_mem_empty f), ?_⟩
  · rcases mem_start hd hp with ⟨-, rfl⟩ | ⟨-, hkind, -, hplain, hread⟩
    · exact .library
    · rw [hkind]
      exact .module hplain hread
  · rcases mem_start hd hp with ⟨-, rfl⟩ | ⟨hroot, hkind, -⟩
    · exact iff_of_false Bool.false_ne_true SourceKind.noConfusion
    · exact iff_of_true hroot hkind
  · rw [waitingRoots_start]
    exact congrArg List.eraseDups
      (List.filter_eq_self.2 fun _ _ => decide_eq_true List.not_mem_nil)

theorem start_within {roots : List String} {options : CompilerOptions} {S : Set String}
    (hd : isAbsolute h.directory = true)
    (hS : ∀ path ∈ rootPaths h roots, (h.read? path).isSome → path ∈ S) :
    Within S { sources := {}, queue := (start h roots options).1 } where
  registered id hid := absurd hid (Nat.not_lt_zero _)
  waiting p hp hkind := by
    rcases mem_start hd hp with ⟨-, rfl⟩ | ⟨-, -, hpath, -, hread⟩
    · cases hkind
    · exact hS _ hpath (by rw [hread]; rfl)

/-! ## The files of a program -/

/-- The path of a file. -/
def pathOf (p : Program) (f : ProgramFile) : String := (p.source f.id).path

/-- The files that are not the library. -/
def modules (p : Program) : List ProgramFile :=
  p.files.toList.filter fun f => !(p.source f.id).isDefaultLib

/-- A set of paths has the roots that are there, and with each module all that its specifiers lead
to. -/
structure Closed (p : Program) (h : Host) (roots : List String) (S : Set String) : Prop where
  root : ∀ path ∈ rootPaths h roots, (h.read? path).isSome → path ∈ S
  led : ∀ f ∈ p.modules, p.pathOf f ∈ S → ∀ t ∈ targets h (p.pathOf f) f.root, t ∈ S

/-- A program has been loaded from a host: its modules are at different places and have the texts of
the host; their paths are the least set that has the roots and what the modules lead to; each specifier
has its reference, and one that is resolved names a file of the program; the roots are those that are
there, once and in their order, and each of the others is reported. -/
structure LoadedFrom (p : Program) (h : Host) (roots : List String) : Prop where
  apart : p.modules.Pairwise fun f g => Path.same (p.pathOf f) (p.pathOf g) = false
  parsed : ∀ f ∈ p.modules, h.read? (p.pathOf f) = some (p.source f.id).text ∧
    ∃ q, parse f.id (p.source f.id).text = .ok q ∧ f.root = ⟨q.tree, []⟩
  least : IsLeast {S | p.Closed h roots S} {path | ∃ f ∈ p.modules, p.pathOf f = path}
  references : ∀ f ∈ p.files,
    f.references = (specifiers f.root).map (referenceTo h (p.pathOf f) p.sources)
  resolved : ∀ f ∈ p.files, ∀ r ∈ f.references, ∀ id, r.resolved = some id →
    ∃ g ∈ p.modules, p.file? id = some g ∧
      Module.resolve? h r.specifier (p.pathOf f) = some (p.pathOf g)
  rooted : p.roots.map (fun id => (p.source id).path) =
      ((rootPaths h roots).filter fun path => (h.read? path).isSome).eraseDups ∧
    ∀ id ∈ p.roots, ∃ f ∈ p.modules, f.id = id
  missing : p.globalDiagnostics =
    ((rootPaths h roots).filter fun path => (h.read? path).isNone).map missingRoot

section Settled

variable {l : Loading}

/-- When nothing waits any more, what is registered is loaded. -/
theorem Valid.exists_file (hl : Valid h l) (hnone : l.queue = []) {id : SourceId}
    (hid : id.index < l.sources.files.size) : ∃ f ∈ l.files, f.id = id := by
  rcases hl.awaited id hid with hloaded | ⟨e, he, -⟩
  · exact hloaded
  · rw [hnone] at he
    cases he

/-- A loaded file that has specifiers is a module at an absolute path. -/
theorem FileOf.isAbsolute {m : Sources} {f : ProgramFile} (hf : FileOf h m f) (hm : m.Sound h)
    {n : Node} (hn : n ∈ specifiers f.root) : isAbsolute (m.get f.id).path = true := by
  have hg := hm.get hf.registered
  obtain ⟨q, hq, hroot⟩ := hf.parsed
  obtain ⟨source, hsource⟩ := parseSource_eq m f.id
  rw [hsource] at hq
  generalize (m.get f.id).kind = kind, (m.get f.id).path = path, (m.get f.id).text = text at hg hq
  cases hg with
  | library =>
    rw [hroot, specifiers_library hq] at hn
    cases hn
  | module plain _ => exact plain.isAbsolute

/-- Files with different numbers are at different places. -/
theorem Valid.same_eq_false (hl : Valid h l) {f g : ProgramFile} (hf : f ∈ l.files)
    (hg : g ∈ l.files) (hne : f.id ≠ g.id) :
    Path.same (l.sources.get f.id).path (l.sources.get g.id).path = false := by
  rw [Path.same, beq_eq_false_iff_ne]
  intro heq
  have hself := Sources.lookup?_eq_some hl.sound.distinct (hl.loaded g hg).registered rfl
  have hother := Sources.lookup?_eq_some hl.sound.distinct (hl.loaded f hf).registered heq
  exact hne (Option.some.inj (hother.symm.trans hself))

theorem Valid.loaded_spec (hl : Valid h l) : Loaded l where
  parsed f hf := by
    obtain ⟨q, hq, hroot⟩ := (hl.loaded f hf).parsed
    obtain ⟨source, limits, text, hparse⟩ := parseSource_spec hq
    exact ⟨source, limits, text, q, hparse, hroot⟩
  known f hf := (hl.loaded f hf).registered
  distinct := hl.once

end Settled

/-- A program has been taken from a load in which nothing waits any more. -/
structure Finished (h : Host) (p : Program) (l : Loading) : Prop where
  valid : Valid h l
  none : l.queue = []
  sources_eq : p.sources = l.sources
  files_eq : p.files = l.files
  roots_eq : p.roots = l.roots.toList

namespace Finished

variable {p : Program} {l : Loading} {f : ProgramFile}

theorem source_eq (hp : Finished h p l) (id : SourceId) : p.source id = l.sources.get id := by
  rw [source, hp.sources_eq]

theorem pathOf_eq (hp : Finished h p l) (f : ProgramFile) :
    p.pathOf f = (l.sources.get f.id).path := by
  rw [pathOf, hp.source_eq]

theorem mem_modules (hp : Finished h p l) :
    f ∈ p.modules ↔ f ∈ l.files ∧ (l.sources.get f.id).kind ≠ .defaultLib := by
  rw [modules, List.mem_filter, hp.files_eq, Array.mem_toList_iff, hp.source_eq, Source.isDefaultLib]
  simp

/-- A module is at a plain path and has the text of the host. -/
theorem module_spec (hp : Finished h p l) (hf : f ∈ p.modules) :
    f ∈ l.files ∧ (l.sources.get f.id).kind = .module ∧ IsPlain (p.pathOf f) ∧
      h.read? (p.pathOf f) = some (p.source f.id).text := by
  obtain ⟨hmem, hkind⟩ := hp.mem_modules.1 hf
  rw [hp.pathOf_eq, hp.source_eq]
  exact ⟨hmem, (hp.valid.sound.get (hp.valid.loaded f hmem).registered).isModule hkind⟩

/-- A plain path that is registered is that of a module. -/
theorem exists_module (hp : Finished h p l) {path : String} (hpath : IsPlain path) {id : SourceId}
    (hfound : l.sources.lookup? path = some id) :
    ∃ g ∈ p.modules, g.id = id ∧ p.pathOf g = path := by
  have hid := Sources.lookup?_lt hfound
  obtain ⟨g, hg, rfl⟩ := hp.valid.exists_file hp.none hid
  obtain ⟨hkind, heq⟩ := (hp.valid.sound.get hid).eq_of_isPlain hpath
    (Sources.components_of_lookup? hfound)
  refine ⟨g, hp.mem_modules.2 ⟨hg, ?_⟩, rfl, (hp.pathOf_eq g).trans heq⟩
  rw [hkind]
  exact SourceKind.noConfusion

theorem apart (hp : Finished h p l) :
    p.modules.Pairwise fun f g => Path.same (p.pathOf f) (p.pathOf g) = false := by
  have honce : p.files.toList.Pairwise fun f g => f.id ≠ g.id := by
    rw [hp.files_eq]
    exact List.pairwise_map.1 hp.valid.once
  refine (honce.sublist List.filter_sublist).imp_of_mem fun hf hg hne => ?_
  rw [hp.pathOf_eq, hp.pathOf_eq]
  exact hp.valid.same_eq_false (hp.module_spec hf).1 (hp.module_spec hg).1 hne

theorem parsed (hp : Finished h p l) (hf : f ∈ p.modules) :
    ∃ q, parse f.id (p.source f.id).text = .ok q ∧ f.root = ⟨q.tree, []⟩ := by
  obtain ⟨hmem, hkind, -⟩ := hp.module_spec hf
  obtain ⟨q, hq, hroot⟩ := (hp.valid.loaded f hmem).parsed
  rw [parseSource_of_module hkind, ← hp.source_eq] at hq
  exact ⟨q, hq, hroot⟩

theorem references (hp : Finished h p l) (hf : f ∈ p.files) :
    f.references = (specifiers f.root).map (referenceTo h (p.pathOf f) p.sources) := by
  rw [hp.files_eq] at hf
  rw [hp.pathOf_eq, hp.sources_eq]
  exact (hp.valid.loaded f hf).references

/-- What the specifiers of a module lead to is loaded. -/
theorem led (hp : Finished h p l) (hf : f ∈ p.modules) {t : String}
    (ht : t ∈ targets h (p.pathOf f) f.root) : ∃ g ∈ p.modules, p.pathOf g = t := by
  obtain ⟨hmem, -, hplain, -⟩ := hp.module_spec hf
  obtain ⟨n, -, hresolve⟩ := List.mem_filterMap.1 ht
  rw [hp.pathOf_eq] at ht
  obtain ⟨id, hid⟩ := (hp.valid.loaded f hmem).known t ht
  obtain ⟨g, hg, -, hpath⟩ := hp.exists_module (Module.resolve?_spec hplain.isAbsolute hresolve).1 hid
  exact ⟨g, hg, hpath⟩

/-- A reference that is resolved names the module that its specifier leads to. -/
theorem resolved (hp : Finished h p l) (hf : f ∈ p.files) {r : ModuleReference}
    (hr : r ∈ f.references) {id : SourceId} (hid : r.resolved = some id) :
    ∃ g ∈ p.modules, p.file? id = some g ∧
      Module.resolve? h r.specifier (p.pathOf f) = some (p.pathOf g) := by
  rw [hp.references hf] at hr
  obtain ⟨n, hn, rfl⟩ := List.mem_map.1 hr
  obtain ⟨t, ht, hfound⟩ := Option.bind_eq_some_iff.1 hid
  rw [hp.files_eq] at hf
  have habs := (hp.valid.loaded f hf).isAbsolute hp.valid.sound hn
  rw [← hp.pathOf_eq] at habs
  rw [hp.sources_eq] at hfound
  obtain ⟨g, hg, rfl, rfl⟩ := hp.exists_module (Module.resolve?_spec habs ht).1 hfound
  refine ⟨g, hg, file?_of_mem hp.valid.loaded_spec hp.files_eq ?_, ht⟩
  rw [hp.files_eq]
  exact (hp.module_spec hg).1

/-- The modules are in every set that has the roots and what the modules lead to. -/
theorem mem_of_closed (hp : Finished h p l) {roots : List String} {options : CompilerOptions}
    (hd : isAbsolute h.directory = true)
    (hturns : Relation.ReflTransGen (Turn h)
      { sources := {}, queue := (start h roots options).1 } l) {S : Set String}
    (hS : p.Closed h roots S) (hf : f ∈ p.modules) : p.pathOf f ∈ S := by
  have hwithin : Within S l := by
    refine within_turns (start_valid roots options hd rfl).1 (start_within hd hS.root) hturns fun g hg => ?_
    intro hkind hpath
    rw [← hp.pathOf_eq] at hpath ⊢
    refine hS.led g (hp.mem_modules.2 ⟨hg, ?_⟩) hpath
    rw [hkind]
    exact SourceKind.noConfusion
  obtain ⟨hmem, hkind, -⟩ := hp.module_spec hf
  rw [hp.pathOf_eq]
  exact hwithin.registered f.id (hp.valid.loaded f hmem).registered hkind

end Finished

/-- The roots of the program are those that are there, and modules of it. -/
theorem Finished.rooted {p : Program} {l : Loading} {roots : List String} (hp : Finished h p l)
    (hd : isAbsolute h.directory = true)
    (hroot : Rooted ((rootPaths h roots).filter fun path => (h.read? path).isSome).eraseDups l) :
    p.roots.map (fun id => (p.source id).path) =
        ((rootPaths h roots).filter fun path => (h.read? path).isSome).eraseDups ∧
      ∀ id ∈ p.roots, ∃ f ∈ p.modules, f.id = id := by
  have hall : p.roots.map (fun id => (p.source id).path) =
      ((rootPaths h roots).filter fun path => (h.read? path).isSome).eraseDups := by
    rw [← hroot.done hp.none, loadedRoots, hp.roots_eq]
    exact List.map_congr_left fun id _ => congrArg Source.path (hp.source_eq id)
  refine ⟨hall, fun id hid => ?_⟩
  -- a root is at a plain path, so it is a module
  have hplain : IsPlain (p.source id).path := by
    have hmem := List.mem_map_of_mem (f := fun id => (p.source id).path) hid
    rw [hall, List.mem_eraseDups, List.mem_filter] at hmem
    obtain ⟨name, -, hname⟩ := List.mem_map.1 hmem.1
    exact hname ▸ isPlain_resolve hd name
  obtain ⟨-, -, -, -, -, hmem, -⟩ := hroot
  rw [hp.roots_eq] at hid
  obtain ⟨f, hf, rfl⟩ := hmem id (Array.mem_toList_iff.1 hid)
  have hfound := Sources.lookup?_eq_some hp.valid.sound.distinct (hp.valid.loaded f hf).registered
    (congrArg components (congrArg Source.path (hp.source_eq f.id).symm))
  obtain ⟨g, hg, hid, -⟩ := hp.exists_module hplain hfound
  exact ⟨g, hg, hid⟩

/-- What a load has come to when nothing waits any more. -/
theorem Finished.loadedFrom {p : Program} {l : Loading} {roots : List String}
    (options : CompilerOptions) (hp : Finished h p l) (hd : isAbsolute h.directory = true)
    (hturns : Relation.ReflTransGen (Turn h)
      { sources := {}, queue := (start h roots options).1 } l)
    (hmissing : p.globalDiagnostics = (start h roots options).2) : p.LoadedFrom h roots := by
  obtain ⟨hstart, hwaiting⟩ := start_valid roots options hd rfl
  have hrooted := hp.rooted hd (rooted_turns hstart hwaiting hturns)
  refine ⟨hp.apart, fun f hf => ⟨(hp.module_spec hf).2.2.2, hp.parsed hf⟩, ⟨⟨fun path hpath hread => ?_,
    fun f hf _ t ht => hp.led hf ht⟩, ?_⟩, fun f hf => hp.references hf,
    fun f hf r hr id hid => hp.resolved hf hr hid, hrooted, ?_⟩
  · have hmem : path ∈ p.roots.map fun id => (p.source id).path := by
      rw [hrooted.1, List.mem_eraseDups, List.mem_filter]
      exact ⟨hpath, hread⟩
    obtain ⟨id, hid, rfl⟩ := List.mem_map.1 hmem
    obtain ⟨f, hf, rfl⟩ := hrooted.2 id hid
    exact ⟨f, hf, rfl⟩
  · rintro S hS path ⟨f, hf, rfl⟩
    exact hp.mem_of_closed hd hturns hS hf
  · rw [hmissing, start_eq]

/-- Loading a program reaches exactly what its roots lead to. Where all files of the host can be read
and its directory is absolute, a load without earlier sources ends, whatever the root names and the
options: either a parse of the library or of a file of the host has reached a limit, or the program has
been loaded from the host. Then its modules are at different places, and their paths are the least
set that has every root that is there and, with each module, every path that its specifiers lead to. A
reference that is resolved names a module of the program. The roots are those that are there, each once
and in the order in which they come first, and every name of a root that is missing is reported. -/
theorem load_exact (h : Host) (roots : List String) (options : CompilerOptions) (hr : h.IsReadable)
    (hd : Path.isAbsolute h.directory = true) :
    (∃ e source text, load {} roots options h = .error e ∧
        (e = .outOfTokens ∨ e = .tooDeep) ∧ parse source text = .error e ∧
        (options.noLib = false ∧ text = Library.text ∨ ∃ path, h.read? path = some text)) ∨
      ∃ p, load {} roots options h = .ok p ∧ p.LoadedFrom h roots := by
  obtain ⟨hstart, -⟩ := start_valid roots options hd rfl
  rw [load]
  rcases hstarted : start h roots options with ⟨queue, missing⟩
  rw [hstarted] at hstart
  dsimp only at hstart ⊢
  have hbound : queue.length + unmet h {} ≤ queue.length + h.files.length + 1 := by
    have := unmet_le_length h {}
    omega
  rcases loadQueue_turns hr hstart hbound with
    ⟨e, source, kind, path, text, hload, hgenuine, hlib, hparse⟩ | ⟨l, hload, hturns, hl, hnone⟩
  · rw [hload]
    refine .inl ⟨e, source, text, rfl, ?_, hparse, ?_⟩
    · have hlimit := isLimit_of_parseWith hparse
      cases e with
      | outOfTokens => exact .inl rfl
      | tooDeep => exact .inr rfl
      | cannotWrite path => cases hlimit
    · cases hgenuine with
      | library =>
        obtain ⟨p, hp, hkind⟩ := hlib rfl
        rcases mem_start hd (show p ∈ (start h roots options).1 by rw [hstarted]; exact hp) with ⟨hno, -⟩ | ⟨-, hmodule, -⟩
        · exact .inl ⟨hno, rfl⟩
        · rw [hmodule] at hkind
          cases hkind
      | module _ hread => exact .inr ⟨_, hread⟩
  · rw [hload]
    refine .inr ⟨_, rfl, Finished.loadedFrom options ⟨hl, hnone, rfl, rfl, rfl⟩ hd ?_ ?_⟩
    · rw [hstarted]
      exact hturns
    · rw [hstarted]

/-- Two files that import each other. -/
def circle : Host where
  directory := "/p"
  files := [([.root, .name "p", .name "a.ts"], some "import './b'"),
    ([.root, .name "p", .name "b.ts"], some "import './a'")]

theorem parse_circle_a (id : SourceId) : (parse id "import './b'").toOption.map
    (fun q => (specifiers ⟨q.tree, []⟩).map (·.specifierValue)) = some ["./b"] := by
  have hlex : Token.lex "import './b'" =
      [⟨.kwImport, 0, "import"⟩, ⟨.whitespace, 6, " "⟩, ⟨.stringLiteral, 7, "'./b'"⟩] := by
    cbv
  rw [parse, parseWith, Parser.State.afterFile, Parser.State.start, hlex]
  cbv

theorem parse_circle_b (id : SourceId) : (parse id "import './a'").toOption.isSome = true := by
  have hlex : Token.lex "import './a'" =
      [⟨.kwImport, 0, "import"⟩, ⟨.whitespace, 6, " "⟩, ⟨.stringLiteral, 7, "'./a'"⟩] := by
    cbv
  rw [parse, parseWith, Parser.State.afterFile, Parser.State.start, hlex]
  cbv

theorem resolve?_circle : Module.resolve? circle "./b" "/p/a.ts" = some "/p/b.ts" := by
  decide +kernel

theorem rootPaths_circle : ((rootPaths circle ["a.ts", "c.ts", "a.ts"]).filter fun path =>
    (circle.read? path).isSome).eraseDups = ["/p/a.ts"] := by
  decide +kernel

/-- A root that is named twice, one that is missing, and a file that is no root but imported. -/
theorem load_exact_circle :
    ∃ p, load {} ["a.ts", "c.ts", "a.ts"] { noLib := true } circle = .ok p ∧
      p.LoadedFrom circle ["a.ts", "c.ts", "a.ts"] ∧
      p.roots.map (fun id => (p.source id).path) = ["/p/a.ts"] ∧
      ∃ f ∈ p.modules, p.pathOf f = "/p/b.ts" := by
  have hr : circle.IsReadable := by
    intro e he
    rcases List.mem_cons.1 he with rfl | he
    · rfl
    · rw [List.mem_singleton.1 he]
      rfl
  rcases load_exact circle ["a.ts", "c.ts", "a.ts"] { noLib := true } hr (by decide) with
    ⟨e, source, text, -, -, hparse, ⟨hlib, -⟩ | ⟨path, hread⟩⟩ | ⟨p, hload, hp⟩
  · cases hlib
  · -- both texts are parsed
    rcases List.mem_cons.1 (Host.mem_files (Option.join_eq_some_iff.1 hread)) with heq | hmem
    · have hok := parse_circle_a source
      rw [← Option.some.inj (congrArg Prod.snd heq), hparse] at hok
      cases hok
    · have hok := parse_circle_b source
      rw [← Option.some.inj (congrArg Prod.snd (List.mem_singleton.1 hmem)), hparse] at hok
      cases hok
  · have hrooted := hp.rooted.1.trans rootPaths_circle
    refine ⟨p, hload, hp, hrooted, ?_⟩
    obtain ⟨id, hid, hpath⟩ := List.mem_map.1 (hrooted ▸ List.mem_singleton_self "/p/a.ts")
    obtain ⟨f, hf, rfl⟩ := hp.rooted.2 id hid
    replace hpath : p.pathOf f = "/p/a.ts" := hpath
    obtain ⟨hread, q, hq, hroot⟩ := hp.parsed f hf
    -- the root leads to the other file, and the paths of the modules are closed
    have hvalues : (specifiers f.root).map (·.specifierValue) = ["./b"] := by
      have htext : (p.source f.id).text = "import './b'" := by
        rw [hpath] at hread
        exact Option.some.inj (hread.symm.trans (by cbv))
      have hok := parse_circle_a f.id
      rw [← htext, hq] at hok
      rw [hroot]
      exact Option.some.inj hok
    obtain ⟨n, hn, hvalue⟩ := List.mem_map.1 (hvalues ▸ List.mem_singleton_self "./b")
    refine hp.least.1.led f hf ⟨f, hf, rfl⟩ "/p/b.ts" (List.mem_filterMap.2 ⟨n, hn, ?_⟩)
    rw [hvalue, hpath, resolve?_circle]

end DeclKit.Program

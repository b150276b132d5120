/-
The built-in library of a loaded program is a script.

Only the start puts the library into the queue, and what is registered as the library has its text as
long as that was so at the beginning. So when a file of the library is loaded, what is parsed is the
text of the library, and no import or export is found in it.
-/
import DeclKit.Proofs.Program.Reach

set_option autoImplicit false

namespace DeclKit

/-- What is registered as the library is the library. -/
def Sources.KeepsLibrary (m : Sources) : Prop :=
  ∀ s ∈ m.files, s.isDefaultLib = true → s.text = Library.text

namespace Sources

variable {m : Sources} {kind : SourceKind} {path text : String}

theorem extends_add (m : Sources) (kind : SourceKind) (path text : String) :
    m.Extends (m.add kind path text).2 := by
  rw [add]
  split
  · exact .refl m
  · exact extends_push m _

theorem KeepsLibrary.add (hm : m.KeepsLibrary) (htext : kind = .defaultLib → text = Library.text) :
    (m.add kind path text).2.KeepsLibrary := by
  rw [Sources.add]
  split
  · exact hm
  · intro s hs hlib
    rcases Array.mem_push.1 hs with hs | rfl
    · exact hm s hs hlib
    · exact htext (eq_of_beq hlib)

end Sources

namespace Program

/-- What is registered or waits as the library is the library, and the files of the library that are
loaded are scripts. -/
structure Scripted (l : Loading) : Prop where
  registered : l.sources.KeepsLibrary
  waiting : ∀ p ∈ l.queue, p.kind = .defaultLib → p.text = Library.text
  known : ∀ f ∈ l.files, f.id.index < l.sources.files.size
  script : ∀ f ∈ l.files, (l.sources.get f.id).isDefaultLib = true → f.root.isModule = false

variable {h : Host}

/-- What is registered anew is no concern of the files that are loaded. -/
theorem Scripted.grow {l l' : Loading} (hl : Scripted l) (hfiles : l'.files = l.files)
    (hgrows : l.sources.Extends l'.sources) (hregistered : l'.sources.KeepsLibrary)
    (hwaiting : ∀ p ∈ l'.queue, p ∈ l.queue ∨ (p.kind = .defaultLib → p.text = Library.text)) :
    Scripted l' where
  registered := hregistered
  waiting p hp := (hwaiting p hp).elim (hl.waiting p) id
  known f hf := Nat.lt_of_lt_of_le (hl.known f (hfiles ▸ hf)) hgrows.size_le
  script f hf := by
    rw [hgrows.get_eq (hl.known f (hfiles ▸ hf))]
    exact hl.script f (hfiles ▸ hf)

/-- A specifier leads to modules only. -/
theorem Scripted.addReference {l : Loading} (hl : Scripted l) (path : String) (node : Node)
    (refs : List ModuleReference) :
    Scripted (addReference h path node l refs).1 ∧
      l.sources.Extends (Program.addReference h path node l refs).1.sources := by
  unfold Program.addReference
  dsimp only
  split
  · exact ⟨hl, .refl _⟩
  split
  · exact ⟨hl, .refl _⟩
  split
  · exact ⟨hl, .refl _⟩
  · have hgrows := Sources.extends_add l.sources .module
    refine ⟨hl.grow rfl (hgrows ..) (hl.registered.add fun hk => by cases hk) ?_, hgrows ..⟩
    intro p hp
    rcases List.mem_append.1 hp with hp | hp
    · exact .inl hp
    · rw [List.mem_singleton.1 hp]
      exact .inr fun hk => by cases hk

theorem Scripted.follow {l : Loading} (hl : Scripted l) (path : String) (nodes : List Node)
    (refs : List ModuleReference) :
    let out := nodes.foldl (fun x node => Program.addReference h path node x.1 x.2) (l, refs)
    Scripted out.1 ∧ l.sources.Extends out.1.sources := by
  induction nodes generalizing l refs with
  | nil => exact ⟨hl, .refl _⟩
  | cons node nodes ih =>
    obtain ⟨hfirst, hgrows⟩ := hl.addReference (h := h) path node refs
    obtain ⟨hrest, hgrows'⟩ := ih hfirst (Program.addReference h path node l refs).2
    exact ⟨hrest, hgrows.trans hgrows'⟩

/-- The parse of what is registered as the library is that of a script. -/
theorem isModule_of_parseSource {m : Sources} {id : SourceId} {q : ParsedFile}
    (hm : m.KeepsLibrary) (hid : id.index < m.files.size) (hq : parseSource m id = .ok q)
    (hlib : (m.get id).isDefaultLib = true) : (Node.mk q.tree []).isModule = false := by
  obtain ⟨source, heq⟩ := parseSource_eq m id
  rw [heq, hm _ (Sources.get_mem hid) hlib] at hq
  exact isModule_library hq

theorem Scripted.loadFile {p : Pending} {l l' : Loading} (hl : Scripted l)
    (hp : p.kind = .defaultLib → p.text = Library.text) (hload : loadFile h p l = .ok l') :
    Scripted l' := by
  unfold Program.loadFile at hload
  split at hload
  · cases hload
    exact hl
  have hid := (l.sources.add_spec p.kind p.path p.text).2.1
  have hgrows := l.sources.extends_add p.kind p.path p.text
  have hregistered : (l.sources.add p.kind p.path p.text).2.KeepsLibrary := hl.registered.add hp
  rcases hadd : l.sources.add p.kind p.path p.text with ⟨id, m⟩
  rw [hadd] at hid hgrows hregistered hload
  dsimp only at hid hgrows hregistered hload
  cases hparse : parseSource m id with
  | error e =>
    rw [hparse] at hload
    cases hload
  | ok q =>
    rw [hparse] at hload
    have hstart : Scripted { l with
        sources := m
        roots := if p.isRoot = true then l.roots.push id else l.roots
        diagnostics := l.diagnostics ++ q.diagnostics } :=
      hl.grow rfl hgrows hregistered fun e he => .inl he
    obtain ⟨hfollowed, hmore⟩ := hstart.follow (h := h) p.path (specifiers ⟨q.tree, []⟩) []
    obtain rfl := Except.ok.inj hload
    refine ⟨hfollowed.registered, hfollowed.waiting, fun f hf => ?_, fun f hf hlib => ?_⟩
    · rcases Array.mem_push.1 hf with hf | rfl
      · exact hfollowed.known f hf
      · exact Nat.lt_of_lt_of_le hid hmore.size_le
    · rcases Array.mem_push.1 hf with hf | rfl
      · exact hfollowed.script f hf hlib
      · dsimp only at hlib
        rw [hmore.get_eq hid] at hlib
        exact isModule_of_parseSource hregistered hid hparse hlib

theorem Scripted.loadQueue {n : Nat} {l l' : Loading} (hl : Scripted l)
    (hload : loadQueue h n l = .ok l') : Scripted l' := by
  induction n generalizing l with
  | zero =>
    cases hload
    exact hl
  | succ n ih =>
    rw [Program.loadQueue] at hload
    split at hload
    · cases hload
      exact hl
    · rename_i p rest hqueue
      have hrest : Scripted { l with queue := rest } := ⟨hl.registered,
        fun e he => hl.waiting e (hqueue ▸ List.mem_cons_of_mem p he), hl.known, hl.script⟩
      cases hfile : Program.loadFile h p { l with queue := rest } with
      | error e =>
        rw [hfile] at hload
        cases hload
      | ok l2 =>
        rw [hfile] at hload
        exact ih (hrest.loadFile (hl.waiting p (hqueue ▸ List.mem_cons_self)) hfile) hload

/-- What waits at the start as the library is the library. -/
theorem text_of_start {roots : List String} {options : CompilerOptions} {p : Pending}
    (hp : p ∈ (start h roots options).1) (hk : p.kind = .defaultLib) : p.text = Library.text := by
  rw [start_eq] at hp
  rcases List.mem_append.1 hp with hp | hp
  · split at hp
    · exact absurd hp List.not_mem_nil
    · rw [List.mem_singleton.1 hp]
  · obtain ⟨path, -, hread⟩ := List.mem_filterMap.1 hp
    obtain ⟨text, -, rfl⟩ := Option.map_eq_some_iff.1 hread
    cases hk

/-- In a loaded program the library is a script, whatever else was registered before. -/
theorem isModule_of_isDefaultLib {sources : Sources} {roots : List String}
    {options : CompilerOptions} {p : Program} (hsources : sources.KeepsLibrary)
    (hload : load sources roots options h = .ok p) {f : ProgramFile} (hf : f ∈ p.files)
    (hlib : (p.source f.id).isDefaultLib = true) : f.root.isModule = false := by
  rw [load] at hload
  rcases hstart : start h roots options with ⟨queue, missing⟩
  rw [hstart] at hload
  dsimp only at hload
  have hfirst : Scripted { sources, queue } :=
    ⟨hsources, fun e he => text_of_start (by rw [hstart]; exact he),
      fun f hf => absurd hf (Array.not_mem_empty f), fun f hf => absurd hf (Array.not_mem_empty f)⟩
  cases hqueue : loadQueue h (queue.length + h.files.length + 1) { sources, queue } with
  | error e =>
    rw [hqueue] at hload
    cases hload
  | ok l =>
    rw [hqueue] at hload
    obtain rfl := Except.ok.inj hload
    exact (hfirst.loadQueue hqueue).script f hf hlib

end Program

end DeclKit

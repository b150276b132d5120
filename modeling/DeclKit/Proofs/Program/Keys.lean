/-
The nodes of a program are found by their keys.

A file enters a program at most once and under a number of its own, and its root is the tree of a parse
that has succeeded. So the file of a key is the file that the key was taken from, and in it the node is
found as in any tree of the parser, unless it is empty and the search goes past it. The loader keeps both
facts from file to file: a file that is loaded already is passed over, and one that is registered anew gets
a number that no file has.
-/
import DeclKit.Decl.Tree
import DeclKit.Proofs.Parser.File
import DeclKit.Proofs.Tree.Keys

set_option autoImplicit false

namespace DeclKit

open DeclKit.Tree Node

/-! ## Loading -/

namespace Sources

theorem lookup?_lt {m : Sources} {path : String} {id : SourceId} (h : m.lookup? path = some id) :
    id.index < m.files.size := by
  rw [lookup?, Option.map_eq_some_iff] at h
  obtain ⟨i, hi, rfl⟩ := h
  exact (Array.findIdx?_eq_some_iff_getElem.1 hi).1

/-- A registered file is one that was there, or has the next number. Numbers stay. -/
theorem add_spec (m : Sources) (kind : SourceKind) (path text : String) :
    ((m.add kind path text).2.files.size ≥ m.files.size) ∧
      (m.add kind path text).1.index < (m.add kind path text).2.files.size ∧
      (m.lookup? path = some (m.add kind path text).1 ∨
        (m.add kind path text).1.index = m.files.size) := by
  unfold add
  split
  · rename_i id hid
    exact ⟨Nat.le_refl _, lookup?_lt hid, .inl hid⟩
  · simp

end Sources

namespace Program

/-- What holds of a load at any time: the files are parsed, and their numbers are registered and
different. -/
structure Loaded (l : Loading) : Prop where
  parsed : ∀ f ∈ l.files, ∃ source limits text p,
    parseWith source limits text = .ok p ∧ f.root = ⟨p.tree, []⟩
  known : ∀ f ∈ l.files, f.id.index < l.sources.files.size
  distinct : (l.files.toList.map (·.id)).Nodup

/-- Looking for the file of a specifier loads nothing. -/
theorem addReference_spec (h : Host) (path : String) (node : Node) (l : Loading)
    (refs : List ModuleReference) :
    (addReference h path node l refs).1.files = l.files ∧
      l.sources.files.size ≤ (addReference h path node l refs).1.sources.files.size := by
  unfold addReference
  dsimp only
  split
  · exact ⟨rfl, Nat.le_refl _⟩
  split
  · exact ⟨rfl, Nat.le_refl _⟩
  split
  · exact ⟨rfl, Nat.le_refl _⟩
  · exact ⟨rfl, (l.sources.add_spec ..).1⟩

theorem foldl_addReference_spec (h : Host) (path : String) (nodes : List Node) (l : Loading)
    (refs : List ModuleReference) :
    let out := nodes.foldl (fun x node => addReference h path node x.1 x.2) (l, refs)
    out.1.files = l.files ∧ l.sources.files.size ≤ out.1.sources.files.size := by
  induction nodes generalizing l refs with
  | nil => exact ⟨rfl, Nat.le_refl _⟩
  | cons node nodes ih =>
    obtain ⟨hfiles, hsize⟩ := addReference_spec h path node l refs
    obtain ⟨hfiles', hsize'⟩ := ih (addReference h path node l refs).1
      (addReference h path node l refs).2
    exact ⟨hfiles'.trans hfiles, Nat.le_trans hsize hsize'⟩

/-- The parse of a registered file is a parse, also when it is the one of the library. -/
theorem parseSource_spec {sources : Sources} {id : SourceId} {p : ParsedFile}
    (h : parseSource sources id = .ok p) :
    ∃ source limits text, parseWith source limits text = .ok p := by
  rw [parseSource] at h
  split at h
  · exact ⟨⟨0⟩, .standard, Library.text, h⟩
  · exact ⟨id, .standard, _, h⟩

/-- A file that is loaded under a new number leaves what is loaded as it should be. -/
theorem Loaded.push {l l' : Loading} {f : ProgramFile} {p : ParsedFile}
    {source : SourceId} {limits : Limits} {text : String} (hl : Loaded l)
    (hfiles : l'.files = l.files.push f) (hsize : l.sources.files.size ≤ l'.sources.files.size)
    (hparse : parseWith source limits text = .ok p) (hroot : f.root = ⟨p.tree, []⟩)
    (hid : f.id.index < l'.sources.files.size) (hnew : ∀ g ∈ l.files, g.id ≠ f.id) :
    Loaded l' where
  parsed g hg := by
    rcases Array.mem_push.1 (hfiles ▸ hg) with hg | rfl
    · exact hl.parsed g hg
    · exact ⟨source, limits, text, p, hparse, hroot⟩
  known g hg := by
    rcases Array.mem_push.1 (hfiles ▸ hg) with hg | rfl
    · exact Nat.lt_of_lt_of_le (hl.known g hg) hsize
    · exact hid
  distinct := by
    rw [hfiles, Array.toList_push, List.map_append, List.nodup_append]
    refine ⟨hl.distinct, by simp, ?_⟩
    rintro x hx y hy rfl
    obtain ⟨g, hg, rfl⟩ := List.mem_map.1 hx
    exact hnew g (Array.mem_toList_iff.1 hg) (List.mem_singleton.1 hy)

theorem loadFile_spec {h : Host} {p : Pending} {l l' : Loading} (hl : Loaded l)
    (hload : loadFile h p l = .ok l') : Loaded l' := by
  unfold loadFile at hload
  split at hload
  · cases hload
    exact hl
  rename_i hnot
  obtain ⟨hsize, hid, hwhich⟩ := l.sources.add_spec p.kind p.path p.text
  rcases hsrc : l.sources.add p.kind p.path p.text with ⟨id, sources⟩
  rw [hsrc] at hsize hid hwhich hload
  -- the number is not that of a loaded file, which would have been passed over
  have hnew : ∀ g ∈ l.files, g.id ≠ id := by
    rintro g hg rfl
    rcases hwhich with hfound | hnext
    · refine hnot ?_
      rw [hfound, Option.any_some, Array.any_eq_true']
      exact ⟨g, hg, beq_self_eq_true _⟩
    · exact absurd (hl.known g hg) (by rw [hnext]; exact Nat.lt_irrefl _)
  dsimp only at hload
  cases hparse : parseSource sources id with
  | error e =>
    rw [hparse] at hload
    cases hload
  | ok parsed =>
    rw [hparse] at hload
    obtain ⟨source, limits, text, hparsed⟩ := parseSource_spec hparse
    have hrefs := foldl_addReference_spec h p.path (specifiers ⟨parsed.tree, []⟩)
      { l with
        sources
        roots := if p.isRoot = true then l.roots.push id else l.roots
        diagnostics := l.diagnostics ++ parsed.diagnostics } []
    obtain rfl := Except.ok.inj hload
    exact hl.push (f := ⟨id, ⟨parsed.tree, []⟩, _⟩) (by rw [hrefs.1])
      (Nat.le_trans hsize hrefs.2) hparsed rfl (Nat.lt_of_lt_of_le hid hrefs.2) hnew

theorem loadQueue_spec {h : Host} {n : Nat} {l l' : Loading} (hl : Loaded l)
    (hload : loadQueue h n l = .ok l') : Loaded l' := by
  induction n generalizing l with
  | zero =>
    cases hload
    exact hl
  | succ n ih =>
    rw [loadQueue] at hload
    split at hload
    · cases hload
      exact hl
    · rename_i p rest hqueue
      have hrest : Loaded { l with queue := rest } := ⟨hl.parsed, hl.known, hl.distinct⟩
      cases hfile : loadFile h p { l with queue := rest } with
      | error e =>
        rw [hfile] at hload
        cases hload
      | ok l2 =>
        rw [hfile] at hload
        exact ih (loadFile_spec hrest hfile) hload

theorem loadQueue_nil {h : Host} {n : Nat} {l : Loading} (hq : l.queue = []) :
    loadQueue h n l = .ok l := by
  cases n with
  | zero => rfl
  | succ n =>
    rw [loadQueue, hq]
    rfl

/-- The files of a loaded program have been loaded. -/
theorem load_spec {sources : Sources} {roots : List String} {options : CompilerOptions} {h : Host}
    {p : Program} (hload : load sources roots options h = .ok p) :
    ∃ l, Loaded l ∧ p.files = l.files := by
  rw [load] at hload
  rcases hstart : start h roots options with ⟨queue, missing⟩
  rw [hstart] at hload
  dsimp only at hload
  have hfirst : Loaded { sources, queue } :=
    ⟨fun f hf => absurd hf (Array.not_mem_empty f), fun f hf => absurd hf (Array.not_mem_empty f),
      List.nodup_nil⟩
  cases hqueue : loadQueue h (queue.length + h.files.length + 1) { sources, queue } with
  | error e =>
    rw [hqueue] at hload
    cases hload
  | ok l =>
    rw [hqueue] at hload
    obtain rfl := Except.ok.inj hload
    exact ⟨l, loadQueue_spec hfirst hqueue, rfl⟩

/-- A program of one file that imports nothing is loaded if the file is parsed. -/
theorem load_single {h : Host} {roots : List String} {options : CompilerOptions}
    {path text : String} {q : ParsedFile} {missing : List Diagnostic}
    (hstart : start h roots options = ([⟨.module, path, text, true⟩], missing))
    (hq : parse ⟨0⟩ text = .ok q) (hspec : specifiers ⟨q.tree, []⟩ = []) :
    ∃ p, load {} roots options h = .ok p ∧
      p.files = #[⟨⟨0⟩, ⟨q.tree, []⟩, []⟩] ∧ (p.source ⟨0⟩).text = text := by
  have hok : ∀ {α β : Type} (a : α) (g : α → Except Failure β), (Except.ok a >>= g) = g a :=
    fun _ _ => rfl
  have hfile : ∃ l, loadFile h ⟨.module, path, text, true⟩ { sources := {} } = .ok l ∧
      l.queue = [] ∧ l.files = #[⟨⟨0⟩, ⟨q.tree, []⟩, []⟩] ∧ (l.sources.get ⟨0⟩).text = text := by
    simp [loadFile, Sources.lookup?, Sources.add, parseSource, Sources.get,
      Source.isDefaultLib, hq, hspec, hok, pure, Except.pure]
  obtain ⟨l, hl, hnone, hfiles, htext⟩ := hfile
  have hqueue (n : Nat) : loadQueue h (n + 1)
      { sources := {}, queue := [⟨.module, path, text, true⟩] } = .ok l := by
    rw [loadQueue]
    dsimp only
    rw [hl]
    exact loadQueue_nil hnone
  rw [load, hstart]
  dsimp only
  rw [hqueue]
  exact ⟨_, rfl, hfiles, htext⟩

/-- The number of a loaded file leads to that file. -/
theorem file?_of_mem {p : Program} {l : Loading} (hl : Loaded l) (hfiles : p.files = l.files)
    {f : ProgramFile} (hf : f ∈ p.files) : p.file? f.id = some f := by
  rw [file?, ← Array.find?_toList, hfiles]
  rw [hfiles] at hf
  have hdistinct := hl.distinct
  have hmem := Array.mem_toList_iff.2 hf
  -- from here on only that the numbers are different matters
  generalize l.files.toList = files at hdistinct hmem
  induction files with
  | nil => exact absurd hmem List.not_mem_nil
  | cons g files ih =>
    rw [List.map_cons, List.nodup_cons] at hdistinct
    rw [List.find?_cons]
    rcases List.mem_cons.1 hmem with rfl | hmem
    · rw [beq_self_eq_true]
    · have hne : (g.id == f.id) = false := beq_eq_false_iff_ne.2 fun heq =>
        hdistinct.1 (heq ▸ List.mem_map_of_mem hmem)
      rw [hne]
      exact ih hdistinct.2 hmem

end Program

/-! ## Nodes of a program -/

namespace Node

/-- A type that is not empty. -/
def isFilledType (n : Node) : Bool := n.isType && decide (n.start < n.stop)

/-- A parameter that a type binds, with a name somewhere in it. -/
def isNamedParam (n : Node) : Bool :=
  (n.kind == .typeParam || n.kind == .mappedTypeParam) && n.descendants.any (·.kind == .name)

theorem isFilled_of_isFilledType {n : Node} (h : n.isFilledType = true) : n.isFilled = true := by
  rw [isFilledType, Bool.and_eq_true, decide_eq_true_iff] at h
  exact isFilled_iff.2 ⟨by rw [Kind.isKeyed, show n.kind.isType = true from h.1]; rfl, h.2⟩

theorem hasOwnKey_of_isFilled {n : Node} (h : n.isFilled = true) : n.hasOwnKey = true := by
  obtain ⟨hk, hlt⟩ := isFilled_iff.1 h
  rw [hasOwnKey, hk, decide_eq_true hlt]
  rfl

/-- A type parameter with a name in it is not empty, since an empty one has no parts. -/
theorem lt_of_name_mem {n : Node} (hc : Covers n.start n.stop n.tree) (hg : Good n.tree)
    (hk : n.kind = .typeParam) (hname : n.descendants.any (·.kind == .name) = true) :
    n.start < n.stop := by
  obtain ⟨t, above⟩ := n
  cases t with
  | token t => cases hname
  | node k s e cs =>
    obtain rfl : k = .typeParam := hk
    by_contra hlt
    -- without tokens it could own none, so it would have no parts at all
    have heq : s = e := Nat.le_antisymm hc.le (Nat.le_of_not_lt hlt)
    have hnone : CoversAll s s cs := heq ▸ hc.2.2
    rcases (hg.1 rfl).2 rfl with rfl | hown
    · cases hname
    · exact hown (bareAll_eq_nil hnone)

theorem hasOwnKey_of_isNamedParam {n : Node} (hc : Covers n.start n.stop n.tree)
    (hg : Good n.tree) (h : n.isNamedParam = true) : n.hasOwnKey = true := by
  rw [isNamedParam, Bool.and_eq_true, Bool.or_eq_true, beq_iff_eq, beq_iff_eq] at h
  obtain ⟨hk | hk, hname⟩ := h
  · refine hasOwnKey_of_isFilled (isFilled_iff.2 ⟨?_, lt_of_name_mem hc hg hk hname⟩)
    rw [hk]
    rfl
  · rw [hasOwnKey, hk]
    exact Bool.and_eq_true_iff.2 ⟨rfl, Bool.or_eq_true_iff.2 (.inr rfl)⟩

end Node

theorem pairwise_filter_of_imp {α : Type} {R : α → α → Prop} {p q : α → Bool} {xs : List α}
    (himp : ∀ x ∈ xs, p x = true → q x = true) (h : (xs.filter q).Pairwise R) :
    (xs.filter p).Pairwise R := by
  rw [List.pairwise_filter] at h ⊢
  exact h.imp_of_mem fun hx hy hR px py => hR (himp _ hx px) (himp _ hy py)

/-- Where a key of a file leads: to the innermost node with its range and kind of those around the node
that is found for its range. -/
theorem node?_of_file {p : Program} {f : ProgramFile} {t : Tree} (hfile : p.file? f.id = some f)
    (hroot : f.root = ⟨t, []⟩) (n : Node) :
    p.node? (n.key f.id) = (covering n.start n.stop [] t).bind fun m =>
      m.ancestors.find? fun x => x.spans n.start n.stop && x.kind == n.kind := by
  show ((p.file? f.id).bind fun f => _) = _
  rw [hfile, Option.bind_some, hroot]
  rfl

/-- A node with a key of its own is found by it exactly if it is met on the way. -/
theorem node?_key {p : Program} {f : ProgramFile} {t : Tree} {a b : Nat} {n : Node}
    (hfile : p.file? f.id = some f) (hroot : f.root = ⟨t, []⟩) (hcover : Covers a b t)
    (hgood : Good t) (hhollow : hollows t ≤ 1) (hn : n ∈ nodesOf [] t) (hown : n.hasOwnKey = true) :
    p.node? (n.key f.id) = some n ↔ n.IsMet n.start n.stop := by
  rw [node?_of_file hfile hroot]
  constructor
  · intro hfound
    obtain ⟨m, hm, hfound⟩ := Option.bind_eq_some_iff.1 hfound
    exact ((mem_ancestors_covering hcover hm n).1 (List.mem_of_find?_eq_some hfound)).2.2.2
  · intro hmet
    obtain ⟨m, inner, hm, hinner, -⟩ := ancestors_covering_of_isMet hcover hn (Nat.le_refl _)
      (Nat.le_refl _) hmet
    rw [hm, Option.bind_some, hinner]
    refine find?_append_of_only (by simp [spans]) fun x hx hsame => ?_
    -- no other node of the file has the key
    have hx : x ∈ m.ancestors := hinner ▸ List.mem_append_left _ hx
    have hmem := ((mem_ancestors_covering hcover hm x).1 hx).1
    simp only [spans, Bool.and_eq_true, beq_iff_eq] at hsame
    obtain ⟨⟨hs, he⟩, hk⟩ := hsame
    exact (eq_of_sameKey hcover hgood hhollow hn hmem hown ⟨⟨hs.symm, he.symm⟩, hk.symm⟩).symm

/-- A type that is not empty is found by its range. -/
theorem typeAt?_range {p : Program} {f : ProgramFile} {t : Tree} {a b : Nat} {n : Node}
    (hfile : p.file? f.id = some f) (hroot : f.root = ⟨t, []⟩) (hcover : Covers a b t)
    (hgood : Good t) (hn : n ∈ nodesOf [] t) (htype : n.isFilledType = true) :
    p.typeAt? f.id n.start n.stop = some n := by
  have hlookup : p.typeAt? f.id n.start n.stop = (covering n.start n.stop [] t).bind fun m =>
      (m.ancestors.takeWhile (spans n.start n.stop)).find? isType := by
    show ((p.file? f.id).bind fun f => _) = _
    rw [hfile, Option.bind_some, hroot]
    rfl
  have hfilled := isFilled_of_isFilledType htype
  rw [isFilledType, Bool.and_eq_true, decide_eq_true_iff] at htype
  obtain ⟨m, inner, hm, hinner, hall⟩ := ancestors_covering_of_isMet hcover hn (Nat.le_refl _)
    (Nat.le_refl _) (isMet_of_lt hcover hn htype.2 (isMet_root t))
  -- what lies between the node that is found and the type has the range of the type
  have hspans : ∀ x ∈ inner, spans n.start n.stop x = true := by
    intro x hx
    obtain ⟨hmem, hs, he⟩ := hall x hx
    obtain ⟨-, hs', he'⟩ := (hcover.mem hn).1.mem hmem
    simp only [spans, Bool.and_eq_true, beq_iff_eq]
    exact ⟨Nat.le_antisymm hs hs', Nat.le_antisymm he' he⟩
  have hself : spans n.start n.stop n = true := by simp [spans]
  rw [hlookup, hm, Option.bind_some, hinner, ancestors_eq_cons, List.takeWhile_append_of_pos hspans,
    List.takeWhile_cons_of_pos hself]
  refine find?_append_of_only htype.1 fun x hx hk => ?_
  have hmem := ((mem_ancestors_covering hcover hm x).1 (hinner ▸ List.mem_append_left _ hx)).1
  have hsame := hspans x hx
  simp only [spans, Bool.and_eq_true, beq_iff_eq] at hsame
  have hx : x.isFilledType = true := by
    rw [isFilledType, hk, hsame.1, hsame.2, Bool.true_and, decide_eq_true_iff]
    exact htype.2
  exact eq_of_sameRange hcover hgood hmem hn (isFilled_of_isFilledType hx) hfilled hsame

/-- Ranges and kinds identify nodes. In the tree of every successful parse types that are not empty
have different ranges, and the type parameters and parameters of mapped types that have a name have
different ranges or kinds. So in every file of every loaded program such a node is found by its key, unless
it is empty and not met when its place is looked for, as another empty node stands behind it. A type is
found by the range of its origin. -/
theorem keys_identify_nodes (sources : Sources) (roots : List String) (options : CompilerOptions)
    (host : Host) :
    (∀ source limits text p, parseWith source limits text = .ok p →
      let nodes := (Node.mk p.tree []).descendants
      (nodes.filter isFilledType).Pairwise (fun n m => ¬ SameRange n m) ∧
        (nodes.filter isNamedParam).Pairwise (fun n m => ¬ SameKey n m)) ∧
    ∀ p, Program.load sources roots options host = .ok p →
      ∀ f ∈ p.files, ∀ n ∈ f.root.descendants,
        (n.isFilledType = true ∨ n.isNamedParam = true ∧ n.start < n.stop →
          p.node? (n.key f.id) = some n) ∧
        (n.isNamedParam = true → (p.node? (n.key f.id) = some n ↔ n.IsMet n.start n.stop)) ∧
        (n.isFilledType = true → let o := Decl.Origin.copied f.id n
          p.typeAt? f.id o.start o.stop = some n) := by
  refine ⟨fun source limits text p h => ?_, fun p h f hf n hn => ?_⟩
  · obtain ⟨-, -, hcover, hgood, hhollow⟩ := parseWith_spec h
    refine ⟨pairwise_filter_of_imp (fun n _ => isFilled_of_isFilledType) (hcover.pairwise hgood),
      pairwise_filter_of_imp (fun n hn => ?_) (pairwise_not_sameKey hcover hgood hhollow)⟩
    exact hasOwnKey_of_isNamedParam (hcover.mem hn).1 (hgood.mem hn)
  · obtain ⟨l, hl, hfiles⟩ := Program.load_spec h
    obtain ⟨source, limits, text, q, hq, hroot⟩ := hl.parsed f (hfiles ▸ hf)
    obtain ⟨-, -, hcover, hgood, hhollow⟩ := parseWith_spec hq
    have hfile := Program.file?_of_mem hl hfiles hf
    rw [hroot] at hn
    have hnamed (hname : n.isNamedParam = true) : n.hasOwnKey = true :=
      hasOwnKey_of_isNamedParam (hcover.mem hn).1 (hgood.mem hn) hname
    have hkey (hown : n.hasOwnKey = true) := node?_key hfile hroot hcover hgood hhollow hn hown
    refine ⟨fun hfilled => ?_, fun hname => hkey (hnamed hname),
      typeAt?_range hfile hroot hcover hgood hn⟩
    rcases hfilled with htype | ⟨hname, hlt⟩
    · have hfill := isFilled_of_isFilledType htype
      exact (hkey (hasOwnKey_of_isFilled hfill)).2
        (isMet_of_lt hcover hn (isFilled_iff.1 hfill).2 (isMet_root _))
    · exact (hkey (hnamed hname)).2 (isMet_of_lt hcover hn hlt (isMet_root _))

/-- The one file of a program that imports nothing has a node of some sort if its tree has. -/
theorem exists_load_of_parse {text : String} {P : Tree → Node → Bool}
    (hstart : Program.start (Host.addFile {} "/a.ts" (some text)) ["/a.ts"] { noLib := true } =
      ([⟨.module, "/a.ts", text, true⟩], []))
    (hparse : (parse ⟨0⟩ text).toOption.any (fun q =>
      (Program.specifiers ⟨q.tree, []⟩).isEmpty &&
        (Node.mk q.tree []).descendants.any (P q.tree)) = true) :
    ∃ p, Program.load {} ["/a.ts"] { noLib := true } (Host.addFile {} "/a.ts" (some text)) = .ok p ∧
      ∃ f ∈ p.files, ∃ t, f.root = ⟨t, []⟩ ∧ ∃ n ∈ f.root.descendants, P t n = true := by
  cases hq : parse ⟨0⟩ text with
  | error e =>
    rw [hq] at hparse
    cases hparse
  | ok q =>
    rw [hq] at hparse
    obtain ⟨hspec, htest⟩ := Bool.and_eq_true_iff.1 hparse
    obtain ⟨n, hn, htest⟩ := List.any_eq_true.1 htest
    obtain ⟨p, hload, hfiles, -⟩ := Program.load_single hstart hq (List.isEmpty_iff.1 hspec)
    exact ⟨p, hload, _, hfiles ▸ Array.mem_singleton.2 rfl, _, rfl, n, hn, htest⟩

/-- In a program of one file there is a type, and it is found. -/
theorem keys_identify_nodes_alias :
    ∃ p, Program.load {} ["/a.ts"] { noLib := true }
        (Host.addFile {} "/a.ts" (some "type A=B")) = .ok p ∧
      ∃ f ∈ p.files, ∃ n ∈ f.root.descendants, n.isFilledType = true ∧
        p.node? (n.key f.id) = some n := by
  have hlex : Token.lex "type A=B" = [⟨.ident, 0, "type"⟩, ⟨.whitespace, 4, " "⟩,
      ⟨.ident, 5, "A"⟩, ⟨.equals, 6, "="⟩, ⟨.ident, 7, "B"⟩] := by
    cbv
  have hparse : (parse ⟨0⟩ "type A=B").toOption.any (fun q =>
      (Program.specifiers ⟨q.tree, []⟩).isEmpty &&
        (Node.mk q.tree []).descendants.any isFilledType) = true := by
    rw [parse, parseWith, Parser.State.afterFile, Parser.State.start, hlex]
    decide +kernel
  obtain ⟨p, hload, f, hf, -, -, n, hn, hfilled⟩ :=
    exists_load_of_parse (P := fun _ => isFilledType) (by cbv) hparse
  exact ⟨p, hload, f, hf, n, hn, hfilled,
    ((keys_identify_nodes _ _ _ _).2 p hload f hf n hn).1 (.inl hfilled)⟩

/-- The key of an empty parameter leads nowhere when an empty node stands behind it, as does here that of
the result that is missing. -/
theorem exists_node?_eq_none :
    ∃ p, Program.load {} ["/a.ts"] { noLib := true }
        (Host.addFile {} "/a.ts" (some "type A=(a:\x7b+readonly")) = .ok p ∧
      ∃ f ∈ p.files, ∃ n ∈ f.root.descendants, n.isNamedParam = true ∧
        p.node? (n.key f.id) = none := by
  have hlex : Token.lex "type A=(a:\x7b+readonly" = [⟨.ident, 0, "type"⟩, ⟨.whitespace, 4, " "⟩,
      ⟨.ident, 5, "A"⟩, ⟨.equals, 6, "="⟩, ⟨.parenOpen, 7, "("⟩, ⟨.ident, 8, "a"⟩, ⟨.colon, 9, ":"⟩,
      ⟨.braceOpen, 10, "\x7b"⟩, ⟨.plus, 11, "+"⟩, ⟨.ident, 12, "readonly"⟩] := by
    cbv
  have hparse : (parse ⟨0⟩ "type A=(a:\x7b+readonly").toOption.any (fun q =>
      (Program.specifiers ⟨q.tree, []⟩).isEmpty &&
        (Node.mk q.tree []).descendants.any fun n => n.isNamedParam &&
          ((covering n.start n.stop [] q.tree).bind fun m => m.ancestors.find? fun x =>
            x.spans n.start n.stop && x.kind == n.kind).isNone) = true := by
    rw [parse, parseWith, Parser.State.afterFile, Parser.State.start, hlex]
    decide +kernel
  obtain ⟨p, hload, f, hf, t, hroot, n, hn, htest⟩ := exists_load_of_parse (P := fun t n =>
    n.isNamedParam && ((covering n.start n.stop [] t).bind fun m => m.ancestors.find? fun x =>
      x.spans n.start n.stop && x.kind == n.kind).isNone) (by cbv) hparse
  obtain ⟨hnamed, hnone⟩ := Bool.and_eq_true_iff.1 htest
  obtain ⟨l, hl, hfiles⟩ := Program.load_spec hload
  refine ⟨p, hload, f, hf, n, hn, hnamed, ?_⟩
  rw [node?_of_file (Program.file?_of_mem hl hfiles hf) hroot]
  exact Option.isNone_iff_eq_none.1 hnone

end DeclKit

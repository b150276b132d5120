/-
What a path denotes, and what normalizing keeps of it.

A path is a walk: from any directory a dot stays there, `..` goes up a level, and a name goes down. All
that matters of a walk is how many levels it goes up in total and which names it goes down after that.
Normalizing keeps the names. It takes a component back for every `..`, also when that component is `..`
itself, so of the levels at the front only one is left, or none. The root is its own parent, so nothing
of that shows on an absolute path; a relative path denotes something else as soon as it leads up two
levels.
-/
import DeclKit.Proofs.Path.Directory

set_option autoImplicit false

namespace DeclKit.Path

/-! ## Walks -/

/-- Where a step leads from a directory, which is given by its names from the innermost outwards. The
root is its own parent. -/
def Component.enter (directory : List String) : Component → List String
  | root => []
  | current => directory
  | parent => directory.tail
  | name s => s :: directory

/-- Where a path leads from a directory. -/
def walk (p : String) (directory : List String) : List String :=
  (components p).foldl Component.enter directory

/-- What a walk comes to: so many levels up, and then down some names, of which the innermost stands
first. -/
structure Net where
  ups : Nat := 0
  names : List String := []
deriving DecidableEq, Repr

namespace Net

/-- A further step of a walk. A name that is left again does not count. -/
def step (n : Net) : Component → Net
  | .root => {}
  | .current => n
  | .parent =>
    match n.names with
    | [] => { n with ups := n.ups + 1 }
    | _ :: names => { n with names }
  | .name s => { n with names := s :: n.names }

/-- Where the walk leads from a directory. -/
def land (n : Net) (directory : List String) : List String := n.names ++ directory.drop n.ups

/-- What normalizing has read when the walk has come to this, in reverse. -/
def read (n : Net) : List Component :=
  n.names.map .name ++ List.replicate (n.ups % 2) .parent

end Net

/-- What the walk of a path comes to. -/
def net (p : String) : Net := (components p).foldl Net.step {}

/-! ## Steps -/

namespace Net

variable {n : Net} {c : Component}

/-- A step that does not start anew leads on from where the walk has led. -/
theorem land_step (hc : c ≠ .root) (directory : List String) :
    (n.step c).land directory = Component.enter (n.land directory) c := by
  obtain ⟨ups, names⟩ := n
  cases c with
  | root => exact absurd rfl hc
  | current => rfl
  | name s => rfl
  | parent =>
    cases names with
    | nil => simp [step, land, Component.enter]
    | cons s names => rfl

theorem land_foldl {cs : List Component} (hcs : ∀ c ∈ cs, c ≠ .root) (directory : List String) :
    (cs.foldl step n).land directory = cs.foldl Component.enter (n.land directory) := by
  induction cs generalizing n with
  | nil => rfl
  | cons c cs ih =>
    have hrest : ∀ d ∈ cs, d ≠ .root := fun d hd => hcs d (List.mem_cons_of_mem c hd)
    rw [List.foldl_cons, List.foldl_cons, ih hrest, land_step (hcs c List.mem_cons_self)]

/-- Normalizing follows the walk. A `..` that finds nothing but `..` takes that back. -/
theorem read_step {start : List Component} (hstart : start = [] ∨ start = [.root])
    (hc : c.IsSegment) : normalizeStep (n.read ++ start) c = (n.step c).read ++ start := by
  obtain ⟨ups, names⟩ := n
  obtain rfl | ⟨s, rfl⟩ := hc.eq_parent_or_name
  · cases names with
    | cons s names => rfl
    | nil =>
      have hparity : ups % 2 = 0 ∧ (ups + 1) % 2 = 1 ∨ ups % 2 = 1 ∧ (ups + 1) % 2 = 0 := by omega
      obtain ⟨heven, hodd⟩ | ⟨hodd, heven⟩ := hparity
      · simp only [read, step, heven, hodd]
        obtain rfl | rfl := hstart <;> rfl
      · simp only [read, step, heven, hodd]
        rfl
  · rfl

theorem read_foldl {start cs : List Component} (hstart : start = [] ∨ start = [.root])
    (hcs : ∀ c ∈ cs, c.IsSegment) :
    cs.foldl normalizeStep (n.read ++ start) = (cs.foldl step n).read ++ start := by
  induction cs generalizing n with
  | nil => rfl
  | cons c cs ih =>
    rw [List.foldl_cons, List.foldl_cons, read_step hstart (hcs c List.mem_cons_self)]
    exact ih fun d hd => hcs d (List.mem_cons_of_mem c hd)

theorem foldl_names (names : List String) :
    (names.map Component.name).foldl step n = { n with names := names.reverse ++ n.names } := by
  induction names generalizing n with
  | nil => rfl
  | cons s names ih =>
    rw [List.map_cons, List.foldl_cons, ih, List.reverse_cons, List.append_assoc]
    rfl

/-- What has been read is walked like the walk itself, but for pairs of levels up. -/
theorem foldl_read : n.read.reverse.foldl step {} = { n with ups := n.ups % 2 } := by
  rw [read, List.reverse_append, ← List.map_reverse, List.reverse_replicate, List.foldl_append,
    foldl_names, List.reverse_reverse]
  obtain h | h := Nat.mod_two_eq_zero_or_one n.ups
  · rw [h]
    simp
  · rw [h]
    simp [step]

end Net

/-! ## Normal components -/

variable (p : String)

/-- What a path starts from, if that is not where it is taken from. -/
def anchor : List Component := if isAbsolute p then [.root] else []

theorem anchor_cases : anchor p = [] ∨ anchor p = [.root] := by
  rw [anchor]
  split
  · exact .inr rfl
  · exact .inl rfl

theorem isSegment_of_mem_steps {c : Component} (hc : c ∈ steps p) : c.IsSegment := isSegment_of_mem hc

theorem ne_root_of_mem_steps {c : Component} (hc : c ∈ steps p) : c ≠ .root := by
  rintro rfl
  exact absurd (isSegment_of_mem_steps p hc).back (by decide)

theorem net_eq : net p = (steps p).foldl Net.step {} := by
  rw [net, components_eq_front, List.foldl_append, front]
  split
  · rfl
  · split <;> rfl

/-- The normal components of a path are those of what its walk comes to, with one level up at most. -/
theorem normalComponents_eq_read : normalComponents p = anchor p ++ (net p).read.reverse := by
  have hfront : (front p).foldl normalizeStep [] = ({} : Net).read ++ anchor p := by
    rw [front, anchor]
    split
    · rfl
    · split <;> rfl
  have hanchor : (anchor p).reverse = anchor p := by
    obtain h | h := anchor_cases p <;> rw [h] <;> rfl
  rw [normalComponents, components_eq_front, List.foldl_append, hfront,
    Net.read_foldl (anchor_cases p) fun c hc => isSegment_of_mem_steps p hc, ← net_eq,
    List.reverse_append, hanchor]

theorem isAbsolute_normalize : isAbsolute (normalize p) = isAbsolute p := by
  have hread : .root ∉ (net p).read.reverse := by
    simp [Net.read]
  rw [Bool.eq_iff_iff, isAbsolute_iff_root_mem, components_normalize, normalComponents_eq_read,
    anchor]
  split
  · rename_i habs
    exact iff_of_true List.mem_cons_self habs
  · rename_i habs
    exact iff_of_false hread habs

theorem steps_normalize : steps (normalize p) = (net p).read.reverse := by
  have h := components_normalize p
  rw [normalComponents_eq_read, components_eq_front, front, anchor, isAbsolute_normalize] at h
  by_cases habs : isAbsolute p = true
  · rw [if_pos habs, if_pos habs] at h
    exact List.append_cancel_left h
  · rw [if_neg habs, if_neg habs, List.nil_append] at h
    by_cases hdot : ((segments (normalize p)).head? == some ".") = true
    · -- a dot in front would be a component that has been read
      have hmem : Component.current ∈ (net p).read.reverse := by
        rw [if_pos hdot] at h
        rw [← h]
        exact List.mem_cons_self
      simp [Net.read] at hmem
    · rwa [if_neg hdot, List.nil_append] at h

theorem net_normalize : net (normalize p) = { net p with ups := (net p).ups % 2 } := by
  rw [net_eq, steps_normalize, Net.foldl_read]

/-- Where a path leads is where its walk leads, from the root if it starts there. -/
theorem walk_eq_land (directory : List String) :
    walk p directory = (net p).land (if isAbsolute p then [] else directory) := by
  have hland : (net p).land (if isAbsolute p then [] else directory) =
      (steps p).foldl Component.enter (if isAbsolute p then [] else directory) := by
    rw [net_eq, Net.land_foldl fun c hc => ne_root_of_mem_steps p hc]
    rfl
  rw [hland, walk, components_eq_front, List.foldl_append, front]
  split
  · rfl
  · split <;> rfl

/-- No segment of a normalized path is a dot. -/
theorem dot_not_mem_segments_normalize : "." ∉ segments (normalize p) := by
  have hread : ∀ c ∈ (net p).read.reverse, c.IsSegment := by
    intro c hc
    rw [← steps_normalize] at hc
    exact isSegment_of_mem_steps _ hc
  have htext : "." ∉ segments (ofComponents (net p).read.reverse) := by
    by_cases hnil : (net p).read.reverse = []
    · rw [hnil]
      decide
    · rw [segments_ofComponents hread hnil, List.mem_map]
      rintro ⟨c, hc, heq⟩
      have hback := (hread c hc).back
      rw [heq] at hback
      cases hback
  rw [normalize, normalComponents_eq_read]
  obtain h | h := anchor_cases p
  · rw [h, List.nil_append]
    exact htext
  · -- behind the root stands what a relative path would have
    have hroot : ofComponents (.root :: (net p).read.reverse) =
        "" ++ "/" ++ ofComponents (net p).read.reverse := by
      rw [ofComponents, ofComponents]
      · simp
      · rintro rest heq
        exact absurd (hread .root (heq ▸ List.mem_cons_self)).back (by decide)
    rw [h, List.singleton_append, hroot, segments_append_slash, List.mem_append, not_or]
    exact ⟨by decide, htext⟩

/-- Behind a name nothing of a normalized path leads up. -/
theorem pairwise_components_normalize :
    (components (normalize p)).Pairwise fun c d => (∃ s, c = .name s) → d ≠ .parent := by
  have hnames : ((net p).names.reverse.map Component.name).Pairwise
      fun c d => (∃ s, c = .name s) → d ≠ .parent := by
    refine List.pairwise_map.2 (List.Pairwise.imp (fun _ _ h => ?_) (List.pairwise_of_forall fun _ _ => trivial))
    cases h
  have hups : (List.replicate ((net p).ups % 2) Component.parent).Pairwise
      fun c d => (∃ s, c = .name s) → d ≠ .parent := by
    refine List.pairwise_replicate.2 (.inr ?_)
    rintro ⟨s, hs⟩
    cases hs
  rw [components_normalize, normalComponents_eq_read, Net.read, List.reverse_append,
    ← List.map_reverse, List.reverse_replicate, List.pairwise_append, List.pairwise_append]
  refine ⟨?_, ⟨hups, hnames, ?_⟩, ?_⟩
  · obtain h | h := anchor_cases p <;> rw [h] <;> simp
  · rintro c hc d - ⟨s, rfl⟩
    simp at hc
  · rintro c hc d - ⟨s, rfl⟩
    obtain h | h := anchor_cases p <;> rw [h] at hc <;> simp at hc

theorem normalComponents_normalize : normalComponents (normalize p) = normalComponents p := by
  have hanchor : anchor (normalize p) = anchor p := by
    rw [anchor, anchor, isAbsolute_normalize]
  rw [normalComponents_eq_read, normalComponents_eq_read, net_normalize, hanchor, Net.read, Net.read,
    Nat.mod_mod]

/-! ## What normalizing keeps -/

/-- Two walks that go down the same names lead to one place from everywhere only if they go up the same
number of levels. -/
theorem Net.ups_eq_of_land {n m : Net} (hnames : n.names = m.names)
    (h : ∀ directory, n.land directory = m.land directory) : n.ups = m.ups := by
  have hlength := congrArg List.length (h (List.replicate (n.ups + m.ups) ""))
  simp only [land, hnames, List.length_append, List.length_drop, List.length_replicate] at hlength
  omega

/-- Normalizing a path keeps what it denotes, from whatever directory it is taken, exactly if the path
is absolute or goes up one level at most. Of a relative path it always keeps the names that it goes
down in the end, and of the levels that it goes up before that one if their number is odd. In any case
a normalized path has no dots, does not lead up behind a name, and is left alone when it is normalized
again. -/
theorem normalize_denotes :
    ((∀ directory, walk (normalize p) directory = walk p directory) ↔
      isAbsolute p = true ∨ (net p).ups ≤ 1) ∧
    net (normalize p) = { net p with ups := (net p).ups % 2 } ∧
    "." ∉ segments (normalize p) ∧
    ((components (normalize p)).Pairwise fun c d => (∃ s, c = .name s) → d ≠ .parent) ∧
    normalize (normalize p) = normalize p := by
  refine ⟨⟨fun h => ?_, fun h directory => ?_⟩, net_normalize p, dot_not_mem_segments_normalize p,
    pairwise_components_normalize p, ?_⟩
  · by_contra hnot
    rw [not_or] at hnot
    have hland : ∀ directory, (net (normalize p)).land directory = (net p).land directory := by
      intro directory
      have hwalk := h directory
      rw [walk_eq_land, walk_eq_land, isAbsolute_normalize, if_neg hnot.1] at hwalk
      exact hwalk
    have hups := Net.ups_eq_of_land (by rw [net_normalize]) hland
    rw [net_normalize] at hups
    have hlt := Nat.mod_lt (net p).ups (show 0 < 2 by decide)
    dsimp only at hups
    omega
  · rw [walk_eq_land, walk_eq_land, isAbsolute_normalize, net_normalize]
    obtain habs | hups := h
    · -- above the root there is the root
      rw [if_pos habs, Net.land, Net.land, List.drop_nil, List.drop_nil]
    · rw [Nat.mod_eq_of_lt (Nat.lt_succ_of_le hups)]
  · rw [normalize, normalComponents_normalize, ← normalize]

/-- Two levels up are taken for none. -/
example : normalize "../.." = "" ∧ walk "../.." ["b", "a"] = [] := by decide +kernel

end DeclKit.Path

/-
Configuration files laid over the files they extend.

Reading a file goes down a graph in which a base may be met on several ways, and carries the files that
led there. If every file can be read and none extends itself, then what led to a file makes no difference
to the layer that is read for it: no file on the way comes up again, so no base is passed over, and a way
without repetitions is no longer than there are files, so the reading never stops short.

The layer of a file is then settled by its own text and the layers of its bases, each of them read by
itself: whatever the file sets holds, and else what the last base says that says anything. What a file
sets is found under the name of an option, since a file that is read has each name once.
-/
import DeclKit.Config.Project
import DeclKit.Proofs.Judgment
import Mathlib.Data.List.Perm.Subperm
import Mathlib.Logic.Relation

set_option autoImplicit false

namespace DeclKit

/-! ## Names of members -/

namespace Json

/-- Members in the order of their names, each name once. -/
abbrev InOrder (ms : List (String × Json)) : Prop :=
  ms.Pairwise fun a b => compare a.1 b.1 = .lt

variable {name : String} {v : Json} {ms : List (String × Json)}

theorem mem_insertMember {m : String × Json} (h : m ∈ insertMember name v ms) :
    m = (name, v) ∨ m ∈ ms := by
  induction ms with
  | nil => exact .inl (List.mem_singleton.1 h)
  | cons first rest ih =>
    rw [insertMember] at h
    split at h
    · exact List.mem_cons.1 h
    · exact (List.mem_cons.1 h).imp_right (List.mem_cons_of_mem first)
    · obtain rfl | h := List.mem_cons.1 h
      · exact .inr List.mem_cons_self
      · exact (ih h).imp_right (List.mem_cons_of_mem first)

theorem InOrder.insertMember (h : InOrder ms) : InOrder (insertMember name v ms) := by
  induction ms with
  | nil => exact List.pairwise_singleton _ _
  | cons first rest ih =>
    obtain ⟨hfirst, hrest⟩ := List.pairwise_cons.1 h
    rw [Json.insertMember]
    split
    next hlt =>
      refine List.pairwise_cons.2 ⟨fun m hm => ?_, h⟩
      obtain rfl | hm := List.mem_cons.1 hm
      · exact hlt
      · have hlt : compare name first.1 = .lt := hlt
        exact Std.TransCmp.lt_trans hlt (hfirst m hm)
    next heq =>
      obtain rfl : name = first.1 := Std.compare_eq_iff_eq.1 heq
      exact List.pairwise_cons.2 ⟨hfirst, hrest⟩
    next hgt =>
      refine List.pairwise_cons.2 ⟨fun m hm => ?_, ih hrest⟩
      obtain rfl | hm := mem_insertMember hm
      · have hgt : compare name first.1 = .gt := hgt
        exact Std.OrientedCmp.gt_iff_lt.1 hgt
      · exact hfirst m hm

theorem InOrder.nodup_names (h : InOrder ms) : (ms.map (·.1)).Nodup := by
  refine List.pairwise_map.2 (h.imp fun {a b} hlt heq => ?_)
  rw [heq, Std.ReflOrd.compare_self] at hlt
  cases hlt

namespace Read

/-- What is known of the results of reading, whenever there is one. -/
def successes {ε : Type} : Judgment (Except ε) where
  gives x P := ∀ a, x = .ok a → P a
  pure h _ ha := by cases ha; exact h
  bind {_ _ x _ _ _} hx hf b hb := by
    cases x with
    | error e => cases hb
    | ok a => exact hf a (hx a rfl) b hb

theorem holds_any {ε α : Type} (x : Except ε α) : successes.holds x := fun _ _ => trivial

theorem gives_error {ε α : Type} {e : ε} {P : α → Prop} : successes.gives (.error e) P := by
  intro a h
  cases h

/-- What every member keeps is kept by all of them, by induction on the members that are left. -/
theorem gives_memberLoop {σ : Type} {member : String → σ → List Char → Except Fault (Reading σ)}
    {I : σ → Prop}
    (h : ∀ name s cs, I s → successes.gives (member name s cs) fun r => I r.1) (n : Nat)
    (first : Bool) (s : σ) (cs : List Char) (hs : I s) :
    successes.gives (memberLoop member n first s cs) fun r => I r.1 := by
  induction n generalizing first s cs with
  | zero => exact gives_error
  | succ n ih =>
    have hentry (cs : List Char) : successes.gives (string cs >>= fun r =>
        member r.1 s r.2 >>= fun q => memberLoop member n false q.1 q.2) fun r => I r.1 :=
      Judgment.bind _ (holds_any _) fun r _ =>
        Judgment.bind _ (h r.1 s r.2 hs) fun q hq => ih false q.1 q.2 hq
    rw [memberLoop]
    dsimp only
    split
    · exact gives_error
    · exact Judgment.pure _ hs
    · split
      · split
        · exact hentry _
        · exact gives_error
      · split
        · split
          · exact gives_error
          · exact gives_error
          · exact hentry _
          · exact gives_error
        · exact gives_error

end Read

end Json

namespace Config

open Json (InOrder)
open Json.Read (successes holds_any gives_error gives_memberLoop)

namespace Document

/-- The options of a document have names of their own. -/
def Orderly (d : Document) : Prop := InOrder d.options

theorem orderly_empty : Orderly {} := List.Pairwise.nil

theorem gives_readOptions (cs : List Char) :
    successes.gives (readOptions cs) fun r => InOrder r.1 := by
  rw [readOptions]
  split
  · exact gives_error
  · refine gives_memberLoop (fun name ms cs hms => ?_) _ _ _ _ .nil
    exact Judgment.bind _ (holds_any _) fun cs _ => Judgment.bind _ (holds_any _) fun _ _ =>
      Judgment.pure _ hms.insertMember
  · exact gives_error

theorem gives_orNull {α : Type} {read : List Char → Except Json.Fault (Json.Read.Reading α)}
    {P : α → Prop} (h : ∀ cs, successes.gives (read cs) fun r => P r.1) (cs : List Char) :
    successes.gives (orNull read cs) fun r => ∀ v ∈ r.1, P v := by
  rw [orNull]
  split
  · exact Judgment.bind _ (holds_any _) fun _ _ => Judgment.pure _ fun v hv => by cases hv
  · refine Judgment.bind _ (h _) fun r hr => Judgment.pure _ fun v hv => ?_
    cases hv
    exact hr

theorem gives_readField {close : List Char → Nat} {f : Field} {d : Document} {cs : List Char}
    (hd : d.Orderly) : successes.gives (readField close f d cs) fun r => r.1.Orderly := by
  cases f with
  | bases =>
    refine Judgment.bind _ (holds_any _) fun r _ => ?_
    split
    · exact gives_error
    · exact Judgment.pure _ hd
    · exact Judgment.pure _ hd
  | options =>
    refine Judgment.bind _ (gives_orNull gives_readOptions cs) fun (v, rest) hv => ?_
    refine Judgment.pure _ ?_
    cases v with
    | none => exact List.Pairwise.nil
    | some v => exact hv v rfl
  | files | included | excluded =>
    exact Judgment.bind _ (holds_any _) fun _ _ => Judgment.pure _ hd

theorem gives_readItems {n : Nat} {fs : List Field} {d : Document} {cs : List Char}
    (hd : d.Orderly) : successes.gives (readItems n fs d cs) fun r => r.1.Orderly := by
  induction fs generalizing n d cs with
  | nil => exact Judgment.pure _ hd
  | cons f fs ih =>
    refine Judgment.bind _ (holds_any _) fun next _ => ?_
    cases next with
    | none => exact gives_error
    | some cs => exact Judgment.bind _ (gives_readField hd) fun r hr => ih hr

theorem gives_readMember {name : String} {s : Document × List Field} {cs : List Char}
    (hs : s.1.Orderly) : successes.gives (readMember name s cs) fun r => r.1.1.Orderly := by
  rw [readMember]
  split
  · exact Judgment.bind _ (holds_any _) fun _ _ =>
      Judgment.bind _ (holds_any _) fun _ _ => Judgment.pure _ hs
  · split
    · exact gives_error
    · exact Judgment.bind _ (holds_any _) fun _ _ =>
        Judgment.bind _ (gives_readField hs) fun _ hr => Judgment.pure _ hr

theorem gives_readWhole (cs : List Char) :
    successes.gives (readWhole cs) fun r => r.1.Orderly := by
  rw [readWhole]
  split
  · exact gives_error
  · refine Judgment.bind _ (P := fun r => r.1.1.Orderly) ?_ fun r hr => Judgment.pure _ hr
    exact gives_memberLoop (I := fun s : Document × List Field => s.1.Orderly)
      (fun _ _ _ => gives_readMember) _ _ _ _ orderly_empty
  · exact Judgment.bind _ (gives_readItems orderly_empty) fun _ hr =>
      Judgment.bind _ (holds_any _) fun _ _ => Judgment.pure _ hr
  · exact gives_error

theorem orderly_ofText {text : String} {d : Document} (h : ofText text = .ok d) : d.Orderly := by
  refine (show successes.gives (ofText text) Orderly from ?_) d h
  rw [ofText]
  split
  · exact Judgment.pure _ orderly_empty
  · refine Judgment.bind _ (gives_readWhole _) fun r hr => ?_
    rw [Json.Read.finish]
    split
    · exact Judgment.pure _ hr
    · exact gives_error

end Document

/-! ## What a file sets -/

/-- What one option of a file comes to. -/
def ownSetting (directory name : String) (value : Json) : Settings :=
  match optionStatus name with
  | .known type =>
    match type.read? directory value with
    | some v => [(name, v)]
    | none => []
  | _ => []

/-- What a file of a directory sets by itself. -/
def Document.layer (d : Document) (directory : String) : Layer where
  settings := d.options.flatMap fun (name, value) => ownSetting directory name value
  files := d.files.map fun files => files.map (Path.resolve directory ·)
  included := d.included.map (⟨directory, ·⟩)
  excluded := d.excluded.map (⟨directory, ·⟩)

section Own

variable {directory name : String} {type : OptionType} {ms : List (String × Json)}

theorem lookup_ownSetting (h : optionStatus name = .known type) (v : Json) :
    (ownSetting directory name v).lookup name = type.read? directory v := by
  rw [ownSetting, h]
  dsimp only
  split
  next v hv => rw [hv, List.lookup_cons_self]
  next hv => rw [hv, List.lookup_nil]

theorem lookup_ownSetting_of_ne {other : String} (h : name ≠ other) (v : Json) :
    (ownSetting directory other v).lookup name = none := by
  rw [ownSetting]
  split
  · split
    · rw [List.lookup_cons, beq_eq_false_iff_ne.2 h, List.lookup_nil]
    · rfl
  · rfl

theorem lookup_flatMap_ownSetting (h : optionStatus name = .known type)
    (hms : (ms.map (·.1)).Nodup) :
    (ms.flatMap fun (name, value) => ownSetting directory name value).lookup name =
      (ms.lookup name).bind (type.read? directory) := by
  induction ms with
  | nil => rfl
  | cons m rest ih =>
    obtain ⟨other, v⟩ := m
    obtain ⟨hfresh, hrest⟩ := List.nodup_cons.1 hms
    rw [List.flatMap_cons, List.lookup_append, ih hrest, List.lookup_cons]
    by_cases hname : name = other
    · subst hname
      have hnone : rest.lookup name = none := by
        refine List.lookup_eq_none_iff.2 fun m hm => ?_
        have := List.mem_map_of_mem (f := (·.1)) hm
        grind
      rw [lookup_ownSetting h, hnone, BEq.rfl]
      simp
    · rw [lookup_ownSetting_of_ne hname, beq_eq_false_iff_ne.2 hname, Option.none_or]

theorem Document.lookup_layer {d : Document} (hd : d.Orderly)
    (h : optionStatus name = .known type) :
    (d.layer directory).settings.lookup name =
      (d.options.lookup name).bind (type.read? directory) :=
  lookup_flatMap_ownSetting h hd.nodup_names

end Own

/-! ## Layers over each other -/

/-- A part of layers that lie over each other is that of the last one that has it. -/
theorem Layer.part_pile {α : Type} (part : Layer → Option α) (hnone : part {} = none)
    (hover : ∀ base top : Layer, part (base.overlay top) = (part top).or (part base))
    (bases : List Layer) (own : Layer) :
    part (pile (bases ++ [own])) = (part own).or (bases.reverse.findSome? part) := by
  have hfold (start : Layer) (layers : List Layer) :
      part (layers.foldl overlay start) = (layers.reverse.findSome? part).or (part start) := by
    induction layers generalizing start with
    | nil => rfl
    | cons l rest ih =>
      rw [List.foldl_cons, ih, hover, List.reverse_cons, List.findSome?_append, Option.or_assoc,
        List.findSome?_singleton]
  rw [pile, hfold, hnone, Option.or_none, List.reverse_append]
  cases hown : part own <;> simp [hown]

/-- A layer is that of a file of a directory over the layers of its bases: for each option the value
that the file sets, or else that of the last base that has one, and likewise for the lists of files,
each as a whole. -/
structure Layer.LiesOver (layer : Layer) (directory : String) (d : Document) (bases : List Layer) :
    Prop where
  option : ∀ name type, optionStatus name = .known type →
    layer.settings.lookup name = ((d.options.lookup name).bind (type.read? directory)).or
      (bases.reverse.findSome? (·.settings.lookup name))
  files : layer.files = (d.files.map fun files => files.map (Path.resolve directory ·)).or
    (bases.reverse.findSome? (·.files))
  included : layer.included = (d.included.map (⟨directory, ·⟩)).or
    (bases.reverse.findSome? (·.included))
  excluded : layer.excluded = (d.excluded.map (⟨directory, ·⟩)).or
    (bases.reverse.findSome? (·.excluded))

theorem Layer.liesOver_pile {d : Document} (hd : d.Orderly) (directory : String)
    (bases : List Layer) : (pile (bases ++ [d.layer directory])).LiesOver directory d bases where
  option name type h := by
    rw [← d.lookup_layer hd h]
    exact part_pile (·.settings.lookup name) rfl (fun _ _ => List.lookup_append) bases _
  files := part_pile (·.files) rfl (fun _ _ => rfl) bases _
  included := part_pile (·.included) rfl (fun _ _ => rfl) bases _
  excluded := part_pile (·.excluded) rfl (fun _ _ => rfl) bases _

namespace Settings

variable {s : Settings} {name : String}

theorem lookup_filter (s : Settings) (name other : String) :
    List.lookup other (s.filter (·.1 != name)) = if other = name then none else s.lookup other := by
  induction s with
  | nil => split <;> rfl
  | cons e rest ih =>
    rw [List.filter_cons]
    grind

/-- With an option taken out that is `null`, every option is what it was, or is not there where it was
`null`. -/
theorem lookup_filter_cases (h : s.lookup name = some .unset) (other : String) :
    List.lookup other (s.filter (·.1 != name)) = s.lookup other ∨
      List.lookup other (s.filter (·.1 != name)) = none ∧ s.lookup other = some .unset := by
  rw [lookup_filter]
  by_cases heq : other = name
  · exact .inr ⟨if_pos heq, heq ▸ h⟩
  · exact .inl (if_neg heq)

/-- An option that is `null` counts as one that is not there. -/
theorem toOptions_filter (h : s.lookup name = some .unset) :
    toOptions (s.filter (·.1 != name)) = toOptions s := by
  -- no reader of an option tells `null` from nothing
  have hflag (other : String) : flag? (s.filter (·.1 != name)) other = flag? s other := by
    obtain heq | ⟨hnone, hnull⟩ := lookup_filter_cases h other
    · rw [flag?, flag?, heq]
    · rw [flag?, flag?, hnone, hnull]
  have hpath (other : String) : path? (s.filter (·.1 != name)) other = path? s other := by
    obtain heq | ⟨hnone, hnull⟩ := lookup_filter_cases h other
    · rw [path?, path?, heq]
    · rw [path?, path?, hnone, hnull]
  have hline : newLine? (s.filter (·.1 != name)) = newLine? s := by
    obtain heq | ⟨hnone, hnull⟩ := lookup_filter_cases h "newLine"
    · rw [newLine?, newLine?, heq]
    · rw [newLine?, newLine?, hnone, hnull]
  simp only [toOptions, flag, hflag, hpath, hline]

end Settings

/-! ## Files that extend others -/

/-- The directory of a file, from which what it names is found. -/
def directoryOf (path : String) : String := (Path.parent? path).getD ""

/-- What the file at a path says; none when it cannot be read. -/
def documentAt? (t : FileTree) (path : String) : Option Document :=
  (t.read? path).bind fun text => (Document.ofText (Json.clean text)).toOption

theorem documentAt?_eq_some {t : FileTree} {path : String} {d : Document} :
    documentAt? t path = some d ↔
      ∃ text, t.read? path = some text ∧ Document.ofText (Json.clean text) = .ok d := by
  rw [documentAt?, Option.bind_eq_some_iff]
  refine exists_congr fun text => and_congr_right fun _ => ?_
  cases Document.ofText (Json.clean text) with
  | error e => exact ⟨fun h => (by cases h), fun h => (by cases h)⟩
  | ok d' => exact ⟨fun h => congrArg Except.ok (Option.some.inj h), fun h => (by cases h; rfl)⟩

/-- The names of the file that a path leads to. -/
def namesAt? (t : FileTree) (path : String) : Option (List String) :=
  t.follow [] (Path.components path)

/-- The file at a path extends that at another one. -/
def Extends (t : FileTree) (path base : String) : Prop :=
  ∃ d, documentAt? t path = some d ∧
    ∃ name ∈ d.bases, findBase? t (directoryOf path) name = some base

/-- The files that a file reaches can be read and find all their bases, and none of them extends
itself, at whatever distance. -/
structure IsLayered (t : FileTree) (path : String) : Prop where
  readable : ∀ p, Relation.ReflTransGen (Extends t) path p → ∃ d, documentAt? t p = some d ∧
    ∀ name ∈ d.bases, ∃ base, findBase? t (directoryOf p) name = some base
  acyclic : ∀ p q, Relation.ReflTransGen (Extends t) path p → Relation.TransGen (Extends t) p q →
    namesAt? t p ≠ namesAt? t q

section Graph

variable {t : FileTree} {n : Nat} {path base : String} {chain : List String}

theorem IsLayered.of_extends (h : IsLayered t path) (he : Extends t path base) :
    IsLayered t base where
  readable p hp := h.readable p (hp.head he)
  acyclic p q hp hq := h.acyclic p q (hp.head he) hq

/-- A file that can be read is an entry of the tree. -/
theorem exists_names {d : Document} (h : documentAt? t path = some d) :
    ∃ names ∈ t.entries.map (·.1), namesAt? t path = some names := by
  obtain ⟨text, hread, -⟩ := documentAt?_eq_some.1 h
  have hfind : ∃ text, (namesAt? t path).bind t.entry? = some (.file text) := by
    rw [FileTree.read?, FileTree.find?] at hread
    rw [namesAt?]
    grind
  obtain ⟨text, hfind⟩ := hfind
  obtain ⟨names, hnames, hentry⟩ := Option.bind_eq_some_iff.1 hfind
  refine ⟨names, ?_, hnames⟩
  rw [FileTree.entry?] at hentry
  split at hentry
  · cases hentry
  · obtain ⟨before, after, heq, -⟩ := List.lookup_eq_some_iff.1 hentry
    rw [heq]
    simp

/-- A file that is about to be read, with room left, behind files each of which reaches all that come
after it. -/
structure Chained (t : FileTree) (n : Nat) (chain : List String) (path : String) : Prop where
  layered : ∀ p ∈ chain ++ [path], IsLayered t p
  linked : (chain ++ [path]).Pairwise (Relation.TransGen (Extends t))
  room : t.entries.length < n + chain.length

theorem IsLayered.chained (h : IsLayered t path) :
    Chained t (t.entries.length + 1) [] path where
  layered _ hp := List.mem_singleton.1 hp ▸ h
  linked := List.pairwise_singleton _ _
  room := Nat.lt_succ_self _

namespace Chained

theorem layered_path (h : Chained t n chain path) : IsLayered t path :=
  h.layered path (List.mem_append_right chain (List.mem_singleton_self path))

/-- Whoever is in the chain, or the file behind it, reaches its bases. -/
theorem reaches (h : Chained t n chain path) (he : Extends t path base) :
    ∀ p ∈ chain ++ [path], Relation.TransGen (Extends t) p base := by
  intro p hp
  obtain hp | hp := List.mem_append.1 hp
  · have hlink := (List.pairwise_append.1 h.linked).2.2 p hp path (List.mem_singleton_self path)
    exact hlink.tail he
  · obtain rfl := List.mem_singleton.1 hp
    exact .single he

theorem next (h : Chained t (n + 1) chain path) (he : Extends t path base) :
    Chained t n (chain ++ [path]) base where
  layered p hp := by
    obtain hp | hp := List.mem_append.1 hp
    · exact h.layered p hp
    · exact List.mem_singleton.1 hp ▸ h.layered_path.of_extends he
  linked := List.pairwise_append.2 ⟨h.linked, List.pairwise_singleton _ _, fun p hp q hq =>
    List.mem_singleton.1 hq ▸ h.reaches he p hp⟩
  room := by
    have := h.room
    rw [List.length_append, List.length_singleton]
    omega

/-- No base of the file has led to it. -/
theorem any_same (h : Chained t n chain path) (he : Extends t path base) :
    (chain ++ [path]).any (Path.same base) = false := by
  refine List.any_eq_false.2 fun p hp hsame => ?_
  have hnames : namesAt? t p = namesAt? t base := by
    rw [namesAt?, namesAt?, eq_of_beq hsame]
  exact (h.layered p hp).acyclic p base .refl (h.reaches he p hp) hnames

/-- The files of a chain are different entries of the tree, so that room is left. -/
theorem ne_zero (h : Chained t n chain path) : n ≠ 0 := by
  have hnodup : ((chain ++ [path]).map (namesAt? t)).Nodup := by
    refine List.pairwise_map.2 (h.linked.imp_of_mem fun {p q} hp _ hpq => ?_)
    exact (h.layered p hp).acyclic p q .refl hpq
  have hsubset : (chain ++ [path]).map (namesAt? t) ⊆ (t.entries.map (·.1)).map some := by
    intro names hnames
    obtain ⟨p, hp, rfl⟩ := List.mem_map.1 hnames
    obtain ⟨d, hd, -⟩ := (h.layered p hp).readable p .refl
    obtain ⟨names, hmem, heq⟩ := exists_names hd
    rw [heq]
    exact List.mem_map_of_mem hmem
  have hlength := (hnodup.subperm hsubset).length_le
  have := h.room
  simp only [List.length_map, List.length_append, List.length_singleton] at hlength
  omega

/-- A way down from a file that does not extend itself ends, by induction on the room that is left. -/
theorem acc (h : Chained t n chain path) : Acc (fun q p => Extends t p q) path := by
  induction n generalizing chain path with
  | zero => exact absurd rfl h.ne_zero
  | succ n ih => exact .intro path fun base he => ih (h.next he)

end Chained

end Graph

/-! ## Files in order -/

/-- Each file of a list can be read and finds all its bases among those behind it, and no two are the
same. -/
def inOrder (t : FileTree) : List String → Bool
  | [] => true
  | p :: rest =>
    inOrder t rest && rest.all (fun q => namesAt? t p != namesAt? t q) &&
      match documentAt? t p with
      | some d => d.bases.all fun name =>
          match findBase? t (directoryOf p) name with
          | some base => rest.contains base
          | none => false
      | none => false

section InOrder

variable {t : FileTree} {p q : String} {ps rest : List String}

theorem inOrder_cons (h : inOrder t (p :: rest) = true) :
    inOrder t rest = true ∧ (∀ q ∈ rest, namesAt? t p ≠ namesAt? t q) ∧
      ∃ d, documentAt? t p = some d ∧
        ∀ name ∈ d.bases, ∃ base ∈ rest, findBase? t (directoryOf p) name = some base := by
  rw [inOrder, Bool.and_eq_true, Bool.and_eq_true, List.all_eq_true] at h
  obtain ⟨⟨hrest, hapart⟩, hbases⟩ := h
  refine ⟨hrest, fun q hq => bne_iff_ne.1 (hapart q hq), ?_⟩
  split at hbases
  next d hd =>
    refine ⟨d, hd, fun name hname => ?_⟩
    have hbase := List.all_eq_true.1 hbases name hname
    grind
  next => cases hbases

theorem mem_of_extends (h : inOrder t (p :: rest) = true) (he : Extends t p q) : q ∈ rest := by
  obtain ⟨-, -, d, hd, hbases⟩ := inOrder_cons h
  obtain ⟨d', hd', name, hname, hfind⟩ := he
  obtain rfl := Option.some.inj (hd.symm.trans hd')
  obtain ⟨base, hbase, hfind'⟩ := hbases name hname
  exact Option.some.inj (hfind.symm.trans hfind') ▸ hbase

/-- Extending does not lead out of such a list. -/
theorem mem_of_reaches (h : inOrder t ps = true) (hp : p ∈ ps)
    (hq : Relation.ReflTransGen (Extends t) p q) : q ∈ ps := by
  induction ps generalizing p with
  | nil => cases hp
  | cons first rest ih =>
    have hrest := (inOrder_cons h).1
    obtain rfl | hp := List.mem_cons.1 hp
    · obtain rfl | ⟨base, he, hq⟩ := hq.cases_head
      · exact hp
      · exact List.mem_cons_of_mem _ (ih hrest (mem_of_extends h he) hq)
    · exact List.mem_cons_of_mem _ (ih hrest hp hq)

/-- Files of such a list reach files that can be read and do not extend themselves, by induction on
the list. -/
theorem isLayered_of_inOrder (h : inOrder t ps = true) : ∀ p ∈ ps, IsLayered t p := by
  induction ps with
  | nil => exact fun p hp => absurd hp List.not_mem_nil
  | cons first rest ih =>
    obtain ⟨hrest, hapart, d, hd, hbases⟩ := inOrder_cons h
    have hlayered := ih hrest
    intro p hp
    obtain rfl | hp := List.mem_cons.1 hp
    · constructor
      · intro q hq
        obtain rfl | ⟨base, he, hq⟩ := hq.cases_head
        · exact ⟨d, hd, fun name hname => (hbases name hname).imp fun _ hbase => hbase.2⟩
        · exact (hlayered base (mem_of_extends h he)).readable q hq
      · intro q r hq hr
        obtain rfl | ⟨base, he, hq⟩ := hq.cases_head
        · obtain ⟨base, he, hr⟩ := Relation.TransGen.head'_iff.1 hr
          exact hapart r (mem_of_reaches hrest (mem_of_extends h he) hr)
        · exact (hlayered base (mem_of_extends h he)).acyclic q r hq hr
    · exact hlayered p hp

end InOrder

/-- Two files of which one extends the other, under a third one that extends both. -/
def shared : FileTree := ⟨[
  (["a.json"], .file (some "\x7b\"extends\":[\"./b\",\"./c\"]\x7d")),
  (["b.json"], .file (some "\x7b\"compilerOptions\":\x7b\"outDir\":\"o\"\x7d\x7d")),
  (["c.json"], .file (some
    "\x7b\"extends\":\"./b\",\"compilerOptions\":\x7b\"outDir\":null\x7d\x7d"))]⟩

theorem inOrder_shared : inOrder shared ["/a.json", "/c.json", "/b.json"] = true := by
  decide +kernel

/-! ## Reading -/

/-- What is known of the results of reading, whatever has been read before. -/
def results : Judgment (StateM Reading) where
  gives x P := ∀ s, P (x.run s).1
  pure h _ := h
  bind hx hf s := hf _ (hx s) _

/-- The layer that is read for the file at a path by itself. -/
def layerAt? (t : FileTree) (path : String) : Option Layer :=
  ((readLayer t (t.entries.length + 1) [] path none).run {}).1

section Read

variable {t : FileTree} {n : Nat} {path directory : String} {chain : List String} {d : Document}
  {layers : List Layer}

theorem gives_step {α : Type} (x : StateM Reading α) : results.holds x := fun _ => trivial

theorem eq_map_of_forall₂ {α β : Type} {f : α → β} {xs : List α} {ys : List β}
    (h : List.Forall₂ (fun x y => y = f x) xs ys) : ys = xs.map f := by
  induction h with
  | nil => rfl
  | cons hx _ ih => rw [hx, ih, List.map_cons]

theorem gives_readOption (directory : String) (span : Option Span) (name : String) (v : Json) :
    results.gives (readOption directory span name v) (· = ownSetting directory name v) := by
  rw [readOption, ownSetting]
  cases optionStatus name with
  | ignored => exact Judgment.pure _ rfl
  | unknown => exact Judgment.bind _ (gives_step _) fun _ _ => Judgment.pure _ rfl
  | known type =>
    dsimp only
    cases type.read? directory v with
    | some w => exact Judgment.pure _ rfl
    | none => exact Judgment.bind _ (gives_step _) fun _ _ => Judgment.pure _ rfl

theorem gives_ownLayer (id : SourceId) (text directory : String) (d : Document) :
    results.gives (ownLayer id text directory d) (· = d.layer directory) := by
  refine Judgment.bind _ (P := (· = (d.layer directory).settings)) ?_ fun settings hs => ?_
  · refine Judgment.bind _ (Judgment.gives_mapM fun m _ => gives_readOption directory _ m.1 m.2)
      fun read hread => Judgment.pure _ ?_
    rw [eq_map_of_forall₂ hread]
    exact List.flatMap_def.symm
  · rw [hs]
    exact Judgment.pure _ rfl

/-- A file that can be read gives its own layer over those of its bases, when these can be read as
well and none has led to it. -/
theorem gives_readLayer (hd : documentAt? t path = some d)
    (hbases : List.Forall₂ (fun name layer => ∃ base,
      findBase? t (directoryOf path) name = some base ∧
      (chain ++ [path]).any (Path.same base) = false ∧
      ∀ span, results.gives (readLayer t n (chain ++ [path]) base span) (· = some layer))
      d.bases layers) (span : Option Span) :
    results.gives (readLayer t (n + 1) chain path span)
      (· = some (Layer.pile (layers ++ [d.layer (directoryOf path)]))) := by
  obtain ⟨text, hread, hdoc⟩ := documentAt?_eq_some.1 hd
  unfold readLayer
  rw [hread]
  refine Judgment.bind _ (gives_step _) fun id _ => ?_
  dsimp only
  rw [hdoc]
  refine Judgment.bind _ (P := (· = layers.map some)) ?_ fun read hread => ?_
  · refine Judgment.gives_mono (Judgment.gives_mapM_forall₂ (R := fun l r => r = some l)
      (hbases.imp fun name layer hbase => ?_)) fun read => eq_map_of_forall₂
    obtain ⟨base, hfind, hfresh, hgives⟩ := hbase
    rw [directoryOf] at hfind
    rw [readBase, hfind]
    dsimp only
    rw [hfresh]
    exact hgives _
  · refine Judgment.bind _ (gives_ownLayer _ _ _ _) fun own hown => Judgment.pure _ ?_
    rw [hread, hown, List.filterMap_map]
    simp [directoryOf]

end Read

/-! ## Layers in effect -/

section Effect

variable {t : FileTree} {path : String}

/-- The layers that are read for the bases of a file, each by itself. -/
def BasesAt (t : FileTree) (path : String) (d : Document) (bases : List Layer) : Prop :=
  List.Forall₂ (fun name layer => ∃ base, findBase? t (directoryOf path) name = some base ∧
    layerAt? t base = some layer) d.bases bases

theorem exists_forall₂ {α β : Type} {R : α → β → Prop} {xs : List α} (h : ∀ x ∈ xs, ∃ y, R x y) :
    ∃ ys, List.Forall₂ R xs ys := by
  induction xs with
  | nil => exact ⟨[], .nil⟩
  | cons x xs ih =>
    obtain ⟨y, hy⟩ := h x List.mem_cons_self
    obtain ⟨ys, hys⟩ := ih fun z hz => h z (List.mem_cons_of_mem x hz)
    exact ⟨y :: ys, .cons hy hys⟩

theorem IsLayered.layerAt?_eq (h : IsLayered t path) {layer : Layer}
    (hgives : ∀ n chain, Chained t n chain path → ∀ span,
      results.gives (readLayer t n chain path span) (· = some layer)) :
    layerAt? t path = some layer :=
  hgives _ [] h.chained none {}

/-- Whatever has led to a file, its layer is its own over those of its bases, by induction along the
ways down from it. -/
theorem IsLayered.exists_layers (h : IsLayered t path) :
    ∃ d bases, documentAt? t path = some d ∧ BasesAt t path d bases ∧
      ∀ n chain, Chained t n chain path → ∀ span, results.gives (readLayer t n chain path span)
        (· = some (Layer.pile (bases ++ [d.layer (directoryOf path)]))) := by
  induction h.chained.acc with
  | intro path _ ih =>
    obtain ⟨d, hd, hfound⟩ := h.readable path .refl
    have hread : ∀ name ∈ d.bases, ∃ layer base, findBase? t (directoryOf path) name = some base ∧
        Extends t path base ∧ ∀ n chain, Chained t n chain base → ∀ span,
          results.gives (readLayer t n chain base span) (· = some layer) := by
      intro name hname
      obtain ⟨base, hfind⟩ := hfound name hname
      have he : Extends t path base := ⟨d, hd, name, hname, hfind⟩
      obtain ⟨_, _, -, -, hgives⟩ := ih base he (h.of_extends he)
      exact ⟨_, base, hfind, he, hgives⟩
    obtain ⟨bases, hbases⟩ := exists_forall₂ hread
    refine ⟨d, bases, hd, hbases.imp fun name layer hbase => ?_, fun n chain hchain span => ?_⟩
    · obtain ⟨base, hfind, he, hgives⟩ := hbase
      exact ⟨base, hfind, (h.of_extends he).layerAt?_eq hgives⟩
    · obtain ⟨n, rfl⟩ := Nat.exists_eq_succ_of_ne_zero hchain.ne_zero
      refine gives_readLayer hd (hbases.imp fun name layer hbase => ?_) span
      obtain ⟨base, hfind, he, hgives⟩ := hbase
      exact ⟨base, hfind, hchain.any_same he, hgives n _ (hchain.next he)⟩

theorem gives_finish (t : FileTree) (configPath : String) (layer : Layer) (s : Reading) :
    successes.gives (finish t configPath layer s) fun project =>
      project.configPath = configPath ∧ project.options = layer.settings.toOptions := by
  unfold finish
  dsimp only
  split
  on_goal 2 => split
  all_goals refine Judgment.bind _ (holds_any _) fun found _ => ?_
  all_goals split
  all_goals first
    | exact Judgment.pure _ ⟨rfl, rfl⟩
    | exact Judgment.bind _ (P := fun _ => False) gives_error fun _ h => h.elim

/-- The options of a project that is loaded are those of the layer of its configuration. -/
theorem options_of_load {directory arg : String} {project : Project}
    (h : load t directory arg = .ok project) :
    ∃ layer, layerAt? t project.configPath = some layer ∧
      project.options = layer.settings.toOptions := by
  unfold load at h
  extract_lets path configPath at h
  generalize hread : (readLayer t (t.entries.length + 1) [] configPath none).run {} = r at h
  obtain ⟨layer, s⟩ := r
  cases layer with
  | none => cases h
  | some layer =>
    dsimp only at h
    split at h
    · cases h
    · obtain ⟨hpath, hoptions⟩ := gives_finish _ _ _ _ _ h
      refine ⟨layer, ?_, hoptions⟩
      rw [layerAt?, hpath, hread]

/-- When the files that a file reaches can be read and none extends itself, a layer is read for it, and
it lies over the layers that are read for its bases by themselves. An option that is `null` in it is not
set for a project of that file. -/
theorem layer_effective (h : IsLayered t path) :
    ∃ d bases layer, documentAt? t path = some d ∧ BasesAt t path d bases ∧
      layerAt? t path = some layer ∧ layer.LiesOver (directoryOf path) d bases ∧
      (∀ name, layer.settings.lookup name = some .unset →
        layer.settings.toOptions = Settings.toOptions (layer.settings.filter (·.1 != name))) ∧
      ∀ directory arg project, load t directory arg = .ok project → project.configPath = path →
        project.options = layer.settings.toOptions := by
  obtain ⟨d, bases, hd, hbases, hgives⟩ := h.exists_layers
  obtain ⟨text, -, hdoc⟩ := documentAt?_eq_some.1 hd
  have hlayer := h.layerAt?_eq hgives
  refine ⟨d, bases, _, hd, hbases, hlayer, Layer.liesOver_pile (Document.orderly_ofText hdoc) _ _,
    fun name hname => (Settings.toOptions_filter hname).symm, ?_⟩
  intro directory arg project hload hpath
  obtain ⟨layer, hat, hoptions⟩ := options_of_load hload
  rw [hpath, hlayer] at hat
  rw [hoptions, Option.some.inj hat]

/-- A base that is met on two ways is no hindrance. -/
theorem layer_effective_shared : ∃ d bases layer, documentAt? shared "/a.json" = some d ∧
    BasesAt shared "/a.json" d bases ∧ layerAt? shared "/a.json" = some layer ∧
    layer.LiesOver "/" d bases := by
  obtain ⟨d, bases, layer, hd, hbases, hlayer, hover, -, -⟩ := layer_effective
    (isLayered_of_inOrder inOrder_shared "/a.json" List.mem_cons_self)
  exact ⟨d, bases, layer, hd, hbases, hlayer, hover⟩

end Effect

end Config

end DeclKit

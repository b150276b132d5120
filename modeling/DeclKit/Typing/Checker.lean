/-
The state of a check.

A check reads a program and remembers what it has found: the types of nodes, of aliases, of
substitutions, and the answers to assignability. What is remembered is never forgotten, and types are
numbered as they come up, so the order in which questions are asked shows in the answers.

Of a state it is said here what its steps keep: what is remembered of substitutions is what they have made,
an answer is left open only for a reason that can be traced, no answer contradicts one that needs no
assumption, and what has been stored and remembered would come out the same once more.
-/
import DeclKit.Diagnostic.Basic
import DeclKit.Proofs.Types.Mapper
import DeclKit.Typing.Verdict

set_option autoImplicit false

namespace DeclKit

/-- What a check reads: the program, and for each node the type parameters that it uses but does not
declare. -/
structure Setting where
  program : Program
  free : NodeKey → List SymbolId

/-- `null` and `undefined` are types of their own. -/
def Setting.nullChecks (s : Setting) : Bool := s.program.options.nullChecks

/-- A kind of node that can be under a substitution. -/
def Kind.takesMapper : Kind → Bool
  | .objectType | .functionType | .constructorType | .mappedType | .conditionalType => true
  | _ => false

/-- What a check of a program reads. The free type parameters of the nodes that a substitution is
restricted for are worked out once. -/
def Setting.ofProgram (p : Program) : Setting :=
  let keys := p.files.toList.flatMap fun f =>
    (f.root.descendants.filter (·.kind.takesMapper)).map (·.key f.id)
  let known : Std.HashMap NodeKey (List SymbolId) := .ofList (keys.map fun k => (k, p.freeParamsAt k))
  ⟨p, fun decl => match known[decl]? with
    | some params => params
    | none => p.freeParamsAt decl⟩

/-! ## Two types that are undecided -/

namespace TypeTable

/-- The members of a type can be looked up. -/
def showsMembers (p : Program) (t : TypeTable) (id : TypeId) : Bool :=
  match t.kind id with
  | .computed _ | .interface .. | .functionValue _ => true
  | .written decl _ => (p.node? decl).any fun n => match n.kind with
    | .objectType | .functionType | .constructorType => true
    | _ => false
  | _ => false

/-- Two types are compared member by member: an object type is wanted, and they are not two tuples. -/
def comparesMembers (t : TypeTable) (source target : TypeId) : Bool :=
  t.isObjectLike target && match t.kind source, t.kind target with
    | .union _, _ | .null, _ | .undefined, _ | .void, _ | .anyObject, _ | .tuple .., .tuple .. => false
    | _, _ => true

/-- Whether one type can stand where another is wanted is left open because of the two types alone. -/
inductive Undecided (p : Program) (t : TypeTable) (source target : TypeId) : Prop where
  /-- One of them has to wait for a substitution. -/
  | waiting (h : t.isDeferred source ∨ t.isDeferred target)
  /-- A text has not the form of a template. -/
  | misfit {text head : String} {spans : List (TypeId × String)}
      (hs : t.kind source = .stringLiteral text) (ht : t.kind target = .template head spans)
      (h : Template.matchText? text head spans = none)
  /-- A tuple has elements that do not stand at one place, and what is wanted is another tuple; or only
  what is wanted has such elements, and none of them can be repeated. -/
  | unplaced {es fs : List TupleElement} {readonly readonly' : Bool}
      (hs : t.kind source = .tuple es readonly) (ht : t.kind target = .tuple fs readonly')
      (h : (∃ e ∈ es, e.kind.isFixed = false) ∨
        (∃ e ∈ fs, e.kind.isFixed = false) ∧ ∀ e ∈ fs, e.kind ≠ .rest)
  /-- What is wanted is an object type whose members cannot be looked up, as those of a tuple. -/
  | memberless (h : t.comparesMembers source target) (hnone : t.showsMembers p target = false)

variable {p : Program} {t u : TypeTable} {source target : TypeId}

/-- A type of one kind in two tables waits in the second one if its parts do that wait in the first. -/
theorem waitsStep_of_imp {inner inner' : TypeId → Bool} {id : TypeId} (hk : u.kind id = t.kind id)
    (hinner : ∀ part, inner part = true → inner' part = true) (h : t.waitsStep inner id = true) :
    u.waitsStep inner' id = true := by
  have hany {α : Type} {xs : List α} {f : α → TypeId} (hx : xs.any (fun x => inner (f x)) = true) :
      xs.any (fun x => inner' (f x)) = true := by
    obtain ⟨x, hmem, hx⟩ := List.any_eq_true.1 hx
    exact List.any_eq_true.2 ⟨x, hmem, hinner _ hx⟩
  unfold waitsStep at h ⊢
  rw [hk]
  cases hkind : t.kind id <;> rw [hkind] at h
  case union | intersection => exact hany (f := fun part => part) h
  case template => exact hany (f := Prod.fst) h
  case lettered => exact hinner _ h
  all_goals exact h

/-- A type that waits still does in a larger table, by induction on how often it is asked. -/
theorem waits_grows (htu : t.Grows u) {n : Nat} {id : TypeId}
    (h : descend t.waitsStep (fun _ => false) n id = true) :
    descend u.waitsStep (fun _ => false) n id = true := by
  induction n generalizing id with
  | zero => cases h
  | succ n ih =>
    refine waitsStep_of_imp (htu.kind_eq rfl fun heq => ?_) (fun _ => ih) h
    unfold descend waitsStep at h
    rw [heq] at h
    cases h

/-- Two types that are undecided by themselves stay so. -/
theorem Undecided.grows (h : t.Undecided p source target) (htu : t.Grows u) :
    u.Undecided p source target := by
  cases h with
  | waiting h => exact .waiting (h.imp (waits_grows htu) (waits_grows htu))
  | misfit hs ht h =>
    exact .misfit (htu.kind_eq hs fun heq => by cases heq) (htu.kind_eq ht fun heq => by cases heq) h
  | unplaced hs ht h =>
    exact .unplaced (htu.kind_eq hs fun heq => by cases heq) (htu.kind_eq ht fun heq => by cases heq) h
  | memberless h hnone =>
    obtain ⟨hobject, hsource⟩ := Bool.and_eq_true_iff.1 h
    have htarget : u.kind target = t.kind target := htu.kind_eq rfl fun heq => by
      rw [isObjectLike, heq] at hobject
      cases hobject
    have hsource : u.kind source = t.kind source := htu.kind_eq rfl fun heq => by simp [heq] at hsource
    refine .memberless ?_ ?_
    · rwa [comparesMembers, isObjectLike, hsource, htarget]
    · rwa [showsMembers, htarget]

end TypeTable

/-! ## What a check remembers -/

/-- How far an alias has been looked into. -/
inductive AliasState where
  /-- It is being looked into; `circular` when that led back to it. -/
  | resolving (circular : Bool)
  | resolved (type : TypeId)
deriving DecidableEq, Inhabited

/-- What a check remembers. -/
structure Checker where
  table : TypeTable := .initial
  nodeTypes : Std.HashMap NodeKey TypeId := {}
  aliases : Std.HashMap SymbolId AliasState := {}
  /-- The shapes of interfaces; `none` while one is being put together. -/
  interfaces : Std.HashMap SymbolId (Option Shape) := {}
  /-- The shapes of written types under no substitution. -/
  written : Std.HashMap NodeKey Shape := {}
  shapes : Std.HashMap TypeId Shape := {}
  instances : Std.HashMap (TypeId × MapperId) TypeId := {}
  evaluations : Std.HashMap (NodeKey × Option MapperId) TypeId := {}
  relations : Std.HashMap (TypeId × TypeId) (Option Bool) := {}
  /-- The pairs of types that are being related. -/
  relating : List (TypeId × TypeId) := []
  /-- The pairs that were asked about while another one was being related, each behind that one. They
  are kept for what is said about answers that are left open; no step reads them. -/
  asked : List ((TypeId × TypeId) × (TypeId × TypeId)) := []
  depth : Nat := 0
  depthReported : Bool := false
  /-- The node whose check led here. -/
  site : Option Span := none
  diagnostics : Array Diagnostic := #[]
deriving Inhabited

namespace Checker

/-- That types nest too deep is reported. -/
def tooDeep (c : Checker) : Checker :=
  { c with
    depthReported := true
    diagnostics := c.diagnostics.push (.plain .excessiveInstantiationDepth c.site) }

/-- A pair of types is asked about, perhaps while another one is being related. -/
def askPair (c : Checker) (pair : TypeId × TypeId) : Checker :=
  { c with asked := (c.relating.head?.map (·, pair)).toList ++ c.asked }

/-- A pair of types is being related. -/
def beginPair (c : Checker) (pair : TypeId × TypeId) : Checker :=
  { c with relating := pair :: c.relating }

/-- The pair of types that was being related has its answer. -/
def answerPair (c : Checker) (pair : TypeId × TypeId) (answer : Option Bool) : Checker :=
  { c with
    relating := c.relating.erase pair
    relations := c.relations.insert pair answer }

/-- What becomes of the answers: one that was given stays, the pairs that are being related are the same
ones, and such a pair gets no answer meanwhile. That types nest too deep is not taken back either, nor
that a pair was asked about. -/
structure Retains (c d : Checker) : Prop where
  depthReported : c.depthReported → d.depthReported
  relating : d.relating = c.relating
  asked : c.asked ⊆ d.asked
  answered : ∀ (pair : TypeId × TypeId) (answer : Option Bool),
    c.relations[pair]? = some answer → d.relations[pair]? = some answer
  pending : ∀ pair ∈ c.relating, c.relations[pair]? = none → d.relations[pair]? = none

namespace Retains

variable {c d e : Checker}

/-- What is not reported in the end was not reported before. -/
theorem quiet (h : c.Retains d) (hd : d.depthReported = false) : c.depthReported = false := by
  rw [← Bool.not_eq_true] at hd ⊢
  exact fun hc => hd (h.depthReported hc)

/-- Nothing becomes of the answers where neither they nor the pairs being related change. -/
theorem of_eq (hdepth : c.depthReported → d.depthReported) (hrelating : d.relating = c.relating)
    (hasked : c.asked ⊆ d.asked) (hrelations : d.relations = c.relations) : c.Retains d :=
  ⟨hdepth, hrelating, hasked, fun _ _ h => hrelations ▸ h, fun _ _ h => hrelations ▸ h⟩

theorem refl (c : Checker) : c.Retains c := of_eq id rfl (List.Subset.refl _) rfl

theorem trans (h : c.Retains d) (h' : d.Retains e) : c.Retains e where
  depthReported hc := h'.depthReported (h.depthReported hc)
  relating := h'.relating.trans h.relating
  asked := List.Subset.trans h.asked h'.asked
  answered pair answer ha := h'.answered pair answer (h.answered pair answer ha)
  pending pair hpair hnone :=
    h'.pending pair (h.relating ▸ hpair) (h.pending pair hpair hnone)

theorem askPair (c : Checker) (pair : TypeId × TypeId) : c.Retains (c.askPair pair) :=
  of_eq id rfl (List.subset_append_right _ _) rfl

/-- A pair without an answer, and not being related yet, gets its answer. -/
theorem answerPair {pair : TypeId × TypeId} (hnone : c.relations[pair]? = none)
    (hpair : pair ∉ c.relating) (h : (c.beginPair pair).Retains d) (answer : Option Bool) :
    c.Retains (d.answerPair pair answer) where
  depthReported := h.depthReported
  relating := by
    show d.relating.erase pair = c.relating
    rw [h.relating]
    exact List.erase_cons_head pair c.relating
  asked := h.asked
  answered other a ha := by
    have hne : pair ≠ other := by
      rintro rfl
      cases hnone.symm.trans ha
    show (d.relations.insert pair answer)[other]? = some a
    rw [Std.HashMap.getElem?_insert, if_neg (by simpa using hne)]
    exact h.answered other a ha
  pending other hother ho := by
    have hne : pair ≠ other := fun heq => hpair (heq ▸ hother)
    show (d.relations.insert pair answer)[other]? = none
    rw [Std.HashMap.getElem?_insert, if_neg (by simpa using hne)]
    exact h.pending other (List.mem_cons_of_mem pair hother) ho

end Retains

/-- What is remembered of substitutions is what they have made, unless something was given up because
types nest too deep. -/
structure Faithful (nullChecks : Bool) (c : Checker) : Prop where
  table : TypeTable.initial.Later nullChecks c.table
  instances : c.depthReported = false → ∀ id m r,
    c.instances[(id, m)]? = some r → c.table.Instance nullChecks m id r

/-- It stays so when nothing is remembered anew. -/
theorem Faithful.later {nullChecks : Bool} {c d : Checker} (h : c.Faithful nullChecks)
    (hlater : c.table.Later nullChecks d.table) (hinstances : d.instances = c.instances)
    (hdepth : c.depthReported → d.depthReported) : d.Faithful nullChecks where
  table := h.table.trans hlater
  instances hd id m r hr := by
    have hc : c.depthReported = false := by
      rw [← Bool.not_eq_true]
      intro hc
      rw [hdepth hc] at hd
      cases hd
    rw [hinstances] at hr
    exact (h.instances hc id m r hr).later hlater

/-- A type is remembered as what another one has become under a substitution. -/
def remember (c : Checker) (id : TypeId) (m : MapperId) (r : TypeId) : Checker :=
  { c with instances := c.instances.insert (id, m) r }

theorem Faithful.remember {nullChecks : Bool} {c : Checker} (h : c.Faithful nullChecks)
    {id : TypeId} {m : MapperId} {r : TypeId}
    (hr : c.depthReported = false → c.table.Instance nullChecks m id r) :
    (c.remember id m r).Faithful nullChecks where
  table := h.table
  instances hc id' m' r' hr' := by
    unfold Checker.remember at hr'
    dsimp only at hr'
    rw [Std.HashMap.getElem?_insert] at hr'
    split at hr'
    · rename_i hkey
      obtain ⟨rfl, rfl⟩ := Prod.mk.inj (beq_iff_eq.1 hkey)
      obtain rfl := Option.some.inj hr'
      exact hr hc
    · exact h.instances hc id' m' r' hr'

/-! ## Answers that are left open -/

/-- The answer about a pair of types is open for a reason that can be told: it lies in the two types
themselves, or another pair was asked about meanwhile whose answer is open. -/
def Excused (p : Program) (c : Checker) (pair : TypeId × TypeId) : Prop :=
  c.table.Undecided p pair.1 pair.2 ∨
    ∃ other, (pair, other) ∈ c.asked ∧ c.relations[other]? = some none

/-- The reason can be traced through the pairs that were asked about, down to two types in which it
lies. -/
inductive Traced (p : Program) (c : Checker) : TypeId × TypeId → Prop where
  | itself {pair : TypeId × TypeId} : c.table.Undecided p pair.1 pair.2 → Traced p c pair
  | asked {pair other : TypeId × TypeId} :
      (pair, other) ∈ c.asked → c.relations[other]? = some none → Traced p c other → Traced p c pair

/-- Unless types nest too deep, the reason for each answer that was left open can be traced. -/
def Explained (p : Program) (c : Checker) : Prop :=
  c.depthReported = false → ∀ pair, c.relations[pair]? = some none → c.Traced p pair

variable {p : Program} {c d : Checker} {pair : TypeId × TypeId} {id : TypeId} {sh : Shape}

theorem Excused.mono (h : c.Excused p pair) (hgrows : c.table.Grows d.table) (hcd : c.Retains d) :
    d.Excused p pair := by
  rcases h with h | ⟨other, hasked, hopen⟩
  · exact .inl (h.grows hgrows)
  · exact .inr ⟨other, hcd.asked hasked, hcd.answered other none hopen⟩

/-- What has been traced stays so as long as nothing is taken back. -/
theorem Traced.mono (h : c.Traced p pair) (hgrows : c.table.Grows d.table) (hasked : c.asked ⊆ d.asked)
    (hanswered : ∀ other : TypeId × TypeId,
      c.relations[other]? = some none → d.relations[other]? = some none) :
    d.Traced p pair := by
  induction h with
  | itself h => exact .itself (h.grows hgrows)
  | asked h hopen _ ih => exact .asked (hasked h) (hanswered _ hopen) ih

/-- An answer with an excuse is traced if all open answers are. -/
theorem Excused.traced (h : c.Excused p pair)
    (hall : ∀ other, c.relations[other]? = some none → c.Traced p other) : c.Traced p pair := by
  rcases h with h | ⟨other, hasked, hopen⟩
  · exact .itself h
  · exact .asked hasked hopen (hall other hopen)

/-- Everything stays explained when no answer is given. -/
theorem Explained.mono (h : c.Explained p) (hgrows : c.table.Grows d.table)
    (hdepth : c.depthReported → d.depthReported) (hasked : c.asked ⊆ d.asked)
    (hrelations : d.relations = c.relations) : d.Explained p := by
  intro hd other hopen
  have hc : c.depthReported = false := by
    rw [← Bool.not_eq_true] at hd ⊢
    exact fun hc => hd (hdepth hc)
  rw [hrelations] at hopen
  exact (h hc other hopen).mono hgrows hasked fun q hq => hrelations ▸ hq

/-- A pair that was being related gets an answer, and an excuse if the answer is open. -/
theorem Explained.answerPair (h : c.Explained p) (hpending : c.relations[pair]? = none)
    {answer : Option Bool}
    (hexcused : c.depthReported = false → answer = none → c.Excused p pair) :
    (c.answerPair pair answer).Explained p := by
  intro hdepth other hopen
  have hanswered (q : TypeId × TypeId) (hq : c.relations[q]? = some none) :
      (c.answerPair pair answer).relations[q]? = some none := by
    have hne : pair ≠ q := by
      rintro rfl
      cases hpending.symm.trans hq
    show (c.relations.insert pair answer)[q]? = some none
    rw [Std.HashMap.getElem?_insert, if_neg (by simpa using hne), hq]
  have hmono {q : TypeId × TypeId} (hq : c.Traced p q) : (c.answerPair pair answer).Traced p q :=
    hq.mono (.refl c.table) (List.Subset.refl _) hanswered
  have hrelations : (c.relations.insert pair answer)[other]? = some none := hopen
  rw [Std.HashMap.getElem?_insert] at hrelations
  split at hrelations
  · rename_i hother
    obtain rfl := beq_iff_eq.1 hother
    exact hmono ((hexcused hdepth (Option.some.inj hrelations)).traced (h hdepth))
  · exact hmono (h hdepth other hrelations)

/-! ## Members that are remembered -/

/-- The members of a type are known: they are remembered, or were computed when the type was stored. -/
def HasShape (c : Checker) (id : TypeId) (sh : Shape) : Prop :=
  c.shapes[id]? = some sh ∨
    c.shapes[id]? = none ∧ ∃ i, c.table.kind id = .computed i ∧ c.table.shapes[i.index]? = some sh

/-- The members of a type are remembered. -/
def rememberShape (c : Checker) (id : TypeId) (sh : Shape) : Checker :=
  { c with shapes := c.shapes.insert id sh }

/-- They stay known, and are read off ever after. -/
theorem HasShape.mono (h : c.HasShape id sh) (hgrows : c.table.Grows d.table)
    (hshapes : d.shapes = c.shapes) : d.HasShape id sh := by
  unfold HasShape
  rw [hshapes]
  rcases h with h | ⟨hnone, i, hk, hi⟩
  · exact .inl h
  · exact .inr ⟨hnone, i, hgrows.kind_eq hk (by simp), hgrows.shapes _ _ hi⟩

/-! ## Answers that need no assumption -/

/-- What is known of types at a time. -/
def sight (s : Setting) (c : Checker) : Sight := ⟨s.program, c.table, c.shapes⟩

/-- What was known of types at some time still is. -/
structure Sees (s : Setting) (v : Sight) (c : Checker) : Prop where
  program : v.program = s.program
  table : v.table.Grows c.table
  shapes : ∀ (id : TypeId) (sh : Shape), v.shape? id = some sh → c.HasShape id sh

/-- Besides, no answer contradicts what was known of the pair. -/
structure Respects (s : Setting) (v : Sight) (c : Checker) : Prop extends Sees s v c where
  answered : ∀ (n : Nat) (source target : TypeId) (answer known : Option Bool),
    c.relations[(source, target)]? = some answer → v.verdict n source target = some known →
      answer = known

/-- Of no pair that is being related anything was known in so many steps. -/
def Unsettled (v : Sight) (n : Nat) (c : Checker) : Prop :=
  ∀ pair ∈ c.relating, v.verdict n pair.1 pair.2 = none

variable {s : Setting} {v : Sight}

theorem Respects.of_eq (h : c.Respects s v) (hgrows : c.table.Grows d.table)
    (hshapes : d.shapes = c.shapes) (hrelations : d.relations = c.relations) : d.Respects s v where
  program := h.program
  table := h.table.trans hgrows
  shapes id sh hsh := (h.shapes id sh hsh).mono hgrows hshapes
  answered := hrelations ▸ h.answered

/-- A pair gets an answer that contradicts nothing. -/
theorem Respects.answerPair (h : c.Respects s v) {answer : Option Bool}
    (hanswer : ∀ n known, v.verdict n pair.1 pair.2 = some known → answer = known) :
    (c.answerPair pair answer).Respects s v where
  program := h.program
  table := h.table
  shapes := h.shapes
  answered n source target a known ha hknown := by
    have hrelations : (c.relations.insert pair answer)[(source, target)]? = some a := ha
    rw [Std.HashMap.getElem?_insert] at hrelations
    split at hrelations
    · rename_i hpair
      obtain rfl := beq_iff_eq.1 hpair
      exact Option.some.inj hrelations ▸ hanswer n known hknown
    · exact h.answered n source target a known hrelations hknown

/-- Members that were not known are remembered. -/
theorem Respects.rememberShape (h : c.Respects s v) {id : TypeId} (hnone : ∀ sh, v.shape? id ≠ some sh)
    (sh : Shape) : (c.rememberShape id sh).Respects s v where
  program := h.program
  table := h.table
  shapes other known hknown := by
    have hne : id ≠ other := by
      rintro rfl
      exact hnone known hknown
    have hother : (c.shapes.insert id sh)[other]? = c.shapes[other]? := by
      rw [Std.HashMap.getElem?_insert, if_neg (by simpa using hne)]
    rw [HasShape, show (c.rememberShape id sh).shapes[other]? = _ from hother]
    exact h.shapes other known hknown
  answered := h.answered

/-- The pair that is being related next was not known before the last step in which it is found. -/
theorem Unsettled.beginPair {n k : Nat} (h : c.Unsettled v n) (hkn : k ≤ n)
    (hpair : v.verdict k pair.1 pair.2 = none) : ((c.askPair pair).beginPair pair).Unsettled v k := by
  intro other hother
  rcases List.mem_cons.1 hother with rfl | hother
  · exact hpair
  · exact Sight.verdict_eq_none_of_le hkn (h other hother)

theorem Respects.beginPair (h : c.Respects s v) (pair : TypeId × TypeId) :
    ((c.askPair pair).beginPair pair).Respects s v :=
  h.of_eq (.refl c.table) rfl rfl

/-! ## What comes out the same once more

A substitution leaves a type alone that has nothing in it that it could put something in for. For that the
type has to be built once more of the same parts, so what was dropped or restricted when the type was
stored must not depend on when it was. -/

end Checker

/-- A member of an object type node that counts: a property or a method needs a name that is not
computed. -/
def Node.addsMember (n : Node) : Bool :=
  match n.kind with
  | .propertySig | .methodSig => (n.name?.filter fun m => !m.isRawName).isSome
  | .callSig | .constructSig | .indexSig => true
  | _ => false

/-- A node is an object type without members. -/
def Program.writesNothing (p : Program) (decl : NodeKey) : Bool :=
  (p.node? decl).any fun n => n.kind == .objectType && !n.members.any (·.addsMember)

namespace TypeTable

/-- A type of a kind stands under a number. -/
def Stores (t : TypeTable) (id : TypeId) (k : TypeKind) : Prop :=
  ∃ d, t.types.get? id.index = some d ∧ d.kind = k

/-- An object type is written without members. -/
def isHollow (p : Program) (t : TypeTable) (id : TypeId) : Bool :=
  match t.kind id with
  | .written decl _ => p.writesNothing decl
  | _ => false

/-- The members of an intersection that say nothing, when other object types stand beside them. -/
def superfluous (p : Program) (t : TypeTable) (ms : List TypeId) : List TypeId :=
  let objects := (ms.filter fun m => t.isObjectLike m || m == .object).length
  let hollow := ms.filter (t.isHollow p)
  if 1 < objects ∧ hollow.length < objects then hollow else []

/-- An object type whose members were computed. -/
def isComputed (t : TypeTable) (id : TypeId) : Bool :=
  match t.kind id with
  | .computed _ => true
  | _ => false

/-- The substitution that a written type is stored under is in the table, and puts in something for no
parameters but those that the type uses. -/
def Restricted (s : Setting) (t : TypeTable) : TypeKind → Prop
  | .written decl m => (∀ i ∈ m, t.hasMapper i) ∧ ∀ x ∉ s.free decl, t.substitute? m x = none
  | _ => True

/-- No member of an intersection is superfluous, as far as that can be told without looking members up. -/
def Reduced (p : Program) (t : TypeTable) : TypeKind → Prop
  | .intersection ms => (∀ m ∈ ms, t.isComputed m = false) → t.superfluous p ms = []
  | _ => True

/-- The types that a type of a kind is put together from, those in its substitution among them. -/
def constituents (t : TypeTable) : TypeKind → List TypeId
  | .union ms | .intersection ms => ms
  | .template _ spans => spans.map (·.1)
  | .lettered _ id => [id]
  | .interface _ args => args
  | .tuple elements _ => elements.map (·.type)
  | .written _ m => (t.mapper m).map (·.2)
  | _ => []

/-- A type of a kind stays under a substitution if its constituents do: nothing waits in it for a
substitution, and it was not computed. -/
def settles (s : Setting) (t : TypeTable) : TypeKind → Bool
  | .param _ | .computed _ | .keys _ | .access .. | .conditional .. | .mapped .. => false
  | .tuple elements _ => elements.all (·.kind != .variadic)
  | .written decl m => (s.free decl).all fun x => (t.substitute? m x).isSome
  | _ => true

/-- A type is there and is put together, all the way down, from types that stay, and so are the arguments
of its names. -/
inductive Concrete (s : Setting) (t : TypeTable) : TypeId → Prop where
  | mk {id : TypeId} {d : TypeData} :
      t.types.get? id.index = some d → t.settles s d.kind →
      (∀ part ∈ t.constituents d.kind, Concrete s t part) →
      (∀ a ∈ d.aliased, ∀ arg ∈ a.args, Concrete s t arg) → Concrete s t id

/-- A type has become itself, if it turns out to be a type that stays. -/
def Spares (s : Setting) (t : TypeTable) (id r : TypeId) : Prop :=
  ∀ v : TypeTable, t.Grows v → v.Concrete s id → r = id

/-- What is found as the members of a type are those of a type that is there, and tells of a written type
whether it has any. -/
structure Tells (p : Program) (t : TypeTable) (id : TypeId) (members : Option Shape) : Prop where
  has : members.isSome → t.has id
  hollow : ∀ decl m, t.kind id = .written decl m → members.any (·.isEmpty) = p.writesNothing decl

variable {s : Setting} {p : Program} {t u : TypeTable} {id r : TypeId}

theorem Stores.grows {k : TypeKind} (h : t.Stores id k) (htu : t.Grows u) : u.Stores id k :=
  let ⟨d, hd, hk⟩ := h
  ⟨d, htu.types _ _ hd, hk⟩

theorem Spares.grows (h : t.Spares s id r) (htu : t.Grows u) : u.Spares s id r :=
  fun v huv hid => h v (htu.trans huv) hid

theorem kind_eq_of_has (h : t.has id) (htu : t.Grows u) : u.kind id = t.kind id := by
  obtain ⟨d, hd⟩ := Option.isSome_iff_exists.1 h
  rw [kind_of_get? hd, kind_of_get? (htu.types _ _ hd)]

theorem Tells.grows {sh : Shape} (h : t.Tells p id (some sh)) (htu : t.Grows u) :
    u.Tells p id (some sh) := by
  have hhas : t.has id := h.has rfl
  refine ⟨fun _ => ?_, fun decl m hk => h.hollow decl m ((kind_eq_of_has hhas htu).symm.trans hk)⟩
  obtain ⟨d, hd⟩ := Option.isSome_iff_exists.1 hhas
  exact Option.isSome_iff_exists.2 ⟨d, htu.types _ _ hd⟩

theorem Restricted.grows {k : TypeKind} (h : t.Restricted s k) (htu : t.Grows u) : u.Restricted s k := by
  cases k with
  | written decl m =>
    obtain ⟨hstored, hfree⟩ := h
    refine ⟨fun i hi => hasMapper_of_grows (hstored i hi) htu, fun x hx => ?_⟩
    cases m with
    | none => exact hfree x hx
    | some m => rw [substitute?_of_hasMapper (hstored m rfl) htu, hfree x hx]
  | _ => trivial

/-- Types that keep their kinds are superfluous in both tables. -/
theorem superfluous_congr {ms : List TypeId} (h : ∀ m ∈ ms, u.kind m = t.kind m) :
    u.superfluous p ms = t.superfluous p ms := by
  have hobject : (ms.filter fun m => u.isObjectLike m || m == .object) =
      ms.filter fun m => t.isObjectLike m || m == .object :=
    List.filter_congr fun m hm => by rw [isObjectLike, isObjectLike, h m hm]
  have hhollow : ms.filter (u.isHollow p) = ms.filter (t.isHollow p) :=
    List.filter_congr fun m hm => by rw [isHollow, isHollow, h m hm]
  rw [superfluous, superfluous, hobject, hhollow]

/-- What says that no member of an intersection is superfluous are the kinds of its members. -/
theorem Reduced.intersection_grows {ms : List TypeId} (h : t.Reduced p (.intersection ms))
    (hplain : ∀ m ∈ ms, (t.kind m).inIntersection) (htu : t.Grows u) :
    u.Reduced p (.intersection ms) := by
  have hkind (m : TypeId) (hm : m ∈ ms) : u.kind m = t.kind m := htu.kind_eq_of rfl (hplain m hm)
  intro hcomputed
  rw [superfluous_congr hkind]
  exact h fun m hm => by rw [isComputed, ← hkind m hm, ← isComputed, hcomputed m hm]

theorem Reduced.grows {k : TypeKind} {nullChecks : Bool} (h : t.Reduced p k)
    (hform : t.NormalKind nullChecks k) (htu : t.Grows u) : u.Reduced p k := by
  cases k with
  | intersection ms => exact h.intersection_grows hform.1.plain htu
  | _ => trivial

/-- A substitution that is restricted to the parameters of a written type. -/
theorem restricted_restrictMapper (decl : NodeKey) (m : Option MapperId) :
    let r := (restrictMapper m (s.free decl)).run t
    r.2.Restricted s (.written decl r.1) := by
  intro r
  refine ⟨fun i hi => ?_, fun x hx => ?_⟩
  · rcases (substitute?_makeMapper t ((t.mapper m).restricted (s.free decl))).2 with hnil | ⟨j, hj, hstored⟩
    · have hnone : r.1 = none := by
        show ((makeMapper ((t.mapper m).restricted (s.free decl))).run t).1 = none
        rw [hnil]
        rfl
      rw [hnone] at hi
      cases hi
    · obtain rfl : j = i := Option.some.inj (hj.symm.trans hi)
      exact hstored
  · rw [substitute?_restrictMapper (.refl _), if_neg hx]

/-- What is ordinary has nothing to be restricted or reduced. -/
theorem restricted_of_isOrdinary {k : TypeKind} (hk : k.isOrdinary) : t.Restricted s k := by
  cases k with
  | written => cases hk
  | _ => trivial

theorem reduced_of_isOrdinary {k : TypeKind} (hk : k.isOrdinary) : t.Reduced p k := by
  cases k with
  | intersection => cases hk
  | _ => trivial

end TypeTable

namespace Checker

open TypeTable

/-- What has been stored and remembered comes out the same once more: a substitution that a written type
stands under is no larger for being restricted again, and unless something was given up, an intersection
has lost all that it can lose, members tell what is written, and a type that stays was found to stay. -/
structure Tidy (s : Setting) (c : Checker) : Prop where
  restricted : c.table.Every (c.table.Restricted s)
  written : ∀ (decl : NodeKey) (sh : Shape), c.written[decl]? = some sh →
    sh.isEmpty = s.program.writesNothing decl
  reduced : c.depthReported = false → c.table.Every (c.table.Reduced s.program)
  shapes : c.depthReported = false → ∀ (id : TypeId) (sh : Shape), c.shapes[id]? = some sh →
    c.table.Tells s.program id (some sh)
  instances : c.depthReported = false → ∀ (id : TypeId) (m : MapperId) (r : TypeId),
    c.instances[(id, m)]? = some r → c.table.Spares s id r

variable {s : Setting} {c d : Checker} {id r : TypeId} {m : MapperId} {sh : Shape}

/-- The table has grown by kinds of which nothing can be told apart from what is told here, and nothing
was remembered. -/
theorem Tidy.of_every (h : c.Tidy s) (hgrows : c.table.Grows d.table)
    (hrestricted : d.table.Every (d.table.Restricted s))
    (hreduced : d.depthReported = false → d.table.Every (d.table.Reduced s.program))
    (hdepth : c.depthReported → d.depthReported) (hwritten : d.written = c.written)
    (hshapes : d.shapes = c.shapes) (hinstances : d.instances = c.instances) : d.Tidy s := by
  have hquiet (hd : d.depthReported = false) : c.depthReported = false := by
    rw [← Bool.not_eq_true] at hd ⊢
    exact fun hc => hd (hdepth hc)
  refine ⟨hrestricted, fun decl sh hsh => h.written decl sh (hwritten ▸ hsh), hreduced,
    fun hd id sh hsh => ?_, fun hd id m r hr => ?_⟩
  · exact (h.shapes (hquiet hd) id sh (hshapes ▸ hsh)).grows hgrows
  · exact (h.instances (hquiet hd) id m r (hinstances ▸ hr)).grows hgrows

/-- It stays so when neither the table grows nor anything is remembered. -/
theorem Tidy.of_eq (h : c.Tidy s) (htable : d.table = c.table)
    (hdepth : c.depthReported → d.depthReported) (hwritten : d.written = c.written)
    (hshapes : d.shapes = c.shapes) (hinstances : d.instances = c.instances) : d.Tidy s := by
  refine h.of_every (htable ▸ .refl c.table) (htable ▸ h.restricted) (fun hd => ?_) hdepth hwritten
    hshapes hinstances
  rw [htable]
  refine h.reduced ?_
  rw [← Bool.not_eq_true] at hd ⊢
  exact fun hc => hd (hdepth hc)

/-- The table after a step on it. -/
def withTable (c : Checker) (t : TypeTable) : Checker := { c with table := t }

/-- A kind of type that was stored before is as restricted and reduced as it was, and nothing else is
stored by the ordinary steps of a table. -/
theorem Tidy.stored (h : c.Tidy s) (hc : c.Faithful s.nullChecks) {α : Type} {x : Stored α}
    (hx : x.Allowed s.nullChecks) : (c.withTable (x.run c.table).2).Tidy s := by
  have hgrows := (hx.keeps c.table).1
  have ht : c.table.Normal s.nullChecks := hc.table.keeps.2 (normal_initial s.nullChecks)
  refine h.of_every (d := c.withTable (x.run c.table).2) hgrows ?_ (fun hd => ?_) id rfl rfl rfl
  · refine hx.stocks (fun k hk => restricted_of_isOrdinary hk) c.table fun i d hd => ?_
    exact (h.restricted i d hd).grows hgrows
  · refine hx.stocks (fun k hk => reduced_of_isOrdinary hk) c.table fun i d hget => ?_
    exact (h.reduced hd i d hget).grows (ht.forms i d hget) hgrows

/-- Members of an intersection of which none is superfluous are stored. -/
theorem Tidy.met (h : c.Tidy s) (hc : c.Faithful s.nullChecks) {kept : List TypeId}
    (hplain : ∀ m ∈ kept, (c.table.kind m).inIntersection)
    (hkept : c.depthReported = false → c.table.Reduced s.program (.intersection kept)) :
    (c.withTable ((meet kept).run c.table).2).Tidy s := by
  have hgrows := Stored.grows_meet c.table kept
  have ht : c.table.Normal s.nullChecks := hc.table.keeps.2 (normal_initial s.nullChecks)
  refine h.of_every (d := c.withTable ((meet kept).run c.table).2) hgrows ?_ (fun hd => ?_) id rfl rfl
    rfl
  · exact Stored.stocks_meet trivial c.table fun i d hd => (h.restricted i d hd).grows hgrows
  · refine Stored.stocks_meet ((hkept hd).intersection_grows hplain hgrows) c.table fun i d hget => ?_
    exact (h.reduced hd i d hget).grows (ht.forms i d hget) hgrows

/-- A written type is stored under a substitution that was restricted for it. -/
theorem Tidy.storedWritten (h : c.Tidy s) (hc : c.Faithful s.nullChecks) {decl : NodeKey}
    {m : Option MapperId} (hm : c.table.Restricted s (.written decl m)) :
    (c.withTable ((intern (.written decl m)).run c.table).2).Tidy s := by
  have hgrows : c.table.Grows ((intern (.written decl m)).run c.table).2 := grows_store
  have ht : c.table.Normal s.nullChecks := hc.table.keeps.2 (normal_initial s.nullChecks)
  refine h.of_every (d := c.withTable ((intern (.written decl m)).run c.table).2) hgrows ?_
    (fun hd => ?_) id rfl rfl rfl
  · exact Stored.stocks_intern (hm.grows hgrows) c.table fun i d hd => (h.restricted i d hd).grows hgrows
  · refine Stored.stocks_intern trivial c.table fun i d hget => ?_
    exact (h.reduced hd i d hget).grows (ht.forms i d hget) hgrows

/-- A type is remembered as what another one has become. -/
theorem Tidy.remember (h : c.Tidy s) (hr : c.depthReported = false → c.table.Spares s id r) :
    (c.remember id m r).Tidy s where
  restricted := h.restricted
  written := h.written
  reduced := h.reduced
  shapes := h.shapes
  instances hc id' m' r' hr' := by
    have hinsert : (c.instances.insert (id, m) r)[(id', m')]? = some r' := hr'
    rw [Std.HashMap.getElem?_insert] at hinsert
    split at hinsert
    · rename_i hkey
      obtain ⟨rfl, rfl⟩ := Prod.mk.inj (beq_iff_eq.1 hkey)
      exact Option.some.inj hinsert ▸ hr hc
    · exact h.instances hc id' m' r' hinsert

/-- The members of a type are remembered. -/
theorem Tidy.rememberShape (h : c.Tidy s)
    (hsh : c.depthReported = false → c.table.Tells s.program id (some sh)) :
    (c.rememberShape id sh).Tidy s where
  restricted := h.restricted
  written := h.written
  reduced := h.reduced
  instances := h.instances
  shapes hc id' sh' hsh' := by
    have hinsert : (c.shapes.insert id sh)[id']? = some sh' := hsh'
    rw [Std.HashMap.getElem?_insert] at hinsert
    split at hinsert
    · rename_i hkey
      obtain rfl := beq_iff_eq.1 hkey
      exact Option.some.inj hinsert ▸ hsh hc
    · exact h.shapes hc id' sh' hinsert

/-- The members of a written type under no substitution are remembered. -/
def rememberWritten (c : Checker) (decl : NodeKey) (sh : Shape) : Checker :=
  { c with written := c.written.insert decl sh }

theorem Tidy.rememberWritten (h : c.Tidy s) {decl : NodeKey}
    (hsh : sh.isEmpty = s.program.writesNothing decl) : (c.rememberWritten decl sh).Tidy s where
  restricted := h.restricted
  reduced := h.reduced
  shapes := h.shapes
  instances := h.instances
  written decl' sh' hsh' := by
    have hinsert : (c.written.insert decl sh)[decl']? = some sh' := hsh'
    rw [Std.HashMap.getElem?_insert] at hinsert
    split at hinsert
    · rename_i hkey
      obtain rfl := beq_iff_eq.1 hkey
      exact Option.some.inj hinsert ▸ hsh
    · exact h.written decl' sh' hinsert

end Checker

end DeclKit

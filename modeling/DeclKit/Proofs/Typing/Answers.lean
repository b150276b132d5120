/-
Answers that do not depend on what was asked before, and answers that are left open.

Whether one type can stand where another is wanted is worked out once. While a pair is being related it
is taken to hold, so the first answer for a pair can rest on an assumption that fails later, and it is
then remembered for good. An answer that goes back to pairs that settle theirs alone rests on none, and is
the same whatever a check has been asked before.

An answer can also be left open. The types need not mention a type parameter for that, but there is
always a reason: through the questions asked meanwhile it leads to two types that leave it open by
themselves.
-/
import DeclKit.Proofs.Typing.Reachable
import DeclKit.Typing.Level
import Mathlib.Tactic.ByContra

set_option autoImplicit false

namespace DeclKit

/-! ## Types that wait -/

namespace TypeTable

variable {t : TypeTable}

section

variable {free : NodeKey → List SymbolId} {id : TypeId}

/-- A type mentions a type parameter if it does when fewer of its parts are said to. -/
theorem genericStep_of_imp {inner inner' : TypeId → Bool}
    (h : ∀ part, inner part = true → inner' part = true) (hid : t.genericStep free inner id = true) :
    t.genericStep free inner' id = true := by
  have hany {α : Type} {xs : List α} {f g : α → Bool} (hfg : ∀ x, f x = true → g x = true)
      (hx : xs.any f = true) : xs.any g = true := by
    obtain ⟨x, hmem, hx⟩ := List.any_eq_true.1 hx
    exact List.any_eq_true.2 ⟨x, hmem, hfg x hx⟩
  unfold genericStep at hid ⊢
  cases hk : t.kind id <;> rw [hk] at hid
  case union | intersection | interface => exact hany h hid
  case template | tuple => exact hany (fun _ => h _) hid
  case lettered => exact h _ hid
  case written decl m =>
    refine hany (fun x hx => ?_) hid
    cases hsub : t.substitute? m x with
    | none => rfl
    | some ty =>
      rw [hsub] at hx
      exact h ty hx
  case computed i =>
    simp only [Bool.or_eq_true] at hid ⊢
    refine hid.imp (Or.imp (hany fun _ => h _) (hany fun _ => h _)) (hany fun signature => ?_)
    simp only [Bool.or_eq_true]
    exact Or.imp (h _) (hany fun _ => h _)
  all_goals exact hid

/-- Whoever asks more often finds at least the type parameters that were found before. -/
theorem descend_genericStep_mono {n l : Nat} (hnl : n ≤ l)
    (h : descend (t.genericStep free) (fun _ => false) n id = true) :
    descend (t.genericStep free) (fun _ => false) l id = true := by
  induction n generalizing l id with
  | zero => cases h
  | succ n ih =>
    obtain _ | l := l
    · exact absurd hnl (Nat.not_succ_le_zero n)
    exact genericStep_of_imp (fun _ => ih (Nat.le_of_succ_le_succ hnl)) h

end

/-- A tuple spreads a type, or some type that this one waits for does. -/
inductive Spreads (t : TypeTable) : TypeId → Prop where
  | tuple {id : TypeId} {es : List TupleElement} {readonly : Bool}
      (hk : t.kind id = .tuple es readonly) (h : ∃ e ∈ es, e.kind = .variadic) : Spreads t id
  | member {id m : TypeId} {ms : List TypeId}
      (hk : t.kind id = .union ms ∨ t.kind id = .intersection ms) (hm : m ∈ ms) (h : Spreads t m) :
      Spreads t id
  | span {id : TypeId} {head : String} {spans : List (TypeId × String)} {span : TypeId × String}
      (hk : t.kind id = .template head spans) (hspan : span ∈ spans) (h : Spreads t span.1) :
      Spreads t id
  | operand {id inner : TypeId} {map : LetterMap} (hk : t.kind id = .lettered map inner)
      (h : Spreads t inner) : Spreads t id

/-- Whether a type waits and whether it mentions a type parameter are asked of the same parts, except
that a tuple waits for what it spreads, whatever that is. By induction on how often it is asked. -/
theorem generic_or_spreads_of_waits (free : NodeKey → List SymbolId) {n : Nat} {id : TypeId}
    (h : descend t.waitsStep (fun _ => false) n id = true) :
    descend (t.genericStep free) (fun _ => false) n id = true ∨ t.Spreads id := by
  induction n generalizing id with
  | zero => cases h
  | succ n ih =>
    have hmember {ms : List TypeId} (hk : t.kind id = .union ms ∨ t.kind id = .intersection ms)
        (hany : ms.any (descend t.waitsStep (fun _ => false) n) = true) :
        ms.any (descend (t.genericStep free) (fun _ => false) n) = true ∨ t.Spreads id := by
      obtain ⟨m, hm, hwaits⟩ := List.any_eq_true.1 hany
      exact (ih hwaits).imp (fun h => List.any_eq_true.2 ⟨m, hm, h⟩) (.member hk hm)
    rw [descend, waitsStep] at h
    rw [descend, genericStep]
    cases hk : t.kind id <;> rw [hk] at h
    case union => exact hmember (.inl hk) h
    case intersection => exact hmember (.inr hk) h
    case template =>
      obtain ⟨span, hspan, hwaits⟩ := List.any_eq_true.1 h
      exact (ih hwaits).imp (fun h => List.any_eq_true.2 ⟨span, hspan, h⟩) (.span hk hspan)
    case lettered => exact (ih h).imp (fun h => h) (.operand hk)
    case tuple =>
      obtain ⟨e, he, hkind⟩ := List.any_eq_true.1 h
      exact .inr (.tuple hk ⟨e, he, beq_iff_eq.1 hkind⟩)
    all_goals first | exact .inl rfl | cases h

/-- A type that waits mentions a type parameter, or a tuple in it spreads a type. -/
theorem isGeneric_or_spreads (free : NodeKey → List SymbolId) {id : TypeId} (h : t.isDeferred id) :
    t.isGeneric free id ∨ t.Spreads id := by
  have hid : id.index < t.types.size := by
    by_contra hmissing
    have hkind : t.kind id = .union [] := by
      rw [kind, data, Option.not_isSome_iff_eq_none.1 (mt Interner.get?_isSome.1 hmissing)]
      rfl
    rw [isDeferred, descend, waitsStep, hkind] at h
    cases h
  exact (generic_or_spreads_of_waits free h).imp_left
    (descend_genericStep_mono (Nat.succ_le_succ (Nat.le_of_lt hid)))

end TypeTable

/-! ## Questions and their answers -/

namespace Checker

variable {s : Setting} {c : Checker}

/-- No pair is being related between the steps of a check. -/
theorem Reachable.relating (h : Reachable s c) : c.relating = [] := by
  induction h with
  | start => rfl
  | step x _ ih => exact (x.retains s _).relating.trans ih

theorem Reachable.not_mem_relating (h : Reachable s c) (pair : TypeId × TypeId) : pair ∉ c.relating := by
  rw [h.relating]
  exact List.not_mem_nil

/-- In every state of a check the reason for each open answer can be traced. -/
theorem Reachable.explained (h : Reachable s c) : c.Explained s.program := by
  induction h with
  | start => exact fun _ _ hopen => by simp at hopen
  | step x _ ih => exact x.explained s _ ih

/-- Nothing is noted of a question that is asked by itself. -/
theorem askPair_of_relating (h : c.relating = []) (pair : TypeId × TypeId) : c.askPair pair = c := by
  have hasked : (c.relating.head?.map (·, pair)).toList ++ c.asked = c.asked := by
    rw [h]
    rfl
  rw [askPair, hasked]

end Checker

namespace Check

variable {s : Setting} {c : Checker} {pair : TypeId × TypeId} {ask : Check (Option Bool)}
  {hask : ask.Excuses pair} {room : Nat → Nat → Prop} {hknown : ask.Answers room pair}

/-- A question about a pair that is met for the first time is answered by what it asks, and nothing else
is given up. -/
theorem run_answer_of_none (hnone : c.relations[pair]? = none) (hpair : pair ∉ c.relating) :
    let r := ((Check.answer pair ask hask hknown).run s).run c
    let r' := (ask.run s).run ((c.askPair pair).beginPair pair)
    r.1 = r'.1 ∧ r.2.depthReported = r'.2.depthReported := by
  unfold Check.answer
  dsimp only [StateT.run]
  rw [hnone]
  dsimp only
  rw [if_neg (by simpa using hpair)]
  exact ⟨rfl, rfl⟩

/-- A question about a pair that is not being related leaves its answer behind. -/
theorem relations_run_answer (h : pair ∉ c.relating) :
    (((Check.answer pair ask hask hknown).run s).run c).2.relations[pair]? =
      some (((Check.answer pair ask hask hknown).run s).run c).1 := by
  unfold Check.answer
  dsimp only [StateT.run]
  split
  · assumption
  · rw [if_neg (by simpa using h)]
    exact Std.HashMap.getElem?_insert_self

/-- A step that is not past the last level is taken one level deeper. -/
theorem run_nested_of_lt {α : Type} {fallback : α} {step : Check α} (h : c.depth < maxDepth) :
    let r := ((nested fallback step).run s).run c
    let r' := (step.run s).run { c with depth := c.depth + 1 }
    r.1 = r'.1 ∧ r.2.depthReported = r'.2.depthReported := by
  unfold nested
  show (StateT.run ((if maxDepth ≤ c.depth then _ else _ : Check α).run s) c).1 = _ ∧
    (StateT.run ((if maxDepth ≤ c.depth then _ else _ : Check α).run s) c).2.depthReported = _
  rw [if_neg (Nat.not_le.2 h)]
  exact ⟨rfl, rfl⟩

end Check

namespace Typing

open Checker

variable {s : Setting} {c : Checker}

/-- Types that are the same are assignable, whatever is remembered. -/
theorem run_assignable_self (ops : Operations) (id : TypeId) :
    ((assignable ops id id).run s).run c = (some true, c) := by
  unfold assignable
  rw [if_pos (beq_self_eq_true id)]
  rfl

theorem run_assignable_of_ne (ops : Operations) {source target : TypeId} (h : source ≠ target) :
    assignable ops source target =
      Check.answer (source, target) (Check.nested none (relate ops source target))
        (Check.excuses_nested (excuses_relate ops source target))
        (Check.answers_nested (answers_relate ops source target)) := by
  unfold assignable
  rw [if_neg (by simpa using h)]

/-- Two types that were asked about have their answer from then on. -/
theorem relations_run_assignable (hc : Reachable s c) (ops : Operations) {source target : TypeId}
    (hne : source ≠ target) :
    let r := ((assignable ops source target).run s).run c
    r.2.relations[(source, target)]? = some r.1 := by
  rw [run_assignable_of_ne ops hne]
  exact Check.relations_run_answer (hc.not_mem_relating _)

/-- A question about two types that is asked for the first time, and not past the last level, ends as
relating them does one level deeper. -/
theorem exists_run_relate_of_lt (hc : Reachable s c) (ops : Operations) {source target : TypeId}
    (hne : source ≠ target) (hfirst : c.relations[(source, target)]? = none)
    (hdepth : c.depth < Check.maxDepth) :
    let r := ((assignable ops source target).run s).run c
    ∃ d : Checker, d.table = c.table ∧ d.depthReported = c.depthReported ∧
      r.1 = (((relate ops source target).run s).run d).1 ∧
      r.2.depthReported = (((relate ops source target).run s).run d).2.depthReported := by
  let begun := (c.askPair (source, target)).beginPair (source, target)
  have hfree := hc.not_mem_relating (source, target)
  rw [run_assignable_of_ne ops hne]
  obtain ⟨hanswer, hquiet⟩ := Check.run_nested_of_lt (s := s) (c := begun) hdepth
  exact ⟨{ begun with depth := c.depth + 1 }, rfl, rfl,
    (Check.run_answer_of_none hfirst hfree).1.trans hanswer,
    (Check.run_answer_of_none hfirst hfree).2.trans hquiet⟩

/-- A question about two types that is asked for the first time is answered by what relating them gives,
one level deeper. Past the last level there is no answer. -/
theorem exists_run_relate (hc : Reachable s c) (ops : Operations) {source target : TypeId}
    (hne : source ≠ target) (hfirst : c.relations[(source, target)]? = none) :
    ∃ d : Checker, d.table = c.table ∧
      (((assignable ops source target).run s).run c).1 =
        if c.depth < Check.maxDepth then (((relate ops source target).run s).run d).1 else none := by
  by_cases hdepth : c.depth < Check.maxDepth
  · obtain ⟨d, hd, -, hanswer, -⟩ := exists_run_relate_of_lt hc ops hne hfirst hdepth
    exact ⟨d, hd, by rw [if_pos hdepth, hanswer]⟩
  · refine ⟨c, rfl, ?_⟩
    have hfree := hc.not_mem_relating (source, target)
    rw [if_neg hdepth, run_assignable_of_ne ops hne, (Check.run_answer_of_none hfirst hfree).1]
    unfold Check.nested
    show (StateT.run ((if Check.maxDepth ≤ c.depth then _ else _ : Check (Option Bool)).run s) _).1 = _
    rw [if_pos (Nat.not_lt.1 hdepth)]
    rfl

/-- Tuple types that are not the same are related as their elements are, unless one of them has to wait
for a substitution or could be written to where the other cannot. -/
theorem run_relate_tuple {ops : Operations} {source target : TypeId} {es fs : List TupleElement}
    {readonly readonly' : Bool} (hs : c.table.kind source = .tuple es readonly) (ht : c.table.kind target = .tuple fs readonly') :
    ((relate ops source target).run s).run c =
      if TypeKind.tuple es readonly = .tuple fs readonly' then (some true, c)
      else if c.table.isDeferred source || c.table.isDeferred target then (none, c)
      else if readonly && !readonly' then (some false, c)
      else ((relateTuples ops es fs).run s).run c := by
  have htable : (Check.table.run s c).1 = c.table := rfl
  show StateT.run ((if (Check.table.run s c).1.kind source = (Check.table.run s c).1.kind target
    then _ else _ : Check _).run s) c = _
  rw [htable, hs, ht]
  split
  · rfl
  dsimp only
  split
  · rfl
  unfold relateKnown
  rw [Check.run_bind, show (Check.table.run s).run c = (c.table, c) from rfl]
  dsimp only
  rw [hs, ht]
  show StateT.run ((if readonly && !readonly' then _ else _ : Check _).run s) c = _
  split <;> rfl

/-- Two tuple types that are stored one after the other as the first ones, and not asked about yet. -/
theorem stored_tuples (s : Setting) {es fs : List TupleElement} (h : es ≠ fs) :
    let r := ((Check.intern (.tuple es false)).run s).run {}
    let r' := ((Check.intern (.tuple fs false)).run s).run r.2
    Reachable s r'.2 ∧ r'.2.table.kind r.1 = .tuple es false ∧ r'.2.table.kind r'.1 = .tuple fs false ∧
      r.1 ≠ r'.1 ∧ r'.2.relations[(r.1, r'.1)]? = none := by
  intro r r'
  have hs : r'.2.table.kind r.1 = .tuple es false :=
    TypeTable.kind_of_get? (TypeTable.grows_store.types _ _ TypeTable.store_get?)
  have ht : r'.2.table.kind r'.1 = .tuple fs false := TypeTable.kind_of_get? TypeTable.store_get?
  refine ⟨.step _ (.step _ .start), hs, ht, fun heq => h ?_, Std.HashMap.getElem?_empty⟩
  rw [heq, ht] at hs
  exact (TypeKind.tuple.inj hs).1.symm

/-! ## Answers that need no assumption -/

/-- As long as no pair has an answer, none contradicts what is known. -/
theorem respects_sight (hnew : ∀ pair : TypeId × TypeId, c.relations[pair]? = none) : c.Respects s (c.sight s) where
  program := rfl
  table := .refl c.table
  shapes id sh h := by
    obtain ⟨k, hk, hmembers⟩ := exists_kind_of_shape? h
    have hor := h
    unfold Sight.shape? at hor
    rw [hk, Option.bind_eq_bind, Option.bind_some, if_pos hmembers] at hor
    rcases Option.or_eq_some_iff.1 hor with hstored | ⟨hnone, hcomputed⟩
    · exact .inl hstored
    · have hkind : c.table.kind id = k := Sight.kind_of_kind? hk
      cases k with
      | computed i => exact .inr ⟨hnone, i, hkind, hcomputed⟩
      | _ => cases hcomputed
  answered _ source target _ _ h := nomatch (hnew (source, target)).symm.trans h

theorem height_level (n : Nat) : (Operations.level n).height = n := by
  induction n with
  | zero => rfl
  | succ n ih => exact congrArg (· + 1) ih

/-- There is room for an answer that is known in few enough steps where no step has been taken down. -/
theorem room_standard {n : Nat} (hn : n ≤ Check.maxDepth) : Room Operations.standard.height n 0 := by
  rw [Operations.standard, height_level, Room, Operations.maxLevel]
  rw [Check.maxDepth] at hn ⊢
  omega

/-- The members of a computed object type are there as soon as it is stored. -/
theorem exists_sight_objectOf (sh : Shape) {d : Checker}
    (hgrows : (((Check.objectOf sh).run s).run c).2.table.Grows d.table)
    (hnone : d.shapes[(((Check.objectOf sh).run s).run c).1]? = none) :
    let id := (((Check.objectOf sh).run s).run c).1
    ∃ i, (d.sight s).kind? id = some (.computed i) ∧ d.table.shapes[i.index]? = some sh ∧
      (d.sight s).shape? id = some sh := by
  intro id
  let i := ((TypeTable.addShape sh).run c.table).1
  have hget : d.table.types.get? id.index = some { kind := .computed i } :=
    hgrows.types _ _ TypeTable.store_get?
  have hkind : (d.sight s).kind? id = some (.computed i) := by
    show (d.table.types.get? id.index).map (·.kind) = _
    rw [hget]
    rfl
  have hshape : d.table.shapes[i.index]? = some sh :=
    hgrows.shapes _ _ (TypeTable.addShape_get? (t := c.table))
  refine ⟨i, hkind, hshape, ?_⟩
  rw [Sight.shape?, hkind, Option.bind_eq_bind, Option.bind_some]
  show (d.shapes[id]?).or _ = _
  rw [hnone, Option.none_or]
  exact hshape

/-- Numbers are no strings and strings are no numbers, whatever else is known. -/
theorem verdict_number_string {v : Sight} {source target : TypeId} {k l : TypeKind}
    (hk : v.kind? source = some k) (hl : v.kind? target = some l)
    (hkl : k = .number ∧ l = .string ∨ k = .string ∧ l = .number) (hobject : target ≠ .object) :
    v.verdict 1 source target = some (some false) := by
  have hne : source ≠ target := by
    rintro rfl
    cases hk.symm.trans hl
    rcases hkl with ⟨rfl, h⟩ | ⟨rfl, h⟩ <;> cases h
  have hwaits {id : TypeId} {k : TypeKind} (h : v.kind? id = some k) (hk : k = .number ∨ k = .string) :
      v.waits? id = some false := by
    rw [Sight.waits?, TypeTable.descend, Sight.waitsStep?, h]
    rcases hk with rfl | rfl <;> rfl
  rw [Sight.verdict, Sight.verdict, Option.none_or, Sight.verdictStep, if_neg (by simpa using hne), hk, hl]
  have hsource := Sight.kind_of_kind? hk
  have htarget := Sight.kind_of_kind? hl
  rcases hkl with ⟨rfl, rfl⟩ | ⟨rfl, rfl⟩ <;>
  · simp only [Option.bind_eq_bind, Option.bind_some]
    rw [if_neg (by decide)]
    unfold Sight.apart
    rw [hwaits hk (by decide), hwaits hl (by decide)]
    unfold Sight.known Sight.objects TypeTable.isObjectLike
    simp only [hsource, htarget, Option.bind_eq_bind, Option.bind_some]
    rw [if_neg (by simp), beq_eq_false_iff_ne.2 hobject]
    rfl

/-- Objects with one property each, of the same name, are related as the properties are. -/
theorem verdictStep_computed {v : Sight} (ask : TypeId → TypeId → Option (Option Bool)) {source target
    type type' : TypeId} {name : String} {i j : ShapeId} (hne : source ≠ target)
    (hobject : target ≠ .object) (hij : i ≠ j) (hsource : v.kind? source = some (.computed i))
    (htarget : v.kind? target = some (.computed j))
    (hhas : v.shape? source = some { properties := [{ name, type }] })
    (hwanted : v.shape? target = some { properties := [{ name, type := type' }] }) :
    v.verdictStep ask source target = do return Truth.both (some true) (← ask type type') := by
  have hk := Sight.kind_of_kind? hsource
  have hk' := Sight.kind_of_kind? htarget
  unfold Sight.verdictStep
  rw [if_neg (by simpa using hne), hsource, htarget]
  simp only [Option.bind_eq_bind, Option.bind_some]
  rw [if_neg (by simpa using hij)]
  have hwaits {id : TypeId} {i : ShapeId} (h : v.kind? id = some (.computed i)) :
      v.waits? id = some false := by
    rw [Sight.waits?, TypeTable.descend, Sight.waitsStep?, h]
    rfl
  unfold Sight.apart
  rw [hwaits hsource, hwaits htarget]
  unfold Sight.known Sight.objects TypeTable.isObjectLike
  simp only [hk, hk', Option.bind_eq_bind, Option.bind_some]
  rw [if_neg (by simp), if_neg (by simp), beq_eq_false_iff_ne.2 hobject]
  simp only [Bool.false_eq_true, if_false, if_true]
  unfold Sight.members
  rw [hwanted, Sight.apparent?, hsource]
  simp [TypeKind.hasMembers, hhas, Sight.properties, Shape.property?]
  rcases ask type type' with - | ⟨- | ⟨- | -⟩⟩ <;> rfl

/-- An answer that is left open has a reason. In every state that a check can reach, for all types, if
it is left open whether one can stand where the other is wanted, and nothing was given up because types
nest too deep, then the questions asked meanwhile lead, through open answers only, to two types that
leave theirs open by themselves: one of them has to wait for a substitution, or a text has not the form
of a template, or tuples have elements that do not stand at one place, or what is wanted is an object
type whose members cannot be looked up. A type that has to wait mentions a type parameter, or a tuple
in it spreads a type. -/
theorem traced_of_assignable_none (hc : Reachable s c) (source target : TypeId) :
    let r := ((Operations.standard.assignable source target).run s).run c
    r.1 = none → r.2.depthReported = false →
      r.2.Traced s.program (source, target) ∧
        ∀ id, r.2.table.isDeferred id → r.2.table.isGeneric s.free id ∨ r.2.table.Spreads id := by
  intro r hopen hdepth
  refine ⟨?_, fun id h => TypeTable.isGeneric_or_spreads s.free h⟩
  have hne : source ≠ target := by
    rintro rfl
    have hself : r = (some true, c) := run_assignable_self (Operations.level 9999) source
    rw [hself] at hopen
    cases hopen
  have hanswered : r.2.relations[(source, target)]? = some r.1 :=
    relations_run_assignable hc (Operations.level 9999) hne
  have hr : Reachable s r.2 := .step (Operations.standard.assignable source target) hc
  exact hr.explained hdepth (source, target) (hopen ▸ hanswered)

/-- It is left open whether any number of strings can stand for any number of numbers. Neither tuple
mentions a type parameter: the elements that can be repeated leave it open. -/
theorem traced_of_assignable_none_tuples :
    let s := Setting.strict
    let es : List TupleElement := [⟨.string, .rest, none⟩]
    let fs : List TupleElement := [⟨.number, .rest, none⟩]
    let r := ((Check.intern (.tuple es false)).run s).run {}
    let r' := ((Check.intern (.tuple fs false)).run s).run r.2
    let last := ((Operations.standard.assignable r.1 r'.1).run s).run r'.2
    Reachable s r'.2 ∧ r'.2.table.isGeneric s.free r.1 = false ∧
      r'.2.table.isGeneric s.free r'.1 = false ∧ last.1 = none ∧ last.2.depthReported = false ∧
      last.2.Traced s.program (r.1, r'.1) := by
  intro s es fs r r' last
  obtain ⟨hc, hs, ht, hne, hnew⟩ := stored_tuples s (show es ≠ fs by decide)
  have hdeferred : (r'.2.table.isDeferred r.1 || r'.2.table.isDeferred r'.1) = false := by
    rw [TypeTable.isDeferred, TypeTable.isDeferred, TypeTable.descend, TypeTable.descend,
      TypeTable.waitsStep, TypeTable.waitsStep, hs, ht]
    rfl
  have hlast : last.1 = none ∧ last.2.depthReported = false := by
    obtain ⟨d, hd, hquiet, hopen, hquiet'⟩ :=
      exists_run_relate_of_lt hc (Operations.level 9999) hne hnew (by decide)
    rw [← hd] at hs ht hdeferred
    rw [run_relate_tuple hs ht, if_neg (by decide), if_neg (Bool.eq_false_iff.1 hdeferred),
      if_neg (by decide)] at hopen hquiet'
    exact ⟨hopen, hquiet'.trans hquiet⟩
  have hgeneric {id type : TypeId} {e : ElementKind}
      (hk : r'.2.table.kind id = .tuple [⟨type, e, none⟩] false)
      (hplain : ∀ inner, r'.2.table.genericStep s.free inner type = false) :
      r'.2.table.isGeneric s.free id = false := by
    rw [TypeTable.isGeneric, TypeTable.descend, TypeTable.genericStep, hk]
    show (TypeTable.descend _ _ r'.2.table.types.size type || false) = false
    cases r'.2.table.types.size with
    | zero => rfl
    | succ n => rw [TypeTable.descend, hplain, Bool.or_false]
  have hstring : r'.2.table.kind .string = .string := hc.normal.kind_fixed (i := 5) rfl
  have hnumber : r'.2.table.kind .number = .number := hc.normal.kind_fixed (i := 6) rfl
  obtain ⟨hopen, hquiet⟩ := hlast
  exact ⟨hc, hgeneric hs fun inner => by rw [TypeTable.genericStep, hstring],
    hgeneric ht fun inner => by rw [TypeTable.genericStep, hnumber], hopen, hquiet,
    (traced_of_assignable_none hc r.1 r'.1 hopen hquiet).1⟩

end Typing

end DeclKit

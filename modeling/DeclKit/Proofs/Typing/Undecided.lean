/-
What leaves the question open whether one type can stand where another is wanted.

Two types are compared by what they are made of, and each comparison of parts is a question of its own.
When none of these questions is left open, and nothing in the two types themselves leaves theirs open,
there is an answer. So an open answer always has an excuse, whatever is asked on the way.
-/
import DeclKit.Proofs.Typing.Intersection
import DeclKit.Typing.Assignable

set_option autoImplicit false

namespace DeclKit

namespace Check

/-- While a pair is being related, a step comes to a result of a kind, unless types nest too deep or in
the end there is an excuse for an open answer about the pair. A table that was there before is known. -/
def Decides (s : Setting) (pair : TypeId × TypeId) (t : TypeTable) {α : Type} (x : Check α)
    (P : α → Prop) : Prop :=
  ∀ c : Checker, c.relating.head? = some pair → t.Grows c.table →
    ((x.run s).run c).2.depthReported = false → ¬((x.run s).run c).2.Excused s.program pair →
    P ((x.run s).run c).1

variable {s : Setting} {pair : TypeId × TypeId} {t : TypeTable} {α β : Type}

/-- What has no excuse in the end had none before. -/
theorem Decides.bind {x : Check α} {f : α → Check β} {P : α → Prop} {Q : β → Prop}
    (hx : Decides s pair t x P) (hf : ∀ a, P a → Decides s pair t (f a) Q) :
    Decides s pair t (x >>= f) Q := by
  intro c hpair hgrows hdepth hno
  let mid := ((x.run s).run c).2
  have hrest := (f ((x.run s).run c).1).retains s mid
  have hlater := ((f ((x.run s).run c).1).later s mid).keeps.1
  have hquiet : mid.depthReported = false := by
    rw [← Bool.not_eq_true] at hdepth ⊢
    exact fun h => hdepth (hrest.depthReported h)
  refine hf _ (hx c hpair hgrows hquiet fun h => hno (h.mono hlater hrest)) mid ?_ ?_ hdepth hno
  · rw [(x.retains s c).relating, hpair]
  · exact hgrows.trans (x.later s c).keeps.1

theorem decides_any (x : Check α) : Decides s pair t x fun _ => True := fun _ _ _ _ _ => trivial

theorem Decides.ite {condition : Prop} [Decidable condition] {x y : Check α} {P : α → Prop}
    (hx : condition → Decides s pair t x P) (hy : ¬condition → Decides s pair t y P) :
    Decides s pair t (if condition then x else y) P := by
  split
  · exact hx ‹_›
  · exact hy ‹_›

/-- When the table is looked at, the pair is not undecided by itself. -/
theorem decides_table {f : TypeTable → Check β} {Q : β → Prop}
    (h : ∀ u : TypeTable, t.Grows u → ¬u.Undecided s.program pair.1 pair.2 →
      Decides s pair u (f u) Q) : Decides s pair t (table >>= f) Q := by
  intro c hpair hgrows hdepth hno
  have hlater := ((f c.table).later s c).keeps.1
  exact h c.table hgrows (fun hnow => hno (.inl (hnow.grows hlater))) c hpair (.refl c.table) hdepth hno

end Check

namespace Truth

open Check

variable {s : Setting} {pair : TypeId × TypeId} {t : TypeTable} {α : Type}

/-- What is made of two answers is an answer. -/
theorem isSome_both {a b : Option Bool} (ha : a.isSome) (hb : b.isSome) : (both a b).isSome := by
  obtain ⟨a, rfl⟩ := Option.isSome_iff_exists.1 ha
  obtain ⟨b, rfl⟩ := Option.isSome_iff_exists.1 hb
  cases a <;> cases b <;> rfl

theorem decides_allOf {ask : α → Check (Option Bool)} {acc : Option Bool} {as : List α}
    (hacc : acc.isSome) (h : ∀ a ∈ as, Decides s pair t (ask a) (·.isSome)) :
    Decides s pair t (allOf ask acc as) (·.isSome) := by
  induction as generalizing acc with
  | nil => exact fun _ _ _ _ _ => hacc
  | cons a as ih =>
    refine (h a List.mem_cons_self).bind fun answer hanswer => ?_
    split
    · exact fun _ _ _ _ _ => rfl
    · exact ih (isSome_both hacc hanswer) fun b hb => h b (List.mem_cons_of_mem a hb)

theorem decides_anyOf {ask : α → Check (Option Bool)} {acc : Option Bool} {as : List α}
    (hacc : acc.isSome) (h : ∀ a ∈ as, Decides s pair t (ask a) (·.isSome)) :
    Decides s pair t (anyOf ask acc as) (·.isSome) := by
  induction as generalizing acc with
  | nil => exact fun _ _ _ _ _ => hacc
  | cons a as ih =>
    refine (h a List.mem_cons_self).bind fun answer hanswer => ?_
    have hrest := ih hacc fun b hb => h b (List.mem_cons_of_mem a hb)
    match answer, hanswer with
    | some true, _ => exact fun _ _ _ _ _ => rfl
    | some false, _ => exact hrest

end Truth

namespace Typing

open Check Truth

variable {ops : Operations} {s : Setting} {pair : TypeId × TypeId} {t : TypeTable}

/-- What is found to have an answer has one. -/
theorem decides_pure {answer : Option Bool} (h : answer.isSome) :
    Decides s pair t (pure answer) (·.isSome) := fun _ _ _ _ _ => h

/-- A question that is asked on the way is answered. -/
theorem decides_assignable (source target : TypeId) :
    Decides s pair t (ops.assignable source target) (·.isSome) := by
  intro c hpair _ hdepth hno
  rw [Option.isSome_iff_ne_none]
  exact fun hnone => hno (ops.excuses source target pair s c hpair hdepth hnone)

/-- An answer is put together with those of one more question for each element of a list. -/
theorem decides_foldlM {α : Type} (first second : α → TypeId) {acc : Option Bool}
    (hacc : acc.isSome) (xs : List α) : Decides s pair t (xs.foldlM (fun acc x => do
      return both acc (← ops.assignable (first x) (second x))) acc) (·.isSome) := by
  induction xs generalizing acc with
  | nil => exact decides_pure hacc
  | cons x xs ih =>
    rw [List.foldlM_cons]
    refine Decides.bind (P := fun answer : Option Bool => answer.isSome) ?_ fun _ h => ih h
    exact (decides_assignable _ _).bind fun _ h => decides_pure (isSome_both hacc h)

/-! ## Tuples and signatures -/

theorem decides_relateOpenTuples {es fs : List TupleElement} (hes : ∀ e ∈ es, e.kind.isFixed)
    (hfs : ∃ e ∈ fs, e.kind = .rest) : Decides s pair t (relateOpenTuples ops es fs) (·.isSome) := by
  obtain ⟨rest, hrest, hkind⟩ := hfs
  unfold relateOpenTuples
  split
  · rename_i hnone
    exact absurd (beq_iff_eq.2 hkind) (List.find?_eq_none.1 hnone rest hrest)
  rename_i found _
  rw [if_neg (by simpa using hes)]
  let slot (p : TupleElement × Nat) := ((fs[p.2]?).filter (·.kind != .rest)).getD found
  have hsome : (some true).isSome := rfl
  exact decides_foldlM (fun p => p.1.type) (fun p => (slot p).type) hsome es.zipIdx

theorem decides_relateTuples {source target : TypeId} {es fs : List TupleElement}
    {readonly readonly' : Bool} (hs : t.kind source = .tuple es readonly)
    (ht : t.kind target = .tuple fs readonly') (h : ¬t.Undecided s.program source target) :
    Decides s pair t (relateTuples ops es fs) (·.isSome) := by
  unfold relateTuples
  dsimp only
  split
  · -- were this open, it would be for the elements of the two tuples
    rename_i hopen
    have hopen : (∃ e ∈ es, e.kind.isFixed = false) ∨ ∃ e ∈ fs, e.kind.isFixed = false := by
      simpa using hopen
    refine decides_relateOpenTuples (fun e he => ?_) (Classical.byContradiction fun hrest => ?_)
    · rw [← Bool.not_eq_false]
      exact fun hfixed => h (.unplaced hs ht (.inl ⟨e, he, hfixed⟩))
    · refine h (.unplaced hs ht (hopen.imp id fun hfs => ⟨hfs, fun e he hkind => ?_⟩))
      exact hrest ⟨e, he, hkind⟩
  split
  · exact decides_pure rfl
  · exact decides_allOf rfl fun _ _ => decides_assignable _ _

theorem decides_relateParams {acc : Option Bool} (hacc : acc.isSome)
    (params : List (SignatureParam × SignatureParam)) :
    Decides s pair t (relateParams ops acc params) (·.isSome) := by
  induction params generalizing acc with
  | nil => exact decides_pure hacc
  | cons param params ih =>
    unfold relateParams
    split
    · exact decides_pure hacc
    refine (decides_assignable _ _).bind fun there hthere => ?_
    refine (decides_assignable _ _).bind fun back hback => ?_
    refine ih (isSome_both hacc ?_)
    obtain ⟨there, rfl⟩ := Option.isSome_iff_exists.1 hthere
    obtain ⟨back, rfl⟩ := Option.isSome_iff_exists.1 hback
    cases there <;> cases back <;> rfl

theorem decides_relateSignatures (source target : Signature) :
    Decides s pair t (relateSignatures ops source target) (·.isSome) := by
  unfold relateSignatures
  dsimp only
  split
  · exact decides_pure rfl
  split
  · exact decides_relateParams rfl _
  · exact (decides_assignable _ _).bind fun _ h => decides_relateParams h _

/-! ## Members -/

theorem decides_relateProperties (source : TypeId) {acc : Option Bool} (hacc : acc.isSome)
    (properties : List Property) :
    Decides s pair t (relateProperties ops source properties acc) (·.isSome) := by
  induction properties generalizing acc with
  | nil => exact decides_pure hacc
  | cons property properties ih =>
    unfold relateProperties
    refine (decides_any _).bind fun found _ => ?_
    split
    · split
      · exact decides_pure rfl
      refine (decides_assignable _ _).bind fun answer h => ?_
      split
      · exact decides_pure rfl
      · exact ih (isSome_both hacc h)
    · split
      · exact ih hacc
      · exact decides_pure rfl

theorem decides_relateCalls (available : List Signature) {acc : Option Bool} (hacc : acc.isSome)
    (wanted : List Signature) :
    Decides s pair t (relateCalls ops available wanted acc) (·.isSome) := by
  induction wanted generalizing acc with
  | nil => exact decides_pure hacc
  | cons signature wanted ih =>
    unfold relateCalls
    refine (decides_anyOf rfl fun _ _ => decides_relateSignatures _ _).bind fun found h => ?_
    split
    · exact decides_pure rfl
    · exact ih (isSome_both hacc h)

theorem decides_relateIndexes (source apparent : TypeId) (shape : Option Shape) {acc : Option Bool}
    (hacc : acc.isSome) (indexes : List IndexInfo) :
    Decides s pair t (relateIndexes ops source apparent shape indexes acc) (·.isSome) := by
  induction indexes generalizing acc with
  | nil => exact decides_pure hacc
  | cons index indexes ih =>
    unfold relateIndexes
    refine (decides_any _).bind fun found _ => ?_
    split
    · exact (decides_assignable _ _).bind fun _ h => ih (isSome_both hacc h)
    have hproperties (properties : List Property) : Decides s pair t (properties.foldlM (fun acc p => do
        return both acc (← ops.assignable p.type index.type)) acc) (·.isSome) :=
      decides_foldlM (·.type) (fun _ => index.type) hacc properties
    -- only an object type as written may have properties in the place of an index signature
    refine (decides_any _).bind fun k _ => ?_
    cases shape with
    | none => split <;> exact decides_pure rfl
    | some shape =>
      split
      case h_3 => exact decides_pure rfl
      all_goals exact (hproperties _).bind fun _ h => ih h

/-- Types are compared member by member if the members of the second one can be looked up. -/
theorem decides_relateMembers (source : TypeId) {target : TypeId}
    (h : t.showsMembers s.program target) :
    Decides s pair t (relateMembers ops source target) (·.isSome) := by
  unfold relateMembers
  have hshape : Decides s pair t (ops.shape? target) (·.isSome) := by
    intro c _ hgrows hdepth _
    have hkind : c.table.kind target = t.kind target := hgrows.kind_eq rfl fun heq => by
      simp [TypeTable.showsMembers, heq] at h
    exact ops.shows target s c (by rwa [TypeTable.showsMembers, hkind]) hdepth
  refine hshape.bind fun shape hshape => ?_
  obtain ⟨wanted, rfl⟩ := Option.isSome_iff_exists.1 hshape
  refine (decides_any _).bind fun apparent _ => ?_
  refine (decides_relateProperties apparent rfl wanted.properties).bind fun acc hacc => ?_
  split
  · exact decides_pure rfl
  refine (decides_any _).bind fun found _ => ?_
  refine (decides_relateCalls _ hacc wanted.calls).bind fun acc hacc => ?_
  split
  · exact decides_pure rfl
  refine (decides_relateCalls _ hacc wanted.constructs).bind fun acc hacc => ?_
  split
  · exact decides_pure rfl
  · exact decides_relateIndexes source apparent found hacc wanted.indexes

/-! ## Types -/

/-- Two types neither of which is a union. -/
structure Single (t : TypeTable) (source target : TypeId) : Prop where
  source : ∀ ms, t.kind source ≠ .union ms
  target : ∀ ms, t.kind target ≠ .union ms

variable {source target : TypeId} {u : TypeTable}

theorem Single.kind_source (h : Single t source target) (hgrows : t.Grows u) :
    u.kind source = t.kind source := hgrows.kind_eq rfl (h.source [])

theorem Single.kind_target (h : Single t source target) (hgrows : t.Grows u) :
    u.kind target = t.kind target := hgrows.kind_eq rfl (h.target [])

theorem Single.grows (h : Single t source target) (hgrows : t.Grows u) : Single u source target where
  source := by rw [h.kind_source hgrows]; exact h.source
  target := by rw [h.kind_target hgrows]; exact h.target

theorem decides_relateObjects (hsingle : Single t source target)
    (htuples : ∀ es fs readonly readonly', t.kind source = .tuple es readonly →
      t.kind target ≠ .tuple fs readonly') :
    Decides s (source, target) t (relateObjects ops source target) (·.isSome) := by
  refine decides_table fun u hgrows h => ?_
  split
  · exact decides_pure rfl
  split
  · rename_i hobject
    split
    any_goals exact decides_pure rfl
    refine decides_relateMembers source ?_
    rw [← Bool.not_eq_false]
    refine fun hnone => h (.memberless ?_ hnone)
    rw [TypeTable.comparesMembers, hobject, Bool.true_and]
    have hsource := (hsingle.grows hgrows).source
    rw [← hsingle.kind_source hgrows, ← hsingle.kind_target hgrows] at htuples
    split
    case h_1 hunion => exact absurd hunion (hsource _)
    case h_6 hs ht => exact absurd ht (htuples _ _ _ _ hs)
    case h_7 => rfl
    all_goals simp_all
  · exact decides_pure rfl

theorem decides_relateTemplate {text head : String} {spans : List (TypeId × String)}
    (h : (Template.matchText? text head spans).isSome) :
    Decides s pair t (relateTemplate ops text head spans) (·.isSome) := by
  obtain ⟨pieces, hpieces⟩ := Option.isSome_iff_exists.1 h
  unfold relateTemplate
  rw [hpieces]
  exact (decides_any _).bind fun _ _ => decides_pure rfl

theorem decides_relateKnown (hsingle : Single t source target) :
    Decides s (source, target) t (relateKnown ops source target) (·.isSome) := by
  refine decides_table fun u hgrows h => ?_
  replace hsingle := hsingle.grows hgrows
  have hneither (hs : ∀ es readonly, u.kind source ≠ .tuple es readonly) :
      Decides s (source, target) u (relateObjects ops source target) (·.isSome) :=
    decides_relateObjects hsingle fun es _ readonly _ heq => absurd heq (hs es readonly)
  refine (decides_any _).bind fun nc _ => Decides.ite (fun _ => decides_pure rfl) fun _ => ?_
  split
  case h_7 text head spans hs ht =>
    refine decides_relateTemplate (Option.isSome_iff_ne_none.2 fun hnone => ?_)
    exact h (.misfit hs ht hnone)
  case h_8 =>
    refine .ite (fun _ => decides_pure rfl) fun _ => ?_
    exact (decides_any _).bind fun _ _ => decides_assignable _ _
  case h_9 hs ht =>
    exact .ite (fun _ => decides_pure rfl) fun _ => decides_relateTuples hs ht h
  case h_10 hs ht =>
    refine (decides_any _).bind fun element _ => ?_
    cases element with
    | some element =>
      refine (decides_any _).bind fun _ _ => .ite (fun _ => decides_pure rfl) fun _ => ?_
      exact (decides_any _).bind fun _ _ => decides_assignable _ _
    | none =>
      refine decides_relateObjects hsingle fun _ _ _ _ _ htuple => ?_
      rw [ht] at htuple
      cases htuple
  case h_11 hs ht =>
    refine .ite (fun _ => ?_) fun _ => hneither (by rw [hs]; exact nofun)
    refine (decides_allOf rfl fun _ _ => decides_assignable _ _).bind fun answer _ => ?_
    split
    · exact decides_pure rfl
    · exact decides_relateMembers source (by rw [TypeTable.showsMembers, ht])
  case h_12 htuples _ _ =>
    exact decides_relateObjects hsingle fun es fs _ _ hs ht => htuples es _ fs _ hs ht
  all_goals exact decides_pure rfl

theorem decides_relateIntersection {members : List TypeId}
    (hs : t.kind source = .intersection members) :
    Decides s (source, target) t (relateIntersection ops source target members) (·.isSome) := by
  unfold relateIntersection
  refine (decides_anyOf rfl fun _ _ => decides_assignable _ _).bind fun direct hdirect => ?_
  refine decides_table fun u hgrows h => .ite (fun _ => decides_pure hdirect) fun hmembers => ?_
  refine decides_relateMembers source ?_
  rw [← Bool.not_eq_false]
  refine fun hnone => h (.memberless ?_ hnone)
  have hobject : u.isObjectLike target = true := by
    simp only [Bool.or_eq_true, not_or, Bool.not_eq_true', Bool.not_eq_false] at hmembers
    exact hmembers.2
  rw [TypeTable.comparesMembers, hobject, hgrows.kind_eq hs fun heq => by cases heq]
  rfl

/-- Relating two types that are not undecided by themselves gives an answer, if the questions asked on
the way are answered. -/
theorem decides_relate : Decides s (source, target) t (relate ops source target) (·.isSome) := by
  refine decides_table fun u hgrows h => ?_
  refine .ite (fun _ => decides_pure rfl) fun _ => ?_
  split
  any_goals exact decides_pure rfl
  split
  any_goals exact decides_pure rfl
  case h_4 => exact decides_allOf rfl fun _ _ => decides_assignable _ _
  case h_5 => exact decides_allOf rfl fun _ _ => decides_assignable _ _
  case h_6 => exact decides_anyOf rfl fun _ _ => decides_assignable _ _
  case h_7 => exact decides_relateIntersection ‹_›
  case h_8 =>
    -- a type parameter waits itself
    refine absurd (.waiting (.inl ?_)) h
    rw [TypeTable.isDeferred, TypeTable.descend, TypeTable.waitsStep, ‹u.kind source = .param _›]
  case h_9 =>
    have hsingle : Single u source target :=
      ⟨‹∀ ms, u.kind source = .union ms → False›, ‹∀ ms, u.kind target = .union ms → False›⟩
    refine .ite (fun hwaits => absurd (.waiting ?_) h) fun _ => decides_relateKnown hsingle
    exact Bool.or_eq_true_iff.1 hwaits

/-- Relating two types leaves their question open only with an excuse. -/
theorem excuses_relate (ops : Operations) (source target : TypeId) :
    (relate ops source target).Excuses (source, target) := by
  intro s c hpair hdepth hnone
  refine Classical.byContradiction fun hno => ?_
  have hsome := decides_relate c hpair (.refl c.table) hdepth hno
  rw [hnone] at hsome
  cases hsome

/-! ## Members that are looked up -/

variable {c : Checker}

/-- A written type of a node with members has them. -/
theorem isSome_nodeShape? (ops : Operations) {decl : NodeKey} {n : Node} (hn : s.program.node? decl = some n)
    (hk : n.kind = .objectType ∨ n.kind = .functionType ∨ n.kind = .constructorType) :
    (((nodeShape? ops decl).run s).run c).1.isSome := by
  unfold nodeShape?
  rw [run_bind, show (Check.program.run s).run c = (s.program, c) from rfl]
  dsimp only
  rw [hn]
  dsimp only
  obtain hk | hk | hk := hk <;> rw [hk] <;> rfl

theorem isSome_writtenShape? (ops : Operations) {decl : NodeKey} {n : Node} (hn : s.program.node? decl = some n)
    (hk : n.kind = .objectType ∨ n.kind = .functionType ∨ n.kind = .constructorType) :
    (((writtenShape? ops decl).run s).run c).1.isSome := by
  have hshape := isSome_nodeShape? (c := c) ops hn hk
  unfold writtenShape? rememberWritten
  dsimp only [StateT.run] at hshape ⊢
  split
  · rfl
  split
  · rfl
  · rename_i hnone
    rw [hnone] at hshape
    cases hshape

/-- The members of a type that shows any are put together, unless they are stored with it. -/
theorem isSome_findShape? (ops : Operations) {id : TypeId} (h : c.table.showsMembers s.program id)
    (hstored : ∀ i, c.table.kind id ≠ .computed i) :
    (((findShape? ops id).run s).run c).1.isSome := by
  unfold findShape?
  rw [run_kind_bind]
  unfold TypeTable.showsMembers at h
  cases hk : c.table.kind id with
  | computed i => exact absurd hk (hstored i)
  | interface symbol args => rfl
  | functionValue symbol => rfl
  | written decl m =>
    rw [hk] at h
    obtain ⟨n, hn, hkind⟩ := (Option.any_eq_true _ _).1 h
    dsimp only
    rw [run_bind]
    have hshape : (((writtenShape? ops decl).run s).run c).1.isSome := by
      refine isSome_writtenShape? ops hn ?_
      split at hkind
      · exact .inl ‹_›
      · exact .inr (.inl ‹_›)
      · exact .inr (.inr ‹_›)
      · cases hkind
    split
    · rfl
    · rename_i hnone
      rw [hnone] at hshape
      cases hshape
  | _ =>
    rw [hk] at h
    cases h

/-- The members of a type that shows any are found. -/
theorem isSome_shape? (ops : Operations) (id : TypeId) (s : Setting) (c : Checker)
    (h : c.table.showsMembers s.program id) : (((shape? ops id).run s).run c).1.isSome := by
  unfold shape? lookUp
  dsimp only [StateT.run]
  split
  · rfl
  · rfl
  · rename_i hstored
    have hfound : ((findShape? ops id).run s c).1.isSome := isSome_findShape? ops h hstored
    split
    · rfl
    · rename_i hnone
      rw [hnone] at hfound
      cases hfound

end Typing

end DeclKit

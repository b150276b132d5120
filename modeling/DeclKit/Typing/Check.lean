/-
Steps of a check.

What a step may do to the table of types is limited to the steps of tables, what it may do to the
answers to giving one that was not there, and what it may remember of substitutions to what they make.
An answer may be left open only for a reason that can be traced, no answer may contradict one that needs no
assumption, and what is stored or remembered has to come out the same once more. That is part of what a
step of a check is, so it holds of whatever is put together from steps.
-/
import DeclKit.Judgment
import DeclKit.Typing.Checker

set_option autoImplicit false

namespace DeclKit

/-- A step of a check. -/
structure Check (α : Type) where
  run : Setting → StateM Checker α
  later : ∀ (s : Setting) (c : Checker), c.table.Later s.nullChecks ((run s).run c).2.table
  retains : ∀ (s : Setting) (c : Checker), c.Retains ((run s).run c).2
  faithful : ∀ (s : Setting) (c : Checker),
    c.Faithful s.nullChecks → ((run s).run c).2.Faithful s.nullChecks
  explained : ∀ (s : Setting) (c : Checker),
    c.Explained s.program → ((run s).run c).2.Explained s.program
  respects : ∀ (s : Setting) (v : Sight) (c : Checker), c.Respects s v → (∀ n, c.Unsettled v n) →
    ((run s).run c).2.depthReported = false → ((run s).run c).2.Respects s v
  tidy : ∀ (s : Setting) (c : Checker),
    c.Faithful s.nullChecks → c.Tidy s → ((run s).run c).2.Tidy s

/-- Runs a step on the table. -/
def Checker.store {α : Type} (step : Stored α) : StateM Checker α :=
  fun ⟨table, nodeTypes, aliases, interfaces, written, shapes, instances, evaluations, relations,
      relating, asked, depth, depthReported, site, diagnostics⟩ =>
    let (a, table) := step.run table
    (a, ⟨table, nodeTypes, aliases, interfaces, written, shapes, instances, evaluations, relations,
      relating, asked, depth, depthReported, site, diagnostics⟩)

namespace Check

/-- One step after another. -/
@[always_inline, inline]
protected def bind {α β : Type} (x : Check α) (f : α → Check β) : Check β where
  run s := x.run s >>= fun a => (f a).run s
  later s c := (x.later s c).trans ((f ((x.run s).run c).1).later s ((x.run s).run c).2)
  retains s c := (x.retains s c).trans ((f ((x.run s).run c).1).retains s ((x.run s).run c).2)
  faithful s c hc := (f ((x.run s).run c).1).faithful s ((x.run s).run c).2 (x.faithful s c hc)
  explained s c hc := (f ((x.run s).run c).1).explained s ((x.run s).run c).2 (x.explained s c hc)
  respects s v c hc hun hd := by
    let mid := ((x.run s).run c).2
    have hrest : mid.Retains _ := (f ((x.run s).run c).1).retains s mid
    have hmid := x.respects s v c hc hun (hrest.quiet hd)
    refine (f ((x.run s).run c).1).respects s v mid hmid (fun n pair hpair => hun n pair ?_) hd
    exact (x.retains s c).relating ▸ hpair
  tidy s c hc ht :=
    (f ((x.run s).run c).1).tidy s ((x.run s).run c).2 (x.faithful s c hc) (x.tidy s c hc ht)

@[always_inline]
instance : Monad Check where
  pure a :=
    ⟨fun _ => pure a, fun _ c => .refl c.table, fun _ c => .refl c, fun _ _ hc => hc, fun _ _ hc => hc,
      fun _ _ _ hc _ _ => hc, fun _ _ _ ht => ht⟩
  bind := Check.bind

instance : LawfulMonad Check :=
  LawfulMonad.mk' Check (fun _ => rfl) (fun _ _ => rfl) (fun _ _ _ => rfl)

theorem run_bind {α β : Type} (x : Check α) (f : α → Check β) (s : Setting) (c : Checker) :
    ((x >>= f).run s).run c =
      ((f ((x.run s).run c).1).run s).run ((x.run s).run c).2 := rfl

theorem run_pure {α : Type} (a : α) (s : Setting) (c : Checker) :
    ((pure a : Check α).run s).run c = (a, c) := rfl

/-- What the check reads. -/
def setting : Check Setting :=
  ⟨fun s => pure s, fun _ c => .refl c.table, fun _ c => .refl c, fun _ _ hc => hc, fun _ _ hc => hc,
    fun _ _ _ hc _ _ => hc, fun _ _ _ ht => ht⟩

/-- What the check remembers. -/
def state : Check Checker :=
  ⟨fun _ => get, fun _ c => .refl c.table, fun _ c => .refl c, fun _ _ hc => hc, fun _ _ hc => hc,
    fun _ _ _ hc _ _ => hc, fun _ _ _ ht => ht⟩

/-- A change of nothing but what is remembered beside the table, members, the answers and
substitutions. -/
structure Aside (f : Checker → Checker) : Prop where
  table : ∀ c, (f c).table = c.table
  shapes : ∀ c, (f c).shapes = c.shapes
  written : ∀ c, (f c).written = c.written
  relating : ∀ c, (f c).relating = c.relating
  asked : ∀ c, (f c).asked = c.asked
  relations : ∀ c, (f c).relations = c.relations
  instances : ∀ c, (f c).instances = c.instances
  depthReported : ∀ c, c.depthReported → (f c).depthReported

theorem Aside.retains {f : Checker → Checker} (h : Aside f) (c : Checker) : c.Retains (f c) :=
  .of_eq (h.depthReported c) (h.relating c) (h.asked c ▸ List.Subset.refl _) (h.relations c)

/-- Changes what the check remembers beside the table, members, the answers and substitutions. -/
def update (f : Checker → Checker)
    (h : Aside f := by
      exact ⟨fun _ => rfl, fun _ => rfl, fun _ => rfl, fun _ => rfl, fun _ => rfl, fun _ => rfl,
        fun _ => rfl, fun _ h => h⟩) :
    Check Unit where
  run _ := modify f
  later s c := by
    show c.table.Later s.nullChecks (f c).table
    rw [h.table]
    exact .refl c.table
  retains _ c := h.retains c
  faithful s c hc := by
    refine hc.later ?_ (h.instances c) (h.depthReported c)
    show c.table.Later s.nullChecks (f c).table
    rw [h.table]
    exact .refl c.table
  explained _ c hc :=
    hc.mono (h.table c ▸ .refl c.table) (h.depthReported c) (h.retains c).asked (h.relations c)
  respects _ _ c hc _ _ :=
    hc.of_eq (h.table c ▸ .refl c.table) (h.shapes c) (h.relations c)
  tidy _ c _ ht := ht.of_eq (h.table c) (h.depthReported c) (h.written c) (h.shapes c) (h.instances c)

/-- A step comes to a result that was known, unless types nest too deep; at a depth with room for it they
do not. Of the pairs that are being related meanwhile less was known. -/
def Follows {α : Type} (s : Setting) (v : Sight) (n : Nat) (room : Nat → Prop) (x : Check α)
    (known : Option α) : Prop :=
  ∀ c : Checker, c.Respects s v → c.Unsettled v n → ∀ a, known = some a →
    let r := (x.run s).run c
    (r.2.depthReported = false → r.1 = a ∧ r.2.Respects s v) ∧
      (room c.depth → c.depthReported = false → r.2.depthReported = false ∧ r.2.depth = c.depth)

/-- A step finds what was there and changes nothing, unless types nest too deep. -/
def Recalls {α : Type} (v : Sight) (room : Prop) (x : Check α) (a : α) : Prop :=
  ∀ (s : Setting) (c : Checker), c.Sees s v → room ∨ ((x.run s).run c).2.depthReported = false →
    (x.run s).run c = (a, c)

theorem Recalls.imp {α : Type} {v : Sight} {P Q : Prop} {x : Check α} {a : α} (h : x.Recalls v P a)
    (hQ : Q → P) : x.Recalls v Q a :=
  fun s c hc hroom => h s c hc (hroom.imp_left hQ)

theorem Recalls.follows {α : Type} {s : Setting} {v : Sight} {n : Nat} {room : Nat → Prop} {x : Check α}
    {a : α} (h : ∀ depth, x.Recalls v (room depth) a) : x.Follows s v n room (some a) := by
  intro c hc _ b hb
  obtain rfl := Option.some.inj hb
  refine ⟨fun hd => ?_, fun hdepth hquiet => ?_⟩
  · rw [h c.depth s c hc.toSees (.inr hd)]
    exact ⟨rfl, hc⟩
  · rw [h c.depth s c hc.toSees (.inl hdepth)]
    exact ⟨hquiet, rfl⟩

/-- What is asked about a pair of types comes to what is known of the pair, if what is asked about
other pairs does. -/
def Answers (room : Nat → Nat → Prop) (pair : TypeId × TypeId) (ask : Check (Option Bool)) : Prop :=
  ∀ (s : Setting) (v : Sight) (n : Nat),
    ask.Follows s v n (room n) (v.verdictStep (v.verdict n) pair.1 pair.2)

/-- While a pair is being related, a step leaves an answer open only with an excuse, unless types nest
too deep. -/
def Excuses (pair : TypeId × TypeId) (ask : Check (Option Bool)) : Prop :=
  ∀ (s : Setting) (c : Checker), c.relating.head? = some pair →
    ((ask.run s).run c).2.depthReported = false → ((ask.run s).run c).1 = none →
    ((ask.run s).run c).2.Excused s.program pair

/-- Answers whether a pair of types is related. What was answered before is answered again, and a pair
that is met again while it is being related is taken to hold. -/
def answer (pair : TypeId × TypeId) (ask : Check (Option Bool)) (h : ask.Excuses pair)
    {room : Nat → Nat → Prop} (hknown : ask.Answers room pair) : Check (Option Bool) where
  run s c := match c.relations[pair]? with
    | some answer => (answer, c.askPair pair)
    | none =>
      if c.relating.contains pair then (some true, c)
      else
        let (answer, c) := (ask.run s).run ((c.askPair pair).beginPair pair)
        (answer, c.answerPair pair answer)
  later s c := by
    dsimp only [StateT.run]
    split
    · exact .refl c.table
    · split
      · exact .refl c.table
      · exact ask.later s ((c.askPair pair).beginPair pair)
  retains s c := by
    dsimp only [StateT.run]
    split
    · exact .askPair c pair
    · rename_i hnone
      split
      · exact .refl c
      · rename_i hpair
        have hfree : pair ∉ c.relating := by simpa using hpair
        have hbegun := ask.retains s ((c.askPair pair).beginPair pair)
        refine (Checker.Retains.askPair c pair).trans ?_
        exact .answerPair (c := c.askPair pair) hnone hfree hbegun _
  faithful s c hc := by
    dsimp only [StateT.run]
    split
    · exact hc.later (.refl _) rfl fun h => h
    · split
      · exact hc
      · have hbegun : ((c.askPair pair).beginPair pair).Faithful s.nullChecks :=
          hc.later (.refl _) rfl fun h => h
        exact (ask.faithful s _ hbegun).later (.refl _) rfl fun h => h
  explained s c hc := by
    have hasked : c.asked ⊆ (c.askPair pair).asked := List.subset_append_right _ _
    dsimp only [StateT.run]
    split
    · exact hc.mono (.refl c.table) id hasked rfl
    · rename_i hnone
      split
      · exact hc
      · have hbegun : ((c.askPair pair).beginPair pair).Explained s.program :=
          hc.mono (.refl c.table) id hasked rfl
        refine (ask.explained s _ hbegun).answerPair ?_ (h s _ rfl)
        exact (ask.retains s _).pending pair List.mem_cons_self hnone
  respects s v c hc hun hd := by
    dsimp only [StateT.run] at hd ⊢
    split at hd
    · exact hc.of_eq (.refl c.table) rfl rfl
    · split at hd
      · rename_i hpair
        rw [if_pos hpair]
        exact hc
      · rename_i hpair
        rw [if_neg hpair]
        have hbegun := hc.beginPair pair
        by_cases hsettled : ∃ n known, v.verdict n pair.1 pair.2 = some known
        · -- what is known of the pair goes back to pairs of which it is known in fewer steps
          obtain ⟨n, known, hn⟩ := hsettled
          obtain ⟨k, hk, hnone, hstep⟩ := Sight.exists_verdictStep hn
          have hless := (hun n).beginPair (Nat.le_of_lt hk) hnone
          obtain ⟨hfound, hend⟩ := (hknown s v k _ hbegun hless known hstep).1 hd
          refine hend.answerPair fun m other hm => ?_
          refine hfound.trans (Option.some.inj ?_)
          exact (Sight.verdict_mono (Nat.le_max_left n m) hn).symm.trans
            (Sight.verdict_mono (Nat.le_max_right n m) hm)
        · have hnone (n : Nat) : v.verdict n pair.1 pair.2 = none :=
            Option.eq_none_iff_forall_ne_some.2 fun known hn => hsettled ⟨n, known, hn⟩
          have hend := ask.respects s v _ hbegun
            (fun n => (hun n).beginPair (Nat.le_refl n) (hnone n)) hd
          exact hend.answerPair fun n known hn => absurd ⟨n, known, hn⟩ hsettled
  tidy s c hc ht := by
    dsimp only [StateT.run]
    split
    · exact ht.of_eq rfl id rfl rfl rfl
    · split
      · exact ht
      · have hbegun : ((c.askPair pair).beginPair pair).Faithful s.nullChecks :=
          hc.later (.refl _) rfl fun h => h
        have htidy := ask.tidy s _ hbegun (ht.of_eq rfl id rfl rfl rfl)
        exact htidy.of_eq rfl id rfl rfl rfl

/-- The answer about a pair is what was known of it. -/
theorem follows_answer {pair : TypeId × TypeId} {ask : Check (Option Bool)} {h : ask.Excuses pair}
    {room : Nat → Nat → Prop} {hknown : ask.Answers room pair} {outer : Nat → Prop} (s : Setting)
    (v : Sight) (n : Nat) (hroom : ∀ depth k, outer depth → k < n → room k depth) :
    (answer pair ask h hknown).Follows s v n outer (v.verdict n pair.1 pair.2) := by
  intro c hc hun known hn
  unfold answer
  dsimp only [StateT.run]
  split
  · rename_i hanswer
    exact ⟨fun _ => ⟨hc.answered n _ _ _ _ hanswer hn, hc.of_eq (.refl c.table) rfl rfl⟩,
      fun _ hquiet => ⟨hquiet, rfl⟩⟩
  · split
    · rename_i hpair
      cases (hun pair (by simpa using hpair)).symm.trans hn
    · obtain ⟨k, hk, hnone, hstep⟩ := Sight.exists_verdictStep hn
      have hless := hun.beginPair (Nat.le_of_lt hk) hnone
      obtain ⟨hvalue, hquiet⟩ := hknown s v k _ (hc.beginPair pair) hless known hstep
      refine ⟨fun hd => ?_, fun houter => hquiet (hroom _ k houter hk)⟩
      obtain ⟨hfound, hend⟩ := hvalue hd
      refine ⟨hfound, hend.answerPair fun m other hm => hfound.trans (Option.some.inj ?_)⟩
      exact (Sight.verdict_mono (Nat.le_max_left n m) hn).symm.trans
        (Sight.verdict_mono (Nat.le_max_right n m) hm)

/-- An open answer about a pair is an excuse for the pair that is being related meanwhile. -/
theorem excuses_answer {pair : TypeId × TypeId} {ask : Check (Option Bool)} (h : ask.Excuses pair)
    {room : Nat → Nat → Prop} {hknown : ask.Answers room pair} (outer : TypeId × TypeId) :
    (answer pair ask h hknown).Excuses outer := by
  intro s c houter
  have hasked : (outer, pair) ∈ (c.askPair pair).asked := by
    unfold Checker.askPair
    rw [houter]
    exact List.mem_cons_self
  unfold answer
  dsimp only [StateT.run]
  split
  · rename_i known hknown
    rintro - rfl
    exact .inr ⟨pair, hasked, hknown⟩
  · split
    · exact fun _ hnone => nomatch hnone
    · rintro - hnone
      have hlast : ((ask.run s).run ((c.askPair pair).beginPair pair)).1 = none := hnone
      refine .inr ⟨pair, (ask.retains s _).asked hasked, ?_⟩
      show (Std.HashMap.insert _ pair _)[pair]? = some none
      rw [Std.HashMap.getElem?_insert_self]
      exact congrArg some hlast

/-- A step gives what becomes of a type under a substitution. -/
def Makes (m : MapperId) (id : TypeId) (x : Check TypeId) : Prop :=
  ∀ (s : Setting) (c : Checker), c.Faithful s.nullChecks →
    ((x.run s).run c).2.depthReported = false →
    ((x.run s).run c).2.table.Instance s.nullChecks m id ((x.run s).run c).1

/-- A step gives a type itself, if it turns out to be a type that stays. -/
def Spares (id : TypeId) (x : Check TypeId) : Prop :=
  ∀ (s : Setting) (c : Checker), c.Faithful s.nullChecks → c.Tidy s →
    ((x.run s).run c).2.depthReported = false →
    ((x.run s).run c).2.table.Spares s id ((x.run s).run c).1

/-- What becomes of a type under a substitution, remembered. -/
def remember (id : TypeId) (m : MapperId) (ask : Check TypeId) (h : ask.Makes m id)
    (hspares : ask.Spares id) : Check TypeId where
  run s c := match c.instances[(id, m)]? with
    | some r => (r, c)
    | none =>
      let (r, c) := (ask.run s).run c
      (r, c.remember id m r)
  later s c := by
    dsimp only [StateT.run]
    split
    · exact .refl c.table
    · exact ask.later s c
  retains s c := by
    dsimp only [StateT.run]
    split
    · exact .refl c
    · exact (ask.retains s c).trans (.of_eq (fun h => h) rfl (List.Subset.refl _) rfl)
  faithful s c hc := by
    dsimp only [StateT.run]
    split
    · exact hc
    · exact (ask.faithful s c hc).remember (h s c hc)
  explained s c hc := by
    dsimp only [StateT.run]
    split
    · exact hc
    · exact (ask.explained s c hc).mono (.refl _) (fun h => h) (List.Subset.refl _) rfl
  respects s v c hc hun hd := by
    dsimp only [StateT.run] at hd ⊢
    split at hd
    · exact hc
    · exact (ask.respects s v c hc hun hd).of_eq (.refl _) rfl rfl
  tidy s c hc ht := by
    dsimp only [StateT.run]
    split
    · exact ht
    · exact (ask.tidy s c hc ht).remember (hspares s c hc ht)

/-- A step finds the members of a type, if any, and tells of a written type whether it has any. -/
def Tells (id : TypeId) (x : Check (Option Shape)) : Prop :=
  ∀ (s : Setting) (c : Checker), c.Faithful s.nullChecks → c.Tidy s →
    ((x.run s).run c).2.depthReported = false → c.table.Tells s.program id ((x.run s).run c).1

/-- Members of a type, remembered. Those of a computed one are in the table already. -/
def lookUp (id : TypeId) (ask : Check (Option Shape)) (h : ask.Tells id) : Check (Option Shape) where
  run s c := match c.shapes[id]?, c.table.kind id with
    | some sh, _ => (some sh, c)
    | none, .computed i => (some (c.table.shape i), c)
    | none, _ => match (ask.run s).run c with
      | (some sh, c) => (some sh, c.rememberShape id sh)
      | (none, c) => (none, c)
  later s c := by
    dsimp only [StateT.run]
    have h := ask.later s c
    dsimp only [StateT.run] at h
    split
    · exact .refl c.table
    · exact .refl c.table
    · split <;> rename_i heq <;> rw [heq] at h <;> exact h
  retains s c := by
    dsimp only [StateT.run]
    have h := ask.retains s c
    dsimp only [StateT.run] at h
    split
    · exact .refl c
    · exact .refl c
    · split <;> rename_i heq <;> rw [heq] at h
      · exact h.trans (.of_eq (fun h => h) rfl (List.Subset.refl _) rfl)
      · exact h
  faithful s c hc := by
    dsimp only [StateT.run]
    have h := ask.faithful s c hc
    dsimp only [StateT.run] at h
    split
    · exact hc
    · exact hc
    · split <;> rename_i heq <;> rw [heq] at h
      · exact h.later (.refl _) rfl fun h => h
      · exact h
  explained s c hc := by
    dsimp only [StateT.run]
    have h := ask.explained s c hc
    dsimp only [StateT.run] at h
    split
    · exact hc
    · exact hc
    · split <;> rename_i heq <;> rw [heq] at h
      · exact h.mono (.refl _) (fun h => h) (List.Subset.refl _) rfl
      · exact h
  respects s v c hc hun hd := by
    dsimp only [StateT.run] at hd ⊢
    have h := ask.respects s v c hc hun
    dsimp only [StateT.run] at h
    split at hd
    · exact hc
    · exact hc
    · rename_i hnone hcomputed
      split at hd <;> rename_i heq <;> rw [heq] at h
      · -- what was known is known now, so it is not looked up again
        refine (h hd).rememberShape (fun sh hsh => ?_) _
        rcases hc.shapes id sh hsh with hsome | ⟨-, i, hk, -⟩
        · cases hnone.symm.trans hsome
        · exact hcomputed i hk
      · exact h hd
  tidy s c hc ht := by
    dsimp only [StateT.run]
    have hlater := ask.later s c
    have htidy := ask.tidy s c hc ht
    have htells := h s c hc ht
    dsimp only [StateT.run] at hlater htidy htells
    split
    · exact ht
    · exact ht
    · split <;> rename_i heq <;> rw [heq] at hlater htidy htells
      · exact htidy.rememberShape fun hd => (htells hd).grows hlater.keeps.1
      · exact htidy

/-- Members that are known are recalled. -/
theorem run_lookUp_of_hasShape {id : TypeId} {sh : Shape} {ask : Check (Option Shape)}
    {htells : ask.Tells id} {s : Setting} {c : Checker} (h : c.HasShape id sh) :
    ((lookUp id ask htells).run s).run c = (some sh, c) := by
  unfold lookUp
  dsimp only [StateT.run]
  rcases h with h | ⟨h, i, hk, hi⟩
  · rw [h]
  · rw [h, hk]
    dsimp only
    rw [TypeTable.shape, Array.getD_eq_getD_getElem?, hi, Option.getD_some]

/-- Members that are remembered tell the same as those that are looked for. -/
theorem tells_lookUp {id : TypeId} {ask : Check (Option Shape)} (h : ask.Tells id) :
    (lookUp id ask h).Tells id := by
  intro s c hc ht hd
  have htells := h s c hc ht
  unfold lookUp at hd ⊢
  dsimp only [StateT.run] at hd htells ⊢
  split at hd
  · rename_i hsh
    exact ht.shapes hd id _ hsh
  · rename_i hk
    refine ⟨fun _ => ?_, fun decl m hk' => nomatch hk.symm.trans hk'⟩
    exact Option.isSome_iff_exists.2 ⟨_, TypeTable.get?_of_kind hk (by simp)⟩
  · split at hd <;> rename_i heq <;> rw [heq] at htells <;> exact htells hd

theorem makes_remember {id : TypeId} {m : MapperId} {ask : Check TypeId} (h : ask.Makes m id)
    (hspares : ask.Spares id) : (remember id m ask h hspares).Makes m id := by
  intro s c hc
  unfold remember
  dsimp only [StateT.run]
  split
  · rename_i r hr
    exact fun hd => hc.instances hd id m r hr
  · exact h s c hc

/-- What is remembered of a type that stays is the type. -/
theorem spares_remember {id : TypeId} {m : MapperId} {ask : Check TypeId} (h : ask.Makes m id)
    (hspares : ask.Spares id) : (remember id m ask h hspares).Spares id := by
  intro s c hc ht
  unfold remember
  dsimp only [StateT.run]
  split
  · rename_i r hr
    exact fun hd => ht.instances hd id m r hr
  · exact hspares s c hc ht

/-- The members of a written type under no substitution, remembered. -/
def rememberWritten (decl : NodeKey) (ask : Check (Option Shape))
    (h : ∀ (s : Setting) (c : Checker),
      ((ask.run s).run c).1.any (·.isEmpty) = s.program.writesNothing decl) : Check (Option Shape) where
  run s c := match c.written[decl]? with
    | some sh => (some sh, c)
    | none => match (ask.run s).run c with
      | (some sh, c) => (some sh, c.rememberWritten decl sh)
      | (none, c) => (none, c)
  later s c := by
    have h := ask.later s c
    dsimp only [StateT.run] at h ⊢
    split
    · exact .refl c.table
    · split <;> rename_i heq <;> rw [heq] at h <;> exact h
  retains s c := by
    have h := ask.retains s c
    dsimp only [StateT.run] at h ⊢
    split
    · exact .refl c
    · split <;> rename_i heq <;> rw [heq] at h
      · exact h.trans (.of_eq (fun h => h) rfl (List.Subset.refl _) rfl)
      · exact h
  faithful s c hc := by
    have h := ask.faithful s c hc
    dsimp only [StateT.run] at h ⊢
    split
    · exact hc
    · split <;> rename_i heq <;> rw [heq] at h
      · exact h.later (.refl _) rfl fun h => h
      · exact h
  explained s c hc := by
    have h := ask.explained s c hc
    dsimp only [StateT.run] at h ⊢
    split
    · exact hc
    · split <;> rename_i heq <;> rw [heq] at h
      · exact h.mono (.refl _) (fun h => h) (List.Subset.refl _) rfl
      · exact h
  respects s v c hc hun hd := by
    have h := ask.respects s v c hc hun
    dsimp only [StateT.run] at h hd ⊢
    split at hd
    · exact hc
    · split at hd <;> rename_i heq <;> rw [heq] at h
      · exact (h hd).of_eq (.refl _) rfl rfl
      · exact h hd
  tidy s c hc ht := by
    have htidy := ask.tidy s c hc ht
    have hwritten := h s c
    dsimp only [StateT.run] at htidy hwritten ⊢
    split
    · exact ht
    · split <;> rename_i heq <;> rw [heq] at htidy hwritten
      · exact htidy.rememberWritten hwritten
      · exact htidy

/-- What is remembered of them tells the same. -/
theorem any_rememberWritten {decl : NodeKey} (ask : Check (Option Shape))
    (h : ∀ (s : Setting) (c : Checker),
      ((ask.run s).run c).1.any (·.isEmpty) = s.program.writesNothing decl) {s : Setting} {c : Checker}
    (ht : c.Tidy s) :
    (((rememberWritten decl ask h).run s).run c).1.any (·.isEmpty) = s.program.writesNothing decl := by
  have hwritten := h s c
  unfold rememberWritten
  dsimp only [StateT.run] at hwritten ⊢
  split
  · rename_i sh hsh
    exact ht.written decl sh hsh
  · split <;> rename_i heq <;> rw [heq] at hwritten <;> exact hwritten

/-- The program. -/
def program : Check Program := return (← setting).program

/-- `null` and `undefined` are types of their own. -/
def nullChecks : Check Bool := return (← setting).nullChecks

/-! ## What steps give -/

/-- The results of a step of a check of a program, wherever it starts. -/
def Gives (p : Program) {α : Type} (x : Check α) (P : α → Prop) : Prop :=
  ∀ (s : Setting) (c : Checker), s.program = p → P ((x.run s).run c).1

/-- What the steps of a check of a program give. -/
def judgment (p : Program) : Judgment Check where
  gives := Gives p
  pure h _ _ _ := h
  bind hx hf s c hs := hf _ (hx s c hs) s _ hs

theorem program_gives (p : Program) : (judgment p).gives program (· = p) :=
  fun _ _ hs => hs

theorem gives_any {α : Type} (p : Program) (x : Check α) : (judgment p).holds x :=
  fun _ _ _ => trivial

/-! ## The table -/

/-- The table as it is now. -/
def table : Check TypeTable := return (← state).table

/-- Runs a step on the table, which is told whether `null` and `undefined` are types of their own. -/
def storedBy {α : Type} (step : Bool → Stored α)
    (h : ∀ nullChecks, (step nullChecks).Allowed nullChecks := by intro _; constructor) :
    Check α where
  run s := Checker.store (step s.nullChecks)
  later s c := .step (.refl c.table) (h s.nullChecks)
  retains _ _ := .of_eq id rfl (List.Subset.refl _) rfl
  faithful s c hc := hc.later (.step (.refl c.table) (h s.nullChecks)) rfl id
  explained s c hc := by
    exact hc.mono ((h s.nullChecks).keeps c.table).1 id (List.Subset.refl _) rfl
  respects s _ c hc _ _ := hc.of_eq ((h s.nullChecks).keeps c.table).1 rfl rfl
  tidy s c hc ht := ht.stored hc (h s.nullChecks)

/-- Runs a step on the table that is the same with and without null checks. -/
def stored {α : Type} (step : Stored α)
    (h : ∀ nullChecks, step.Allowed nullChecks := by intro _; constructor) : Check α :=
  storedBy (fun _ => step) h

/-- The kind of a type. -/
def kind (id : TypeId) : Check TypeKind := return (← table).kind id

/-- Stores a type of a kind without a normal form of its own. -/
def intern (k : TypeKind) (h : k.isPlain := by exact Eq.refl true) : Check TypeId :=
  stored (TypeTable.intern k) fun _ => .intern h

/-- A string literal type. -/
def stringLiteral (s : String) : Check TypeId := intern (.stringLiteral s)

/-- A number literal type. -/
def numberLiteral (d : Double) : Check TypeId := intern (.numberLiteral d.unsignedZero)

/-- The union of types. -/
def union (ids : List TypeId) : Check TypeId := storedBy fun nc => TypeTable.union nc ids

/-- A type that may also be `undefined`. -/
def withUndefined (id : TypeId) : Check TypeId := storedBy fun nc => TypeTable.withUndefined nc id

/-- A template literal type. -/
def template (head : String) (spans : List (TypeId × String)) : Check TypeId :=
  storedBy fun nc => TypeTable.template nc head spans

/-- The letter map of a type. -/
def lettered (m : LetterMap) (id : TypeId) : Check TypeId :=
  storedBy fun nc => TypeTable.lettered nc m id

/-- A step tells at least which of the members of an intersection are superfluous. -/
def Trims (ms : List TypeId) (x : Check (List TypeId)) : Prop :=
  ∀ (s : Setting) (c : Checker), c.Faithful s.nullChecks → c.Tidy s →
    (∀ m ∈ ms, (c.table.kind m).inIntersection) → ((x.run s).run c).2.depthReported = false →
    c.table.Reduced s.program (.intersection (ms.filter fun m => !((x.run s).run c).1.contains m))

/-- The intersection of types. Unions among them are left to `expand`, and `drop` is asked which of the
members that go together are superfluous. -/
def intersection (ids : List TypeId) (expand : TypeTable.UnionSplit TypeId → Check TypeId)
    (drop : List TypeId → Check (List TypeId)) (h : ∀ ms, (drop ms).Trims ms) : Check TypeId where
  run s c := match c.table.meeting s.nullChecks ids with
    | .type id => (id, c)
    | .expand split => ((expand split).run s).run c
    | .members ms =>
      let (superfluous, c) := ((drop ms).run s).run c
      (Checker.store (TypeTable.meet (ms.filter fun m => !superfluous.contains m))).run c
  later s c := by
    dsimp only [StateT.run]
    split
    · exact .refl c.table
    · exact (expand _).later s c
    · rename_i ms hms
      exact .meet (.refl c.table) hms ((drop ms).later s c) List.filter_sublist
  retains s c := by
    dsimp only [StateT.run]
    split
    · exact .refl c
    · exact (expand _).retains s c
    · exact ((drop _).retains s c).trans (.of_eq id rfl (List.Subset.refl _) rfl)
  faithful s c hc := by
    dsimp only [StateT.run]
    split
    · exact hc
    · exact (expand _).faithful s c hc
    · rename_i ms hms
      have hdrop := (drop ms).faithful s c hc
      refine ⟨?_, fun hd id m r hr => (hdrop.instances hd id m r hr).meet _⟩
      exact hc.table.trans (.meet (.refl c.table) hms ((drop ms).later s c) List.filter_sublist)
  explained s c hc := by
    dsimp only [StateT.run]
    split
    · exact hc
    · exact (expand _).explained s c hc
    · exact ((drop _).explained s c hc).mono (Stored.grows_meet _ _) id (List.Subset.refl _) rfl
  respects s v c hc hun hd := by
    dsimp only [StateT.run] at hd ⊢
    split at hd
    · exact hc
    · exact (expand _).respects s v c hc hun hd
    · exact ((drop _).respects s v c hc hun hd).of_eq (Stored.grows_meet _ _) rfl rfl
  tidy s c hc ht := by
    dsimp only [StateT.run]
    split
    · exact ht
    · exact (expand _).tidy s c hc ht
    · rename_i ms hms
      have hn : c.table.Normal s.nullChecks := hc.table.keeps.2 (TypeTable.normal_initial s.nullChecks)
      have hplain := (TypeTable.together_of_meeting hn hms).plain
      have hgrows := ((drop ms).later s c).keeps.1
      have hkept : ∀ m ∈ ms.filter fun m => !(((drop ms).run s).run c).1.contains m,
          (c.table.kind m).inIntersection := fun m hm => hplain m (List.mem_filter.1 hm).1
      refine ((drop ms).tidy s c hc ht).met ((drop ms).faithful s c hc) (fun m hm => ?_) fun hd => ?_
      · rw [hgrows.kind_eq_of rfl (hkept m hm)]
        exact hkept m hm
      · exact (h ms s c hc ht hplain hd).intersection_grows hkept hgrows

/-- A step that is told the members of a stored intersection gives that intersection, without a name. -/
def Restores (ids : List TypeId) (x : Check TypeId) : Prop :=
  ∀ (s : Setting) (c : Checker), c.Faithful s.nullChecks → c.Tidy s →
    (∃ i, c.table.Stores i (.intersection ids)) → (∀ m ∈ ids, c.table.isComputed m = false) →
    ((x.run s).run c).2.depthReported = false →
    ((x.run s).run c).2.table.types.get? ((x.run s).run c).1.index = some { kind := .intersection ids }

/-- An object type of a computed shape. -/
def objectOf (s : Shape) : Check TypeId := stored (TypeTable.objectOf s)

/-- The substitution of given pairs. -/
def makeMapper (pairs : List (SymbolId × TypeId)) : Check (Option MapperId) :=
  stored (TypeTable.makeMapper pairs)

/-- A substitution with one more pair. -/
def extendMapper (m : Option MapperId) (s : SymbolId) (t : TypeId) : Check (Option MapperId) :=
  stored (TypeTable.extendMapper m s t)

/-- A substitution for the type parameters that a node uses. -/
def restrictMapper (decl : NodeKey) (m : Option MapperId) : Check (Option MapperId) := do
  stored (TypeTable.restrictMapper m ((← setting).free decl))

/-- What the table becomes when a written type is stored. -/
theorem later_written (nullChecks : Bool) (decl : NodeKey) (m : Option MapperId) (free : List SymbolId)
    (t : TypeTable) :
    let r := (TypeTable.restrictMapper m free).run t
    t.Later nullChecks ((TypeTable.intern (.written decl r.1)).run r.2).2 :=
  .written decl _ (.step (.refl t) (.restrictMapper m free))

/-- A written type under a substitution, which is restricted to what the type uses. -/
def written (decl : NodeKey) (m : Option MapperId) : Check TypeId where
  run s := Checker.store do
    TypeTable.intern (.written decl (← TypeTable.restrictMapper m (s.free decl)))
  later s c := later_written s.nullChecks decl m (s.free decl) c.table
  retains _ _ := .of_eq id rfl (List.Subset.refl _) rfl
  faithful s c hc :=
    hc.later (later_written s.nullChecks decl m (s.free decl) c.table) rfl id
  explained _ c hc :=
    hc.mono (TypeTable.grows_makeMapper.trans TypeTable.grows_store) id (List.Subset.refl _) rfl
  respects _ _ c hc _ _ := hc.of_eq (TypeTable.grows_makeMapper.trans TypeTable.grows_store) rfl rfl
  tidy s c hc ht := by
    have hallowed : (TypeTable.restrictMapper m (s.free decl)).Allowed s.nullChecks :=
      .restrictMapper m (s.free decl)
    have hrestricted := ht.stored hc hallowed
    have hfaithful := hc.later (d := c.withTable _) (.step (.refl c.table) hallowed) rfl id
    exact hrestricted.storedWritten hfaithful (TypeTable.restricted_restrictMapper decl m)

/-- The type as reached through an alias. -/
def attachAlias (id : TypeId) (a : AliasRef) : Check TypeId := stored (TypeTable.attachAlias id a)

/-- The type mentions a type parameter. -/
def isGeneric (id : TypeId) : Check Bool := return (← table).isGeneric (← setting).free id

/-- The type has to wait for a substitution. -/
def isDeferred (id : TypeId) : Check Bool := return (← table).isDeferred id

/-! ## Reports and depth -/

/-- Reports a finding, unless it lies in the built-in library. -/
def report (kind : DiagnosticKind) (span : Span) (args : List String) : Check Unit := do
  if ((← program).source span.source).isDefaultLib then return
  let d := if args.isEmpty then Diagnostic.plain kind (some span)
    else Diagnostic.detailed kind (some span) args
  update fun c => { c with diagnostics := c.diagnostics.push d }

/-- How deep substitutions and relations may nest. -/
def maxDepth : Nat := 50

theorem aside_tooDeep : Aside Checker.tooDeep :=
  ⟨fun _ => rfl, fun _ => rfl, fun _ => rfl, fun _ => rfl, fun _ => rfl, fun _ => rfl, fun _ => rfl,
    fun _ _ => rfl⟩

/-- Reports, once, that types nest too deep. -/
def reportDepth : Check Unit := do
  let c ← state
  if c.depthReported then return
  else update Checker.tooDeep aside_tooDeep

/-- Gives `fallback` where types nest too deep. -/
def giveUp {α : Type} (fallback : α) : Check α := do
  reportDepth
  return fallback

theorem depthReported_giveUp {α : Type} (fallback : α) (s : Setting) (c : Checker) :
    (((giveUp fallback).run s).run c).2.depthReported = true := by
  show ((Check.run (if c.depthReported = true then _ else _ : Check Unit) s).run c).2.depthReported = true
  split
  · assumption
  · rfl

/-- Nothing is said of what becomes of a type when it was given up. -/
theorem makes_giveUp {m : MapperId} {id : TypeId} (fallback : TypeId) :
    (giveUp fallback).Makes m id := by
  intro s c _ hd
  rw [depthReported_giveUp] at hd
  cases hd

theorem spares_giveUp {id : TypeId} (fallback : TypeId) : (giveUp fallback).Spares id := by
  intro s c _ _ hd
  rw [depthReported_giveUp] at hd
  cases hd

theorem restores_giveUp {ids : List TypeId} (fallback : TypeId) : (giveUp fallback).Restores ids := by
  intro s c _ _ _ _ hd
  rw [depthReported_giveUp] at hd
  cases hd

theorem tells_giveUp {id : TypeId} (fallback : Option Shape) : (giveUp fallback).Tells id := by
  intro s c _ _ hd
  rw [depthReported_giveUp] at hd
  cases hd

/-- What was given up comes to nothing, and there was no room for it. -/
theorem follows_giveUp {α : Type} {s : Setting} {v : Sight} {n : Nat} {room : Nat → Prop} (fallback : α)
    (known : Option α) (hroom : ∀ depth, ¬room depth) : (giveUp fallback).Follows s v n room known := by
  intro c _ _ a _
  refine ⟨fun hd => ?_, fun hdepth => absurd hdepth (hroom _)⟩
  rw [depthReported_giveUp] at hd
  cases hd

theorem recalls_giveUp {α : Type} {v : Sight} {room : Prop} (fallback a : α) (hroom : ¬room) :
    (giveUp fallback).Recalls v room a := by
  intro s c _ hd
  rw [depthReported_giveUp] at hd
  exact absurd (hd.resolve_right (by decide)) hroom

/-- An answer that was given up needs no excuse. -/
theorem excuses_giveUp (pair : TypeId × TypeId) (fallback : Option Bool) :
    (giveUp fallback).Excuses pair := by
  intro s c _ hd
  rw [depthReported_giveUp] at hd
  cases hd

/-- Runs a step one level deeper; past the last level it gives `fallback` instead. -/
def nested {α : Type} (fallback : α) (step : Check α) : Check α := do
  let depth := (← state).depth
  if maxDepth ≤ depth then giveUp fallback
  else
    update fun c => { c with depth := depth + 1 }
    let result ← step
    update fun c => { c with depth := depth }
    return result

theorem run_nested {α : Type} (fallback : α) (step : Check α) (s : Setting) (c : Checker) :
    ((nested fallback step).run s).run c =
      if maxDepth ≤ c.depth then ((giveUp fallback).run s).run c
      else
        let r := (step.run s).run { c with depth := c.depth + 1 }
        (r.1, { r.2 with depth := c.depth }) := by
  show (Check.run (if maxDepth ≤ c.depth then _ else _ : Check α) s).run c = _
  split <;> rfl

/-- What becomes of a type does not depend on how deep it is asked for, as long as that is not too
deep. -/
theorem makes_nested {m : MapperId} {id : TypeId} {fallback : TypeId} {step : Check TypeId}
    (h : step.Makes m id) : (nested fallback step).Makes m id := by
  intro s c hc
  rw [run_nested]
  split
  · exact makes_giveUp fallback s c hc
  · exact h s { c with depth := c.depth + 1 } (hc.later (.refl _) rfl fun h => h)

/-- What is known of a pair is found one level deeper, too. -/
theorem answers_nested {room : Nat → Nat → Prop} {pair : TypeId × TypeId} {step : Check (Option Bool)}
    (h : step.Answers room pair) :
    (nested none step).Answers (fun n depth => depth < maxDepth ∧ room n (depth + 1)) pair := by
  intro s v n c hc hun a ha
  rw [run_nested]
  split
  · rename_i hdepth
    have hgive : (giveUp none).Follows s v n (fun _ => False) (some a) :=
      follows_giveUp none (some a) fun _ h => h
    exact ⟨(hgive c hc hun a rfl).1, fun hroom => absurd hroom.1 (Nat.not_lt.2 hdepth)⟩
  · let deeper : Checker := { c with depth := c.depth + 1 }
    have hdeeper : deeper.Respects s v := hc.of_eq (.refl c.table) rfl rfl
    obtain ⟨hvalue, hquiet⟩ := h s v n deeper hdeeper hun a ha
    refine ⟨fun hd => ?_, fun hroom hc => ⟨(hquiet hroom.2 hc).1, rfl⟩⟩
    obtain ⟨hfound, hend⟩ := hvalue hd
    exact ⟨hfound, hend.of_eq (.refl _) rfl rfl⟩

/-- A type that stays does so one level deeper, too. -/
theorem spares_nested {id fallback : TypeId} {step : Check TypeId} (h : step.Spares id) :
    (nested fallback step).Spares id := by
  intro s c hc ht
  rw [run_nested]
  split
  · exact spares_giveUp fallback s c hc ht
  · exact h s { c with depth := c.depth + 1 } (hc.later (.refl _) rfl fun h => h)
      (ht.of_eq rfl (fun h => h) rfl rfl rfl)

/-- An answer that is looked for one level deeper has the excuse that it has there. -/
theorem excuses_nested {pair : TypeId × TypeId} {step : Check (Option Bool)}
    (h : step.Excuses pair) : (nested none step).Excuses pair := by
  intro s c hpair
  rw [run_nested]
  split
  · exact excuses_giveUp pair none s c hpair
  · exact h s { c with depth := c.depth + 1 } hpair

/-- Sets the node whose check is going on. -/
def setSite (site : Option Span) : Check Unit := update fun c => { c with site }

end Check

end DeclKit

/-
Substitutions compose.

What a check remembers of substitutions is what they make of types, and a composed substitution puts in
what the second one makes of what the first one puts in. So to substitute twice and to substitute once
by the composed substitution come to one type, as long as no template has lost a word in between.

What becomes of a type is worked out one level deeper for each step in which the type is built, and on
each level by the operations of the level below. So nothing is given up for a type that is built in few
enough steps, however large it is.
-/
import DeclKit.Proofs.Types.Composition
import DeclKit.Proofs.Types.Instance
import DeclKit.Proofs.Types.Mapper
import DeclKit.Proofs.Typing.Reachable
import DeclKit.Proofs.Typing.Substituted
import DeclKit.Typing.Level
import Mathlib

set_option autoImplicit false

namespace DeclKit.Typing

open Check TypeTable

section Depth

variable {ops : Operations} {m : MapperId} {s : Setting} {c : Checker} {n : Nat} {id : TypeId}

/-! ## How deep a substitution goes -/

/-- Nothing has been given up, there are so many levels left, and a substitution of the table puts in
types of the table. -/
structure HasRoom (c : Checker) (m : MapperId) (n : Nat) : Prop where
  quiet : c.depthReported = false
  depth : c.depth + n ≤ maxDepth
  stored : c.table.hasMapper m
  given : ∀ T x, c.table.substitute? (some m) T = some x → c.table.Given (.type x)

/-- There is as much room after a step that gives nothing up and comes back to its level. -/
theorem HasRoom.of_run {α : Type} {x : Check α} (h : HasRoom c m n)
    (hquiet : ((x.run s).run c).2.depthReported = false)
    (hdepth : ((x.run s).run c).2.depth = c.depth) : HasRoom ((x.run s).run c).2 m n where
  quiet := hquiet
  depth := hdepth ▸ h.depth
  stored := hasMapper_of_grows h.stored (x.later s c).keeps.1
  given T y hy := by
    rw [substitute?_of_hasMapper h.stored (x.later s c).keeps.1] at hy
    exact (h.given T y hy).mono (x.later s c).keeps.1

/-- A step gives nothing up and comes back to its level. -/
def Quiet {α : Type} (s : Setting) (c : Checker) (x : Check α) : Prop :=
  ((x.run s).run c).2.depthReported = false ∧ ((x.run s).run c).2.depth = c.depth

theorem quiet_pure {α : Type} (a : α) (hquiet : c.depthReported = false) :
    Quiet s c (pure a : Check α) := ⟨hquiet, rfl⟩

/-- A step that changes nothing but the table gives nothing up. -/
theorem quiet_of_table {α : Type} {x : Check α} (hquiet : c.depthReported = false)
    (hx : ((x.run s).run c).2 = { c with table := ((x.run s).run c).2.table }) : Quiet s c x := by
  rw [Quiet, hx]
  exact ⟨hquiet, rfl⟩

theorem Quiet.bind {α β : Type} {x : Check α} {f : α → Check β} (hx : Quiet s c x)
    (hf : ∀ a d, d.depthReported = false → Quiet s d (f a)) : Quiet s c (x >>= f) := by
  obtain ⟨hquiet, hdepth⟩ := hf ((x.run s).run c).1 ((x.run s).run c).2 hx.1
  exact ⟨hquiet, hdepth.trans hx.2⟩

/-- Parts are worked out one after another with the same room. -/
theorem quiet_mapM {ids : List TypeId} (hroom : HasRoom c m n) (hids : ∀ p ∈ ids, c.table.Plain n p)
    (h : ∀ c p, HasRoom c m n → c.table.Plain n p → Quiet s c (ops.instantiate p (some m))) :
    Quiet s c (ids.mapM fun p => ops.instantiate p (some m)) := by
  induction ids generalizing c with
  | nil => exact ⟨hroom.quiet, rfl⟩
  | cons id ids ih =>
    rw [List.forall_mem_cons] at hids
    rw [List.mapM_cons]
    obtain ⟨hquiet, hdepth⟩ := h c id hroom hids.1
    have hlater := (ops.instantiate id (some m)).later s c
    obtain ⟨hquiet', hdepth'⟩ := ih (hroom.of_run hquiet hdepth)
      fun p hp => (hids.2 p hp).grows hlater.keeps.1
    exact ⟨hquiet', hdepth'.trans hdepth⟩

/-- What is looked at for the first time is worked out if its parts are. -/
theorem depthReported_substituted (hroom : HasRoom c m n) (hid : c.table.Plain (n + 1) id)
    (h : ∀ c p, HasRoom c m n → c.table.Plain n p → Quiet s c (ops.instantiate p (some m))) :
    (((substituted ops id m).run s).run c).2.depthReported = false := by
  cases hid with
  | @mk _ _ k hget hk hparts =>
    have hhas : c.table.has id && c.table.hasMapper m := by
      rw [has, hget, hroom.stored]
      rfl
    have hrun : ((substituted ops id m).run s).run c =
        ((substitutedIn ops c.table id m).run s).run c := by
      show ((Check.run (if c.table.has id && c.table.hasMapper m then _ else _ : Check TypeId) s).run c) = _
      rw [if_pos hhas]
      rfl
    have hkind : c.table.kind id = k := kind_of_get? hget
    rw [hrun]
    rcases TypeKind.isStructural_cases hk with hfixed | ⟨T, rfl⟩ | hbuilt
    · rw [run_substitutedIn_fixed (hkind ▸ hfixed)]
      exact hroom.quiet
    · have hpresent : c.table.has ((c.table.substitute? (some m) T).getD id) = true := by
        cases hT : c.table.substitute? (some m) T with
        | none =>
          rw [Option.getD_none, has, hget]
          rfl
        | some x => exact Interner.get?_isSome.2 (hroom.given T x hT)
      unfold substitutedIn
      rw [hkind]
      dsimp only
      rw [present, if_pos hpresent]
      exact hroom.quiet
    · rw [run_substitutedIn_built (by rw [alias?, data_of_get? hget]) (hkind ▸ hbuilt), hkind]
      exact (quiet_mapM hroom hparts h).1

/-- A step one level deeper comes back to its level, and gives nothing up of its own while there are
levels left. -/
theorem quiet_nested {fallback : TypeId} {step : Check TypeId} (hdepth : c.depth < maxDepth)
    (h : ((step.run s).run { c with depth := c.depth + 1 }).2.depthReported = false) :
    Quiet s c (nested fallback step) := by
  show ((Check.run (if maxDepth ≤ c.depth then _ else _ : Check TypeId) s).run c).2.depthReported = _ ∧
    ((Check.run (if maxDepth ≤ c.depth then _ else _ : Check TypeId) s).run c).2.depth = _
  rw [if_neg (Nat.not_le.2 hdepth)]
  exact ⟨h, rfl⟩

theorem quiet_remember {ask : Check TypeId} (h : ask.Makes m id) (hspares : ask.Spares id)
    (hc : c.depthReported = false) (hask : Quiet s c ask) :
    Quiet s c (remember id m ask h hspares) := by
  unfold Quiet remember
  dsimp only [StateT.run]
  split
  · exact ⟨hc, rfl⟩
  · exact hask

/-- What becomes of a plain type is worked out if there are as many levels left as the type has steps.
By induction on the steps. -/
theorem quiet_instantiate {l : Nat} (hl : n ≤ l) (hroom : HasRoom c m n) (hid : c.table.Plain n id) :
    Quiet s c ((Operations.level l).instantiate id (some m)) := by
  induction n generalizing c id l with
  | zero => cases hid
  | succ n ih =>
    obtain _ | l := l
    · exact absurd hl (Nat.not_succ_le_zero n)
    have hdepth := hroom.depth
    have hroom' : HasRoom { c with depth := c.depth + 1 } m n :=
      ⟨hroom.quiet, by dsimp only; omega, hroom.stored, hroom.given⟩
    have hinner : (((substituted (Operations.level l) id m).run s).run
        { c with depth := c.depth + 1 }).2.depthReported = false :=
      depthReported_substituted hroom' hid fun c p hroom hp => ih (Nat.le_of_succ_le_succ hl) hroom hp
    have hmakes : (nested .error (substituted (Operations.level l) id m)).Makes m id :=
      makes_nested (makes_substituted (Operations.level l) id m)
    exact quiet_remember hmakes (spares_nested (spares_substituted (Operations.level l) id m)) hroom.quiet
      (quiet_nested (by omega) hinner)

end Depth

end DeclKit.Typing

namespace DeclKit

variable {s : Setting} {c : Checker}

/-- What a check remembers of substitutions is what they have made, in every state that it can reach. -/
theorem Checker.Reachable.faithful (h : Reachable s c) : c.Faithful s.nullChecks := by
  induction h with
  | start =>
    refine ⟨.refl _, fun _ id m r hr => ?_⟩
    rw [Std.HashMap.getElem?_empty] at hr
    cases hr
  | step x _ ih => exact x.faithful s _ ih

namespace Typing

open Check TypeTable

variable {ops : Operations} {m : MapperId} {m₁ : Option MapperId} {m₂ : MapperId} {id : TypeId}

/-! ## The composed substitution -/

/-- A composed substitution is there, and it puts in what the second one makes of what the first one
puts in, and what the second one puts in where the first one does not. -/
theorem composed_compose (ops : Operations) (hc : c.Reachable s) (h₁ : c.table.Harmless m₁)
    (h₂ : c.table.Harmless (some m₂)) :
    let r := ((compose ops m₁ m₂).run s).run c
    r.2.depthReported = false → r.2.table.Harmless r.1 ∧ r.1.isSome ∧
      r.2.table.Composed s.nullChecks (c.table.substitute? m₁) (c.table.substitute? (some m₂))
        (r.2.table.substitute? r.1) := by
  intro r hd
  have hlater₀ : c.table.Later s.nullChecks r.2.table := (compose ops m₁ m₂).later s c
  have ht : r.2.table.Normal s.nullChecks := hlater₀.keeps.2 hc.normal
  have hrun : r = _ := run_compose ops m₁ m₂ s c
  let ids := (c.table.mapper m₁).map (·.2)
  let step : Check (List TypeId) := ids.mapM fun x => ops.instantiate x (some m₂)
  let parts := (step.run s).run c
  let pairs := ((c.table.mapper m₁).map (·.1)).zip parts.1
  let more := (parts.2.table.mapper (some m₂)).filter fun q => !pairs.any (·.1 == q.1)
  have hparts : parts.2.depthReported = false := by
    rw [hrun] at hd
    exact hd
  obtain ⟨hlookup, hstored⟩ := substitute?_makeMapper parts.2.table (pairs ++ more)
  obtain ⟨hlength, hinstances⟩ := instances_mapM ids hc.faithful hparts
  have hlater : parts.2.table.Later s.nullChecks r.2.table := by
    rw [hrun]
    exact .step (.refl _) (.makeMapper _)
  have hlookup (T : SymbolId) : r.2.table.substitute? r.1 T =
      (Mapper.get? pairs T).or (Mapper.get? more T) := by
    rw [← Mapper.get?_append, ← hlookup, hrun]
  have hpairs : Forall₂ (fun p q => p.1 = q.1 ∧ r.2.table.Instance s.nullChecks m₂ p.2 q.2)
      (c.table.mapper m₁) pairs :=
    Mapper.forall₂_zip (Forall₂.of_forall_zip hlength.symm fun p hp => (hinstances _ hp).later hlater)
  have hmapper : parts.2.table.mapper (some m₂) = c.table.mapper (some m₂) :=
    mapper_of_hasMapper (h₂.stored m₂ rfl) (step.later s c).keeps.1
  have hmore (T : SymbolId) (hT : Mapper.get? pairs T = none) :
      Mapper.get? more T = c.table.substitute? (some m₂) T := by
    rw [Mapper.get?_eq_none_iff] at hT
    rw [substitute?, ← hmapper]
    refine Mapper.get?_filter (p := fun T => !pairs.any (·.1 == T)) ?_
    simpa using hT
  have hm₂ : r.2.table.substitute? (some m₂) = c.table.substitute? (some m₂) :=
    h₂.substitute?_eq hlater₀.keeps.1
  have hmild₁ := h₁.mild.grows hlater₀.keeps.1
  have hmild₂ := h₂.mild.grows hlater₀.keeps.1
  have hcomposed : r.2.table.Composed s.nullChecks (c.table.substitute? m₁)
      (c.table.substitute? (some m₂)) (r.2.table.substitute? r.1) := by
    refine ⟨fun T x hx => ?_, fun T hT => ?_⟩
    · rcases Mapper.get?_of_forall₂ (s := T) hpairs with ⟨hT, -⟩ | ⟨x', y, hx', hy, hxy⟩
      · cases hT.symm.trans hx
      · obtain rfl : x' = x := Option.some.inj (hx'.symm.trans hx)
        refine ⟨y, by rw [hlookup, hy, Option.some_or], ?_⟩
        rw [← hm₂]
        exact hxy.becomes ht (h₂.grows hlater₀.keeps.1) (hmild₁.isPlain T x' hx)
    · rcases Mapper.get?_of_forall₂ (s := T) hpairs with ⟨-, hT'⟩ | ⟨x', y, hx', -⟩
      · rw [hlookup, hT', Option.none_or, hmore T hT']
      · cases hT.symm.trans hx'
  -- no pairs at all would mean that the second substitution is empty
  have hsome : ∃ m, r.1 = some m ∧ r.2.table.hasMapper m := by
    rw [hrun]
    refine hstored.resolve_left fun hnil => ?_
    obtain ⟨hnil, hnil'⟩ := List.append_eq_nil_iff.1 hnil
    obtain ⟨q, hq⟩ : ∃ q, q ∈ c.table.mapper (some m₂) := by
      obtain ⟨inner, hinner⟩ := Option.isSome_iff_exists.1 (h₂.stored m₂ rfl)
      rw [mapper, hinner, Option.getD_some]
      exact List.exists_mem_of_ne_nil _ (hc.later.arranged arranged_initial _ _ hinner).1
    have hmem : q ∈ more := List.mem_filter.2 ⟨hmapper ▸ hq, by rw [hnil]; rfl⟩
    rw [hnil'] at hmem
    cases hmem
  obtain ⟨m, hm, hstored⟩ := hsome
  refine ⟨⟨fun i hi => ?_, hcomposed.mild ht hmild₁ hmild₂⟩, by rw [hm]; rfl, hcomposed⟩
  obtain rfl : m = i := Option.some.inj (hm.symm.trans hi)
  exact hstored

/-! ## Substituting twice -/

/-- Without a substitution a type stays. -/
theorem instantiate_none (id : TypeId) : Operations.standard.instantiate id none = return id := by
  have hlevel : Operations.standard = (Operations.level 9999).next := rfl
  rw [hlevel]
  rfl

/-- What is worked out for a plain type under a substitution is what the substitution makes of it. -/
theorem becomes_instantiate (ops : Operations) (hc : c.Reachable s) (hm : c.table.Harmless (some m))
    (hid : c.table.IsPlain id) :
    let r := ((ops.instantiate id (some m)).run s).run c
    r.2.depthReported = false →
      r.2.table.Becomes s.nullChecks (c.table.substitute? (some m)) id r.1 := by
  intro r hd
  have hlater : c.table.Later s.nullChecks r.2.table := (ops.instantiate id (some m)).later s c
  have hinstance : r.2.table.Instance s.nullChecks m id r.1 := ops.makes id m s c hc.faithful hd
  rw [← hm.substitute?_eq hlater.keeps.1]
  exact hinstance.becomes (hlater.keeps.2 hc.normal) (hm.grows hlater.keeps.1) (hid.grows hlater.keeps.1)

/-- What it comes to when a type is put through a second substitution and through the composed one. -/
theorem becomes_compose (ops : Operations) (hc : c.Reachable s) (hid : c.table.IsPlain id) (h₁ : c.table.Harmless m₁)
    (h₂ : c.table.Harmless (some m₂)) {a : TypeId} (ha : c.table.IsPlain a) :
    let r₂ := ((ops.instantiate a (some m₂)).run s).run c
    let r₃ := ((compose ops m₁ m₂).run s).run r₂.2
    let r₄ := ((ops.instantiate id r₃.1).run s).run r₃.2
    let t := r₄.2.table
    r₄.2.depthReported = false → ∃ σ,
      t.Composed s.nullChecks (t.substitute? m₁) (t.substitute? (some m₂)) σ ∧
      t.Becomes s.nullChecks (t.substitute? (some m₂)) a r₂.1 ∧ t.Becomes s.nullChecks σ id r₄.1 := by
  intro r₂ r₃ r₄ t hd₄
  have hd₃ : r₃.2.depthReported = false := not_depthReported_of_run _ hd₄
  have hd₂ : r₂.2.depthReported = false := not_depthReported_of_run _ hd₃
  have hc₂ : r₂.2.Reachable s := .step _ hc
  have hc₃ : r₃.2.Reachable s := .step _ hc₂
  have h₀₂ : c.table.Keeps s.nullChecks r₂.2.table := ((ops.instantiate a (some m₂)).later s c).keeps
  have h₂₃ : r₂.2.table.Keeps s.nullChecks r₃.2.table := ((compose ops m₁ m₂).later s r₂.2).keeps
  have h₃₄ : r₃.2.table.Keeps s.nullChecks t := ((ops.instantiate id r₃.1).later s r₃.2).keeps
  have h₂₄ := h₂₃.trans h₃₄
  have h₀₄ := h₀₂.trans h₂₄
  obtain ⟨hharmless, hsome, hcomposed⟩ :=
    composed_compose ops hc₂ (h₁.grows h₀₂.1) (h₂.grows h₀₂.1) hd₃
  obtain ⟨m, hm⟩ := Option.isSome_iff_exists.1 hsome
  refine ⟨r₃.2.table.substitute? r₃.1, ?_, ?_, ?_⟩
  · rw [h₁.substitute?_eq h₀₄.1, h₂.substitute?_eq h₀₄.1, ← h₁.substitute?_eq h₀₂.1,
      ← h₂.substitute?_eq h₀₂.1]
    exact hcomposed.grows hc₃.normal h₃₄
  · rw [h₂.substitute?_eq h₀₄.1]
    exact (becomes_instantiate ops hc h₂ ha hd₂).grows hc₂.normal h₂₄
  · have honce := becomes_instantiate ops hc₃ (hm ▸ hharmless)
      (hid.grows (h₀₂.trans h₂₃).1) (hm ▸ hd₄)
    rw [← hm] at honce
    exact honce

/-- The law for any operations by which a type stays without a substitution. -/
theorem instantiate_compose_of (hnone : ops.instantiate id none = return id) (hc : c.Reachable s)
    (hnull : s.nullChecks = true) (hid : c.table.IsPlain id) (h₁ : c.table.Harmless m₁)
    (h₂ : c.table.Harmless (some m₂)) :
    let r₁ := ((ops.instantiate id m₁).run s).run c
    let r₂ := ((ops.instantiate r₁.1 (some m₂)).run s).run r₁.2
    let r₃ := ((compose ops m₁ m₂).run s).run r₂.2
    let r₄ := ((ops.instantiate id r₃.1).run s).run r₃.2
    let t := r₄.2.table
    r₄.2.depthReported = false →
      (∀ T x, t.Placed T id → t.substitute? m₁ T = some x →
        t.LosesNothing true (t.substitute? (some m₂)) x) →
      r₂.1 = r₄.1 := by
  intro r₁ r₂ r₃ r₄ t hd₄ hwords
  have hd₁ : r₁.2.depthReported = false := not_depthReported_of_run _ <|
    not_depthReported_of_run _ <| not_depthReported_of_run _ hd₄
  have hc₁ : r₁.2.Reachable s := .step _ hc
  have hc₄ : r₄.2.Reachable s := .step _ (.step _ (.step _ hc₁))
  have ht : t.Normal s.nullChecks := hc₄.normal
  have h₀₁ : c.table.Keeps s.nullChecks r₁.2.table := ((ops.instantiate id m₁).later s c).keeps
  have h₁₄ : r₁.2.table.Keeps s.nullChecks t := (((ops.instantiate r₁.1 (some m₂)).later s r₁.2).trans
    (((compose ops m₁ m₂).later s r₂.2).trans ((ops.instantiate id r₃.1).later s r₃.2))).keeps
  have h₀₄ := h₀₁.trans h₁₄
  have hlater (ha : r₁.2.table.IsPlain r₁.1) := becomes_compose ops hc₁ (hid.grows h₀₁.1)
    (h₁.grows h₀₁.1) (h₂.grows h₀₁.1) ha hd₄
  have hidt := hid.grows h₀₄.1
  cases m₁ with
  | none =>
    -- without a first substitution the second one is the composed one
    have hr₁ : r₁.1 = id := by
      show (((ops.instantiate id none).run s).run c).1 = id
      rw [hnone]
      rfl
    obtain ⟨σ, hσ, htwice, honce⟩ := hlater (hr₁.symm ▸ hid.grows h₀₁.1)
    obtain rfl : σ = t.substitute? (some m₂) := funext fun T => hσ.second T rfl
    have htwice' : t.Becomes s.nullChecks (t.substitute? (some m₂)) r₁.1 r₂.1 := htwice
    rw [hr₁] at htwice'
    exact htwice'.unique ht honce
  | some m =>
    have hfirst := becomes_instantiate ops hc h₁ hid hd₁
    obtain ⟨σ, hσ, htwice, honce⟩ := hlater
      (hfirst.isPlain hc₁.normal (h₁.mild.grows h₀₁.1) (hid.grows h₀₁.1))
    have hfirst' := hfirst.grows hc₁.normal h₁₄
    rw [← h₁.substitute?_eq h₀₄.1] at hfirst'
    rw [hnull] at *
    exact hfirst'.comp ht (h₁.grows h₀₄.1).mild (h₂.grows h₀₄.1).mild hσ hidt hwords t (.refl t) htwice
      honce

/-! ## Substitutions that stay within the levels -/

theorem HasRoom.of_harmless {n : Nat} (hquiet : c.depthReported = false) (hdepth : c.depth + n ≤ maxDepth)
    (hm : c.table.Harmless (some m)) : HasRoom c m n where
  quiet := hquiet
  depth := hdepth
  stored := hm.stored m rfl
  given T x hx := (hm.mild.isPlain T x hx).given

/-- Nothing is given up on either side of the law of composition if there are as many levels left as
the type, what becomes of it at first and what the first substitution puts in have steps. -/
theorem not_depthReported_compose {n l : Nat} (hn : n ≤ l) (hc : c.Reachable s)
    (hquiet : c.depthReported = false) (hdepth : c.depth + n ≤ maxDepth) (hid : c.table.Plain n id)
    {m₁ m₂ : MapperId} (h₁ : c.table.Harmless (some m₁)) (h₂ : c.table.Harmless (some m₂))
    (hinner : ∀ p ∈ c.table.mapper (some m₁), c.table.Plain n p.2) :
    let ops := Operations.level l
    let r₁ := ((ops.instantiate id (some m₁)).run s).run c
    let r₂ := ((ops.instantiate r₁.1 (some m₂)).run s).run r₁.2
    let r₃ := ((compose ops (some m₁) m₂).run s).run r₂.2
    let r₄ := ((ops.instantiate id r₃.1).run s).run r₃.2
    r₁.2.depthReported = false ∧ (r₁.2.table.Plain n r₁.1 → r₄.2.depthReported = false) := by
  intro ops r₁ r₂ r₃ r₄
  obtain ⟨hquiet₁, hdepth₁⟩ := quiet_instantiate (s := s) hn (.of_harmless hquiet hdepth h₁) hid
  refine ⟨hquiet₁, fun ha => ?_⟩
  have h₀₁ : c.table.Keeps s.nullChecks r₁.2.table := ((ops.instantiate id (some m₁)).later s c).keeps
  have h₁₂ : r₁.2.table.Keeps s.nullChecks r₂.2.table :=
    ((ops.instantiate r₁.1 (some m₂)).later s r₁.2).keeps
  have h₂₃ : r₂.2.table.Keeps s.nullChecks r₃.2.table :=
    ((compose ops (some m₁) m₂).later s r₂.2).keeps
  have h₀₂ := h₀₁.trans h₁₂
  have hroom₁ : HasRoom r₁.2 m₂ n := .of_harmless hquiet₁ (hdepth₁ ▸ hdepth) (h₂.grows h₀₁.1)
  obtain ⟨hquiet₂, hdepth₂⟩ := quiet_instantiate (s := s) hn hroom₁ ha
  have hroom₂ : HasRoom r₂.2 m₂ n := hroom₁.of_run hquiet₂ hdepth₂
  have hcompose : Quiet s r₂.2 (compose ops (some m₁) m₂) := by
    unfold Quiet
    rw [run_compose]
    refine quiet_mapM hroom₂ (fun x hx => ?_) fun c x hroom hx => quiet_instantiate hn hroom hx
    rw [mapper_of_hasMapper (h₁.stored m₁ rfl) h₀₂.1] at hx
    obtain ⟨p, hp, rfl⟩ := List.mem_map.1 hx
    exact (hinner p hp).grows h₀₂.1
  obtain ⟨hquiet₃, hdepth₃⟩ := hcompose
  obtain ⟨hharmless, hsome, -⟩ := composed_compose ops (.step _ (.step _ hc))
    (h₁.grows h₀₂.1) (h₂.grows h₀₂.1) hquiet₃
  obtain ⟨m, hm⟩ := Option.isSome_iff_exists.1 hsome
  have hroom₃ : HasRoom r₃.2 m n := .of_harmless hquiet₃
    (by rw [hdepth₃, hdepth₂, hdepth₁]; exact hdepth) (hm ▸ hharmless)
  have hlast := quiet_instantiate (s := s) hn hroom₃ (hid.grows (h₀₂.trans h₂₃).1)
  rw [← hm] at hlast
  exact hlast.1

/-! ## A union in a template -/

/-- A type parameter, a text, and their union. -/
def paramOrText (s : SymbolId) (text : String) : Check (TypeId × TypeId × TypeId) := do
  let U ← Check.intern (.param s)
  let a ← Check.stringLiteral text
  return (U, a, ← Check.union [U, a])

/-- A template of a type parameter, a substitution of `U | "a"` for it, where `U` is another type
parameter, and one of a given type for `U`. -/
def unionThen (z : TypeId) : Check (TypeId × MapperId × MapperId) := do
  let (_, _, x) ← paramOrText ⟨1⟩ "a"
  let T ← Check.intern (.param ⟨0⟩)
  let template ← Check.template "x" [(T, "")]
  let m₁ ← Check.makeMapper [(⟨0⟩, x)]
  let m₂ ← Check.makeMapper [(⟨1⟩, z)]
  return (template, m₁.getD default, m₂.getD default)

/-- The union has the two as its members. -/
theorem run_paramOrText (hnull : s.nullChecks = true) (hc : c.Reachable s) (p : SymbolId)
    (text : String) :
    let r := ((paramOrText p text).run s).run c
    r.2.table.types.get? r.1.1.index = some { kind := .param p } ∧
      r.2.table.types.get? r.1.2.1.index = some { kind := .stringLiteral text } ∧
      (∀ m, m ∈ r.2.table.atoms r.1.2.2 ↔ m = r.1.1 ∨ m = r.1.2.1) ∧
      r.2.table.Plain 2 r.1.2.2 := by
  let r₁ := ((Check.intern (.param p)).run s).run c
  let r₂ := ((Check.stringLiteral text).run s).run r₁.2
  let r₃ := ((Check.union [r₁.1, r₂.1]).run s).run r₂.2
  have hrun : ((paramOrText p text).run s).run c = ((r₁.1, r₂.1, r₃.1), r₃.2) := by
    rw [paramOrText, run_bind, run_bind, run_bind, run_pure]
  rw [hrun]
  dsimp only
  have h₁₂ : r₁.2.table.Grows r₂.2.table := ((Check.stringLiteral text).later s r₁.2).keeps.1
  have h₂₃ : r₂.2.table.Grows r₃.2.table := ((Check.union [r₁.1, r₂.1]).later s r₂.2).keeps.1
  have hr₂ : r₂.2.Reachable s := .step _ (.step _ hc)
  have ht₂ : r₂.2.table.Normal true := hnull ▸ hr₂.normal
  have ht₃ : r₃.2.table.Normal true := hnull ▸ (Checker.Reachable.step _ hr₂).normal
  have hU₂ : r₂.2.table.types.get? r₁.1.index = some { kind := .param p } :=
    h₁₂.types _ _ store_get?
  have ha₂ : r₂.2.table.types.get? r₂.1.index = some { kind := .stringLiteral text } := store_get?
  have hU := h₂₃.types _ _ hU₂
  have ha := h₂₃.types _ _ ha₂
  have hUplain : r₃.2.table.Plain 1 r₁.1 := .mk hU rfl fun _ hq => absurd hq List.not_mem_nil
  have haplain : r₃.2.table.Plain 1 r₂.1 := .mk ha rfl fun _ hq => absurd hq List.not_mem_nil
  have hgiven : ∀ id ∈ [r₁.1, r₂.1], r₂.2.table.Given (.type id) := by
    intro id hid
    rcases List.mem_pair.1 hid with rfl | rfl
    · exact given_of_get? hU₂
    · exact given_of_get? ha₂
  have hrun : (TypeTable.union s.nullChecks [r₁.1, r₂.1]).run r₃.2.table = (r₃.1, r₃.2.table) := by
    unfold r₃
    rw [Check.run_union]
    exact run_union_settled hr₂.normal hgiven
  rw [hnull] at hrun
  have hatoms (m : TypeId) : m ∈ r₃.2.table.atoms r₃.1 ↔ m = r₁.1 ∨ m = r₂.1 := by
    refine (mem_atoms_of_uncovered ht₃ hrun (fun id hid => ?_) (fun id hid id' hid' => ?_) m).trans
      List.mem_pair
    · rcases List.mem_pair.1 hid with rfl | rfl
      · rw [kind_of_get? hU]
        rfl
      · rw [kind_of_get? ha]
        rfl
    · rcases List.mem_pair.1 hid' with rfl | rfl
      · rw [kind_of_get? hU]
        rfl
      · rw [kind_of_get? ha]
        rfl
  refine ⟨hU, ha, hatoms, .of_atoms (.of_run_union ht₃ hrun fun id hid => ?_) fun m hm => ?_⟩
  · rcases List.mem_pair.1 hid with rfl | rfl
    · exact ⟨1, hUplain⟩
    · exact ⟨1, haplain⟩
  · rcases (hatoms m).1 hm with rfl | rfl
    · exact hUplain
    · exact haplain

/-- What there is after these steps. -/
structure UnionThen (c : Checker) (z T U a x template : TypeId) (m₁ m₂ : MapperId) : Prop where
  absorbs : c.table.Absorbs T U a x template ⟨0⟩ ⟨1⟩
  plain : c.table.Plain 2 x ∧ c.table.Plain 2 template
  stored : c.table.hasMapper m₁ ∧ c.table.hasMapper m₂
  first : c.table.mapper (some m₁) = [(⟨0⟩, x)]
  second : c.table.mapper (some m₂) = [(⟨1⟩, z)]

theorem mapper_makeMapper_singleton (t : TypeTable) (p : SymbolId × TypeId) :
    let r := (TypeTable.makeMapper [p]).run t
    r.2.hasMapper (r.1.getD default) ∧ r.2.mapper (some (r.1.getD default)) = [p] := by
  have hget : ((internMapper [p]).run t).2.mappers.get? ((internMapper [p]).run t).1.index = _ :=
    internMapper_get?
  have hone : Mapper.ofPairs [p] = [p] := by simp [Mapper.ofPairs, Mapper.keepFirst]
  rw [hone] at hget
  constructor
  · show (((internMapper [p]).run t).2.mappers.get? ((internMapper [p]).run t).1.index).isSome = _
    rw [hget, Option.isSome_some]
  · show (((internMapper [p]).run t).2.mappers.get? ((internMapper [p]).run t).1.index).getD [] = _
    rw [hget, Option.getD_some]

theorem quiet_paramOrText (p : SymbolId) (text : String) (hquiet : c.depthReported = false) :
    Quiet s c (paramOrText p text) := by
  unfold paramOrText
  refine .bind (quiet_of_table hquiet rfl) fun _ _ h => .bind (quiet_of_table h rfl) fun _ _ h => ?_
  exact .bind (quiet_of_table h rfl) fun _ _ h => quiet_pure _ h

theorem quiet_unionThen (z : TypeId) (hquiet : c.depthReported = false) : Quiet s c (unionThen z) := by
  unfold unionThen
  refine .bind (quiet_paramOrText _ _ hquiet) fun _ _ h => ?_
  refine .bind (quiet_of_table h rfl) fun _ _ h => .bind (quiet_of_table h rfl) fun _ _ h => ?_
  refine .bind (quiet_of_table h rfl) fun _ _ h => .bind (quiet_of_table h rfl) fun _ _ h => ?_
  exact quiet_pure _ h

/-- A template is stored by the step that works it out. -/
theorem run_template (head : String) (spans : List (TypeId × String)) :
    ((Check.template head spans).run s).run c =
      let r := (TypeTable.template s.nullChecks head spans).run c.table
      (r.1, { c with table := r.2 }) := rfl

/-- The steps lead there. -/
theorem unionThen_spec (hnull : s.nullChecks = true) (hc : c.Reachable s) (z : TypeId) :
    let r := ((unionThen z).run s).run c
    ∃ T U a x, UnionThen r.2 z T U a x r.1.1 r.1.2.1 r.1.2.2 := by
  obtain ⟨r₁, hr₁⟩ : ∃ r, r = ((paramOrText ⟨1⟩ "a").run s).run c := ⟨_, rfl⟩
  obtain ⟨r₂, hr₂⟩ : ∃ r, r = ((Check.intern (.param ⟨0⟩)).run s).run r₁.2 := ⟨_, rfl⟩
  obtain ⟨r₃, hr₃⟩ : ∃ r, r = ((Check.template "x" [(r₂.1, "")]).run s).run r₂.2 := ⟨_, rfl⟩
  obtain ⟨r₄, hr₄⟩ : ∃ r, r = ((Check.makeMapper [(⟨0⟩, r₁.1.2.2)]).run s).run r₃.2 := ⟨_, rfl⟩
  obtain ⟨r₅, hr₅⟩ : ∃ r, r = ((Check.makeMapper [(⟨1⟩, z)]).run s).run r₄.2 := ⟨_, rfl⟩
  have hrun : ((unionThen z).run s).run c =
      ((r₃.1, r₄.1.getD default, r₅.1.getD default), r₅.2) := by
    rw [unionThen, run_bind, run_bind, run_bind, run_bind, run_bind, run_pure, hr₅, hr₄, hr₃, hr₂, hr₁]
  have h₁₂ : r₁.2.table.Grows r₂.2.table := hr₂ ▸ (Check.later _ s r₁.2).keeps.1
  have h₂₃ : r₂.2.table.Grows r₃.2.table := hr₃ ▸ (Check.later _ s r₂.2).keeps.1
  have h₃₄ : r₃.2.table.Grows r₄.2.table := hr₄ ▸ (Check.later _ s r₃.2).keeps.1
  have h₄₅ : r₄.2.table.Grows r₅.2.table := hr₅ ▸ (Check.later _ s r₄.2).keeps.1
  have h₃₅ := h₃₄.trans h₄₅
  have h₂₅ := h₂₃.trans h₃₅
  have h₁₅ := h₁₂.trans h₂₅
  obtain ⟨hU, ha, hatoms, hx⟩ := run_paramOrText hnull hc ⟨1⟩ "a"
  rw [← hr₁] at hU ha hatoms hx
  have hT : r₂.2.table.types.get? r₂.1.index = some { kind := .param ⟨0⟩ } := by
    rw [hr₂]
    exact store_get?
  have hreach : r₂.2.Reachable s := by
    rw [hr₂, hr₁]
    exact .step _ (.step _ hc)
  have ht₂ : r₂.2.table.Normal true := hnull ▸ hreach.normal
  have hkind : r₂.2.table.kind r₂.1 = .param ⟨0⟩ := kind_of_get? hT
  have hne : r₂.1 ≠ .error := by
    intro heq
    have herror : r₂.2.table.kind .error = .error := ht₂.kind_fixed rfl
    rw [← heq, hkind] at herror
    cases herror
  have hword : r₂.2.table.settledWord "x" [(r₂.1, "")] = [.inl 'x', .inr r₂.1] := by
    rw [settledWord, List.flatMap_singleton, partWord_of_inTemplate (by rw [hkind]; rfl)]
    rfl
  have htemplate : r₃.2.table.types.get? r₃.1.index =
      some { kind := wordKind [.inl 'x', .inr r₂.1] } := by
    have hgiven : ∀ p ∈ [(r₂.1, "")], r₂.2.table.Given (.type p.1) :=
      List.forall_mem_singleton.2 (given_of_get? hT)
    have hatom : ∀ p ∈ [(r₂.1, "")], r₂.2.table.IsAtom p.1 :=
      List.forall_mem_singleton.2 (isAtom_of_inUnion (by rw [hkind]; rfl))
    rw [hr₃, run_template, hnull, ← hword]
    exact get?_template ht₂ "x" hgiven (List.forall_mem_singleton.2 hne) hatom
  have habsorbs : r₅.2.table.Absorbs r₂.1 r₁.1.1 r₁.1.2.1 r₁.1.2.2 r₃.1 ⟨0⟩ ⟨1⟩ := {
    first := h₂₅.types _ _ hT
    second := h₁₅.types _ _ hU
    text := h₁₅.types _ _ ha
    union := fun m => by
      rw [atoms_eq_of_given hx.given h₁₅]
      exact hatoms m
    template := h₃₅.types _ _ htemplate }
  obtain ⟨hstored₁, hfirst⟩ := mapper_makeMapper_singleton r₃.2.table (⟨0⟩, r₁.1.2.2)
  obtain ⟨hstored₂, hsecond⟩ := mapper_makeMapper_singleton r₄.2.table (⟨1⟩, z)
  have hr₄' : TypeTable.makeMapper [(⟨0⟩, r₁.1.2.2)] r₃.2.table = (r₄.1, r₄.2.table) := by
    rw [hr₄]
    rfl
  have hr₅' : TypeTable.makeMapper [(⟨1⟩, z)] r₄.2.table = (r₅.1, r₅.2.table) := by
    rw [hr₅]
    rfl
  rw [StateT.run, hr₄'] at hstored₁ hfirst
  rw [StateT.run, hr₅'] at hstored₂ hsecond
  rw [hrun]
  exact ⟨_, _, _, _, {
    absorbs := habsorbs
    plain := ⟨hx.grows h₁₅, habsorbs.plain_template⟩
    stored := ⟨hasMapper_of_grows hstored₁ h₄₅, hstored₂⟩
    first := (mapper_of_hasMapper hstored₁ h₄₅).trans hfirst
    second := hsecond }⟩

section

variable {z T U a x template : TypeId} {m₁ m₂ : MapperId} {l : Nat}

/-- What the two substitutions put in. -/
theorem UnionThen.substitute? (h : UnionThen c z T U a x template m₁ m₂) :
    c.table.substitute? (some m₁) = (fun S => if ⟨0⟩ = S then some x else none) ∧
      c.table.substitute? (some m₂) = fun S => if ⟨1⟩ = S then some z else none := by
  constructor <;> funext S
  · rw [TypeTable.substitute?, h.first, Mapper.get?, List.find?_singleton]
    by_cases hS : (⟨0⟩ : SymbolId) = S <;> simp [hS]
  · rw [TypeTable.substitute?, h.second, Mapper.get?, List.find?_singleton]
    by_cases hS : (⟨1⟩ : SymbolId) = S <;> simp [hS]

theorem UnionThen.harmless (hc : c.Reachable s) (hnull : s.nullChecks = true)
    (h : UnionThen c z T U a x template m₁ m₂) (hz : c.table.IsPlain z) (hmild : z ∉ swallowers) :
    c.table.Harmless (some m₁) ∧ c.table.Harmless (some m₂) := by
  have ht : c.table.Normal true := hnull ▸ hc.normal
  obtain ⟨hfirst, hsecond⟩ := h.substitute?
  refine ⟨⟨fun i hi => ?_, fun S y hy => ?_, fun S y hy => ?_⟩,
    ⟨fun i hi => ?_, fun S y hy => ?_, fun S y hy => ?_⟩⟩
  · exact Option.some.inj hi ▸ h.stored.1
  · obtain ⟨-, rfl⟩ := by simpa [hfirst] using hy
    exact ⟨2, h.plain.1⟩
  · obtain ⟨-, rfl⟩ := by simpa [hfirst] using hy
    exact h.absorbs.not_mem_swallowers ht
  · exact Option.some.inj hi ▸ h.stored.2
  · obtain ⟨-, rfl⟩ := by simpa [hsecond] using hy
    exact hz
  · obtain ⟨-, rfl⟩ := by simpa [hsecond] using hy
    exact hmild

/-- Nothing is given up when the two substitutions are made one after the other, nor when they are
composed: what becomes of the template at first takes no more than three steps. -/
theorem UnionThen.quiet (hl : 3 ≤ l) (hc : c.Reachable s) (hnull : s.nullChecks = true)
    (hquiet : c.depthReported = false) (hdepth : c.depth = 0)
    (h : UnionThen c z T U a x template m₁ m₂) (hz : c.table.IsPlain z) (hmild : z ∉ swallowers) :
    let ops := Operations.level l
    let r₁ := ((ops.instantiate template (some m₁)).run s).run c
    let r₂ := ((ops.instantiate r₁.1 (some m₂)).run s).run r₁.2
    let r₃ := ((compose ops (some m₁) m₂).run s).run r₂.2
    let r₄ := ((ops.instantiate template r₃.1).run s).run r₃.2
    r₁.2.depthReported = false ∧ r₄.2.depthReported = false := by
  intro ops r₁ r₂ r₃ r₄
  obtain ⟨h₁, h₂⟩ := h.harmless hc hnull hz hmild
  have hroom : c.depth + 3 ≤ maxDepth := by
    rw [hdepth]
    decide
  obtain ⟨hquiet₁, hquiet₄⟩ := not_depthReported_compose hl hc
    hquiet hroom (h.plain.2.mono (by decide)) h₁ h₂ fun p hp => by
      rw [h.first, List.mem_singleton] at hp
      rw [hp]
      exact h.plain.1.mono (by decide)
  refine ⟨hquiet₁, hquiet₄ ?_⟩
  have hgrows : c.table.Grows r₁.2.table := ((ops.instantiate template (some m₁)).later s c).keeps.1
  have hbecomes := becomes_instantiate ops hc h₁ ⟨2, h.plain.2⟩ hquiet₁
  have ht : r₁.2.table.Normal true := hnull ▸ (Checker.Reachable.step _ hc).normal
  have hharmless := h₁.grows hgrows
  rw [hnull, ← h₁.substitute?_eq hgrows] at hbecomes
  refine (h.absorbs.grows h.plain.1.given hgrows).plain_becomes ht hharmless.mild ?_ hbecomes
  rw [h₁.substitute?_eq hgrows, h.substitute?.1]
  exact if_pos rfl

/-- If the type that is put in covers texts, as `string` does, the template becomes another type when
the union is put in at first than by the composed substitution. -/
theorem UnionThen.instantiate_ne (hl : 3 ≤ l) (hc : c.Reachable s) (hnull : s.nullChecks = true)
    (hquiet : c.depthReported = false) (hdepth : c.depth = 0)
    (h : UnionThen c .string T U a x template m₁ m₂) (hz : c.table.IsPlain .string) :
    let ops := Operations.level l
    let r₁ := ((ops.instantiate template (some m₁)).run s).run c
    let r₂ := ((ops.instantiate r₁.1 (some m₂)).run s).run r₁.2
    let r₃ := ((compose ops (some m₁) m₂).run s).run r₂.2
    let r₄ := ((ops.instantiate template r₃.1).run s).run r₃.2
    r₄.2.depthReported = false ∧ r₂.1 ≠ r₄.1 := by
  intro ops r₁ r₂ r₃ r₄
  obtain ⟨h₁, h₂⟩ := h.harmless hc hnull hz (by decide)
  obtain ⟨hquiet₁, hquiet₄⟩ := h.quiet hl hc hnull hquiet hdepth hz (by decide)
  refine ⟨hquiet₄, ?_⟩
  have hc₁ : r₁.2.Reachable s := .step _ hc
  have hgrows : c.table.Grows r₁.2.table := ((ops.instantiate template (some m₁)).later s c).keeps.1
  have hbecomes := becomes_instantiate ops hc h₁ ⟨2, h.plain.2⟩ hquiet₁
  have hplain : r₁.2.table.IsPlain r₁.1 :=
    hbecomes.isPlain hc₁.normal (h₁.mild.grows hgrows) ⟨2, h.plain.2.grows hgrows⟩
  obtain ⟨σ, hσ, htwice, honce⟩ := becomes_compose ops hc₁ ⟨2, h.plain.2.grows hgrows⟩
    (h₁.grows hgrows) (h₂.grows hgrows) hplain hquiet₄
  have hc₄ : r₄.2.Reachable s := .step _ (.step _ (.step _ hc₁))
  have hlater : r₁.2.table.Keeps s.nullChecks r₄.2.table :=
    (((ops.instantiate r₁.1 (some m₂)).later s r₁.2).trans
      (((compose ops (some m₁) m₂).later s r₂.2).trans
        ((ops.instantiate template r₃.1).later s r₃.2))).keeps
  have hgrows₄ := hgrows.trans hlater.1
  have hfirst := hbecomes.grows hc₁.normal hlater
  rw [← h₁.substitute?_eq hgrows₄] at hfirst
  rw [hnull] at hσ htwice honce hfirst
  have hmild := (h₂.grows hgrows₄).mild
  refine (h.absorbs.grows h.plain.1.given hgrows₄).comp_ne (hnull ▸ hc₄.normal) hmild hσ ?_ ?_
    ⟨2, h.plain.1.grows hgrows₄⟩ hfirst htwice honce
  · rw [h₁.substitute?_eq hgrows₄, h.substitute?.1]
    exact if_pos rfl
  · rw [h₂.substitute?_eq hgrows₄, h.substitute?.2]
    exact if_pos rfl

/-- If the type that is put in covers no text, no word is lost, although the union is put into the
template. -/
theorem UnionThen.losesNothing (hl : 3 ≤ l) (hc : c.Reachable s) (hnull : s.nullChecks = true)
    (hquiet : c.depthReported = false) (hdepth : c.depth = 0)
    (h : UnionThen c z T U a x template m₁ m₂) (hz : c.table.IsPlain z) (hmild : z ∉ swallowers)
    (hin : (c.table.kind z).inTemplate) (hcovers : (c.table.kind z).covers (.stringLiteral "a") = false) :
    let ops := Operations.level l
    let r₁ := ((ops.instantiate template (some m₁)).run s).run c
    let r₂ := ((ops.instantiate r₁.1 (some m₂)).run s).run r₁.2
    let r₃ := ((compose ops (some m₁) m₂).run s).run r₂.2
    let r₄ := ((ops.instantiate template r₃.1).run s).run r₃.2
    let t := r₄.2.table
    r₄.2.depthReported = false ∧ (∃ S y, t.Placed S template ∧ t.substitute? (some m₁) S = some y) ∧
      ∀ S y, t.Placed S template → t.substitute? (some m₁) S = some y →
        t.LosesNothing true (t.substitute? (some m₂)) y := by
  intro ops r₁ r₂ r₃ r₄ t
  obtain ⟨h₁, h₂⟩ := h.harmless hc hnull hz hmild
  refine ⟨(h.quiet hl hc hnull hquiet hdepth hz hmild).2, ?_⟩
  have hlater : c.table.Later s.nullChecks t := ((ops.instantiate template (some m₁)).later s c).trans <|
    ((ops.instantiate r₁.1 (some m₂)).later s r₁.2).trans <|
      ((compose ops (some m₁) m₂).later s r₂.2).trans ((ops.instantiate template r₃.1).later s r₃.2)
  have ht : t.Normal true := hnull ▸ hlater.keeps.2 hc.normal
  have hgrows : c.table.Grows t := hlater.keeps.1
  have habsorbs := h.absorbs.grows h.plain.1.given hgrows
  have hfirst : t.substitute? (some m₁) = fun S => if ⟨0⟩ = S then some x else none :=
    (h₁.substitute?_eq hgrows).trans h.substitute?.1
  have hkind : t.kind z = c.table.kind z := kind_eq_of_given hz.given hgrows
  refine ⟨⟨⟨0⟩, x, habsorbs.placed, ?_⟩, fun S y _ hy => ?_⟩
  · rw [hfirst]
    exact if_pos rfl
  · rw [hfirst] at hy
    obtain ⟨-, rfl⟩ := by simpa using hy
    refine habsorbs.losesNothing ht (h₂.grows hgrows).mild (z := z) ?_ (hkind ▸ hin) (hkind ▸ hcovers)
    rw [h₂.substitute?_eq hgrows, h.substitute?.2]
    exact if_pos rfl

end

/-! ## The law -/

/-- Substitution composes. In a check that tells `null` and `undefined` apart, for every type that is
built all the way down and for substitutions that put in such types, none of them `any`, `unknown` or
wrong, substituting twice and substituting once by the composed substitution come to one type. That
holds if nothing nests too deep, and if no type parameter in a template loses a word: what the second
substitution makes of the words that the first one puts in is contributed by what it makes of the type,
so no member was absorbed of which the template would have made a type of its own. -/
theorem instantiate_compose (hc : c.Reachable s) (hnull : s.nullChecks = true)
    (hid : c.table.IsPlain id) (h₁ : c.table.Harmless m₁) (h₂ : c.table.Harmless (some m₂)) :
    let ops := Operations.standard
    let r₁ := ((ops.instantiate id m₁).run s).run c
    let r₂ := ((ops.instantiate r₁.1 (some m₂)).run s).run r₁.2
    let r₃ := ((compose ops m₁ m₂).run s).run r₂.2
    let r₄ := ((ops.instantiate id r₃.1).run s).run r₃.2
    let t := r₄.2.table
    r₄.2.depthReported = false →
      (∀ T x, t.Placed T id → t.substitute? m₁ T = some x →
        t.LosesNothing true (t.substitute? (some m₂)) x) →
      r₂.1 = r₄.1 :=
  instantiate_compose_of (instantiate_none id) hc hnull hid h₁ h₂

/-- A template into whose type parameter a union with a text is put, and then `number` for the other
member of that union, becomes what the composed substitution makes of it: `number` covers no text, so
the text is still there. -/
theorem instantiate_compose_template :
    let s := Setting.strict
    let ops := Operations.standard
    let r := ((unionThen .number).run s).run {}
    let r₁ := ((ops.instantiate r.1.1 (some r.1.2.1)).run s).run r.2
    let r₂ := ((ops.instantiate r₁.1 (some r.1.2.2)).run s).run r₁.2
    let r₃ := ((compose ops (some r.1.2.1) r.1.2.2).run s).run r₂.2
    let r₄ := ((ops.instantiate r.1.1 r₃.1).run s).run r₃.2
    let t := r₄.2.table
    r.2.Reachable s ∧ s.nullChecks = true ∧ r.2.table.IsPlain r.1.1 ∧
      r.2.table.Harmless (some r.1.2.1) ∧ r.2.table.Harmless (some r.1.2.2) ∧
      r₄.2.depthReported = false ∧
      (∃ S x, t.Placed S r.1.1 ∧ t.substitute? (some r.1.2.1) S = some x) ∧
      (∀ S x, t.Placed S r.1.1 → t.substitute? (some r.1.2.1) S = some x →
        t.LosesNothing true (t.substitute? (some r.1.2.2)) x) ∧
      r₂.1 = r₄.1 := by
  have hc : Checker.Reachable Setting.strict (((unionThen .number).run Setting.strict).run {}).2 :=
    .step _ .start
  obtain ⟨hquiet, hdepth⟩ : Quiet Setting.strict {} (unionThen .number) := quiet_unionThen _ rfl
  obtain ⟨T, U, a, x, h⟩ := unionThen_spec (s := Setting.strict) rfl .start .number
  have hnumber := hc.normal.fixed 6 _ rfl
  have hz : (((unionThen .number).run Setting.strict).run {}).2.table.IsPlain .number :=
    .of_isFixed hnumber rfl
  have hkind : (((unionThen .number).run Setting.strict).run {}).2.table.kind .number = .number :=
    kind_of_get? hnumber
  obtain ⟨h₁, h₂⟩ := h.harmless hc rfl hz (by decide)
  obtain ⟨hquiet₄, hput, hwords⟩ := h.losesNothing (l := Operations.maxLevel) (by decide) hc rfl hquiet
    hdepth hz (by decide) (by rw [hkind]; rfl) (by rw [hkind]; rfl)
  exact ⟨hc, rfl, ⟨2, h.plain.2⟩, h₁, h₂, hquiet₄, hput, hwords,
    instantiate_compose hc rfl ⟨2, h.plain.2⟩ h₁ h₂ hquiet₄ hwords⟩

/-- Substitution does not compose for every type: in the state that these steps lead to, the two
substitutions make another type of the template one after the other than the composed one does. The
first one makes a union with a text of it, and that text is not absorbed when `string` is put in. -/
theorem exists_instantiate_compose_ne :
    let s := Setting.strict
    let ops := Operations.standard
    ∃ (c : Checker) (id : TypeId) (m₁ m₂ : MapperId),
      c = (((unionThen .string).run s).run {}).2 ∧ c.Reachable s ∧ s.nullChecks = true ∧
      c.table.IsPlain id ∧ c.table.Harmless (some m₁) ∧ c.table.Harmless (some m₂) ∧
      let r₁ := ((ops.instantiate id (some m₁)).run s).run c
      let r₂ := ((ops.instantiate r₁.1 (some m₂)).run s).run r₁.2
      let r₃ := ((compose ops (some m₁) m₂).run s).run r₂.2
      let r₄ := ((ops.instantiate id r₃.1).run s).run r₃.2
      r₄.2.depthReported = false ∧ r₂.1 ≠ r₄.1 := by
  have hc : Checker.Reachable Setting.strict (((unionThen .string).run Setting.strict).run {}).2 :=
    .step _ .start
  obtain ⟨hquiet, hdepth⟩ : Quiet Setting.strict {} (unionThen .string) := quiet_unionThen _ rfl
  obtain ⟨T, U, a, x, h⟩ := unionThen_spec (s := Setting.strict) rfl .start .string
  have hz : (((unionThen .string).run Setting.strict).run {}).2.table.IsPlain .string :=
    .of_isFixed (hc.normal.fixed 5 _ rfl) rfl
  obtain ⟨h₁, h₂⟩ := h.harmless hc rfl hz (by decide)
  exact ⟨_, _, _, _, rfl, hc, rfl, ⟨2, h.plain.2⟩, h₁, h₂,
    h.instantiate_ne (l := Operations.maxLevel) (by decide) hc rfl hquiet hdepth hz⟩

end Typing

end DeclKit

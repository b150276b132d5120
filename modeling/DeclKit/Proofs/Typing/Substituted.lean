/-
What becomes of a type under a substitution is worked out from what becomes of its parts.

A type that is built of others is built again of the results, one after another; a parameter is looked
up, and a type without parts stays. As each result is what is said to become of the part, so is the
whole. Nothing has to be known about the operators that are worked out for other types.
-/
import DeclKit.Typing.Substituted

set_option autoImplicit false

namespace DeclKit.Typing

open Check TypeTable

variable {ops : Operations} {m : MapperId} {s : Setting} {c : Checker}

/-! ## Parts one after another -/

/-- Where nothing too deep has been reported after a step, nothing was before. -/
theorem not_depthReported_of_run {α : Type} (x : Check α)
    (hd : ((x.run s).run c).2.depthReported = false) : c.depthReported = false := by
  rw [← Bool.not_eq_true] at hd ⊢
  exact fun h => hd ((x.retains s c).depthReported h)

/-- What becomes of several types, one after another. -/
theorem instances_mapM (ids : List TypeId) (hc : c.Faithful s.nullChecks) :
    let r := ((ids.mapM fun id => ops.instantiate id (some m)).run s).run c
    r.2.depthReported = false → r.1.length = ids.length ∧
      ∀ p ∈ ids.zip r.1, r.2.table.Instance s.nullChecks m p.1 p.2 := by
  induction ids generalizing c with
  | nil => exact fun _ => ⟨rfl, fun p hp => absurd hp List.not_mem_nil⟩
  | cons id ids ih =>
    rw [List.mapM_cons]
    intro r hd
    let first := ((ops.instantiate id (some m)).run s).run c
    let rest := ((ids.mapM fun id => ops.instantiate id (some m)).run s).run first.2
    have hfaithful := (ops.instantiate id (some m)).faithful s c hc
    have hlater := (ids.mapM fun id => ops.instantiate id (some m)).later s first.2
    have hfirst : first.2.depthReported = false := not_depthReported_of_run _ (show
      rest.2.depthReported = false from hd)
    obtain ⟨hlength, hall⟩ := ih hfaithful hd
    refine ⟨congrArg Nat.succ hlength, fun p hp => ?_⟩
    rcases List.mem_cons.1 hp with rfl | hp
    · exact (ops.makes id m s c hc hfirst).later hlater
    · exact hall p hp

/-- The spans of a template keep their texts. -/
theorem mapM_spans (f : TypeId → Check TypeId) (spans : List (TypeId × String)) :
    (spans.mapM fun span => do return (← f span.1, span.2) : Check (List (TypeId × String))) =
      do return (← (spans.map (·.1)).mapM f).zip (spans.map (·.2)) := by
  induction spans with
  | nil => simp
  | cons span spans ih =>
    rw [List.mapM_cons, ih, List.map_cons, List.mapM_cons]
    simp only [bind_assoc, pure_bind, List.map_cons, List.zip_cons_cons]

/-- The elements of a tuple without variadic ones keep all but their types. -/
theorem mapM_elements (f : TypeId → Check TypeId) {elements : List TupleElement}
    (h : elements.all (·.kind != .variadic)) :
    (elements.mapM fun e => do
      let type ← f e.type
      if e.kind == .variadic then spreadElements type e.name else return [{ e with type }] :
      Check (List (List TupleElement))) =
      do return (elements.zip (← (elements.map (·.type)).mapM f)).map fun (e, type) =>
        [{ e with type }] := by
  induction elements with
  | nil => simp
  | cons e elements ih =>
    rw [List.all_cons, Bool.and_eq_true] at h
    have hkind : (e.kind == .variadic) = false := by simpa using h.1
    rw [List.mapM_cons, ih h.2, List.map_cons, List.mapM_cons]
    simp only [hkind, Bool.false_eq_true, if_false, bind_assoc, pure_bind, List.zip_cons_cons,
      List.map_cons]

/-! ## The composed substitution -/

theorem mapM_pairs (f : TypeId → Check TypeId) (pairs : Mapper) :
    (pairs.mapM fun (T, x) => do return (T, ← f x) : Check (List (SymbolId × TypeId))) =
      do return (pairs.map (·.1)).zip (← (pairs.map (·.2)).mapM f) := by
  induction pairs with
  | nil => simp
  | cons pair pairs ih =>
    rw [List.mapM_cons, ih, List.map_cons, List.mapM_cons]
    simp only [bind_assoc, pure_bind, List.map_cons, List.zip_cons_cons]

/-- A composed substitution is made of what becomes of the pairs of the first one and of those of the
second one for other parameters. -/
theorem run_compose (ops : Operations) (m₁ : Option MapperId) (m₂ : MapperId) (s : Setting) (c : Checker) :
    ((compose ops m₁ m₂).run s).run c =
      let inner := c.table.mapper m₁
      let parts := (((inner.map (·.2)).mapM fun x => ops.instantiate x (some m₂)).run s).run c
      let pairs := (inner.map (·.1)).zip parts.1
      let more := (parts.2.table.mapper (some m₂)).filter fun q => !pairs.any (·.1 == q.1)
      let r := (TypeTable.makeMapper (pairs ++ more)).run parts.2.table
      (r.1, { parts.2 with table := r.2 }) := by
  show ((Check.run (((c.table.mapper m₁).mapM fun (T, x) => do
    return (T, ← ops.instantiate x (some m₂)) : Check (List (SymbolId × TypeId))) >>= fun pairs => do
    Check.makeMapper (pairs ++ ((← table).mapper (some m₂)).filter
      fun q => !pairs.any (·.1 == q.1))) s).run c) = _
  rw [mapM_pairs fun x => ops.instantiate x (some m₂)]
  rfl

/-! ## Built again -/

/-- A type that is built of others is built again of what becomes of them. -/
theorem instance_built {id : TypeId} {k : TypeKind} (hc : c.Faithful s.nullChecks)
    (hk : c.table.types.get? id.index = some { kind := k }) (hbuilt : k.isBuilt) :
    let parts := ((k.parts.mapM fun id => ops.instantiate id (some m)).run s).run c
    let r := (rebuild s.nullChecks k parts.1).run parts.2.table
    parts.2.depthReported = false → r.2.Instance s.nullChecks m id r.1 := by
  intro parts r hd
  obtain ⟨hlength, hall⟩ := instances_mapM k.parts hc hd
  have hparts := (k.parts.mapM fun id => ops.instantiate id (some m)).later s c
  exact .built hk hbuilt hparts (hc.table.trans hparts) hlength hall

/-- Building a type again is working out its parts and then storing it. -/
theorem run_instantiateKind? {k : TypeKind} (hbuilt : k.isBuilt) :
    ((instantiateKind? ops m k).run s).run c =
      let parts := ((k.parts.mapM fun id => ops.instantiate id (some m)).run s).run c
      let r := (rebuild s.nullChecks k parts.1).run parts.2.table
      (some r.1, { parts.2 with table := r.2 }) := by
  cases k with
  | union ms => rfl
  | template head spans =>
    show ((Check.run ((spans.mapM fun span => do
      return (← ops.instantiate span.1 (some m), span.2)) >>= fun spans => do
      return some (← Check.template head spans)) s).run c) = _
    rw [mapM_spans fun id => ops.instantiate id (some m)]
    rfl
  | interface symbol args =>
    have hargs : args.isEmpty = false := by simpa [TypeKind.isBuilt] using hbuilt
    show ((Check.run (if args.isEmpty then _ else _ : Check (Option TypeId)) s).run c) = _
    rw [hargs]
    rfl
  | tuple elements readonly =>
    show ((Check.run ((elements.mapM fun e => do
      let type ← ops.instantiate e.type (some m)
      if e.kind == .variadic then spreadElements type e.name else return [{ e with type }]) >>=
      fun out => do return some (← Check.intern (.tuple out.flatten readonly))) s).run c) = _
    have hflat (ts : List TypeId) : ((elements.zip ts).map fun (e, type) => [{ e with type }]).flatten =
        (elements.zip ts).map fun (e, type) => { e with type } := by
      rw [← List.flatMap_def, ← List.map_eq_flatMap]
    rw [mapM_elements (fun id => ops.instantiate id (some m)) hbuilt]
    simp only [bind_assoc, pure_bind, hflat]
    rfl
  | _ => cases hbuilt

/-- A type that is built of others has become what is built again. -/
theorem run_substitutedIn_built {t : TypeTable} {id : TypeId} (halias : t.alias? id = none)
    (hbuilt : (t.kind id).isBuilt) :
    ((substitutedIn ops t id m).run s).run c =
      let parts := (((t.kind id).parts.mapM fun id => ops.instantiate id (some m)).run s).run c
      let r := (rebuild s.nullChecks (t.kind id) parts.1).run parts.2.table
      (r.1, { parts.2 with table := r.2 }) := by
  have hrun : substitutedIn ops t id m =
      instantiateKind? ops m (t.kind id) >>= renamed ops t id m := by
    unfold substitutedIn
    cases hk : t.kind id with
    | param symbol =>
      rw [hk] at hbuilt
      cases hbuilt
    | _ => rfl
  rw [hrun]
  show ((Check.run (renamed ops t id m (((instantiateKind? ops m (t.kind id)).run s).run c).1) s).run
    (((instantiateKind? ops m (t.kind id)).run s).run c).2) = _
  rw [run_instantiateKind? hbuilt]
  dsimp only
  unfold renamed
  rw [halias]
  rfl

/-- A type without parts stays. -/
theorem run_substitutedIn_fixed {t : TypeTable} {id : TypeId} (hfixed : (t.kind id).isFixed) :
    ((substitutedIn ops t id m).run s).run c = (id, c) := by
  unfold substitutedIn
  cases hk : t.kind id with
  | interface symbol args =>
    rw [hk] at hfixed
    have hargs : args.isEmpty = true := hfixed
    unfold instantiateKind?
    dsimp only
    rw [hargs]
    rfl
  | param | union | template | tuple | lettered | intersection | written | computed | functionValue
  | keys | access | conditional | mapped =>
    rw [hk] at hfixed
    cases hfixed
  | _ => rfl

/-- What becomes of a type in the table is worked out from what becomes of its parts. -/
theorem instance_substitutedIn {id : TypeId} (hc : c.Faithful s.nullChecks)
    (hin : c.table.has id && c.table.hasMapper m) :
    let r := ((substitutedIn ops c.table id m).run s).run c
    r.2.depthReported = false → r.2.table.Instance s.nullChecks m id r.1 := by
  intro r
  obtain ⟨hid, hm⟩ := Bool.and_eq_true_iff.1 hin
  obtain ⟨⟨k, a⟩, hdata⟩ := Option.isSome_iff_exists.1 hid
  by_cases hstructural : k.isStructural = true ∧ a = none
  · obtain ⟨hk, rfl⟩ := hstructural
    have hkind : c.table.kind id = k := by rw [TypeTable.kind, data, hdata, Option.getD_some]
    have halias : c.table.alias? id = none := by rw [alias?, data, hdata, Option.getD_some]
    by_cases hbuilt : k.isBuilt = true
    · have hrun : r = _ := run_substitutedIn_built halias (hkind ▸ hbuilt)
      rw [hkind] at hrun
      rw [hrun]
      exact instance_built hc hdata hbuilt
    by_cases hfixed : k.isFixed = true
    · intro _
      rw [show r = _ from run_substitutedIn_fixed (hkind ▸ hfixed)]
      exact .fixed hdata hfixed
    · -- a parameter is looked up
      cases k with
      | param symbol =>
        have hrun : r = ((present c.table ((c.table.substitute? (some m) symbol).getD id)).run s).run c := by
          show ((Check.run (substitutedIn ops c.table id m) s).run c) = _
          unfold substitutedIn
          rw [hkind]
        rw [hrun]
        unfold present
        split
        · rename_i hpresent
          exact fun _ => .param hdata hm hpresent
        · intro hd
          rw [depthReported_giveUp] at hd
          cases hd
      | _ => simp [TypeKind.isStructural, TypeKind.isParam, hbuilt, hfixed] at hk
  · intro hd
    have hother : k.isStructural = false ∨ a.isSome := by
      cases a with
      | none => exact .inl (by simpa using hstructural)
      | some a => exact .inr rfl
    exact (Instance.other hdata hother).later ((substitutedIn ops c.table id m).later s c)

/-- What is worked out for a type that is looked at for the first time is what becomes of it. -/
theorem makes_substituted (ops : Operations) (id : TypeId) (m : MapperId) :
    (substituted ops id m).Makes m id := by
  intro s c hc
  by_cases hin : c.table.has id && c.table.hasMapper m
  · have hrun : ((substituted ops id m).run s).run c =
        ((substitutedIn ops c.table id m).run s).run c := by
      show ((Check.run (if c.table.has id && c.table.hasMapper m then _ else _ : Check TypeId) s).run c) = _
      rw [if_pos hin]
      rfl
    rw [hrun]
    exact instance_substitutedIn hc hin
  · have hrun : ((substituted ops id m).run s).run c = ((giveUp .error).run s).run c := by
      show ((Check.run (if c.table.has id && c.table.hasMapper m then _ else _ : Check TypeId) s).run c) = _
      rw [if_neg hin]
    rw [hrun]
    exact makes_giveUp .error s c hc

end DeclKit.Typing

/-
What becomes of a type under a substitution is what the substitution makes of it.

What is said to have become of a type was worked out in the course of a check, part by part and in
tables that have grown since. But unions and templates that are worked out again give the same types
again, and types keep their numbers. So for a type that is built all the way down, it can be read off the
last table.
-/
import DeclKit.Proofs.Types.Mapper
import DeclKit.Proofs.Types.Substitution

set_option autoImplicit false

namespace DeclKit.TypeTable

variable {nullChecks : Bool} {m : MapperId} {t u v : TypeTable} {id r : TypeId}

/-! ## What has been derived of a type -/

/-- A type has been built again, in this table or an earlier one, of what had become of its parts. -/
def BuiltAgain (nullChecks : Bool) (m : MapperId) (t : TypeTable) (k : TypeKind) (r : TypeId) : Prop :=
  ∃ u rs, initial.Later nullChecks u ∧ ((rebuild nullChecks k rs).run u).2.Grows t ∧
    ((rebuild nullChecks k rs).run u).1 = r ∧
    Forall₂ (u.Instance nullChecks m) k.parts rs

/-- What a structural type can have become. -/
inductive Outcome (nullChecks : Bool) (m : MapperId) (t : TypeTable) (k : TypeKind) (id r : TypeId) : Prop
  | fixed : k.isFixed → r = id → Outcome nullChecks m t k id r
  | param {s : SymbolId} : k = .param s → t.hasMapper m → t.Given (.type r) →
      r = (t.substitute? (some m) s).getD id → Outcome nullChecks m t k id r
  | built : k.isBuilt → t.BuiltAgain nullChecks m k r → Outcome nullChecks m t k id r

/-- A substitution that is in the table, if there is one, and puts in plain types, none of which
swallows a union. -/
structure Harmless (t : TypeTable) (m : Option MapperId) : Prop where
  stored : ∀ i ∈ m, t.hasMapper i
  mild : t.Mild (t.substitute? m)

theorem Harmless.substitute?_eq {m : Option MapperId} (h : t.Harmless m) (htu : t.Grows u) :
    u.substitute? m = t.substitute? m := by
  cases m with
  | none => rfl
  | some m => exact substitute?_of_hasMapper (h.stored m rfl) htu

theorem Harmless.grows {m : Option MapperId} (h : t.Harmless m) (htu : t.Grows u) : u.Harmless m where
  stored i hi := hasMapper_of_grows (h.stored i hi) htu
  mild := h.substitute?_eq htu ▸ h.mild.grows htu

theorem Outcome.grows {k : TypeKind} (h : t.Outcome nullChecks m k id r) (htu : t.Grows u) :
    u.Outcome nullChecks m k id r := by
  cases h with
  | fixed hk hr => exact .fixed hk hr
  | param hk hm hr heq =>
    refine .param hk (hasMapper_of_grows hm htu) (hr.mono htu) ?_
    rw [heq, substitute?_of_hasMapper hm htu]
  | built hk hbuilt =>
    obtain ⟨w, rs, hw, hgrows, heq, hparts⟩ := hbuilt
    exact .built hk ⟨w, rs, hw, hgrows.trans htu, heq, hparts⟩

theorem later_rebuild {k : TypeKind} (hk : k.isBuilt) (rs : List TypeId) (t : TypeTable) :
    t.Later nullChecks ((rebuild nullChecks k rs).run t).2 := by
  cases k with
  | union ms => exact .step (.refl t) (.union rs)
  | template head spans => exact .step (.refl t) (.template head _)
  | interface s args => exact .step (.refl t) (.intern rfl)
  | tuple elements readonly => exact .step (.refl t) (.intern rfl)
  | _ => cases hk

namespace Instance

/-- What something has become of is in the table. -/
theorem exists_get? (h : Instance nullChecks m t id r) : ∃ d, t.types.get? id.index = some d := by
  induction h with
  | fixed hid _ => exact ⟨_, hid⟩
  | param hid _ _ => exact ⟨_, hid⟩
  | built hid hk hlater _ _ _ _ =>
    exact ⟨_, (hlater.trans (later_rebuild hk _ _)).keeps.1.types _ _ hid⟩
  | other hid _ => exact ⟨_, hid⟩
  | later _ hlater ih =>
    obtain ⟨d, hd⟩ := ih
    exact ⟨d, hlater.keeps.1.types _ _ hd⟩
  | meet kept _ ih =>
    obtain ⟨d, hd⟩ := ih
    exact ⟨d, (Stored.grows_meet _ kept).types _ _ hd⟩

/-- What a structural type has become, by how types of its kind are built. -/
theorem outcome (h : Instance nullChecks m t id r) {k : TypeKind}
    (hid : t.types.get? id.index = some { kind := k }) (hk : k.isStructural) :
    t.Outcome nullChecks m k id r := by
  have same {t : TypeTable} {k k' : TypeKind} {a : Option AliasRef}
      (hid : t.types.get? id.index = some ⟨k', a⟩) (hid' : t.types.get? id.index = some { kind := k }) :
      k' = k ∧ a = none := TypeData.mk.inj (Option.some.inj (hid.symm.trans hid'))
  induction h with
  | fixed hid' hfixed =>
    obtain ⟨rfl, -⟩ := same hid' hid
    exact .fixed hfixed rfl
  | param hid' hm hr =>
    obtain ⟨rfl, -⟩ := same hid' hid
    exact .param rfl hm (Interner.get?_isSome.1 hr) rfl
  | @built t u id k' rs hid' hbuilt htu hu hlength hparts _ =>
    have hlater := htu.trans (later_rebuild hbuilt rs u)
    obtain ⟨rfl, -⟩ := same (hlater.keeps.1.types _ _ hid') hid
    have hparts := Forall₂.of_forall_zip hlength.symm hparts
    exact .built hbuilt ⟨u, rs, hu, .refl _, rfl, hparts⟩
  | @other t id r d hid' hother =>
    obtain ⟨k', a⟩ := d
    obtain ⟨rfl, rfl⟩ := same hid' hid
    rcases hother with hother | hother
    · rw [hk] at hother
      cases hother
    · cases hother
  | @later t u id r h hlater ih =>
    obtain ⟨⟨k', a⟩, hd⟩ := h.exists_get?
    obtain ⟨rfl, rfl⟩ := same (hlater.keeps.1.types _ _ hd) hid
    exact (ih hd same).grows hlater.keeps.1
  | @meet t id r kept h ih =>
    obtain ⟨⟨k', a⟩, hd⟩ := h.exists_get?
    have hgrows := Stored.grows_meet t kept
    obtain ⟨rfl, rfl⟩ := same (hgrows.types _ _ hd) hid
    exact (ih hd same).grows hgrows

/-- What is said to have become of a plain type, in this table or an earlier one, is what the
substitution makes of it. By induction on how the type is built. -/
theorem given_and_becomes (hv : v.Normal nullChecks) (hσ : v.Mild (v.substitute? (some m))) {n : Nat}
    (hid : v.Plain n id) (huv : u.Grows v) (h : Instance nullChecks m u id r) :
    u.Given (.type r) ∧ v.Becomes nullChecks (v.substitute? (some m)) id r := by
  induction hid generalizing u r with
  | @mk n id k hget hk hparts ih =>
    obtain ⟨d, hd⟩ := h.exists_get?
    obtain rfl : d = { kind := k } := Option.some.inj ((huv.types _ _ hd).symm.trans hget)
    cases h.outcome hd hk with
    | fixed hfixed hr =>
      subst hr
      exact ⟨given_of_get? hd, .fixed hget hfixed⟩
    | @param s hparam hm hr heq =>
      subst hparam
      rw [← substitute?_of_hasMapper hm huv] at heq
      subst heq
      exact ⟨hr, .param hget (hr.mono huv)⟩
    | built hbuilt hagain =>
      obtain ⟨w, rs, hw, hwu, rfl, hinstances⟩ := hagain
      have hn : w.Normal nullChecks := hw.keeps.2 (normal_initial nullChecks)
      have hstep : w.Later nullChecks ((rebuild nullChecks k rs).run w).2 := later_rebuild hbuilt rs w
      have hwv := (hstep.keeps.1.trans hwu).trans huv
      -- the parts were looked at before
      have hrs : Forall₂ (fun p q => w.Given (.type q) ∧
          v.Becomes nullChecks (v.substitute? (some m)) p q) k.parts rs := by
        exact hinstances.imp_of_mem fun p hp q hq => ih p hp hwv hq
      have hgiven := forall_of_forall₂ hrs fun _ _ _ hq => hq.1
      have herror : .error ∉ rs ∨ k.isRestored := by
        refine (error_not_mem_parts hv hget hbuilt).imp_left fun hmild herror => ?_
        obtain ⟨p, hp, -, hq⟩ := hrs.flip.exists_of_mem herror
        exact hq.ne_error hv hσ (fun heq => hmild (heq ▸ hp)) rfl
      have hrebuilt := (rebuilt_run_rebuild hn hbuilt hgiven herror).2
      have hgiven' := fun q hq => (hgiven q hq).mono hstep.keeps.1
      have hn' := hstep.keeps.2 hn
      refine ⟨(hrebuilt.given hn' hbuilt hgiven').mono hwu, .of_forall₂ hget hbuilt
        (hrs.imp fun _ _ hq => hq.2) ?_⟩
      exact hrebuilt.grows hn' hbuilt hgiven' ⟨hwu.trans huv, fun _ => hv⟩

/-- What has become of a plain type under a substitution is what the substitution makes of it. -/
theorem becomes (ht : t.Normal nullChecks) (hm : t.Harmless (some m)) (hid : t.IsPlain id)
    (h : Instance nullChecks m t id r) : t.Becomes nullChecks (t.substitute? (some m)) id r :=
  let ⟨_, hn⟩ := hid
  (h.given_and_becomes ht hm.mild hn (.refl t)).2

end Instance

end DeclKit.TypeTable

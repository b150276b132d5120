/-
Templates are stored in normal form.

The types of a template are settled one after another: a literal goes into the text, a stored template
is opened and its types are settled already, and any other type stays, as no union is left among them
and `never` and `error` have ended the matter before. Each union that is multiplied out is replaced by
one of its members, which are no unions; so the unions among the types bound how often that happens.
-/
import DeclKit.Proofs.Types.Union

set_option autoImplicit false

namespace DeclKit.TypeTable

variable {nullChecks : Bool} {t u : TypeTable}

/-! ## The first union -/

section

variable {α : Type} {type : α → TypeId}

/-- Where there is no union, no part is one. -/
theorem not_union_of_splitAtUnion? {as : List α} (h : t.splitAtUnion? type as = none) :
    ∀ a ∈ as, ∀ ms, t.kind (type a) ≠ .union ms := by
  induction as with
  | nil => exact fun a ha => absurd ha List.not_mem_nil
  | cons b as ih =>
    rw [splitAtUnion?] at h
    split at h
    · cases h
    · rename_i hb
      intro a ha
      rcases List.mem_cons.1 ha with rfl | ha
      · exact hb
      · exact ih (Option.map_eq_none_iff.1 h) a ha

/-- The split is at a union, and the parts before it are none. -/
theorem splitAtUnion?_spec {as : List α} {s : UnionSplit α}
    (h : t.splitAtUnion? type as = some s) :
    as = s.before ++ s.part :: s.after ∧ t.kind (type s.part) = .union s.members := by
  induction as generalizing s with
  | nil => cases h
  | cons b as ih =>
    rw [splitAtUnion?] at h
    split at h
    · rename_i ms hb
      obtain rfl := Option.some.inj h
      exact ⟨rfl, hb⟩
    · obtain ⟨s', hs', rfl⟩ := Option.map_eq_some_iff.1 h
      obtain ⟨has, hk⟩ := ih hs'
      exact ⟨by rw [has]; rfl, hk⟩

/-- How many parts are unions. -/
def unions (t : TypeTable) (type : α → TypeId) (as : List α) : Nat :=
  as.countP fun a => (t.kind (type a)).isUnion

/-- A table that grows makes no union of anything, for the parts that are no unions are in it. -/
theorem unions_grows (htu : t.Grows u) (as : List α) : u.unions type as ≤ t.unions type as := by
  refine List.countP_mono_left fun a _ ha => ?_
  cases hunion : (t.kind (type a)).isUnion with
  | true => rfl
  | false =>
    rw [htu.kind_eq_of (p := fun k => !k.isUnion) rfl (by rw [hunion]; rfl), hunion] at ha
    cases ha

/-- With a type that is no union in place of the first union there are fewer unions. -/
theorem unions_withPart {as : List α} {s : UnionSplit α} {a : α}
    (h : t.splitAtUnion? type as = some s) (ha : (t.kind (type a)).isUnion = false) :
    t.unions type (s.withPart a) < t.unions type as := by
  obtain ⟨has, hk⟩ := splitAtUnion?_spec h
  have hpart : (t.kind (type s.part)).isUnion = true := by
    rw [hk]
    rfl
  rw [has, UnionSplit.withPart, unions, unions, List.countP_append, List.countP_append,
    List.countP_cons, List.countP_cons, ha, hpart]
  exact Nat.add_lt_add_left (Nat.lt_succ_self _) _

end

/-! ## Settling the types -/

/-- The types of a template under construction may stand in a template. -/
def TemplateParts.Settled (t : TypeTable) (p : TemplateParts) : Prop :=
  ∀ s ∈ p.spans, (t.kind s.1).inTemplate

namespace TemplateParts.Settled

variable {p : TemplateParts}

theorem addText (hp : p.Settled t) (text : String) : (p.addText text).Settled t := by
  obtain ⟨head, spans⟩ := p
  cases spans with
  | nil => exact fun s hs => absurd hs List.not_mem_nil
  | cons span spans =>
    intro s hs
    rcases List.mem_cons.1 hs with rfl | hs
    · exact hp span List.mem_cons_self
    · exact hp s (List.mem_cons_of_mem span hs)

theorem addSpan {id : TypeId} (hp : p.Settled t) (hid : (t.kind id).inTemplate) (text : String) :
    (p.addSpan id text).Settled t := by
  intro s hs
  rcases List.mem_cons.1 hs with rfl | hs
  · exact hid
  · exact hp s hs

theorem addSpans {spans : List (TypeId × String)} (hp : p.Settled t)
    (hspans : ∀ s ∈ spans, (t.kind s.1).inTemplate) :
    (spans.foldl (fun q s => q.addSpan s.1 s.2) p).Settled t := by
  induction spans generalizing p with
  | nil => exact hp
  | cons s spans ih =>
    refine ih (hp.addSpan (hspans s List.mem_cons_self) s.2) fun r hr => ?_
    exact hspans r (List.mem_cons_of_mem s hr)

/-- A type that is no union, neither `never` nor `error`, is settled by what is done with it. -/
theorem addPart (ht : t.Normal nullChecks) (hp : p.Settled t) {span : TypeId × String}
    (hunion : ∀ ms, t.kind span.1 ≠ .union ms) (hnever : t.kind span.1 ≠ .never)
    (herror : t.kind span.1 ≠ .error) : (t.addPart p span).Settled t := by
  unfold TypeTable.addPart
  split
  · exact (hp.addText _).addText _
  · rename_i hconstant
    split
    · rename_i head inner hk
      have hform : t.NormalTemplate inner := ht.form hk (by simp)
      exact ((hp.addText head).addSpans hform.plain).addText _
    · rename_i htemplate
      refine hp.addSpan ?_ _
      unfold constantText? at hconstant
      cases hk : t.kind span.1 with
      | union ms => exact absurd hk (hunion ms)
      | never => exact absurd hk hnever
      | error => exact absurd hk herror
      | template head spans => exact absurd hk (htemplate head spans)
      | stringLiteral | numberLiteral | bigintLiteral | true_ | false_ | null | undefined =>
        rw [hk] at hconstant
        cases hconstant
      | _ => rfl

end TemplateParts.Settled

end DeclKit.TypeTable

/-! ## Storing -/

namespace DeclKit.Stored

open TypeTable

variable {nullChecks : Bool}

/-- A template without unions, `never` and `error` among its types is stored in normal form. -/
theorem keeps_flatTemplate {t : TypeTable} (head : String) {spans : List (TypeId × String)}
    (hspans : t.Normal nullChecks → ∀ s ∈ spans,
      (∀ ms, t.kind s.1 ≠ .union ms) ∧ t.kind s.1 ≠ .never ∧ t.kind s.1 ≠ .error) :
    t.Keeps nullChecks ((flatTemplate head spans).run t).2 := by
  have hsettled (ht : t.Normal nullChecks) : (spans.foldl t.addPart { head }).Settled t := by
    have hspans := hspans ht
    have hstart : ({ head } : TemplateParts).Settled t := fun s hs => absurd hs List.not_mem_nil
    -- one span after the other
    generalize ({ head } : TemplateParts) = p at hstart
    induction spans generalizing p with
    | nil => exact hstart
    | cons s spans ih =>
      obtain ⟨hunion, hnever, herror⟩ := hspans s List.mem_cons_self
      exact ih (fun _ r hr => hspans r (List.mem_cons_of_mem s hr))
        (fun r hr => hspans r (List.mem_cons_of_mem s hr)) _ (hstart.addPart ht hunion hnever herror)
  have hform (ht : t.Normal nullChecks) {out : List (TypeId × String)}
      (hout : (spans.foldl t.addPart { head }).spans.reverse = out) (hne : out ≠ []) :
      t.NormalTemplate out := by
    refine ⟨hne, fun s hs => hsettled ht s ?_⟩
    rw [← List.mem_reverse, hout]
    exact hs
  unfold flatTemplate
  refine run_get_bind ?_
  dsimp only
  split
  · exact keeps_intern rfl t
  · rename_i ty tail hout
    split
    · exact keeps_pure TypeId.string t
    · exact TypeTable.keeps_intern fun ht => hform ht hout (List.cons_ne_nil _ _)
  · rename_i hnil _
    exact TypeTable.keeps_intern fun ht => hform ht rfl hnil

theorem keeps_templateStep {head : String} {inner : List (TypeId × String) → Stored TypeId}
    (hinner : ∀ spans, Keeps nullChecks (inner spans)) (spans : List (TypeId × String)) :
    Keeps nullChecks (templateStep nullChecks head inner spans) := by
  unfold templateStep
  split
  · exact keeps_pure TypeId.never
  split
  · exact keeps_pure TypeId.error
  rename_i hnever herror
  refine keeps_get_bind fun t => ?_
  split
  · rename_i s hs
    exact keeps_bind (keeps_mapM fun m => hinner _) (fun parts => keeps_union nullChecks parts) t
  · rename_i hnone
    refine keeps_flatTemplate head fun ht s hs => ?_
    refine ⟨not_union_of_splitAtUnion? hnone s hs, fun hk => hnever ?_, fun hk => herror ?_⟩
    · -- the only type of its kind is `never` itself
      rw [List.any_eq_true]
      exact ⟨s, hs, beq_iff_eq.2 (ht.eq_of_kind (i := 13) rfl rfl hk)⟩
    · rw [List.any_eq_true]
      exact ⟨s, hs, beq_iff_eq.2 (ht.eq_of_kind (i := 1) rfl rfl hk)⟩

theorem keeps_descend_templateStep (nullChecks : Bool) (head : String) (n : Nat)
    (spans : List (TypeId × String)) :
    Keeps nullChecks
      (descend (templateStep nullChecks head) (fun _ => return .error) n spans) := by
  induction n generalizing spans with
  | zero => exact keeps_pure TypeId.error
  | succ n ih => exact keeps_templateStep ih spans

theorem keeps_template (nullChecks : Bool) (head : String) (spans : List (TypeId × String)) :
    Keeps nullChecks (template nullChecks head spans) :=
  keeps_descend_templateStep nullChecks head _ spans

/-! ## Multiplying out -/

/-- A template asks only for templates with fewer unions. -/
theorem run_templateStep_congr {t : TypeTable} (ht : t.Normal nullChecks) (head : String)
    {inner inner' : List (TypeId × String) → Stored TypeId} {spans : List (TypeId × String)}
    (hinner' : ∀ spans, Keeps nullChecks (inner' spans))
    (h : ∀ u spans', t.Keeps nullChecks u → u.unions (·.1) spans' < t.unions (·.1) spans →
      (inner spans').run u = (inner' spans').run u) :
    (templateStep nullChecks head inner spans).run t =
      (templateStep nullChecks head inner' spans).run t := by
  rw [templateStep, templateStep]
  split
  · rfl
  split
  · rfl
  simp only [StateT.run_bind, StateT.run_get, pure_bind]
  split
  · rename_i s hs
    have hk := (splitAtUnion?_spec hs).2
    have hparts : (s.members.mapM fun m => inner (s.withPart (m, s.part.2))).run t =
        (s.members.mapM fun m => inner' (s.withPart (m, s.part.2))).run t :=
      run_mapM_congr (TypeTable.Keeps.refl nullChecks) TypeTable.Keeps.trans (fun m => hinner' _)
        fun m hm u hu => h u _ hu <|
          Nat.lt_of_le_of_lt (unions_grows hu.1 _) (unions_withPart hs (ht.not_union_of_mem hk hm))
    rw [StateT.run_bind, StateT.run_bind, hparts]
  · rfl

/-- Multiplying out comes to an end: a template has its type as soon as it may multiply out more often
than there are unions among its types, and what would be answered after that does not matter. -/
theorem run_descend_templateStep {t : TypeTable} (ht : t.Normal nullChecks) (head : String)
    (bottom : List (TypeId × String) → Stored TypeId) {n : Nat} {spans : List (TypeId × String)}
    (hn : t.unions (·.1) spans < n) :
    (descend (templateStep nullChecks head) bottom n spans).run t =
      (template nullChecks head spans).run t := by
  have hm : t.unions (·.1) spans < spans.length + 1 := Nat.lt_succ_of_le List.countP_le_length
  unfold template
  generalize spans.length + 1 = m at hm
  -- on the unions that are left, in whatever table
  induction n generalizing m t spans with
  | zero => exact absurd hn (Nat.not_lt_zero _)
  | succ n ih =>
    cases m with
    | zero => exact absurd hm (Nat.not_lt_zero _)
    | succ m =>
      refine run_templateStep_congr ht head (keeps_descend_templateStep nullChecks head m)
        fun u spans' hu hlt => ih (hu.2 ht) ?_ _ ?_
      · omega
      · omega

/-! ## Letter maps -/

/-- A letter map is stored only for what it has to wait for. -/
theorem keeps_letteredMember (m : LetterMap) {t : TypeTable} {id : TypeId}
    (h : t.Normal nullChecks → (t.kind id).isUnion = false) :
    t.Keeps nullChecks ((letteredMember m id).run t).2 := by
  have hintern (hwaits : t.Normal nullChecks → (t.kind id).waitsUnder m) :
      t.Keeps nullChecks ((intern (.lettered m id)).run t).2 := TypeTable.keeps_intern hwaits
  refine run_get_bind ?_
  cases hk : t.kind id with
  | stringLiteral s => exact keeps_intern rfl t
  | any | error | never => exact keeps_pure id t
  | lettered inner i =>
    dsimp only
    split
    · exact keeps_pure id t
    · rename_i hne
      refine hintern fun _ => ?_
      rw [hk]
      simpa [TypeKind.waitsUnder] using hne
  | union ms =>
    refine hintern fun ht => ?_
    have hunion := h ht
    rw [hk] at hunion
    cases hunion
  | _ => exact hintern fun _ => by rw [hk]; rfl

theorem grows_letteredMember (m : LetterMap) (t : TypeTable) (id : TypeId) :
    t.Grows ((letteredMember m id).run t).2 := by
  have hintern : t.Grows ((intern (.lettered m id)).run t).2 := grows_store
  rw [letteredMember, StateT.run_bind, StateT.run_get, pure_bind]
  cases t.kind id with
  | stringLiteral s => exact grows_store
  | any | error | never => exact .refl t
  | lettered inner i =>
    dsimp only
    split
    · exact .refl t
    · exact hintern
  | _ => exact hintern

/-- The members of a union are none themselves, and stay what they are from one letter map to the
next. -/
theorem keeps_mapM_letteredMember (m : LetterMap) {t : TypeTable} {ids : List TypeId}
    (h : t.Normal nullChecks → ∀ id ∈ ids, (t.kind id).inUnion) :
    t.Keeps nullChecks ((ids.mapM (letteredMember m)).run t).2 := by
  suffices hmapM : t.Grows ((ids.mapM (letteredMember m)).run t).2 ∧ (t.Normal nullChecks →
      (∀ id ∈ ids, (t.kind id).inUnion) → ((ids.mapM (letteredMember m)).run t).2.Normal nullChecks) from
    ⟨hmapM.1, fun ht => hmapM.2 ht (h ht)⟩
  clear h
  induction ids generalizing t with
  | nil => exact ⟨.refl t, fun ht _ => ht⟩
  | cons id ids ih =>
    have hgrows := grows_letteredMember m t id
    rw [List.mapM_cons]
    refine ⟨hgrows.trans ih.1, fun ht hin => ?_⟩
    rw [List.forall_mem_cons] at hin
    have hnext := (keeps_letteredMember m fun _ => TypeKind.isUnion_of_inUnion hin.1).2 ht
    have hkept (i : TypeId) (hi : i ∈ ids) : (((letteredMember m id).run t).2.kind i).inUnion := by
      rw [hgrows.kind_eq_of rfl (hin.2 i hi)]
      exact hin.2 i hi
    exact ih.2 hnext hkept

theorem keeps_lettered (nullChecks : Bool) (m : LetterMap) (id : TypeId) :
    Keeps nullChecks (lettered nullChecks m id) := by
  refine keeps_get_bind fun t => ?_
  cases hk : t.kind id with
  | union ms =>
    refine (keeps_mapM_letteredMember m fun ht i hi => ?_).trans (keeps_union nullChecks _ _)
    exact (ht.union hk hi).plain i hi
  | _ =>
    refine keeps_letteredMember m fun _ => ?_
    rw [hk]
    rfl

end DeclKit.Stored

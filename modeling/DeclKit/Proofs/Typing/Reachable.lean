/-
The types that a check can store.

A check changes its table by the steps of tables and by nothing else, and each of these keeps the table
normal. So in whatever state a check may be, and with and without null checks, the stored types are in
normal form. For that reason, too, unions, intersections and templates come to an end: what they open or
multiply out has nothing left to open or multiply out.
-/
import DeclKit.Proofs.Typing.Intersection

set_option autoImplicit false

namespace DeclKit

/-! ## The texts of a template -/

namespace Template

/-- The texts of a template, one before its types and one behind each of them. -/
def texts (head : String) (spans : List (TypeId × String)) : List String :=
  head :: spans.map (·.2)

theorem length_texts (head : String) (spans : List (TypeId × String)) :
    (texts head spans).length = spans.length + 1 := by
  rw [texts, List.length_cons, List.length_map]

/-- The texts between the types are those without the first and the last. -/
theorem middle_texts (head : String) (spans : List (TypeId × String)) :
    spans.dropLast.map (·.2) = ((texts head spans).drop 1).take ((texts head spans).length - 2) := by
  rw [length_texts, texts, List.drop_one, List.tail_cons, List.dropLast_eq_take, List.map_take]
  rfl

end Template

/-! ## Reachable states -/

/-- A check of no files, in which `null` and `undefined` are types of their own. -/
def Setting.strict : Setting := ⟨⟨{}, { strict := true }, #[], [], {}, [], [], []⟩, fun _ => []⟩

theorem TypeTable.Normal.form_of_stores {nullChecks : Bool} {t : TypeTable}
    (ht : t.Normal nullChecks) {id : TypeId} {k : TypeKind} (h : t.Stores id k) :
    t.NormalKind nullChecks k := by
  obtain ⟨d, hd, rfl⟩ := h
  exact ht.forms _ d hd

namespace Checker

open TypeTable

/-- The states that a check can reach: from the first one, by any steps one after another. -/
inductive Reachable (s : Setting) : Checker → Prop where
  | start : Reachable s {}
  | step {α : Type} {c : Checker} (x : Check α) :
      Reachable s c → Reachable s ((x.run s).run c).2

variable {s : Setting} {c : Checker}

/-- The tables of a check are among those that the first one can become. -/
theorem Reachable.later (h : Reachable s c) : initial.Later s.nullChecks c.table := by
  induction h with
  | start => exact .refl initial
  | step x _ ih => exact ih.trans (x.later s _)

/-- The table of a check is normal in every state. -/
theorem Reachable.normal (h : Reachable s c) : c.table.Normal s.nullChecks :=
  h.later.keeps.2 (normal_initial s.nullChecks)

/-- The normal forms of stored types. In every state that a check can reach, stored unions,
intersections and templates are in normal form, and a template has one more text than types, so that
there is a first and a last one and the middle ones lie between them. Because of this the operators end
on all types: a union and an intersection are opened in two steps, and an intersection or a template is
multiplied out no more often than there are unions among its types. Whatever would be answered after
that is not asked for. -/
theorem Reachable.normal_forms (h : Reachable s c) :
    (∀ i ms, c.table.Stores i (.union ms) → c.table.NormalUnion s.nullChecks ms) ∧
    (∀ i ms, c.table.Stores i (.intersection ms) → c.table.NormalIntersection ms) ∧
    (∀ i head spans, c.table.Stores i (.template head spans) →
      c.table.NormalTemplate spans ∧
      (Template.texts head spans).length = spans.length + 1 ∧
      2 ≤ (Template.texts head spans).length ∧
      spans.dropLast.map (·.2) =
        ((Template.texts head spans).drop 1).take ((Template.texts head spans).length - 2)) ∧
    (∀ bottom n i p, 2 ≤ n →
      descend c.table.collectStep bottom n i p = c.table.collectUnion p i) ∧
    (∀ bottom n i, 2 ≤ n → descend c.table.conjunctsStep bottom n i = c.table.conjuncts i) ∧
    (∀ ops ids, ∃ result, ∀ bottom n, c.table.unions id ids < n →
      ((descend (Typing.intersectionStep ops) bottom n ids).run s).run c = result) ∧
    (∀ bottom n head spans, c.table.unions (·.1) spans < n →
      (descend (templateStep s.nullChecks head) bottom n spans).run c.table =
        (template s.nullChecks head spans).run c.table) := by
  have ht := h.normal
  refine ⟨fun i ms hi => ht.form_of_stores hi, fun i ms hi => (ht.form_of_stores hi).1,
    fun i head spans hi => ?_, fun bottom n i p hn => ?_, fun bottom n i hn => ?_,
    fun ops ids => ?_, fun bottom n head spans hn => ?_⟩
  · have hform : c.table.NormalTemplate spans := ht.form_of_stores hi
    have hlen := Template.length_texts head spans
    refine ⟨hform, hlen, ?_, Template.middle_texts head spans⟩
    rw [hlen]
    exact Nat.succ_le_succ (List.length_pos_iff.2 hform.nonempty)
  · obtain ⟨n, rfl⟩ := Nat.exists_eq_add_of_le' hn
    exact descend_collectStep ht bottom n i p
  · obtain ⟨n, rfl⟩ := Nat.exists_eq_add_of_le' hn
    exact descend_conjunctsStep ht bottom n i
  · let enough := descend (Typing.intersectionStep ops) (fun _ => return .error)
      (c.table.unions id ids + 1)
    refine ⟨((enough ids).run s).run c, fun bottom n hn => ?_⟩
    exact Typing.run_descend_intersectionStep ht bottom _ hn (Nat.lt_succ_self _)
  · exact Stored.run_descend_templateStep ht head bottom hn

/-- A type of a kind that carries aliases gets another number with one. -/
theorem stores_attachAlias {id : TypeId} {d : TypeData} (hd : c.table.types.get? id.index = some d)
    (hcarries : carriesAlias d.kind) (a : AliasRef) :
    (((Check.attachAlias id a).run s).run c).2.table.Stores
      (((Check.attachAlias id a).run s).run c).1 d.kind := by
  have hrun : (attachAlias id a).run c.table =
      (TypeTable.store { d with aliased := some a }).run c.table := by
    unfold attachAlias
    simp only [StateT.run_bind, StateT.run_get, pure_bind, hd]
    rw [if_pos hcarries]
  show ((attachAlias id a).run c.table).2.Stores ((attachAlias id a).run c.table).1 d.kind
  rw [hrun]
  exact ⟨_, store_get?, rfl⟩

/-- A type that is reached through an alias has a second number, and stands there in normal form. -/
theorem Reachable.normal_forms_aliased :
    let s : Setting := ⟨⟨{}, {}, #[], [], {}, [], [], []⟩, fun _ => []⟩
    let r := ((Check.attachAlias .boolean ⟨⟨0⟩, []⟩).run s).run {}
    Reachable s r.2 ∧ r.2.table.Stores r.1 (.union [.false_, .true_]) ∧
      r.2.table.NormalUnion s.nullChecks [.false_, .true_] := by
  intro s r
  have hreach : Reachable s r.2 := .step (Check.attachAlias .boolean ⟨⟨0⟩, []⟩) .start
  have hboolean : ({} : Checker).table.types.get? TypeId.boolean.index =
      some { kind := .union [.false_, .true_] } := by
    dsimp only
    rw [initial_get?]
    rfl
  have hstores := stores_attachAlias (s := s) hboolean rfl ⟨⟨0⟩, []⟩
  exact ⟨hreach, hstores, hreach.normal_forms.1 r.1 _ hstores⟩

end Checker

end DeclKit

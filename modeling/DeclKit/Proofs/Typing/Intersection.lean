/-
The intersection of types comes to an end.

A union among the operands is multiplied out, and the intersections that this asks for have one of its
members in its place, which is no union. Opening the operands brings no unions back, for the members of
an intersection are none either. So the unions among the operands bound how often an intersection asks
for further ones, although the table grows meanwhile.
-/
import DeclKit.Proofs.Types.Intersection
import DeclKit.Typing.Operators

set_option autoImplicit false

namespace DeclKit

/-! ## Steps of a check in a row -/

namespace Check

variable {α β : Type}

/-- A step that looks at what is remembered goes on from that state. -/
theorem run_state_bind (f : Checker → Check β) (s : Setting) (c : Checker) :
    ((state >>= f).run s).run c = ((f c).run s).run c := rfl

theorem run_kind_bind (id : TypeId) (f : TypeKind → Check β) (s : Setting) (c : Checker) :
    ((kind id >>= f).run s).run c = ((f (c.table.kind id)).run s).run c := rfl

/-- A step on the table changes nothing but the table. -/
theorem run_storedBy (step : Bool → Stored α)
    (h : ∀ nullChecks, (step nullChecks).Allowed nullChecks) (s : Setting) (c : Checker) :
    ((storedBy step h).run s).run c = (((step s.nullChecks).run c.table).1,
      { c with table := ((step s.nullChecks).run c.table).2 }) := rfl

theorem run_union (ids : List TypeId) (s : Setting) (c : Checker) :
    ((union ids).run s).run c = (((TypeTable.union s.nullChecks ids).run c.table).1,
      { c with table := ((TypeTable.union s.nullChecks ids).run c.table).2 }) :=
  run_storedBy (fun nullChecks => TypeTable.union nullChecks ids) (fun _ => .union ids) s c

theorem run_mapM (f : α → Check β) (xs : List α) (s : Setting) :
    (xs.mapM f).run s = xs.mapM fun x => (f x).run s := by
  induction xs with
  | nil => rfl
  | cons x xs ih =>
    rw [List.mapM_cons, List.mapM_cons, ← ih]
    rfl

/-- Steps run alike one after another if each runs like its counterpart in every state that comes up. -/
theorem run_mapM_congr {f g : α → Check β} {xs : List α} {s : Setting} {c : Checker}
    (h : ∀ x ∈ xs, ∀ d : Checker, c.table.Keeps s.nullChecks d.table →
      ((f x).run s).run d = ((g x).run s).run d) :
    ((xs.mapM f).run s).run c = ((xs.mapM g).run s).run c := by
  rw [run_mapM, run_mapM]
  exact Stored.run_mapM_congr (R := fun c d => c.table.Keeps s.nullChecks d.table)
    (fun c => .refl s.nullChecks c.table) TypeTable.Keeps.trans
    (fun x c => ((g x).later s c).keeps) h

end Check

/-! ## Multiplying out -/

namespace Typing

open TypeTable

variable {ops : Operations} {s : Setting}

/-- An intersection asks only for intersections with fewer unions among the types. -/
theorem run_intersectionStep_congr {c : Checker} (hc : c.table.Normal s.nullChecks)
    {inner inner' : List TypeId → Check TypeId} {ids : List TypeId}
    (h : ∀ (d : Checker) ids', c.table.Keeps s.nullChecks d.table →
      d.table.unions id ids' < c.table.unions id ids →
      ((inner ids').run s).run d = ((inner' ids').run s).run d) :
    ((intersectionStep ops inner ids).run s).run c =
      ((intersectionStep ops inner' ids).run s).run c := by
  unfold intersectionStep Check.intersection
  dsimp only [StateT.run]
  split
  · rfl
  · rename_i split hsplit
    have hparts : ((split.members.mapM fun m => inner (split.withPart m)).run s).run c =
        ((split.members.mapM fun m => inner' (split.withPart m)).run s).run c :=
      Check.run_mapM_congr fun m hm d hd => h d _ hd <|
        Nat.lt_of_le_of_lt (unions_grows hd.1 _) (unions_of_meeting hc hsplit hm)
    show (((split.members.mapM fun m => inner (split.withPart m)) >>= Check.union).run s).run c =
      (((split.members.mapM fun m => inner' (split.withPart m)) >>= Check.union).run s).run c
    exact congrArg (fun r : List TypeId × Checker => ((Check.union r.1).run s).run r.2) hparts
  · rfl

/-- Multiplying out comes to an end: an intersection has its type as soon as it may multiply out more
often than there are unions among the types, and what would be answered after that does not matter. -/
theorem run_descend_intersectionStep {c : Checker} (hc : c.table.Normal s.nullChecks)
    (bottom bottom' : List TypeId → Check TypeId) {n m : Nat} {ids : List TypeId}
    (hn : c.table.unions id ids < n) (hm : c.table.unions id ids < m) :
    ((descend (intersectionStep ops) bottom n ids).run s).run c =
      ((descend (intersectionStep ops) bottom' m ids).run s).run c := by
  -- on the unions that are left, in whatever state
  induction n generalizing m c ids with
  | zero => exact absurd hn (Nat.not_lt_zero _)
  | succ n ih =>
    cases m with
    | zero => exact absurd hm (Nat.not_lt_zero _)
    | succ m =>
      refine run_intersectionStep_congr hc fun d ids' hd hlt => ih (hd.2 hc) ?_ ?_
      · omega
      · omega

/-! ## A stored intersection once more -/

/-- Members that go together are stored without those that are found superfluous. -/
theorem run_intersection_of_meeting {c : Checker} {ids ms : List TypeId}
    (h : c.table.meeting s.nullChecks ids = .members ms) :
    let dropped := ((emptyObjects ops ms).run s).run c
    ((intersection ops ids).run s).run c =
      (Checker.store (meet (ms.filter fun m => !dropped.1.contains m))).run dropped.2 := by
  unfold intersection intersectionStep Check.intersection
  dsimp only [StateT.run]
  rw [h]
  rfl

/-- The members of a stored intersection still go together. -/
theorem meeting_of_stores {c : Checker} (hc : c.Faithful s.nullChecks) {ids : List TypeId} {i : TypeId}
    (h : c.table.Stores i (.intersection ids)) :
    c.table.NormalIntersection ids ∧ c.table.meeting s.nullChecks ids = .members ids := by
  obtain ⟨d, hd, hk⟩ := h
  have hn : c.table.Normal s.nullChecks := hc.table.keeps.2 (normal_initial s.nullChecks)
  have hform := hn.forms i.index d hd
  rw [hk] at hform
  obtain ⟨hids, hmeets⟩ := hform
  exact ⟨hids, meeting_of_together hn ⟨hids.distinct, hids.plain, hmeets⟩⟩

/-- A stored intersection is the intersection of its members: they still go together, and none of them has
become superfluous. -/
theorem restores_intersection (ops : Operations) (ids : List TypeId) :
    (intersection ops ids).Restores ids := by
  intro s c hc ht hstored hcomputed
  obtain ⟨i, d, hd, hk⟩ := hstored
  obtain ⟨hids, hmeeting⟩ := meeting_of_stores hc ⟨d, hd, hk⟩
  rw [run_intersection_of_meeting hmeeting]
  intro hquiet
  have hreduced := ht.reduced (((emptyObjects ops ids).retains s c).quiet hquiet) i.index d hd
  rw [hk] at hreduced
  have hdropped : (((emptyObjects ops ids).run s).run c).1 = [] :=
    (emptyObjects_eq_superfluous ops hc ht hids.plain hcomputed hquiet).trans (hreduced hcomputed)
  have hkept : ids.filter (fun m => !([] : List TypeId).contains m) = ids :=
    List.filter_eq_self.2 fun m _ => rfl
  rw [hdropped, hkept]
  obtain _ | ⟨m, _ | ⟨m', ms⟩⟩ := ids
  · cases hids.several
  · exact absurd hids.several (Nat.lt_irrefl 1 ∘ Nat.lt_of_succ_le)
  · exact store_get?

end Typing

end DeclKit

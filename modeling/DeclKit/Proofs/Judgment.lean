/-
Judgments about lists.

What is known about each step of a loop that collects results is known of the results together, each
with the element that it comes from.
-/
import DeclKit.Judgment
import Mathlib.Data.List.Forall2

set_option autoImplicit false

namespace DeclKit.Judgment

variable {m : Type → Type} [Monad m] {J : Judgment m} {α β : Type}

/-- What is known about each result of a list is known about all of them. -/
theorem gives_mapM [LawfulMonad m] {xs : List α} {f : α → m β} {R : α → β → Prop}
    (h : ∀ x ∈ xs, J.gives (f x) (R x)) : J.gives (xs.mapM f) (List.Forall₂ R xs) := by
  induction xs with
  | nil => exact J.pure .nil
  | cons x xs ih =>
    rw [List.mapM_cons]
    refine J.bind (h x List.mem_cons_self) fun y hy => ?_
    refine J.bind (ih fun z hz => h z (List.mem_cons_of_mem x hz)) fun ys hys => ?_
    exact J.pure (.cons hy hys)

/-- Results of a list that are known one by one are known together. -/
theorem gives_mapM_forall₂ [LawfulMonad m] {γ : Type} {xs : List α} {zs : List γ} {f : α → m β}
    {R : γ → β → Prop} (h : List.Forall₂ (fun x z => J.gives (f x) (R z)) xs zs) :
    J.gives (xs.mapM f) (List.Forall₂ R zs) := by
  induction h with
  | nil => exact J.pure .nil
  | cons hx _ ih =>
    rw [List.mapM_cons]
    exact J.bind hx fun y hy => J.bind ih fun ys hys => J.pure (.cons hy hys)

/-- Results of a list none of which is left out are known together. -/
theorem gives_filterMapM_forall₂ [LawfulMonad m] {γ : Type} {xs : List α} {zs : List γ}
    {f : α → m (Option β)} {R : γ → β → Prop}
    (h : List.Forall₂ (fun x z => J.gives (f x) fun y => ∃ w, y = some w ∧ R z w) xs zs) :
    J.gives (xs.filterMapM f) (List.Forall₂ R zs) := by
  induction h with
  | nil => exact J.pure .nil
  | cons hx _ ih =>
    rw [List.filterMapM_cons]
    refine J.bind hx fun y hy => ?_
    obtain ⟨w, rfl, hw⟩ := hy
    exact J.bind ih fun ws hws => J.pure (.cons hw hws)

end DeclKit.Judgment

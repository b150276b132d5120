/-
Judgments: what can be said about the results of computations.

A program of the checker or the binder is a sequence of steps, with loops over lists. What is known
about each step is all that is needed about the sequence, whatever the monad is and whatever is
known about its state.
-/

set_option autoImplicit false

namespace DeclKit

/-- A way to speak about the results of computations that follows their sequence. -/
structure Judgment (m : Type → Type) [Monad m] where
  gives : {α : Type} → m α → (α → Prop) → Prop
  pure : ∀ {α : Type} {a : α} {P : α → Prop}, P a → gives (pure a) P
  bind : ∀ {α β : Type} {x : m α} {f : α → m β} {P : α → Prop} {Q : β → Prop},
    gives x P → (∀ a, P a → gives (f a) Q) → gives (x >>= f) Q

namespace Judgment

variable {m : Type → Type} [Monad m] (J : Judgment m) {α β : Type}

/-- Nothing is said about the result, though perhaps about the state. -/
def holds (x : m α) : Prop := J.gives x fun _ => True

variable {J}

theorem holds_pure {a : α} : J.holds (Pure.pure a) := J.pure trivial

theorem holds_bind {x : m α} {f : α → m β} (hx : J.holds x) (hf : ∀ a, J.holds (f a)) :
    J.holds (x >>= f) := J.bind hx fun a _ => hf a

/-- A loop over a list, by induction on the list: a turn may end the loop. -/
theorem holds_forIn {xs : List α} {b : β} {f : α → β → m (ForInStep β)}
    (h : ∀ x ∈ xs, ∀ b, J.holds (f x b)) : J.holds (forIn xs b f) := by
  induction xs generalizing b with
  | nil => exact holds_pure
  | cons x xs ih =>
    rw [List.forIn_cons]
    refine holds_bind (h x List.mem_cons_self b) fun step => ?_
    cases step with
    | done b => exact holds_pure
    | yield b => exact ih fun y hy => h y (List.mem_cons_of_mem x hy)

/-- A turn of a loop that only acts on the state. -/
theorem holds_turn {x : m PUnit} (h : J.holds x) : J.holds (do x; return ForInStep.yield PUnit.unit) :=
  holds_bind h fun _ => holds_pure

/-- A loop all of whose turns only act on the state. -/
theorem holds_for {xs : List α} {f : α → m PUnit} (h : ∀ x ∈ xs, J.holds (f x)) :
    J.holds (do for x in xs do f x) :=
  holds_bind (holds_forIn fun x hx _ => holds_turn (h x hx)) fun _ => holds_pure

theorem gives_mono [LawfulMonad m] {x : m α} {P Q : α → Prop} (h : J.gives x P)
    (hPQ : ∀ a, P a → Q a) : J.gives x Q := by
  rw [← bind_pure x]
  exact J.bind h fun a ha => J.pure (hPQ a ha)

/-- An element that is known to give a result gives one of the results of the list. -/
theorem gives_filterMapM [LawfulMonad m] {xs : List α} {f : α → m (Option β)}
    {Q : α → Prop} {R : α → β → Prop}
    (h : ∀ x ∈ xs, J.gives (f x) fun y => Q x → ∃ z, y = some z ∧ R x z) :
    J.gives (xs.filterMapM f) fun ys => ∀ x ∈ xs, Q x → ∃ y ∈ ys, R x y := by
  induction xs with
  | nil => exact J.pure fun x hx => absurd hx List.not_mem_nil
  | cons x xs ih =>
    have htail := ih fun z hz => h z (List.mem_cons_of_mem x hz)
    rw [List.filterMapM_cons]
    refine J.bind (h x List.mem_cons_self) fun y hy => ?_
    cases y with
    | none =>
      refine gives_mono htail fun ys hys z hz hQ => ?_
      obtain rfl | hz := List.mem_cons.1 hz
      · obtain ⟨_, hnone, _⟩ := hy hQ
        cases hnone
      · exact hys z hz hQ
    | some y =>
      refine J.bind htail fun ys hys => J.pure fun z hz hQ => ?_
      obtain rfl | hz := List.mem_cons.1 hz
      · obtain ⟨w, hw, hR⟩ := hy hQ
        obtain rfl := Option.some.inj hw
        exact ⟨y, List.mem_cons_self, hR⟩
      · obtain ⟨w, hw, hR⟩ := hys z hz hQ
        exact ⟨w, List.mem_cons_of_mem y hw, hR⟩

/-- Every result of the list comes from one of its elements. -/
theorem gives_filterMapM_all [LawfulMonad m] {xs : List α} {f : α → m (Option β)}
    {R : α → β → Prop} (h : ∀ x ∈ xs, J.gives (f x) fun y => ∀ z ∈ y, R x z) :
    J.gives (xs.filterMapM f) fun ys => ∀ y ∈ ys, ∃ x ∈ xs, R x y := by
  induction xs with
  | nil => exact J.pure fun y hy => absurd hy List.not_mem_nil
  | cons x xs ih =>
    have htail := ih fun z hz => h z (List.mem_cons_of_mem x hz)
    rw [List.filterMapM_cons]
    refine J.bind (h x List.mem_cons_self) fun y hy => ?_
    have hfrom {ys : List β} (hys : ∀ z ∈ ys, ∃ w ∈ xs, R w z) :
        ∀ z ∈ ys, ∃ w ∈ x :: xs, R w z := by
      intro z hz
      obtain ⟨w, hw, hR⟩ := hys z hz
      exact ⟨w, List.mem_cons_of_mem x hw, hR⟩
    cases y with
    | none => exact gives_mono htail fun ys hys => hfrom hys
    | some y =>
      refine J.bind htail fun ys hys => J.pure fun z hz => ?_
      obtain rfl | hz := List.mem_cons.1 hz
      · exact ⟨x, List.mem_cons_self, hy z rfl⟩
      · exact hfrom hys z hz

end Judgment

end DeclKit

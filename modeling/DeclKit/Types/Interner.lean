/-
Numbering values in the order in which they are first met.

Equal values get one number, and a number leads back to its value. That the two directions agree is
part of the structure, so whoever holds a table may rely on it.
-/
import Std.Data.HashMap

set_option autoImplicit false

namespace DeclKit

/-- Values and their numbers. -/
structure Interner (α : Type) [BEq α] [Hashable α] [LawfulBEq α] where
  items : Array α := #[]
  numbers : Std.HashMap α Nat := {}
  numbered : ∀ (a : α) (i : Nat), numbers[a]? = some i ↔ items[i]? = some a := by
    simp only [Std.HashMap.getElem?_empty, Array.getElem?_empty, reduceCtorEq, implies_true]

namespace Interner

variable {α : Type} [BEq α] [Hashable α] [LawfulBEq α]

instance : Inhabited (Interner α) := ⟨{}⟩

/-- How many values have a number. -/
def size (t : Interner α) : Nat := t.items.size

/-- The value with a number. -/
def get? (t : Interner α) (i : Nat) : Option α := t.items[i]?

/-- Numbering a new value with the next number keeps both directions in step. -/
theorem numbered_push (t : Interner α) (a : α) (h : t.numbers[a]? = none) (b : α) (i : Nat) :
    (t.numbers.insert a t.items.size)[b]? = some i ↔ (t.items.push a)[i]? = some b := by
  rw [Std.HashMap.getElem?_insert, Array.getElem?_push]
  have fresh : ∀ j, t.items[j]? ≠ some a := fun j hj => by
    rw [(t.numbered a j).2 hj] at h
    cases h
  by_cases hab : a = b
  · subst hab
    simp only [beq_self_eq_true, if_true, Option.some.injEq]
    by_cases hi : i = t.items.size
    · simp [hi]
    · simp [hi, Ne.symm hi, fresh i]
  · simp only [beq_iff_eq, hab, if_false]
    by_cases hi : i = t.items.size
    · subst hi
      simp [hab, t.numbered b]
    · simp [hi, t.numbered b]

/-- The number of a value, which is numbered now if it was not before. -/
def intern (t : Interner α) (a : α) : Nat × Interner α :=
  match h : t.numbers[a]? with
  | some i => (i, t)
  | none => (t.items.size,
      { items := t.items.push a
        numbers := t.numbers.insert a t.items.size
        numbered := t.numbered_push a h })

/-- The number that a value gets leads back to it. -/
theorem get?_intern (t : Interner α) (a : α) : (t.intern a).2.get? (t.intern a).1 = some a := by
  unfold intern get?
  split
  · next i h => exact (t.numbered a i).1 h
  · simp

/-- Numbers that have been given keep their value. -/
theorem get?_intern_of_get? (t : Interner α) (a b : α) (i : Nat) (h : t.get? i = some b) :
    (t.intern a).2.get? i = some b := by
  unfold intern get? at *
  split
  · exact h
  · have hi : i < t.items.size := (Array.getElem?_eq_some_iff.1 h).1
    simp [Array.getElem?_push, Nat.ne_of_lt hi, h]

/-- Exactly the numbers below the size have been given. -/
theorem get?_isSome {t : Interner α} {i : Nat} : (t.get? i).isSome = true ↔ i < t.size := by
  rw [get?, size]
  simp

/-- The number of a numbered value is the one that it gets again. -/
theorem intern_of_get? {t : Interner α} {a : α} {i : Nat} (h : t.get? i = some a) :
    t.intern a = (i, t) := by
  have hi := (t.numbered a i).2 h
  unfold intern
  split
  · rename_i j hj
    rw [hi] at hj
    rw [Option.some.inj hj]
  · rename_i hnone
    rw [hi] at hnone
    cases hnone

/-- A value without a number gets the next one. -/
theorem intern_of_forall_ne {t : Interner α} {a : α} (h : ∀ i, t.get? i ≠ some a) :
    (t.intern a).1 = t.size ∧ (t.intern a).2.items = t.items.push a := by
  unfold intern
  split
  · rename_i i hi
    exact absurd ((t.numbered a i).1 hi) (h i)
  · exact ⟨rfl, rfl⟩

/-- No two numbers have one value. -/
theorem get?_inj {t : Interner α} {a : α} {i j : Nat} (hi : t.get? i = some a)
    (hj : t.get? j = some a) : i = j := by
  have h := (intern_of_get? hi).symm.trans (intern_of_get? hj)
  exact congrArg Prod.fst h

/-- A value that a number has after a step had that number before, or is the one just numbered. -/
theorem get?_of_get?_intern {t : Interner α} {a b : α} {i : Nat}
    (h : (t.intern a).2.get? i = some b) : t.get? i = some b ∨ i = t.size ∧ b = a := by
  by_cases hold : ∃ j, t.get? j = some a
  · obtain ⟨j, hj⟩ := hold
    rw [intern_of_get? hj] at h
    exact .inl h
  · have hnew : ∀ j, t.get? j ≠ some a := fun j hj => hold ⟨j, hj⟩
    rw [get?, (intern_of_forall_ne hnew).2, Array.getElem?_push] at h
    split at h
    · rename_i hi
      exact .inr ⟨hi, (Option.some.inj h).symm⟩
    · exact .inl h

end Interner

end DeclKit

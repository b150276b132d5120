/-
The operations tied together.

What becomes of a type under a substitution is worked out once, and remembered, and so is whether one
type can stand where another is wanted; both are worked out one level deeper than what asks for them. At
level zero nothing can be looked into, which is reported like all that nests too deep; at each further
level an operation may call all operations of the level below. Checks of real programs end long before the
levels do.
-/
import DeclKit.Proofs.Typing.Intersection
import DeclKit.Proofs.Typing.Spared
import DeclKit.Proofs.Typing.Undecided
import DeclKit.Proofs.Typing.Verdict
import DeclKit.Typing.Mapped
import DeclKit.Typing.Denote

set_option autoImplicit false

namespace DeclKit.Typing

open Check

/-- A type under a substitution. -/
def instantiate (ops : Operations) (id : TypeId) : Option MapperId → Check TypeId
  | none => return id
  | some m =>
    remember id m (nested .error (substituted ops id m)) (makes_nested (makes_substituted ops id m))
      (spares_nested (spares_substituted ops id m))

theorem makes_instantiate (ops : Operations) (id : TypeId) (m : MapperId) :
    (instantiate ops id (some m)).Makes m id :=
  makes_remember (makes_nested (makes_substituted ops id m)) (spares_nested (spares_substituted ops id m))

theorem spares_instantiate (ops : Operations) (id : TypeId) (m : MapperId) :
    (instantiate ops id (some m)).Spares id :=
  spares_remember (makes_nested (makes_substituted ops id m)) (spares_nested (spares_substituted ops id m))

/-- One type can stand where another is wanted. -/
def assignable (ops : Operations) (source target : TypeId) : Check (Option Bool) := do
  if source == target then return some true
  answer (source, target) (nested none (relate ops source target))
    (excuses_nested (excuses_relate ops source target))
    (answers_nested (answers_relate ops source target))

theorem excuses_assignable (ops : Operations) (source target : TypeId) (outer : TypeId × TypeId) :
    (assignable ops source target).Excuses outer := by
  unfold assignable
  split
  · exact fun _ _ _ _ hnone => nomatch hnone
  · exact excuses_answer (excuses_nested (excuses_relate ops source target)) outer

/-- What is known of a pair is found. A type is known to stand where it is wanted itself. -/
theorem follows_assignable_of (ops : Operations) (source target : TypeId) (s : Setting) (v : Sight)
    (n : Nat) :
    (assignable ops source target).Follows s v n (Room (ops.height + 1) n)
      (v.verdict n source target) := by
  unfold assignable
  split
  · rename_i heq
    intro c hc _ known hknown
    obtain ⟨k, -, -, hstep⟩ := Sight.exists_verdictStep hknown
    rw [Sight.verdictStep, if_pos heq] at hstep
    exact ⟨fun _ => ⟨Option.some.inj hstep, hc⟩, fun _ hquiet => ⟨hquiet, rfl⟩⟩
  · exact follows_answer s v n fun _ _ hroom hk => hroom.below hk

end DeclKit.Typing

namespace DeclKit

namespace Operations

/-- The operations written against other operations. -/
def next (ops : Operations) : Operations where
  height := ops.height + 1
  typeOf := Typing.typeOf ops
  instantiate := Typing.instantiate ops
  makes := Typing.makes_instantiate ops
  spares := Typing.spares_instantiate ops
  intersection := Typing.intersection ops
  restores := Typing.restores_intersection ops
  keysOf := Typing.keysOf ops
  access := Typing.access ops
  conditional := Typing.conditional ops
  mapped := Typing.mapped ops
  shape? := Typing.shape? ops
  shows id s c h _ := Typing.isSome_shape? ops id s c h
  tells id := Check.tells_lookUp (Typing.tells_findShape? ops id)
  recallsShape _ _ _ h := Typing.recalls_shape? ops h
  apparent := Typing.apparent ops
  recallsApparent _ _ _ h := Typing.recalls_apparent ops h
  property? := Typing.property? ops
  recallsProperty _ _ _ name h := (Typing.recalls_property? ops h name).imp Nat.le_of_succ_le_succ
  index? := Typing.index? ops
  recallsIndex _ _ key _ h := (Typing.recalls_index? ops h key).imp Nat.le_of_succ_le_succ
  assignable := Typing.assignable ops
  excuses := Typing.excuses_assignable ops
  answers := Typing.follows_assignable_of ops
  infer := Typing.infer ops

/-- The operations at a level. -/
def level : Nat → Operations
  | 0 => blind
  | n + 1 => next (level n)

/-- How deep operations may call one another. -/
def maxLevel : Nat := 10000

/-- The operations of a check. -/
def standard : Operations := level maxLevel

end Operations

end DeclKit

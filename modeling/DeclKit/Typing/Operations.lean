/-
The operations of a check that depend on one another.

What a node denotes depends on aliases, these on substitution, substitution on conditional types,
these on assignability, and assignability on what nodes denote. Each operation is therefore written
against a record of all of them, and the record is tied together level by level at the end.
-/
import DeclKit.Typing.Check

set_option autoImplicit false

namespace DeclKit

/-- Why an indexed access has no type. -/
inductive AccessFailure where
  | missingProperty (name : String)
  | notIndexable
deriving DecidableEq, Repr, Inhabited

/-- What a type parameter was matched with, where values flow in and where they flow out. -/
structure Candidates where
  covariant : List TypeId := []
  contravariant : List TypeId := []
deriving DecidableEq, Inhabited

/-- An inference under way: each parameter with its candidates. -/
abbrev Inference := List (SymbolId × Candidates)

/-- There is room for so many steps of relating types, given how many levels of operations there are and
how deep the first of them is taken. Two levels more are needed to look members up. -/
def Room (height n depth : Nat) : Prop := n + 2 ≤ height ∧ depth + n ≤ Check.maxDepth

theorem Room.two_le {height n depth : Nat} (h : Room height n depth) : 2 ≤ height :=
  Nat.le_trans (Nat.le_add_left 2 n) h.1

theorem Room.one_le {height n depth : Nat} (h : Room height n depth) : 1 ≤ height :=
  Nat.le_of_succ_le h.two_le

/-- One level less is left for the steps before the last one, one level deeper. -/
theorem Room.below {height n depth k : Nat} (h : Room (height + 1) n depth) (hk : k < n) :
    depth < Check.maxDepth ∧ Room height k (depth + 1) := by
  unfold Room at *
  omega

/-- The operations, so many levels high. What becomes of a type under a substitution is what is said to
become of it, and a type that stays is given back; a stored intersection is the intersection of its
members; the members of a type that shows any are found, and those that were known are found again; an
answer about assignability is left open only with an excuse, and is what was known of the pair. All
but the first hold unless types nest too deep, and what was known is found wherever there is room. -/
structure Operations where
  height : Nat
  /-- The type that a type node denotes. -/
  typeOf : SourceId → Node → Check TypeId
  /-- A type under a substitution. -/
  instantiate : TypeId → Option MapperId → Check TypeId
  makes : ∀ (id : TypeId) (m : MapperId), (instantiate id (some m)).Makes m id
  spares : ∀ (id : TypeId) (m : MapperId), (instantiate id (some m)).Spares id
  /-- The intersection of types. -/
  intersection : List TypeId → Check TypeId
  restores : ∀ ids : List TypeId, (intersection ids).Restores ids
  /-- The keys of a type. -/
  keysOf : TypeId → Check TypeId
  /-- What a type holds under an index. -/
  access : TypeId → TypeId → Check (Except AccessFailure TypeId)
  /-- A conditional type under a substitution. -/
  conditional : NodeKey → Option MapperId → Check TypeId
  /-- A mapped type under a substitution. -/
  mapped : NodeKey → Option MapperId → Check TypeId
  /-- The members of an object type. -/
  shape? : TypeId → Check (Option Shape)
  shows : ∀ (id : TypeId) (s : Setting) (c : Checker), c.table.showsMembers s.program id →
    (((shape? id).run s).run c).2.depthReported = false → (((shape? id).run s).run c).1.isSome
  tells : ∀ id : TypeId, (shape? id).Tells id
  recallsShape : ∀ (v : Sight) (id : TypeId) (sh : Shape), v.shape? id = some sh →
    (shape? id).Recalls v (1 ≤ height) (some sh)
  /-- The type whose members a value of a type has. -/
  apparent : TypeId → Check TypeId
  recallsApparent : ∀ (v : Sight) (id own : TypeId), v.apparent? id = some own →
    (apparent id).Recalls v (1 ≤ height) own
  /-- A property of a type. -/
  property? : TypeId → String → Check (Option Property)
  recallsProperty : ∀ (v : Sight) (id : TypeId) (sh : Shape) (name : String), v.shape? id = some sh →
    (property? id name).Recalls v (2 ≤ height) (sh.property? name)
  /-- What a type holds under all keys of a type. -/
  index? : TypeId → TypeId → Check (Option IndexInfo)
  recallsIndex : ∀ (v : Sight) (id key : TypeId) (sh : Shape), v.shape? id = some sh →
    (index? id key).Recalls v (2 ≤ height) (sh.indexFor? key)
  /-- One type can stand where another is wanted; `none` when that depends on type parameters. -/
  assignable : TypeId → TypeId → Check (Option Bool)
  excuses : ∀ (source target : TypeId) (outer : TypeId × TypeId),
    (assignable source target).Excuses outer
  answers : ∀ (source target : TypeId) (s : Setting) (v : Sight) (n : Nat),
    (assignable source target).Follows s v n (Room height n) (v.verdict n source target)
  /-- Matches a source with a target; the flag is set where values flow in. -/
  infer : Bool → TypeId → TypeId → Inference → Check Inference

namespace Operations

/-- The operations when nothing can be looked into. -/
def blind : Operations where
  height := 0
  typeOf _ _ := Check.giveUp .error
  instantiate _ _ := Check.giveUp .error
  makes _ _ := Check.makes_giveUp .error
  spares _ _ := Check.spares_giveUp .error
  intersection _ := Check.giveUp .error
  restores _ := Check.restores_giveUp .error
  keysOf _ := Check.giveUp .error
  access _ _ := Check.giveUp (.ok .error)
  conditional _ _ := Check.giveUp .error
  mapped _ _ := Check.giveUp .error
  shape? _ := Check.giveUp none
  tells _ := Check.tells_giveUp none
  shows _ s c _ hdepth := nomatch (Check.depthReported_giveUp none s c).symm.trans hdepth
  recallsShape _ _ _ _ := Check.recalls_giveUp none _ (Nat.not_lt_zero _)
  apparent _ := Check.giveUp .error
  recallsApparent _ _ _ _ := Check.recalls_giveUp TypeId.error _ (Nat.not_lt_zero _)
  property? _ _ := Check.giveUp none
  recallsProperty _ _ _ _ _ := Check.recalls_giveUp none _ (Nat.not_lt_zero _)
  index? _ _ := Check.giveUp none
  recallsIndex _ _ _ _ _ := Check.recalls_giveUp none _ (Nat.not_lt_zero _)
  assignable _ _ := Check.giveUp none
  excuses _ _ outer := Check.excuses_giveUp outer none
  answers _ _ _ _ _ := Check.follows_giveUp none _ fun _ h => absurd h.1 (Nat.not_succ_le_zero _)
  infer _ _ _ found := Check.giveUp found

/-- The type of a node that may be missing, which is an error in the source. -/
def typeOf? (ops : Operations) (file : SourceId) : Option Node → Check TypeId
  | some n => ops.typeOf file n
  | none => return .error

/-- What a type holds under an index, or the error type. -/
def accessOrError (ops : Operations) (object index : TypeId) : Check TypeId := do
  match ← ops.access object index with
  | .ok t => return t
  | .error _ => return .error

end Operations

end DeclKit

/-
The grammar as something that is composed.

Limits only stop a parse. To show that they do nothing else, a statement about two parses of one text
has to go through every production; and how deep trees can get, or where conditional types are read, is a
statement about every production too. So what productions are composed of is written down once: looks,
reports and changes that know nothing of the limits, the few steps that do, the ways to put a node around
a step, and those to allow and forbid conditional types. That productions are composed in this way is
shown once, and a property of parses is an induction on how they are composed.

With it goes an account of levels. A node adds a level to what is in it, except for the kinds whose
chains no limit notices. A step is followed from a mark on: the elements of the row behind the mark have
at most so many levels before the step, and at most so many after it. A type that is nested counts
from nothing, because what its parts add is paid by the nesting that it has entered.
-/
import DeclKit.Parser.Statements

set_option autoImplicit false

namespace DeclKit.Parser

open Kind

/-! ## Composed steps -/

/-- The state under other limits, with another account of them. -/
def State.under (s : State) (limits : Limits) (spent : Nat) (failure : Option Failure) : State :=
  { s with limits, spent, failure }

/-- A change that knows nothing of the limits, and of the patience and the fault at most. -/
structure Adjusts (g : State → State) : Prop where
  under : ∀ s limits spent failure,
    g (s.under limits spent failure) = (g s).under limits spent failure
  only : ∀ s, ∃ patience fault, g s = { s with patience, fault }

/-- Nodes of these kinds stand in each other without any nesting being entered. -/
def chains : Kind → Bool
  | typeOperator | arrayType | indexedAccessType => true
  | _ => false

/-- The levels that a node of a kind adds. -/
def levels (k : Kind) : Nat := if chains k then 0 else 1

/-- Nodes of this kind are opened only where conditional types are allowed. -/
def restricted : Kind → Bool
  | conditionalType => true
  | _ => false

theorem restricted_of_chains {k : Kind} (h : chains k = true) : restricted k = false := by
  unfold chains at h
  split at h
  · rfl
  · rfl
  · rfl
  · cases h

/-- The levels that nodes can add to each other within a type before another type is nested. -/
def typeLevels : Nat := 8

/-- A step composed of primitive steps. What is in the row behind the mark has at most `a` levels before
it and `c` levels after it. Some steps are taken only where conditional types are allowed. -/
inductive Composed : {α : Type} → Bool → Nat → Nat → Nat → Parse α → Prop where
  | pure {α : Type} {allowed : Bool} {m a : Nat} {x : α} : Composed allowed m a a (Pure.pure x)
  /-- What follows a step deals with its answers. -/
  | step {α β : Type} {allowed : Bool} {m a b c : Nat} {p : Parse α} {f : α → Parse β} :
      Composed allowed m a b p → (∀ s, Composed allowed m b c (f (p s).1)) →
      Composed allowed m a c (p >>= f)
  | weaken {α : Type} {allowed : Bool} {m a b c d : Nat} {p : Parse α} :
      Composed allowed m b c p → a ≤ b → c ≤ d → Composed allowed m a d p
  /-- A look at the state that does not see the limits. -/
  | read {α : Type} {m a c : Nat} {f : State → Parse α} :
      (∀ s, Composed false m a c (f s)) →
      (∀ s limits spent failure, f (s.under limits spent failure) = f s) →
      Composed false m a c (MonadState.get >>= f)
  | adjust {m a : Nat} {g : State → State} : Adjusts g → Composed false m a a (modify g)
  | report {m a : Nat} {kind : DiagnosticKind} {args : List String} :
      Composed false m a a (reportWith kind args)
  | skipTrivia {m a : Nat} : Composed false m a a skipTrivia
  | placeTrivia {m a : Nat} : Composed false m a a placeTrivia
  | atEnd {m a : Nat} : Composed false m a a atEnd
  | bump {m a : Nat} : Composed false m a a bump
  | within {α : Type} {m a b c : Nat} {k : Kind} {p : Parse α} :
      (∀ m', Composed false m' 0 b p) → a ≤ c → b + levels k ≤ c → restricted k = false →
      Composed false m a c (within k p)
  /-- From a new mark on there is nothing yet. -/
  | marked {α : Type} {m a c : Nat} {f : Nat → Parse α} :
      (∀ m', Composed false m' 0 c (f m')) → a ≤ c → Composed false m a c (mark >>= f)
  | withinFrom {α : Type} {allowed : Bool} {m a b c : Nat} {k : Kind} {p : Parse α} :
      Composed allowed m a b p → b + levels k ≤ c → (restricted k = true → allowed = true) →
      Composed allowed m a c (withinFrom m k p)
  /-- A nested type, whose levels are paid by the nesting. -/
  | nested {m a : Nat} {type : Parse Bool} :
      (∀ m', Composed false m' 0 typeLevels (typeHere type)) → Composed false m a a (typeWith type)
  /-- Where conditional types are allowed, what is taken anywhere is taken too. -/
  | lift {α : Type} {m a c : Nat} {p : Parse α} : Composed false m a c p → Composed true m a c p
  | allowing {α : Type} {m a c : Nat} {p : Parse α} :
      Composed true m a c p → Composed false m a c (allowingConditional p)
  /-- A choice by whether conditional types are allowed. -/
  | choice {α : Type} {m a c : Nat} {p q : Parse α} :
      Composed false m a c p → Composed true m a c q →
      Composed false m a c (do if (← get).inExtends then p else q)
  /-- Conditional types are forbidden for a step, and allowed again. -/
  | forbidding {α β : Type} {m a b c : Nat} {p : Parse α} {q : Parse β} :
      Composed false m a b p → Composed true m b c q →
      Composed true m a c (do
        modify fun s => { s with inExtends := true }
        let _ ← p
        modify fun s => { s with inExtends := false }
        q)

/-- A step after which the row has no more than `n` levels if it had no more before. -/
def Stacks {α : Type} (n : Nat) (p : Parse α) : Prop := ∀ m, Composed false m n n p

/-- A step that adds no levels, such as a type, which is nested. -/
def Flat {α : Type} (p : Parse α) : Prop := ∀ n, Stacks n p

/-! ## Rules -/

section Rules

variable {α β : Type} {allowed : Bool} {n b m : Nat} {k : Kind} {p : Parse α}

theorem Composed.bind {a c : Nat} {f : α → Parse β} (hp : Composed allowed m a b p)
    (hf : ∀ x, Composed allowed m b c (f x)) : Composed allowed m a c (p >>= f) :=
  .step hp fun _ => hf _

theorem Composed.lifted {a c : Nat} (hp : Composed false m a c p) : Composed allowed m a c p := by
  cases allowed with
  | false => exact hp
  | true => exact .lift hp

theorem Stacks.pure {x : α} : Stacks n (Pure.pure x : Parse α) := fun _ => .pure

theorem Stacks.bind {f : α → Parse β} (hp : Stacks n p) (hf : ∀ x, Stacks n (f x)) :
    Stacks n (p >>= f) :=
  fun m => (hp m).bind fun x => hf x m

/-- A step, and an answer made of what it has given. -/
theorem Stacks.answer {f : α → β} (hp : Stacks n p) : Stacks n (p >>= fun x => Pure.pure (f x)) :=
  hp.bind fun _ => .pure

theorem Stacks.read {f : State → Parse α} (hf : ∀ s, Stacks n (f s))
    (hblind : ∀ s limits spent failure, f (s.under limits spent failure) = f s) :
    Stacks n (MonadState.get >>= f) :=
  fun m => .read (fun s => hf s m) hblind

theorem levels_le (k : Kind) : levels k ≤ 1 := by
  unfold levels
  split
  · exact Nat.zero_le 1
  · exact Nat.le_refl 1

theorem Stacks.within (hp : Stacks b p) (hn : b + 1 ≤ n) (hk : restricted k = false) :
    Stacks n (within k p) := by
  have hlevels := levels_le k
  exact fun _ => .within (fun m' => (hp m').weaken (Nat.zero_le _) (Nat.le_refl _)) (Nat.le_refl _)
    (by omega) hk

/-- A node of a kind whose chains no limit notices adds no level. -/
theorem Stacks.link (hk : chains k = true) (hp : Stacks n p) : Stacks n (Parser.within k p) :=
  fun _ => .within (fun m' => (hp m').weaken (Nat.zero_le _) (Nat.le_refl _)) (Nat.le_refl _)
    (by simp [levels, hk]) (restricted_of_chains hk)

theorem Stacks.marked {f : Nat → Parse α} (hf : ∀ m, Composed false m 0 n (f m)) :
    Stacks n (mark >>= f) :=
  fun _ => .marked hf (Nat.le_refl _)

theorem Stacks.behind (hp : Stacks b p) (hn : b + 1 ≤ n) (hk : restricted k = false) :
    Composed false m b n (withinFrom m k p) := by
  have hlevels := levels_le k
  exact .withinFrom (hp m) (by omega) fun h => absurd h (Bool.eq_false_iff.1 hk)

theorem Stacks.behind_link (hk : chains k = true) (hp : Stacks n p) :
    Composed false m n n (withinFrom m k p) :=
  .withinFrom (hp m) (by simp [levels, hk]) fun h =>
    absurd h (Bool.eq_false_iff.1 (restricted_of_chains hk))

theorem Composed.stay {a c : Nat} {x : α} (hac : a ≤ c) : Composed allowed m a c (Pure.pure x) :=
  .weaken .pure (Nat.le_refl a) hac

theorem Composed.from_zero (hp : Composed allowed m b n p) : Composed allowed m 0 n p :=
  hp.weaken (Nat.zero_le _) (Nat.le_refl _)

end Rules

/-! ## Looking -/

section Looking

variable {n : Nat}

theorem raise_flat (f : Fault) : Flat (raise f) := fun _ _ =>
  .adjust ⟨fun _ _ _ _ => rfl, fun _ => ⟨_, _, rfl⟩⟩

theorem skipTrivia_flat : Flat skipTrivia := fun _ _ => .skipTrivia

theorem atEnd_flat : Flat atEnd := fun _ _ => .atEnd

theorem bump_flat : Flat bump := fun _ _ => .bump

theorem currentToken?_flat : Flat currentToken? := fun n =>
  (skipTrivia_flat n).bind fun _ => Stacks.read (fun _ => Stacks.read (fun _ => .pure)
    fun _ _ _ _ => rfl) fun _ _ _ _ => rfl

theorem current_flat : Flat current := by
  intro n
  have htail (t : Option Token) : Stacks n (do
      modify fun s => { s with patience := s.patience - 1 }
      Pure.pure ((t.map (·.kind)).getD error) : Parse Kind) := by
    refine Stacks.answer fun _ => .adjust ?_
    exact ⟨fun _ _ _ _ => rfl, fun _ => ⟨_, _, rfl⟩⟩
  refine (currentToken?_flat n).bind fun t => Stacks.read (fun s => ?_) fun _ _ _ _ => rfl
  dsimp only
  split
  · exact (raise_flat .stuck n).bind fun _ => htail t
  · exact htail t

theorem currentText_flat : Flat currentText := fun n => (currentToken?_flat n).answer

theorem find_under (s : State) (limits : Limits) (spent : Nat) (failure : Option Failure)
    (i pos : Nat) :
    nthIndex?.find (s.under limits spent failure) i pos = nthIndex?.find s i pos := by
  induction i generalizing pos with
  | zero => rfl
  | succ i ih =>
    simp only [nthIndex?.find, ih]
    rfl

theorem nthIndex?_flat (i : Nat) : Flat (nthIndex? i) := fun n =>
  (skipTrivia_flat n).bind fun _ => Stacks.read (fun _ => .pure) fun s limits spent failure =>
    congrArg Pure.pure (find_under s limits spent failure i s.pos)

theorem peek_flat (i : Nat) : Flat (peek i) := by
  intro n
  refine (nthIndex?_flat i n).bind fun index? => ?_
  split
  · exact Stacks.read (fun _ => .pure) fun _ _ _ _ => rfl
  · exact .pure

theorem peekText_flat (i : Nat) : Flat (peekText i) := by
  intro n
  refine (nthIndex?_flat i n).bind fun index? => ?_
  split
  · exact Stacks.read (fun _ => .pure) fun _ _ _ _ => rfl
  · exact .pure

theorem at?_flat (k : Kind) : Flat (at? k) := fun n => (current_flat n).answer

theorem atWord_flat (word : String) : Flat (atWord word) := by
  intro n
  refine (current_flat n).bind fun k => ?_
  split
  · exact (currentText_flat n).answer
  · exact .pure

theorem lineBreakBefore_flat (i : Nat) : Flat (lineBreakBefore i) := by
  intro n
  refine (nthIndex?_flat i n).bind fun stop? => ?_
  split
  · exact .pure
  cases i with
  | zero =>
    refine Stacks.read (fun s => Stacks.pure.bind fun first? => ?_) fun _ _ _ _ => rfl
    cases first? with
    | none => exact .pure
    | some first => exact .pure
  | succ i =>
    refine Stacks.read (fun s => (nthIndex?_flat i n).answer.bind fun first? => ?_)
      fun _ _ _ _ => rfl
    cases first? with
    | none => exact .pure
    | some first => exact .pure

/-- A step that is taken at its own token only. -/
theorem Composed.whenAt {allowed : Bool} {m a c : Nat} {k : Kind} {step : Parse Unit}
    (h : Composed allowed m a c step) (hac : a ≤ c) : Composed allowed m a c (whenAt k step) := by
  refine (at?_flat k a m).lifted.bind fun yes => ?_
  split
  · exact h
  · exact .stay hac

theorem Stacks.whenAt {k : Kind} {step : Parse Unit} (h : Stacks n step) : Stacks n (whenAt k step) :=
  fun m => (h m).whenAt (Nat.le_refl n)

end Looking

/-! ## Taking tokens and reporting -/

section Taking

theorem eat_flat (k : Kind) : Flat (eat k) := by
  intro n
  refine (at?_flat k n).bind fun yes => ?_
  split
  · exact (bump_flat n).answer
  · exact .pure

theorem eatWord_flat (word : String) : Flat (eatWord word) := by
  intro n
  refine (atWord_flat word n).bind fun yes => ?_
  split
  · exact (bump_flat n).answer
  · exact .pure

theorem reportWith_flat (kind : DiagnosticKind) (args : List String) :
    Flat (reportWith kind args) := fun _ _ => .report

theorem report_flat (kind : DiagnosticKind) : Flat (report kind) := reportWith_flat kind []

theorem reportExpected_flat (what : String) : Flat (reportExpected what) := reportWith_flat _ _

theorem reportUnsupported_flat (what : String) : Flat (reportUnsupported what) := reportWith_flat _ _

theorem expect_flat (k : Kind) (what : String) : Flat (expect k what) := by
  intro n
  refine (eat_flat k n).bind fun ok => ?_
  split
  · exact .pure
  · exact (reportExpected_flat what n).answer

end Taking

/-! ## Repeating and nesting -/

section Repeating

variable {α : Type} {n : Nat}

theorem bumpAs_stacks {k : Kind} (hn : 1 ≤ n) (hk : restricted k = false) :
    Stacks n (bumpAs k) :=
  (bump_flat 0).within hn hk

theorem reportAndBump_stacks {kind : DiagnosticKind} (hn : 1 ≤ n) : Stacks n (reportAndBump kind) := by
  refine (report_flat kind n).bind fun _ => Stacks.read (fun s => ?_) fun _ _ _ _ => rfl
  split
  · exact bumpAs_stacks hn rfl
  · exact .pure

theorem Composed.iterate {m a : Nat} {step : Parse Bool} (h : Composed false m a a step)
    (count : Nat) : Composed false m a a (iterate count step) := by
  induction count with
  | zero => exact raise_flat .endless a m
  | succ count ih =>
    refine h.bind fun more => ?_
    split
    · exact ih
    · exact .pure

/-- A loop keeps the levels that its step keeps. -/
theorem Composed.repeatWhile {m a : Nat} {step : Parse Bool} (h : Composed false m a a step) :
    Composed false m a a (repeatWhile step) :=
  .read (fun _ => h.iterate _) fun _ _ _ _ => rfl

theorem Stacks.repeatWhile {step : Parse Bool} (h : Stacks n step) :
    Stacks n (Parser.repeatWhile step) :=
  fun m => (h m).repeatWhile

theorem skipUntil_stacks (stop : Kind → Bool) (hn : 1 ≤ n) : Stacks n (skipUntil stop) := by
  refine (current_flat n).bind fun k => ?_
  split
  · exact .pure
  refine (atEnd_flat n).bind fun ended => ?_
  split
  · exact .pure
  refine Stacks.within (Stacks.repeatWhile ((current_flat 0).bind fun k => ?_)) hn rfl
  split
  · exact .pure
  refine (atEnd_flat 0).bind fun ended => ?_
  split
  · exact .pure
  · exact (bump_flat 0).answer

theorem Stacks.allowingConditional {step : Parse α} (h : Stacks n step) :
    Stacks n (allowingConditional step) :=
  fun m => .allowing (h m).lifted

end Repeating

/-! ## Names -/

section Lists

variable {n : Nat}

theorem bindingName_stacks (hn : 1 ≤ n) : Stacks n bindingName := by
  refine (current_flat n).bind fun k => ?_
  split
  · exact (bumpAs_stacks hn rfl).answer
  · exact (report_flat _ n).answer

theorem specifierName_stacks (hn : 1 ≤ n) : Stacks n specifierName := by
  refine (current_flat n).bind fun k => ?_
  split
  · exact (bumpAs_stacks hn rfl).answer
  · exact (report_flat _ n).answer

theorem moduleName_stacks (hn : 1 ≤ n) : Stacks n moduleName := by
  refine (at?_flat _ n).bind fun yes => ?_
  split
  · exact bumpAs_stacks hn rfl
  · exact report_flat _ n

theorem entityPart_flat : Flat entityPart := by
  intro n
  refine (current_flat n).bind fun k => ?_
  split
  · exact (bump_flat n).answer
  · exact (report_flat _ n).answer

theorem entity_stacks (hn : 1 ≤ n) : Stacks n entity := by
  refine Stacks.within (Stacks.bind (entityPart_flat 0) fun _ => Stacks.repeatWhile ?_) hn rfl
  refine (eat_flat _ 0).bind fun ok => ?_
  split
  · exact entityPart_flat 0
  · exact .pure

/-! ## Skipping -/

theorem closeBrackets_flat (count depth : Nat) : Flat (closeBrackets count depth) := by
  intro n
  induction count generalizing depth with
  | zero => exact (raise_flat .endless n).answer
  | succ count ih =>
    refine (atEnd_flat n).bind fun ended => ?_
    split
    · exact .pure
    refine (current_flat n).bind fun k => ?_
    extract_lets inner
    refine (bump_flat n).bind fun _ => ?_
    split
    · exact .pure
    · exact ih inner

theorem skipBalanced_flat : Flat skipBalanced := by
  intro n
  refine Stacks.read (fun s => (closeBrackets_flat _ 0 n).bind fun closed => ?_) fun _ _ _ _ => rfl
  split
  · exact .pure
  · exact report_flat _ n

theorem continuesExpression_flat : Flat continuesExpression := by
  intro n
  refine (current_flat n).bind fun k => ?_
  split
  · exact .pure
  refine (current_flat n).bind fun k => ?_
  split
  · exact (currentText_flat n).answer
  · exact .pure

theorem openBrackets_flat (depth : Nat) (k : Kind) : Flat (openBrackets depth k) := by
  intro n
  unfold openBrackets
  split
  · exact .pure
  split
  · split
    · exact (raise_flat .underflow n).answer
    · exact .pure
  · exact .pure

theorem skipExpressionFrom_flat (stop : Kind → Bool) (count depth : Nat) (before : Option Kind) :
    Flat (skipExpressionFrom stop count depth before) := by
  intro n
  induction count generalizing depth before with
  | zero => exact (raise_flat .endless n).answer
  | succ count ih =>
    refine (atEnd_flat n).bind fun ended => ?_
    split
    · exact .pure
    refine (current_flat n).bind fun k => ?_
    extract_lets goOn
    -- every branch but those that end the expression goes on the same way
    have hgoOn : Stacks n (goOn ⟨⟩) :=
      (openBrackets_flat depth k n).bind fun _ => (bump_flat n).bind fun _ => ih _ _
    split
    · split
      · exact .pure
      split
      · refine (lineBreakBefore_flat 0 n).bind fun breaks => ?_
        split
        · refine (continuesExpression_flat n).bind fun carried => ?_
          split
          · exact .pure
          · exact hgoOn
        · exact hgoOn
      · exact hgoOn
    · exact hgoOn

theorem skipExpression_flat (stop : Kind → Bool) : Flat (skipExpression stop) := fun n =>
  Stacks.read (fun _ => (skipExpressionFrom_flat stop _ 0 none n).answer) fun _ _ _ _ => rfl

/-! ## Lists -/

theorem memberName_stacks (hn : 1 ≤ n) : Stacks n memberName := by
  refine (current_flat n).bind fun k => ?_
  split
  · refine Stacks.answer (Stacks.within ?_ hn rfl)
    exact (bump_flat 0).bind fun _ => (skipExpression_flat _ 0).bind fun _ => (expect_flat _ _ 0).answer
  split
  · exact (bumpAs_stacks hn rfl).answer
  · exact (report_flat _ n).answer

theorem parameterName_stacks (hn : 1 ≤ n) : Stacks n parameterName := by
  refine (current_flat n).bind fun k => ?_
  split
  · exact (bumpAs_stacks hn rfl).answer
  split
  · exact ((skipBalanced_flat 0).within hn rfl).answer
  · exact (report_flat _ n).answer

/-- A list has the levels of its items, and of an error node between them. -/
theorem commaList_stacks {close : Kind} {closeText : String} {item : Parse Bool} (h : Stacks n item)
    (hn : 1 ≤ n) : Stacks n (commaList close closeText item) := by
  refine (Stacks.repeatWhile ?_).bind fun _ => expect_flat _ _ n
  refine (atEnd_flat n).bind fun ended => ?_
  split
  · exact .pure
  refine (at?_flat _ n).bind fun closes => ?_
  split
  · exact .pure
  refine h.bind fun ok => ?_
  extract_lets next
  split
  · exact (skipUntil_stacks _ hn).bind fun _ => eat_flat _ n
  · exact eat_flat _ n

end Lists

end DeclKit.Parser

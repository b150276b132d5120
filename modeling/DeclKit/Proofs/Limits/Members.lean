/-
Members, signatures, parameters and type parameters are composed.

Every production takes the production for types as an argument, which adds no levels; what it adds
itself is the height of its own nodes, and it fits wherever there is room for that many.
-/
import DeclKit.Proofs.Limits.Composed

set_option autoImplicit false

namespace DeclKit.Parser

section

variable {n : Nat} {type : Parse Bool}

/-! ## Types and predicates -/

theorem atAsserts_flat : Flat atAsserts := by
  intro n
  refine (atWord_flat _ n).bind fun yes => ?_
  split
  · refine (peek_flat 1 n).bind fun next => ?_
    split
    · exact (lineBreakBefore_flat 1 n).answer
    · exact .pure
  · exact .pure

theorem atPredicate_flat (k : Kind) : Flat (atPredicate k) := by
  intro n
  unfold atPredicate
  split
  · refine (peek_flat 1 n).bind fun next => (peekText_flat 1 n).bind fun text => ?_
    split
    · exact (lineBreakBefore_flat 1 n).answer
    · exact .pure
  · exact .pure

theorem predicateRest_stacks (ht : Flat type) (hn : 1 ≤ n) : Stacks n (predicateRest type) := by
  refine (bumpAs_stacks hn rfl).bind fun _ => (eatWord_flat _ n).bind fun yes => ?_
  split
  · exact (ht n).answer
  · exact .pure

theorem typeOrPredicate_stacks (ht : Flat type) (hn : 2 ≤ n) : Stacks n (typeOrPredicate type) := by
  have hrest : Stacks 1 (predicateRest type) := predicateRest_stacks ht (Nat.le_refl 1)
  refine (current_flat n).bind fun k => (atAsserts_flat n).bind fun asserts =>
    (atPredicate_flat k n).bind fun predicate => ?_
  split
  · exact (((bump_flat 1).bind fun _ => hrest).within hn rfl).answer
  split
  · exact (hrest.within hn rfl).answer
  · exact ht n

theorem colonType_stacks (ht : Flat type) (hn : 1 ≤ n) : Stacks n (colonType type) := by
  refine Stacks.within ((expect_flat _ _ 0).bind fun ok => ?_) hn rfl
  split
  · exact ht 0
  · exact .pure

theorem returnType_stacks (ht : Flat type) (hn : 3 ≤ n) : Stacks n (returnType type) := by
  refine Stacks.within ((expect_flat _ _ 2).bind fun ok => ?_) hn rfl
  split
  · exact (typeOrPredicate_stacks ht (Nat.le_refl 2)).answer
  · exact .pure

/-! ## Type parameters and arguments -/

theorem typeParamModifiers_flat : Flat typeParamModifiers := by
  intro n
  refine Stacks.repeatWhile ((current_flat n).bind fun k => ?_)
  split
  · exact (bump_flat n).answer
  refine (atWord_flat _ n).bind fun yes => ?_
  split
  · refine (peek_flat 1 n).bind fun next => ?_
    split
    · exact (bump_flat n).answer
    · exact .pure
  · exact .pure

/-- A token and the type behind it, as a node. -/
theorem within_bump_type_stacks {k : Kind} (ht : Flat type) (hn : 1 ≤ n)
    (hk : restricted k = false) : Stacks n (within k do bump; let _ ← type) :=
  Stacks.within ((bump_flat 0).bind fun _ => (ht 0).answer) hn hk

theorem typeParam_stacks (ht : Flat type) (hn : 2 ≤ n) : Stacks n (typeParam type) := by
  refine Stacks.within ((typeParamModifiers_flat 1).bind fun _ => ?_) hn rfl
  refine (bindingName_stacks (Nat.le_refl 1)).bind fun _ => ?_
  refine (Stacks.whenAt (within_bump_type_stacks ht (Nat.le_refl 1) rfl)).bind fun _ => ?_
  exact (Stacks.whenAt (within_bump_type_stacks ht (Nat.le_refl 1) rfl)).answer

theorem typeParams_stacks (ht : Flat type) (hn : 3 ≤ n) : Stacks n (typeParams type) := by
  refine Stacks.within ((bump_flat 2).bind fun _ => ?_) hn rfl
  have hitem : Stacks 2 (typeParam type) := typeParam_stacks ht (Nat.le_refl 2)
  exact (commaList_stacks hitem (by decide)).allowingConditional.answer

theorem typeArgs_stacks (ht : Flat type) (hn : 2 ≤ n) : Stacks n (typeArgs type) := by
  refine Stacks.within ((bump_flat 1).bind fun _ => ?_) hn rfl
  exact (commaList_stacks (ht 1) (Nat.le_refl 1)).allowingConditional.answer

/-! ## Parameters and signatures -/

theorem reportParameterProperty_flat : Flat reportParameterProperty := by
  intro n
  refine (current_flat n).bind fun k => ?_
  split
  · refine (currentText_flat n).bind fun text => ?_
    split
    · refine (peek_flat 1 n).bind fun next => ?_
      split
      · exact reportUnsupported_flat _ n
      · exact .pure
    · exact .pure
  · exact .pure

/-- An expression behind a token, as a node. -/
theorem within_bump_skip_stacks {k : Kind} {stop : Kind → Bool} (hn : 1 ≤ n)
    (hk : restricted k = false) :
    Stacks n (within k do bump; let _ ← skipExpression stop) :=
  Stacks.within ((bump_flat 0).bind fun _ => (skipExpression_flat _ 0).answer) hn hk

theorem param_stacks (ht : Flat type) (hn : 2 ≤ n) : Stacks n (param type) := by
  refine (reportParameterProperty_flat n).bind fun _ => Stacks.within ((eat_flat _ 1).bind fun _ => ?_) hn rfl
  refine (parameterName_stacks (Nat.le_refl 1)).bind fun _ => (eat_flat _ 1).bind fun _ => ?_
  refine (Stacks.whenAt (colonType_stacks ht (Nat.le_refl 1)).answer).bind fun _ => ?_
  exact (Stacks.whenAt (within_bump_skip_stacks (Nat.le_refl 1) rfl)).answer

theorem params_stacks (ht : Flat type) (hn : 3 ≤ n) : Stacks n (params type) := by
  refine Stacks.within ((expect_flat _ _ 2).bind fun ok => ?_) hn rfl
  split
  · have hitem : Stacks 2 (param type) := param_stacks ht (Nat.le_refl 2)
    exact (commaList_stacks hitem (by decide)).allowingConditional.answer
  · exact .pure

theorem signatureRest_stacks (ht : Flat type) (hn : 3 ≤ n) : Stacks n (signatureRest type) :=
  (Stacks.whenAt (typeParams_stacks ht hn)).bind fun _ => (params_stacks ht hn).bind fun _ =>
    Stacks.whenAt (returnType_stacks ht hn)

/-! ## Members -/

theorem modifiesMember_flat : Flat modifiesMember := by
  intro n
  refine (peek_flat 1 n).bind fun next => ?_
  split
  · exact (lineBreakBefore_flat 1 n).answer
  · exact .pure

theorem atIndexSignature_flat : Flat atIndexSignature := by
  intro n
  refine (at?_flat _ n).bind fun yes => ?_
  split
  · refine (peek_flat 1 n).bind fun next => ?_
    split
    · exact (peek_flat 2 n).answer
    · exact .pure
  · exact .pure

theorem memberModifiers_flat : Flat memberModifiers := by
  intro n
  refine Stacks.repeatWhile ((atWord_flat _ n).bind fun yes => ?_)
  split
  · refine (modifiesMember_flat n).bind fun modifies => ?_
    split
    · exact (bump_flat n).answer
    · exact .pure
  · exact .pure

theorem indexSignature_stacks (ht : Flat type) (hn : 2 ≤ n) : Stacks n (indexSignature type) := by
  have hcolon {b : Nat} (hb : 1 ≤ b) : Stacks b (colonType type) := colonType_stacks ht hb
  refine (bump_flat n).bind fun _ => Stacks.bind (Stacks.within ?_ hn rfl) fun _ => ?_
  · exact (bindingName_stacks (Nat.le_refl 1)).bind fun _ => (hcolon (Nat.le_refl 1)).answer
  · exact (expect_flat _ _ n).bind fun _ => (hcolon (by omega)).answer

theorem unnamedMember_composed {m : Nat} (modified : Bool) (hn : 1 ≤ n) :
    Composed false m 0 n (unnamedMember m modified) := by
  unfold unnamedMember
  split
  · exact (report_flat _ 0).behind hn rfl
  · exact (report_flat _ n m).from_zero

theorem memberRest_composed {m : Nat} (ht : Flat type) (hn : 4 ≤ n) :
    Composed false m 3 n (memberRest type m) := by
  refine (eat_flat _ 3 m).bind fun _ => (current_flat 3 m).bind fun k => ?_
  split
  · exact (signatureRest_stacks ht (Nat.le_refl 3)).behind hn rfl
  · refine Stacks.behind (Stacks.whenAt ?_) hn rfl
    exact (colonType_stacks ht (by decide)).answer

/-- The name of a member is behind its mark when its node is opened. -/
theorem namedMember_stacks (ht : Flat type) (hn : 4 ≤ n) : Stacks n (namedMember type) := by
  refine Stacks.marked fun m => .read (fun s => ?_) fun _ _ _ _ => rfl
  refine (memberModifiers_flat 0 m).bind fun _ => .read (fun s' => ?_) fun _ _ _ _ => rfl
  extract_lets modified
  refine (atIndexSignature_flat 0 m).bind fun index => ?_
  split
  · have hsignature : Stacks 2 (indexSignature type) := indexSignature_stacks ht (Nat.le_refl 2)
    exact (hsignature.behind (by omega) rfl).from_zero.bind fun _ => .pure
  refine (current_flat 0 m).bind fun k => ?_
  split
  · exact (unnamedMember_composed _ (by omega)).bind fun _ => .pure
  · have hname : Stacks 3 memberName := memberName_stacks (by decide)
    exact (hname m).from_zero.bind fun _ => (memberRest_composed ht hn).bind fun _ => .pure

theorem member_stacks (ht : Flat type) (hn : 4 ≤ n) : Stacks n (member type) := by
  have hsignature : Stacks 3 (signatureRest type) := signatureRest_stacks ht (Nat.le_refl 3)
  refine (current_flat n).bind fun k => ?_
  split
  · exact (hsignature.within hn rfl).answer
  split
  · refine (peek_flat 1 n).bind fun next => ?_
    split
    · exact (((bump_flat 3).bind fun _ => hsignature).within hn rfl).answer
    · exact namedMember_stacks ht hn
  · exact namedMember_stacks ht hn

theorem memberOrSkipped_stacks (ht : Flat type) (hn : 4 ≤ n) : Stacks n (memberOrSkipped type) := by
  refine (member_stacks ht hn).bind fun ok => ?_
  split
  · exact skipUntil_stacks _ (by omega)
  · exact .pure

theorem memberEnd_flat : Flat memberEnd := by
  intro n
  refine (eat_flat _ n).bind fun ok => ?_
  split
  · exact .pure
  refine (eat_flat _ n).bind fun ok => ?_
  split
  · exact .pure
  refine (at?_flat _ n).bind fun closes => ?_
  split
  · exact .pure
  refine (lineBreakBefore_flat 0 n).bind fun breaks => ?_
  split
  · exact .pure
  · exact reportExpected_flat _ n

theorem members_stacks (ht : Flat type) (hn : 4 ≤ n) : Stacks n (members type) := by
  refine Stacks.repeatWhile ((atEnd_flat n).bind fun ended => ?_)
  split
  · exact .pure
  refine (at?_flat _ n).bind fun closes => ?_
  split
  · exact .pure
  · exact (memberOrSkipped_stacks ht hn).bind fun _ => (memberEnd_flat n).answer

theorem objectType_stacks (ht : Flat type) (hn : 5 ≤ n) : Stacks n (objectType type) := by
  refine Stacks.within ((expect_flat _ _ 4).bind fun _ => ?_) hn rfl
  refine (members_stacks ht (Nat.le_refl 4)).allowingConditional.bind fun _ => ?_
  exact (expect_flat _ _ 4).answer

end

end DeclKit.Parser

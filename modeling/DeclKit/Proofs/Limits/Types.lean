/-
Types are composed.

Between two nested types the productions stand in each other from the loosest binding to the tightest,
and the node of each takes one level: eight are enough. Chains of prefix operators and of brackets take
none, however long they are, and that is what the knot needs: a type that is nested adds no levels to
what it is nested in.
-/
import DeclKit.Proofs.Limits.Members

set_option autoImplicit false

namespace DeclKit.Parser

section

variable {n m : Nat} {type : Parse Bool}

/-! ## Function and constructor types -/

theorem atParameters_flat : Flat atParameters := by
  intro n
  refine (peek_flat 1 n).bind fun first => ?_
  split
  -- after a name, or `this`, the next token decides
  case h_3 | h_4 =>
    refine (peek_flat 2 n).bind fun second => ?_
    split
    iterate 4 exact .pure
    · exact (peek_flat 3 n).answer
    · exact .pure
  all_goals exact .pure

theorem atFunctionType_flat : Flat atFunctionType := by
  intro n
  refine (current_flat n).bind fun k => ?_
  split
  · exact .pure
  · exact atParameters_flat n
  · exact .pure

theorem arrowRest_stacks (ht : Flat type) (hn : 3 ≤ n) : Stacks n (arrowRest type) := by
  refine (Stacks.whenAt (typeParams_stacks ht hn)).bind fun _ => (params_stacks ht hn).bind fun _ => ?_
  refine Stacks.within ((expect_flat _ _ 2).bind fun _ => ?_) hn rfl
  exact (typeOrPredicate_stacks ht (Nat.le_refl 2)).answer

theorem functionType_stacks (ht : Flat type) (hn : 4 ≤ n) : Stacks n (functionType type) :=
  (arrowRest_stacks ht (Nat.le_refl 3)).within hn rfl

theorem constructorType_stacks (ht : Flat type) (hn : 4 ≤ n) : Stacks n (constructorType type) := by
  refine Stacks.within ((eatWord_flat _ 3).bind fun _ => (bump_flat 3).bind fun _ => ?_) hn rfl
  exact arrowRest_stacks ht (Nat.le_refl 3)

theorem atConstructorType_flat : Flat atConstructorType := by
  intro n
  refine (at?_flat _ n).bind fun yes => ?_
  split
  · exact .pure
  refine (atWord_flat _ n).bind fun yes => ?_
  split
  · exact (peek_flat 1 n).answer
  · exact .pure

/-! ## Primary types -/

theorem entityWithArgs_stacks (ht : Flat type) (hn : 2 ≤ n) : Stacks n (entityWithArgs type) := by
  refine (entity_stacks (by omega)).bind fun _ => Stacks.whenAt ?_
  refine (lineBreakBefore_flat 0 n).bind fun breaks => ?_
  split
  · exact typeArgs_stacks ht hn
  · exact .pure

theorem typeReference_stacks (ht : Flat type) (hn : 3 ≤ n) : Stacks n (typeReference type) :=
  (entityWithArgs_stacks ht (Nat.le_refl 2)).within hn rfl

theorem typeQuery_stacks (ht : Flat type) (hn : 3 ≤ n) : Stacks n (typeQuery type) :=
  Stacks.within ((bump_flat 2).bind fun _ => entityWithArgs_stacks ht (Nat.le_refl 2)) hn rfl

theorem templateType_stacks (ht : Flat type) (hn : 2 ≤ n) : Stacks n (templateType type) := by
  have hspan (p : Parse Bool) (hp : Stacks 0 p) : Stacks 1 (within .templateSpan p) :=
    hp.within (Nat.le_refl 1) rfl
  refine Stacks.within ((bump_flat 1).bind fun _ => Stacks.repeatWhile (hspan _ ?_)) hn rfl
  refine (ht 0).allowingConditional.bind fun _ => (current_flat 0).bind fun k => ?_
  split
  · exact (bump_flat 0).answer
  · exact (reportExpected_flat _ 0).answer

theorem atLabel_flat (nameAt : Nat) : Flat (atLabel nameAt) := by
  intro n
  refine (peek_flat _ n).bind fun first => ?_
  split
  · refine (peek_flat _ n).bind fun next => ?_
    split
    · exact .pure
    · exact (peek_flat _ n).answer
    · exact .pure
  · exact .pure

theorem tupleElement_stacks (ht : Flat type) (hn : 2 ≤ n) : Stacks n (tupleElement type) := by
  refine (at?_flat _ n).bind fun rest => (atLabel_flat _ n).bind fun labelled => ?_
  split
  · refine Stacks.within ((eat_flat _ 1).bind fun _ => ?_) hn rfl
    refine (bumpAs_stacks (Nat.le_refl 1) rfl).bind fun _ => (eat_flat _ 1).bind fun _ => ?_
    exact (expect_flat _ _ 1).bind fun _ => ht 1
  split
  · exact Stacks.within ((bump_flat 1).bind fun _ => ht 1) hn rfl
  refine Stacks.marked fun m => (ht 0 m).bind fun ok => ?_
  split
  · exact .stay (Nat.zero_le n)
  · refine Composed.bind (Composed.whenAt ?_ (Nat.zero_le n)) fun _ => .pure
    exact (bump_flat 0).behind (by omega) rfl

theorem tupleType_stacks (ht : Flat type) (hn : 3 ≤ n) : Stacks n (tupleType type) := by
  refine Stacks.within ((bump_flat 2).bind fun _ => ?_) hn rfl
  have hitem : Stacks 2 (tupleElement type) := tupleElement_stacks ht (Nat.le_refl 2)
  exact (commaList_stacks hitem (by decide)).allowingConditional.answer

theorem atMappedType_flat : Flat atMappedType := by
  intro n
  refine (peek_flat 1 n).bind fun k => ?_
  split
  · exact (peekText_flat 2 n).answer
  refine (peekText_flat 1 n).bind fun word => ?_
  extract_lets i
  refine (peek_flat i n).bind fun opening => ?_
  split
  · refine (peek_flat _ n).bind fun key => ?_
    split
    · exact (peek_flat _ n).answer
    · exact .pure
  · exact .pure

theorem mappedParam_stacks (ht : Flat type) (hn : 2 ≤ n) : Stacks n (mappedParam type) := by
  refine Stacks.within ((bumpAs_stacks (Nat.le_refl 1) rfl).bind fun _ => ?_) hn rfl
  refine (expect_flat _ _ 1).bind fun _ => (ht 1).bind fun _ => ?_
  refine (eatWord_flat _ 1).bind fun renamed => ?_
  split
  · exact (ht 1).answer
  · exact .pure

theorem mappedSign_flat : Flat mappedSign := by
  intro n
  refine (current_flat n).bind fun k => ?_
  split
  · exact (bump_flat n).answer
  · exact .pure

theorem mappedRest_stacks (ht : Flat type) (hn : 1 ≤ n) : Stacks n (mappedRest type) := by
  refine (mappedSign_flat n).bind fun signed => ?_
  extract_lets rest
  have hrest : Stacks n (rest ⟨⟩) := by
    refine (Stacks.whenAt (within_bump_type_stacks ht hn rfl)).bind fun _ => ?_
    refine (eat_flat _ n).bind fun ended => ?_
    split
    · exact (eat_flat _ n).answer
    · exact .pure
  split
  · exact (expect_flat _ _ n).bind fun _ => hrest
  · exact (eat_flat _ n).bind fun _ => hrest

theorem mappedType_stacks (ht : Flat type) (hn : 3 ≤ n) : Stacks n (mappedType type) := by
  refine Stacks.within ((bump_flat 2).bind fun _ => ?_) hn rfl
  refine Stacks.bind (Stacks.allowingConditional ?_) fun _ => (expect_flat _ _ 2).answer
  refine (mappedSign_flat 2).bind fun _ => (eatWord_flat _ 2).bind fun _ => ?_
  refine (expect_flat _ _ 2).bind fun _ => (mappedParam_stacks ht (Nat.le_refl 2)).bind fun _ => ?_
  exact (expect_flat _ _ 2).bind fun _ => mappedRest_stacks ht (by decide)

theorem parenthesizedType_stacks (ht : Flat type) (hn : 1 ≤ n) :
    Stacks n (parenthesizedType type) := by
  refine Stacks.within ((bump_flat 0).bind fun _ => ?_) hn rfl
  exact (ht 0).allowingConditional.bind fun _ => (expect_flat _ _ 0).answer

theorem missingType_stacks (hn : 1 ≤ n) : Stacks n missingType := by
  refine (current_flat n).bind fun k => ?_
  extract_lets done rest
  have hrest (ended : Bool) : Stacks n (rest ended) := by
    unfold rest
    split
    · exact (report_flat _ n).answer
    · exact (reportAndBump_stacks hn).answer
  split
  · exact Stacks.pure.bind hrest
  · exact (atEnd_flat n).bind hrest

/-- Of the types that no operator binds, object types are the highest. -/
theorem primaryType_stacks (ht : Flat type) (hn : 5 ≤ n) : Stacks n (primaryType type) := by
  refine (current_flat n).bind fun k => ?_
  have hword (k : Kind) (hk : restricted k = false) : Stacks n (do bumpAs k; return true) :=
    (bumpAs_stacks (by omega) hk).answer
  have hmissing : Stacks n missingType := missingType_stacks (by omega)
  have hreference : Stacks n (do typeReference type; return true) :=
    (typeReference_stacks ht (by omega)).answer
  split
  · refine (currentText_flat n).bind fun text => ?_
    split
    · refine (peek_flat 1 n).bind fun next => ?_
      split
      · exact hreference
      · exact hword _ rfl
    · exact hreference
  -- words and literals are nodes of one token
  iterate 9 exact hword _ rfl
  · refine (peek_flat 1 n).bind fun next => ?_
    split
    · refine Stacks.answer (Stacks.within ((bump_flat 0).bind fun _ => bump_flat 0) (by omega) rfl)
    · exact hmissing
  · exact (templateType_stacks ht (by omega)).answer
  · exact (typeQuery_stacks ht (by omega)).answer
  · refine (atMappedType_flat n).bind fun mapped => ?_
    split
    · exact (mappedType_stacks ht (by omega)).answer
    · exact (objectType_stacks ht hn).answer
  · exact (tupleType_stacks ht (by omega)).answer
  · exact (parenthesizedType_stacks ht (by omega)).answer
  · exact hmissing

/-! ## Operators -/

/-- Brackets put the type before them into one more node, without a level of its own. -/
theorem bracketSuffix_composed (ht : Flat type) : Composed false m n n (bracketSuffix type m) := by
  refine (at?_flat _ n m).bind fun opens => ?_
  split
  · exact .pure
  refine (lineBreakBefore_flat 0 n m).bind fun breaks => ?_
  split
  · exact .pure
  refine (peek_flat 1 n m).bind fun next => ?_
  split
  · exact (Stacks.behind_link rfl ((bump_flat n).bind fun _ => bump_flat n)).bind fun _ => .pure
  · refine (Stacks.behind_link rfl ((bump_flat n).bind fun _ => ?_)).bind fun _ => .pure
    exact (ht n).allowingConditional.bind fun _ => (expect_flat _ _ n).answer

theorem postfixType_stacks (ht : Flat type) (hn : 5 ≤ n) : Stacks n (postfixType type) := by
  refine Stacks.marked fun m => (primaryType_stacks ht hn m).from_zero.bind fun ok => ?_
  split
  · exact .pure
  · exact (bracketSuffix_composed ht).repeatWhile.bind fun _ => .pure

theorem operatorType_stacks (ht : Flat type) (hn : 5 ≤ n) (count : Nat) :
    Stacks n (operatorType type count) := by
  induction count with
  | zero => exact (raise_flat .endless n).answer
  | succ count ih =>
    refine (current_flat n).bind fun k => ?_
    extract_lets rest
    split
    · refine (currentText_flat n).bind fun text => (peek_flat 1 n).bind fun next => ?_
      split
      · exact (Stacks.link rfl ((bump_flat n).bind fun _ => ih.answer)).answer
      split
      · have hname : Stacks 2 (within .typeParam do let _ ← bindingName) :=
          (bindingName_stacks (Nat.le_refl 1)).answer.within (Nat.le_refl 2) rfl
        exact (((bump_flat 2).bind fun _ => hname).within (by omega) rfl).answer
      · exact postfixType_stacks ht hn
    · exact postfixType_stacks ht hn

theorem moreOperands_stacks {op : Kind} {operand : Parse Bool} (ho : Stacks n operand) :
    Stacks n (moreOperands op operand) := by
  refine Stacks.repeatWhile ((eat_flat _ n).bind fun ok => ?_)
  split
  · exact ho
  · exact .pure

/-- Operands joined by an operator are one level higher than the operands. -/
theorem binaryType_stacks {op node : Kind} {operand : Parse Bool} {b : Nat} (ho : Stacks b operand)
    (hn : b + 1 ≤ n) (hk : restricted node = false) :
    Stacks n (binaryType op node operand) := by
  have hmore : Stacks b (moreOperands op operand) := moreOperands_stacks ho
  refine Stacks.marked fun m => (at?_flat _ 0 m).bind fun leading => ?_
  split
  · have hleading : Stacks b (do bump; if ← operand then whenAt op (moreOperands op operand)) := by
      refine (bump_flat b).bind fun _ => ho.bind fun ok => ?_
      split
      · exact hmore.whenAt
      · exact .pure
    exact (hleading.within hn hk m).from_zero.bind fun _ => .pure
  refine (ho m).from_zero.bind fun ok => ?_
  split
  · exact .stay (by omega)
  · exact ((hmore.behind hn hk).whenAt (by omega)).bind fun _ => .pure

theorem intersection_stacks (ht : Flat type) (hn : 6 ≤ n) : Stacks n (intersection type) :=
  Stacks.read (fun _ => binaryType_stacks (operatorType_stacks ht (Nat.le_refl 5) _) hn rfl)
    fun _ _ _ _ => rfl

theorem union_stacks (ht : Flat type) (hn : 7 ≤ n) : Stacks n (union type) :=
  binaryType_stacks (intersection_stacks ht (Nat.le_refl 6)) hn rfl

/-- A conditional type is made where conditional types are allowed; they are not in what its subject
extends. -/
theorem conditionalRest_composed (ht : Flat type) : Composed true m n n (conditionalRest type) := by
  have hbranches : Stacks n (do
      let _ ← expect .question "?"
      let _ ← type
      let _ ← expect .colon ":"
      let _ ← type) := by
    refine (expect_flat _ _ n).bind fun _ => (ht n).bind fun _ => ?_
    exact (expect_flat _ _ n).bind fun _ => (ht n).answer
  exact (bump_flat n m).lifted.bind fun _ => .forbidding (ht n m) (hbranches m).lifted

theorem conditionalOrUnion_stacks (ht : Flat type) (hn : 8 ≤ n) :
    Stacks n (conditionalOrUnion type) := by
  refine Stacks.marked fun m => ?_
  refine (union_stacks ht (Nat.le_refl 7) m).from_zero.bind fun ok => ?_
  split
  · exact .stay (by omega)
  refine .choice (.stay (by omega)) (Composed.bind (Composed.whenAt ?_ (by omega)) fun _ => .pure)
  refine (lineBreakBefore_flat 0 7 m).lifted.bind fun breaks => ?_
  split
  · exact .withinFrom (conditionalRest_composed ht) hn fun _ => rfl
  · exact .stay (by omega)

/-! ## The knot -/

theorem typeHere_stacks (ht : Flat type) : Stacks typeLevels (typeHere type) := by
  refine (atFunctionType_flat _).bind fun yes => ?_
  split
  · exact (functionType_stacks ht (by decide)).answer
  refine (atConstructorType_flat _).bind fun yes => ?_
  split
  · exact (constructorType_stacks ht (by decide)).answer
  · exact conditionalOrUnion_stacks ht (Nat.le_refl 8)

/-- A type adds no levels to what it is nested in. -/
theorem typeWith_flat (ht : Flat type) : Flat (typeWith type) :=
  fun _ _ => .nested fun m' => (typeHere_stacks ht m').from_zero

theorem typeAt_flat (count : Nat) : Flat (typeAt count) := by
  induction count with
  | zero => exact fun n => (raise_flat .endless n).answer
  | succ count ih => exact typeWith_flat ih

theorem type_flat : Flat Parser.type := fun n =>
  Stacks.read (fun _ => typeAt_flat _ n) fun _ _ _ _ => rfl

end

end DeclKit.Parser

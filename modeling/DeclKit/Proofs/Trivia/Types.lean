/-
Where the nodes of types start.

A type sets a mark before it reads anything, or looks at the current token, so it may be called
anywhere. By induction on the nesting this holds of the production that ties the knot.
-/
import DeclKit.Parser.Types
import DeclKit.Proofs.Trivia.Members

set_option autoImplicit false

namespace DeclKit.Parser

section

variable {base : State} {L : Kind → Bool} {b : Spot} {type : Parse Bool}

/-! ## Function and constructor types -/

theorem atParameters_lays : Lays base L b .atToken atParameters := by
  refine (peek_lays 1).bind fun first => ?_
  split
  -- after a name, or `this`, the next token decides
  case h_3 | h_4 =>
    refine (peek_lays 2).bind fun second => ?_
    split
    iterate 4 exact Lays.pure
    · exact (peek_lays 3).bind fun _ => Lays.pure
    · exact Lays.pure
  all_goals exact Lays.pure

theorem atFunctionType_lays : Lays base L b .atToken atFunctionType := by
  refine current_lays.bind fun k => ?_
  split
  · exact Lays.pure
  · exact atParameters_lays
  · exact Lays.pure

/-- Neither the parameters nor the return type are looked at before their nodes are opened. -/
theorem arrowRest_lays (ht : Neat type) (hparams : L .paramList = true)
    (hreturn : L .returnType = true) : Lays base L b .anywhere (arrowRest type) := by
  refine (whenAt_lays (typeParams_lays ht (mayOpen_atToken _))).bind fun _ => ?_
  refine (params_lays ht (.inr hparams)).bind fun _ => Lays.within (.inr hreturn) fun _ => ?_
  exact (expect_lays _ _).bind fun _ => (typeOrPredicate_lays ht).answer

theorem functionType_lays (ht : Neat type) :
    Lays base L .atToken .anywhere (functionType type) :=
  Lays.within (mayOpen_atToken _) fun _ => arrowRest_lays ht rfl rfl

theorem constructorType_lays (ht : Neat type) :
    Lays base L .atToken .anywhere (constructorType type) := by
  refine Lays.within (mayOpen_atToken _) fun _ => ?_
  exact (eatWord_lays _).bind fun _ => bump_lays.bind fun _ => arrowRest_lays ht rfl rfl

theorem atConstructorType_lays : Lays base L b .atToken atConstructorType := by
  refine (at?_lays _).bind fun yes => ?_
  split
  · exact Lays.pure
  refine (atWord_lays _).bind fun yes => ?_
  split
  · exact (peek_lays 1).bind fun _ => Lays.pure
  · exact Lays.pure

/-! ## Primary types -/

theorem entityWithArgs_lays (ht : Neat type) (hk : MayOpen L .entityName b) :
    Lays base L b .anywhere (entityWithArgs type) := by
  refine (entity_lays hk).bind fun _ => whenAt_lays ?_
  refine (lineBreakBefore_lays 0).bind fun breaks => ?_
  split
  · exact typeArgs_lays ht (mayOpen_atToken _)
  · exact Lays.done

theorem typeReference_lays (ht : Neat type) :
    Lays base L .atToken .anywhere (typeReference type) :=
  Lays.within (mayOpen_atToken _) fun _ => entityWithArgs_lays ht (mayOpen_atToken _)

theorem typeQuery_lays (ht : Neat type) : Lays base L .atToken .anywhere (typeQuery type) :=
  Lays.within (mayOpen_atToken _) fun _ => bump_lays.bind fun _ => entityWithArgs_lays ht (.inr rfl)

theorem templateType_lays (ht : Neat type) :
    Lays base L .atToken .anywhere (templateType type) := by
  refine Lays.within (mayOpen_atToken _) fun _ => bump_lays.bind fun _ => ?_
  refine repeatWhile_lays (Lays.within (.inr rfl) fun _ => ?_)
  refine (allowingConditional_lays ht.lays).bind fun _ => current_lays.bind fun k => ?_
  split
  · exact bump_lays.answer
  · exact (reportExpected_lays _).bind fun _ => Lays.done

theorem atLabel_lays (nameAt : Nat) : Lays base L b .atToken (atLabel nameAt) := by
  refine (peek_lays _).bind fun first => ?_
  split
  · refine (peek_lays _).bind fun next => ?_
    split
    · exact Lays.pure
    · exact (peek_lays _).bind fun _ => Lays.pure
    · exact Lays.pure
  · exact Lays.pure

theorem tupleElement_lays (ht : Neat type) : Lays base L b .anywhere (tupleElement type) := by
  refine (at?_lays _).bind fun rest => (atLabel_lays _).bind fun labelled => ?_
  split
  · refine Lays.within (mayOpen_atToken _) fun _ => (eat_lays _).bind fun _ => ?_
    refine (bumpAs_lays (.inr rfl)).bind fun _ => (eat_lays _).bind fun _ => ?_
    exact (expect_lays _ _).bind fun _ => ht.lays
  split
  · exact Lays.within (mayOpen_atToken _) fun _ => bump_lays.bind fun _ => ht.lays
  refine Lays.mark fun s hmarked => Lays.bind (c := .anywhere) ht.lays fun ok => ?_
  split
  · exact Lays.done
  · refine Lays.answer (whenAt_lays ?_)
    exact Lays.withinFrom hmarked fun _ => bump_lays

theorem tupleType_lays (ht : Neat type) : Lays base L .atToken .anywhere (tupleType type) := by
  refine Lays.within (mayOpen_atToken _) fun _ => bump_lays.bind fun _ => ?_
  exact (allowingConditional_lays (commaList_lays (tupleElement_lays ht))).answer

theorem atMappedType_lays : Lays base L b .atToken atMappedType := by
  refine (peek_lays 1).bind fun k => ?_
  split
  · exact (peekText_lays 2).bind fun _ => Lays.pure
  refine (peekText_lays 1).bind fun word => ?_
  extract_lets i
  refine (peek_lays i).bind fun opening => ?_
  split
  · refine (peek_lays _).bind fun key => ?_
    split
    · exact (peek_lays _).bind fun _ => Lays.pure
    · exact Lays.pure
  · exact Lays.pure

theorem mappedParam_lays (ht : Neat type) (hk : MayOpen L .mappedTypeParam b) :
    Lays base L b .anywhere (mappedParam type) := by
  refine Lays.within hk fun _ => (bumpAs_lays (.inr rfl)).bind fun _ => ?_
  refine (expect_lays _ _).bind fun _ => Lays.bind (c := .anywhere) ht.lays fun _ => ?_
  refine (eatWord_lays _).bind fun renamed => ?_
  split
  · exact ht.lays.answer
  · exact Lays.done

theorem mappedSign_lays : Lays base L b .anywhere mappedSign := by
  refine current_lays.bind fun k => ?_
  split
  · exact bump_lays.answer
  · exact Lays.done

theorem mappedRest_lays (ht : Neat type) : Lays base L b .anywhere (mappedRest type) := by
  refine mappedSign_lays.bind fun signed => ?_
  extract_lets rest
  have hrest : Lays base L .anywhere .anywhere (rest ⟨⟩) := by
    refine (whenAt_lays (within_bump_type_lays ht (mayOpen_atToken _))).bind fun _ => ?_
    refine (eat_lays _).bind fun ended => ?_
    split
    · exact (eat_lays _).answer
    · exact Lays.done
  split
  · exact (expect_lays _ _).bind fun _ => hrest
  · exact (eat_lays _).bind fun _ => hrest

theorem mappedType_lays (ht : Neat type) : Lays base L .atToken .anywhere (mappedType type) := by
  refine Lays.within (mayOpen_atToken _) fun _ => bump_lays.bind fun _ => ?_
  refine Lays.bind (c := .anywhere) (allowingConditional_lays ?_) fun _ =>
    (expect_lays _ _).answer
  refine mappedSign_lays.bind fun _ => (eatWord_lays _).bind fun _ => (expect_lays _ _).bind fun _ => ?_
  exact (mappedParam_lays ht (.inr rfl)).bind fun _ => (expect_lays _ _).bind fun _ =>
    mappedRest_lays ht

theorem parenthesizedType_lays (ht : Neat type) :
    Lays base L .atToken .anywhere (parenthesizedType type) := by
  refine Lays.within (mayOpen_atToken _) fun _ => bump_lays.bind fun _ => ?_
  refine (allowingConditional_lays ht.lays).bind fun _ => ?_
  exact (expect_lays _ _).answer

theorem missingType_lays : Lays base L b .anywhere missingType := by
  refine current_lays.bind fun k => ?_
  extract_lets done rest
  have hrest (ended : Bool) : Lays base L .atToken .anywhere (rest ended) := by
    unfold rest
    split
    · exact (report_lays _).bind fun _ => Lays.done
    · exact (reportAndBump_lays _).answer
  split
  · exact Lays.pure.bind hrest
  · exact atEnd_lays.bind hrest

theorem primaryType_lays (ht : Neat type) : Lays base L b .anywhere (primaryType type) := by
  refine current_lays.bind fun k => ?_
  have hword (k : Kind) : Lays base L .atToken .anywhere (do bumpAs k; return true) :=
    (bumpAs_lays (mayOpen_atToken k)).answer
  split
  · refine currentText_lays.bind fun text => ?_
    split
    · refine (peek_lays 1).bind fun next => ?_
      split
      · exact (typeReference_lays ht).answer
      · exact hword _
    · exact (typeReference_lays ht).answer
  -- words and literals are nodes of one token
  iterate 9 exact hword _
  · refine (peek_lays 1).bind fun next => ?_
    split
    · refine Lays.answer (Lays.within (mayOpen_atToken _) fun _ => ?_)
      exact bump_lays.bind fun _ => bump_lays
    · exact missingType_lays
  · exact (templateType_lays ht).answer
  · exact (typeQuery_lays ht).answer
  · refine atMappedType_lays.bind fun mapped => ?_
    split
    · exact (mappedType_lays ht).answer
    · exact (objectType_lays ht (mayOpen_atToken _)).answer
  · exact (tupleType_lays ht).answer
  · exact (parenthesizedType_lays ht).answer
  · exact missingType_lays

/-! ## Operators -/

theorem bracketSuffix_lays (ht : Neat type) (hbase : Marked base) :
    Lays base noKind b .anywhere (bracketSuffix type base.row.size) := by
  refine (at?_lays _).bind fun opens => ?_
  split
  · exact Lays.done
  refine (lineBreakBefore_lays 0).bind fun breaks => ?_
  split
  · exact Lays.done
  refine (peek_lays 1).bind fun next => ?_
  split
  · refine Lays.answer (Lays.withinFrom hbase fun _ => ?_)
    exact bump_lays.bind fun _ => bump_lays
  · refine Lays.answer (Lays.withinFrom hbase fun _ => ?_)
    exact bump_lays.bind fun _ => (allowingConditional_lays ht.lays).bind fun _ =>
      (expect_lays _ _).answer

theorem postfixType_lays (ht : Neat type) : Lays base L b .anywhere (postfixType type) := by
  refine Lays.mark fun s hmarked => (primaryType_lays ht).bind fun ok => ?_
  split
  · exact Lays.done
  · exact (repeatWhile_lays (bracketSuffix_lays ht hmarked)).answer

theorem operatorType_lays (ht : Neat type) (n : Nat) :
    Lays base L b .anywhere (operatorType type n) := by
  induction n generalizing base L b with
  | zero => exact (raise_lays (c := .anywhere) .endless).bind fun _ => Lays.done
  | succ n ih =>
    refine current_lays.bind fun k => ?_
    extract_lets rest
    split
    · refine currentText_lays.bind fun text => (peek_lays 1).bind fun next => ?_
      split
      · refine Lays.answer (Lays.within (mayOpen_atToken _) fun _ => ?_)
        exact bump_lays.bind fun _ => ih.bind fun _ => Lays.done
      split
      · refine Lays.answer (Lays.within (mayOpen_atToken _) fun _ => bump_lays.bind fun _ => ?_)
        exact Lays.within (.inr rfl) fun _ => bindingName_lays.answer
      · exact postfixType_lays ht
    · exact postfixType_lays ht

theorem moreOperands_lays {op : Kind} {operand : Parse Bool} (ho : Neat operand) :
    Lays base L b .anywhere (moreOperands op operand) := by
  refine repeatWhile_lays ((eat_lays _).bind fun ok => ?_)
  split
  · exact ho.lays
  · exact Lays.done

theorem binaryType_lays {op node : Kind} {operand : Parse Bool} (ho : Neat operand) :
    Lays base L b .anywhere (binaryType op node operand) := by
  refine Lays.mark fun s hmarked => (at?_lays _).bind fun leading => ?_
  split
  · refine Lays.answer (Lays.within (mayOpen_atToken _) fun _ => bump_lays.bind fun _ => ?_)
    refine Lays.bind (c := .anywhere) ho.lays fun ok => ?_
    split
    · exact whenAt_lays (moreOperands_lays ho)
    · exact Lays.done
  refine Lays.bind (c := .anywhere) ho.lays fun ok => ?_
  split
  · exact Lays.done
  · exact Lays.answer (whenAt_lays (Lays.withinFrom hmarked fun _ => moreOperands_lays ho))

theorem intersection_neat (ht : Neat type) : Neat (intersection type) := by
  intro base L
  exact Lays.get fun _ _ => binaryType_lays fun _ _ => operatorType_lays ht _

theorem union_lays (ht : Neat type) : Lays base L b .anywhere (union type) :=
  binaryType_lays (intersection_neat ht)

theorem conditionalRest_lays (ht : Neat type) : Lays base L b .anywhere (conditionalRest type) := by
  refine bump_lays.bind fun _ => ?_
  refine Lays.bind (lays_modify fun _ => ⟨rfl, rfl, rfl, rfl, rfl, rfl⟩) fun _ => ?_
  refine ht.lays.bind fun _ => ?_
  refine Lays.bind (lays_modify fun _ => ⟨rfl, rfl, rfl, rfl, rfl, rfl⟩) fun _ => ?_
  refine (expect_lays _ _).bind fun _ => Lays.bind (c := .anywhere) ht.lays fun _ => ?_
  exact (expect_lays _ _).bind fun _ => ht.lays.answer

theorem conditionalOrUnion_lays (ht : Neat type) :
    Lays base L b .anywhere (conditionalOrUnion type) := by
  refine Lays.mark fun s hmarked => (union_lays ht).bind fun ok => ?_
  split
  · exact Lays.done
  refine Lays.get fun _ _ => ?_
  split
  · exact Lays.done
  refine Lays.answer (whenAt_lays ?_)
  refine (lineBreakBefore_lays 0).bind fun breaks => ?_
  split
  · exact Lays.withinFrom hmarked fun _ => conditionalRest_lays ht
  · exact Lays.done

/-! ## The knot -/

theorem typeHere_lays (ht : Neat type) : Lays base L b .anywhere (typeHere type) := by
  refine atFunctionType_lays.bind fun yes => ?_
  split
  · exact (functionType_lays ht).answer
  refine atConstructorType_lays.bind fun yes => ?_
  split
  · exact (constructorType_lays ht).answer
  · exact conditionalOrUnion_lays ht

theorem typeAt_neat (n : Nat) : Neat (typeAt n) := by
  intro base L
  induction n generalizing base L with
  | zero => exact (raise_lays (c := .anywhere) .endless).bind fun _ => Lays.done
  | succ n ih =>
    refine enter_lays.bind fun ok => ?_
    split
    · exact Lays.done
    · exact (typeHere_lays ih).bind fun _ => leave_lays.answer

theorem type_neat : Neat Parser.type := fun _ _ => Lays.get fun _ _ => typeAt_neat _ _ _

end

end DeclKit.Parser

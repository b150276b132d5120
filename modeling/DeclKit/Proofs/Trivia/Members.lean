/-
Where the nodes of names, lists, members and parameters start.

A production that opens its node first thing is told where it is called: at a token, or anywhere, if
the node around it allows a late start. One that looks at the current token first, or sets a mark, may
be called anywhere.
-/
import DeclKit.Parser.Members
import DeclKit.Proofs.Trivia.Step

set_option autoImplicit false

namespace DeclKit.Parser

/-- A step that may be taken anywhere, whatever the node around it allows. -/
def Neat {α : Type} (p : Parse α) : Prop := ∀ base L, Lays base L .anywhere .anywhere p

section

variable {α : Type} {base : State} {L : Kind → Bool} {b c : Spot} {p : Parse α} {type : Parse Bool}

theorem Neat.lays (h : Neat p) : Lays base L b .anywhere p := (h base L).start

/-- At a token every node may be opened. -/
theorem mayOpen_atToken (k : Kind) : MayOpen L k .atToken := .inl rfl

/-! ## Names -/

theorem bindingName_lays : Lays base L b .anywhere bindingName := by
  refine current_lays.bind fun k => ?_
  split
  · exact (bumpAs_lays (mayOpen_atToken _)).answer
  · exact (report_lays _).bind fun _ => Lays.done

theorem specifierName_lays : Lays base L b .anywhere specifierName := by
  refine current_lays.bind fun k => ?_
  split
  · exact (bumpAs_lays (mayOpen_atToken _)).answer
  · exact (report_lays _).bind fun _ => Lays.done

theorem moduleName_lays : Lays base L b .anywhere moduleName := by
  refine (at?_lays _).bind fun yes => ?_
  split
  · exact bumpAs_lays (mayOpen_atToken _)
  · exact (report_lays _).loose

theorem entityPart_lays : Lays base L b .anywhere entityPart := by
  refine current_lays.bind fun k => ?_
  split
  · exact bump_lays.answer
  · exact (report_lays _).bind fun _ => Lays.done

theorem entity_lays (hk : MayOpen L .entityName b) : Lays base L b .anywhere entity := by
  -- opened first thing, so `hk` is left to the caller; the parts behind it look first
  refine Lays.within hk fun _ => entityPart_lays.bind fun _ => repeatWhile_lays ?_
  refine (eat_lays _).bind fun ok => ?_
  split
  · exact entityPart_lays
  · exact Lays.done

/-! ## Skipping -/

theorem closeBrackets_lays (n depth : Nat) :
    Lays base L b .anywhere (closeBrackets n depth) := by
  induction n generalizing b depth with
  | zero => exact (raise_lays (c := .anywhere) .endless).bind fun _ => Lays.done
  | succ n ih =>
    refine atEnd_lays.bind fun ended => ?_
    split
    · exact Lays.done
    refine current_lays.bind fun k => ?_
    extract_lets inner
    refine bump_lays.bind fun _ => ?_
    split
    · exact Lays.done
    · exact ih inner

theorem skipBalanced_lays : Lays base L b .anywhere skipBalanced := by
  refine Lays.get fun s _ => (closeBrackets_lays _ 0).bind fun closed => ?_
  split
  · exact Lays.done
  · exact (report_lays _).loose

theorem continuesExpression_lays : Lays base L b .atToken continuesExpression := by
  refine current_lays.bind fun k => ?_
  split
  · exact Lays.pure
  refine current_lays.bind fun k => ?_
  split
  · exact currentText_lays.bind fun _ => Lays.pure
  · exact Lays.pure

theorem openBrackets_lays (depth : Nat) (k : Kind) : Lays base L b b (openBrackets depth k) := by
  unfold openBrackets
  split
  · exact Lays.stay
  split
  · split
    · exact (raise_lays .underflow).bind fun _ => Lays.stay
    · exact Lays.stay
  · exact Lays.stay

theorem skipExpressionFrom_lays (stop : Kind → Bool) (n depth : Nat) (before : Option Kind) :
    Lays base L b .anywhere (skipExpressionFrom stop n depth before) := by
  induction n generalizing b depth before with
  | zero => exact (raise_lays (c := .anywhere) .endless).bind fun _ => Lays.done
  | succ n ih =>
    refine atEnd_lays.bind fun ended => ?_
    split
    · exact Lays.done
    refine current_lays.bind fun k => ?_
    extract_lets goOn
    -- every branch but those that end the expression goes on the same way
    have hgoOn : Lays base L .atToken .anywhere (goOn ⟨⟩) :=
      (openBrackets_lays depth k).bind fun _ => bump_lays.bind fun _ => ih _ _
    split
    · split
      · exact Lays.done
      split
      · refine (lineBreakBefore_lays 0).bind fun breaks => ?_
        split
        · refine continuesExpression_lays.bind fun carried => ?_
          split
          · exact Lays.done
          · exact hgoOn
        · exact hgoOn
      · exact hgoOn
    · exact hgoOn

theorem skipExpression_lays (stop : Kind → Bool) : Lays base L b .anywhere (skipExpression stop) :=
  Lays.get fun _ _ => (skipExpressionFrom_lays stop _ 0 none).answer

/-! ## Lists -/

theorem memberName_lays : Lays base L b .anywhere memberName := by
  refine current_lays.bind fun k => ?_
  split
  · refine Lays.answer (Lays.within (mayOpen_atToken _) fun _ => ?_)
    exact bump_lays.bind fun _ => (skipExpression_lays _).bind fun _ =>
      (expect_lays _ _).answer
  split
  · exact (bumpAs_lays (mayOpen_atToken _)).answer
  · exact (report_lays _).bind fun _ => Lays.done

theorem parameterName_lays : Lays base L b .anywhere parameterName := by
  refine current_lays.bind fun k => ?_
  split
  · exact (bumpAs_lays (mayOpen_atToken _)).answer
  split
  · exact (Lays.within (mayOpen_atToken _) fun _ => skipBalanced_lays).answer
  · exact (report_lays _).bind fun _ => Lays.done

/-- The items of a list are read at a token. -/
theorem commaList_lays {close : Kind} {closeText : String} {item : Parse Bool}
    (h : Lays base L .atToken .anywhere item) :
    Lays base L b .anywhere (commaList close closeText item) := by
  refine (repeatWhile_lays ?_).bind fun _ => expect_lays _ _
  refine atEnd_lays.bind fun ended => ?_
  split
  · exact Lays.done
  refine (at?_lays _).bind fun closes => ?_
  split
  · exact Lays.done
  refine h.bind fun ok => ?_
  extract_lets next
  have hnext : Lays base L .anywhere .anywhere (next ⟨⟩) := eat_lays _
  split
  · exact (skipUntil_lays _).bind fun _ => hnext
  · exact hnext

/-! ## Types and predicates -/

theorem atAsserts_lays : Lays base L b .atToken atAsserts := by
  refine (atWord_lays _).bind fun yes => ?_
  split
  · refine (peek_lays 1).bind fun next => ?_
    split
    · exact (lineBreakBefore_lays 1).bind fun _ => Lays.pure
    · exact Lays.pure
  · exact Lays.pure

theorem atPredicate_lays (k : Kind) : Lays base L .atToken .atToken (atPredicate k) := by
  unfold atPredicate
  split
  · refine (peek_lays 1).bind fun next => (peekText_lays 1).bind fun text => ?_
    split
    · exact (lineBreakBefore_lays 1).bind fun _ => Lays.pure
    · exact Lays.pure
  · exact Lays.pure

theorem predicateRest_lays (ht : Neat type) :
    Lays base (lags .typePredicate) b .anywhere (predicateRest type) := by
  -- behind `asserts` nothing looks before the name is opened
  refine (bumpAs_lays (.inr rfl)).bind fun _ => (eatWord_lays _).bind fun yes => ?_
  split
  · exact ht.lays.answer
  · exact Lays.done

theorem typeOrPredicate_lays (ht : Neat type) : Lays base L b .anywhere (typeOrPredicate type) := by
  refine current_lays.bind fun k => atAsserts_lays.bind fun asserts =>
    (atPredicate_lays k).bind fun predicate => ?_
  split
  · refine Lays.answer (Lays.within (mayOpen_atToken _) fun _ => ?_)
    exact bump_lays.bind fun _ => predicateRest_lays ht
  split
  · exact (Lays.within (mayOpen_atToken _) fun _ => predicateRest_lays ht).answer
  · exact ht.lays

theorem colonType_lays (ht : Neat type) (hk : MayOpen L .colonType b) :
    Lays base L b .anywhere (colonType type) := by
  refine Lays.within hk fun _ => (expect_lays _ _).bind fun ok => ?_
  split
  · exact ht.lays
  · exact Lays.done

theorem returnType_lays (ht : Neat type) (hk : MayOpen L .returnType b) :
    Lays base L b .anywhere (returnType type) := by
  refine Lays.within hk fun _ => (expect_lays _ _).bind fun ok => ?_
  split
  · exact (typeOrPredicate_lays ht).answer
  · exact Lays.done

/-! ## Type parameters and arguments -/

theorem typeParamModifiers_lays : Lays base L b .anywhere typeParamModifiers := by
  refine repeatWhile_lays (current_lays.bind fun k => ?_)
  split
  · exact bump_lays.answer
  refine (atWord_lays _).bind fun yes => ?_
  split
  · refine (peek_lays 1).bind fun next => ?_
    split
    · exact bump_lays.answer
    · exact Lays.done
  · exact Lays.done

/-- A token and the type behind it, as a node. -/
theorem within_bump_type_lays {k : Kind} (ht : Neat type) (hk : MayOpen L k b) :
    Lays base L b .anywhere (within k do bump; let _ ← type) :=
  Lays.within hk fun _ => bump_lays.bind fun _ => ht.lays.answer

theorem typeParam_lays (ht : Neat type) (hk : MayOpen L .typeParam b) :
    Lays base L b .anywhere (typeParam type) := by
  refine Lays.within hk fun _ => typeParamModifiers_lays.bind fun _ => bindingName_lays.bind fun _ => ?_
  refine (whenAt_lays (within_bump_type_lays ht (mayOpen_atToken _))).bind fun _ => ?_
  exact (whenAt_lays (within_bump_type_lays ht (mayOpen_atToken _))).answer

theorem typeParams_lays (ht : Neat type) (hk : MayOpen L .typeParamList b) :
    Lays base L b .anywhere (typeParams type) := by
  refine Lays.within hk fun _ => bump_lays.bind fun _ => ?_
  refine Lays.answer (allowingConditional_lays ?_)
  exact commaList_lays (typeParam_lays ht (mayOpen_atToken _))

theorem typeArgs_lays (ht : Neat type) (hk : MayOpen L .typeArgList b) :
    Lays base L b .anywhere (typeArgs type) := by
  refine Lays.within hk fun _ => bump_lays.bind fun _ => ?_
  exact (allowingConditional_lays (commaList_lays ht.lays)).answer

/-! ## Parameters and signatures -/

theorem reportParameterProperty_lays : Lays base L b .atToken reportParameterProperty := by
  refine current_lays.bind fun k => ?_
  split
  · refine currentText_lays.bind fun text => ?_
    split
    · refine (peek_lays 1).bind fun next => ?_
      split
      · exact reportUnsupported_lays _
      · exact Lays.pure
    · exact Lays.pure
  · exact Lays.pure

theorem param_lays (ht : Neat type) : Lays base L b .anywhere (param type) := by
  refine reportParameterProperty_lays.bind fun _ => Lays.within (mayOpen_atToken _) fun _ => ?_
  refine (eat_lays _).bind fun _ => parameterName_lays.bind fun _ => (eat_lays _).bind fun _ => ?_
  refine Lays.bind (c := .anywhere) (whenAt_lays ?_) fun _ => ?_
  · exact (colonType_lays ht (mayOpen_atToken _)).answer
  refine Lays.answer (whenAt_lays ?_)
  refine Lays.within (mayOpen_atToken _) fun _ => bump_lays.bind fun _ => ?_
  exact (skipExpression_lays _).answer

theorem params_lays (ht : Neat type) (hk : MayOpen L .paramList b) :
    Lays base L b .anywhere (params type) := by
  refine Lays.within hk fun _ => (expect_lays _ _).bind fun ok => ?_
  split
  · exact (allowingConditional_lays (commaList_lays (param_lays ht))).answer
  · exact Lays.done

/-- The parameters of a signature are opened behind its type parameters, where no look has been. -/
theorem signatureRest_lays (ht : Neat type) (hk : L .paramList = true) :
    Lays base L b .anywhere (signatureRest type) := by
  refine (whenAt_lays (typeParams_lays ht (mayOpen_atToken _))).bind fun _ => ?_
  refine (params_lays ht (.inr hk)).bind fun _ => ?_
  exact whenAt_lays (returnType_lays ht (mayOpen_atToken _))

/-! ## Members -/

theorem modifiesMember_lays : Lays base L b .atToken modifiesMember := by
  refine (peek_lays 1).bind fun next => ?_
  split
  · exact (lineBreakBefore_lays 1).bind fun _ => Lays.pure
  · exact Lays.pure

theorem atIndexSignature_lays : Lays base L b .atToken atIndexSignature := by
  refine (at?_lays _).bind fun yes => ?_
  split
  · refine (peek_lays 1).bind fun next => ?_
    split
    · exact (peek_lays 2).bind fun _ => Lays.pure
    · exact Lays.pure
  · exact Lays.pure

theorem memberModifiers_lays : Lays base L b .anywhere memberModifiers := by
  refine repeatWhile_lays ((atWord_lays _).bind fun yes => ?_)
  split
  · refine modifiesMember_lays.bind fun modifies => ?_
    split
    · exact bump_lays.answer
    · exact Lays.done
  · exact Lays.done

theorem indexSignature_lays (ht : Neat type) :
    Lays base (lags .indexSig) b .anywhere (indexSignature type) := by
  refine bump_lays.bind fun _ => ?_
  -- the parameter is opened right behind the bracket, and its type right behind its name
  refine Lays.bind (c := .anywhere) (Lays.within (.inr rfl) fun _ => ?_) fun _ => ?_
  · exact bindingName_lays.bind fun _ => (colonType_lays ht (.inr rfl)).answer
  · exact (expect_lays _ _).bind fun _ => (colonType_lays ht (.inr rfl)).answer

theorem unnamedMember_lays (hbase : Marked base) (modified : Bool) :
    Lays base noKind b .anywhere (unnamedMember base.row.size modified) := by
  unfold unnamedMember
  split
  · exact Lays.withinFrom hbase fun _ => (report_lays _).loose
  · exact (report_lays _).loose

theorem memberRest_lays (ht : Neat type) (hbase : Marked base) :
    Lays base noKind b .anywhere (memberRest type base.row.size) := by
  refine (eat_lays _).bind fun _ => current_lays.bind fun k => ?_
  split
  · exact Lays.withinFrom hbase fun _ => signatureRest_lays ht rfl
  · refine Lays.withinFrom hbase fun _ => whenAt_lays ?_
    exact (colonType_lays ht (mayOpen_atToken _)).answer

theorem namedMember_lays (ht : Neat type) : Lays base L b .anywhere (namedMember type) := by
  -- what the member is shows behind its name only, so it is opened at a mark before the modifiers
  refine Lays.mark fun s hmarked => Lays.get fun _ _ => memberModifiers_lays.bind fun _ =>
    Lays.get fun _ _ => atIndexSignature_lays.bind fun index => ?_
  split
  · exact (Lays.withinFrom hmarked fun _ => indexSignature_lays ht).answer
  refine current_lays.bind fun k => ?_
  split
  · exact (unnamedMember_lays hmarked _).answer
  · exact memberName_lays.bind fun _ => (memberRest_lays ht hmarked).answer

theorem member_lays (ht : Neat type) : Lays base L b .anywhere (member type) := by
  refine current_lays.bind fun k => ?_
  split
  · exact (Lays.within (mayOpen_atToken _) fun _ => signatureRest_lays ht rfl).answer
  split
  · refine (peek_lays 1).bind fun next => ?_
    split
    · refine Lays.answer (Lays.within (mayOpen_atToken _) fun _ => ?_)
      exact bump_lays.bind fun _ => signatureRest_lays ht rfl
    · exact namedMember_lays ht
  · exact namedMember_lays ht

theorem memberOrSkipped_lays (ht : Neat type) : Lays base L b .anywhere (memberOrSkipped type) := by
  refine (member_lays ht).bind fun ok => ?_
  split
  · exact skipUntil_lays _
  · exact Lays.done

theorem memberEnd_lays : Lays base L b .anywhere memberEnd := by
  refine (eat_lays _).bind fun ok => ?_
  split
  · exact Lays.done
  refine (eat_lays _).bind fun ok => ?_
  split
  · exact Lays.done
  refine (at?_lays _).bind fun closes => ?_
  split
  · exact Lays.done
  refine (lineBreakBefore_lays 0).bind fun breaks => ?_
  split
  · exact Lays.done
  · exact (reportExpected_lays _).loose

theorem members_lays (ht : Neat type) : Lays base L b .anywhere (members type) := by
  refine repeatWhile_lays (atEnd_lays.bind fun ended => ?_)
  split
  · exact Lays.done
  refine (at?_lays _).bind fun closes => ?_
  split
  · exact Lays.done
  · exact (memberOrSkipped_lays ht).bind fun _ => memberEnd_lays.answer

theorem objectType_lays (ht : Neat type) (hk : MayOpen L .objectType b) :
    Lays base L b .anywhere (objectType type) := by
  refine Lays.within hk fun _ => (expect_lays _ _).bind fun _ => ?_
  refine (allowingConditional_lays (members_lays ht)).bind fun _ => ?_
  exact (expect_lays _ _).answer

end

end DeclKit.Parser

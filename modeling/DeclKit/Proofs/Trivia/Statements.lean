/-
Where the nodes of statements start, and with them those of a whole file.

Every production here may be called anywhere but the lists and clauses whose nodes are opened first
thing; these are called at a token.
-/
import DeclKit.Parser.Statements
import DeclKit.Proofs.Trivia.Types

set_option autoImplicit false

namespace DeclKit.Parser

section

variable {base : State} {L : Kind → Bool} {b c : Spot}

/-! ## Imports and exports -/

theorem typeOnlySpecifier_lays : Lays base L b .atToken typeOnlySpecifier := by
  refine (peek_lays 1).bind fun next => (atWord_lays _).bind fun word => ?_
  split
  · split
    · refine (peekText_lays 1).bind fun text => ?_
      split
      · exact Lays.pure
      · exact (peekText_lays 2).bind fun _ => Lays.pure
    · exact Lays.pure
  · exact Lays.pure

theorem bumpIf_lays {look : Parse Bool} (h : Lays base L b .atToken look) :
    Lays base L b .anywhere (bumpIf look) := by
  refine h.bind fun yes => ?_
  split
  · exact bump_lays
  · exact Lays.done

theorem specifier_lays {k : Kind} (hk : MayOpen L k b) :
    Lays base L b .anywhere (specifier k) := by
  refine Lays.within hk fun _ => (bumpIf_lays typeOnlySpecifier_lays).bind fun _ => ?_
  refine specifierName_lays.bind fun _ => (eatWord_lays _).bind fun renamed => ?_
  split
  · exact specifierName_lays.answer
  · exact Lays.done

theorem atImportAttributes_lays : Lays base L b .atToken atImportAttributes := by
  refine (atWord_lays _).bind fun word => ?_
  -- whichever of the two words it is, the rest is the same
  have hrest (word : Bool) : Lays base L .atToken .atToken (do
      if word then
        if (← peek 1) == .braceOpen then return !(← lineBreakBefore 0)
      return false) := by
    split
    · refine (peek_lays 1).bind fun next => ?_
      split
      · exact (lineBreakBefore_lays 0).bind fun _ => Lays.pure
      · exact Lays.pure
    · exact Lays.pure
  split
  · exact Lays.pure.bind hrest
  · exact (atWord_lays _).bind hrest

theorem importAttributes_lays : Lays base L b .anywhere importAttributes := by
  refine atImportAttributes_lays.bind fun yes => ?_
  split
  · exact Lays.within (mayOpen_atToken _) fun _ => bump_lays.bind fun _ => skipBalanced_lays
  · exact Lays.done

theorem typeOnlyImport_lays : Lays base L b .atToken typeOnlyImport := by
  refine (atWord_lays _).bind fun word => ?_
  split
  · refine (peek_lays 1).bind fun next => ?_
    split
    · exact Lays.pure
    · exact Lays.pure
    · refine (peekText_lays 1).bind fun text => ?_
      split
      · exact Lays.pure
      · exact (peek_lays 2).bind fun _ => Lays.pure
    · exact Lays.pure
  · exact Lays.pure

theorem expectWord_lays (word : String) : Lays base L b .anywhere (expectWord word) := by
  refine (eatWord_lays _).bind fun ok => ?_
  split
  · exact (reportExpected_lays _).loose
  · exact Lays.done

theorem importedNames_lays : Lays base L b .anywhere importedNames := by
  refine current_lays.bind fun k => ?_
  split
  · refine Lays.within (mayOpen_atToken _) fun _ => bump_lays.bind fun _ => ?_
    exact (expectWord_lays _).bind fun _ => bindingName_lays.answer
  · refine Lays.within (mayOpen_atToken _) fun _ => bump_lays.bind fun _ => ?_
    exact (commaList_lays (specifier_lays (mayOpen_atToken _))).answer
  · exact Lays.done

theorem importBindings_lays (hk : MayOpen L .importClause b) :
    Lays base L b .anywhere importBindings := by
  refine Lays.within hk fun _ => current_lays.bind fun k => ?_
  split
  · refine bindingName_lays.bind fun _ => (at?_lays _).bind fun assigns => ?_
    split
    · exact (reportUnsupported_lays _).bind fun _ => Lays.done
    · exact (eat_lays _).bind fun _ => importedNames_lays.answer
  · exact importedNames_lays.answer

theorem importRest_lays : Lays base (lags .importDecl) b .anywhere importRest := by
  refine (at?_lays _).bind fun bare => ?_
  split
  · exact moduleName_lays
  refine (bumpIf_lays typeOnlyImport_lays).bind fun _ => ?_
  -- where `type` has been taken there has been no look behind it
  refine (importBindings_lays (.inr rfl)).bind fun ok => ?_
  split
  · exact (expectWord_lays _).bind fun _ => moduleName_lays.bind fun _ => importAttributes_lays
  · exact (skipExpression_lays _).answer

theorem assertAt_lays (k : Kind) : Lays base L b .atToken (assertAt k) := by
  refine current_lays.bind fun here => ?_
  split
  · exact raise_lays .misplaced
  · exact Lays.pure

theorem importStatement_lays : Lays base L b .anywhere importStatement := by
  refine (assertAt_lays _).bind fun _ => Lays.within (mayOpen_atToken _) fun _ => ?_
  exact bump_lays.bind fun _ => importRest_lays.bind fun _ => (eat_lays _).answer

theorem exportRest_lays : Lays base L b .anywhere exportRest := by
  refine (at?_lays _).bind fun all => ?_
  split
  · refine Lays.bind (c := .anywhere) (Lays.within (mayOpen_atToken _) fun _ => ?_) fun _ =>
      (expectWord_lays _).bind fun _ => moduleName_lays
    refine bump_lays.bind fun _ => (eatWord_lays _).bind fun named => ?_
    split
    · exact specifierName_lays.answer
    · exact Lays.done
  · refine Lays.bind (c := .anywhere) (Lays.within (mayOpen_atToken _) fun _ => ?_) fun _ => ?_
    · exact bump_lays.bind fun _ => (commaList_lays (specifier_lays (mayOpen_atToken _))).answer
    · refine (eatWord_lays _).bind fun source => ?_
      split
      · exact moduleName_lays
      · exact Lays.done

theorem exportStatement_lays : Lays base L b .anywhere exportStatement := by
  refine (assertAt_lays _).bind fun _ => Lays.within (mayOpen_atToken _) fun _ => ?_
  refine bump_lays.bind fun _ => (eatWord_lays _).bind fun _ => exportRest_lays.bind fun _ => ?_
  exact importAttributes_lays.bind fun _ => (eat_lays _).answer

theorem exportedExpression_lays : Lays base L .atToken .anywhere exportedExpression := by
  refine Lays.within (mayOpen_atToken _) fun _ => bump_lays.bind fun _ => bump_lays.bind fun _ => ?_
  -- the value is opened right behind `default` or the equals sign
  refine Lays.bind (c := .anywhere) (Lays.within (.inr rfl) fun _ => ?_) fun _ => (eat_lays _).answer
  refine (skipExpression_lays _).bind fun ok => ?_
  split
  · exact (report_lays _).loose
  · exact Lays.done

/-! ## Declarations -/

theorem typeAliasRest_lays : Lays base L b .anywhere typeAliasRest := by
  refine bump_lays.bind fun _ => bindingName_lays.bind fun _ => ?_
  refine (whenAt_lays (typeParams_lays type_neat (mayOpen_atToken _))).bind fun _ => ?_
  refine (expect_lays _ _).bind fun ok => ?_
  split
  · exact type_neat.lays.bind fun _ => (eat_lays _).answer
  · exact (eat_lays _).answer

/-- The types that an interface extends are opened without a look, the first one behind the word and
the others behind the comma. The clause ends at the token that is no comma. -/
theorem heritage_lays : Lays base L .atToken .atToken heritage := by
  refine Lays.within (mayOpen_atToken _) fun s1 => bump_lays.bind fun _ => repeatWhile_ends ?_
  intro s hs
  have hentry : Lays s1 (lags .heritageClause) .anywhere .anywhere (within .typeRef do
      entity
      whenAt .lt (typeArgs type)) :=
    Lays.within (.inr rfl) fun _ => (entity_lays (.inr rfl)).bind fun _ =>
      whenAt_lays (typeArgs_lays type_neat (mayOpen_atToken _))
  exact (hentry s hs trivial).bind fun _ s2 h2 => eat_after h2.1

theorem interfaceRest_lays : Lays base L b .anywhere interfaceRest := by
  refine bump_lays.bind fun _ => bindingName_lays.bind fun _ => ?_
  refine (whenAt_lays (typeParams_lays type_neat (mayOpen_atToken _))).bind fun _ => ?_
  exact (whenAt_lays heritage_lays).bind fun _ => objectType_lays type_neat (mayOpen_atToken _)

theorem bodyOrSemicolon_lays {body : Parse Unit} (h : Lays base L .atToken .anywhere body) :
    Lays base L b .anywhere (bodyOrSemicolon body) := by
  refine (at?_lays _).bind fun opens => ?_
  split
  · exact h
  · exact (eat_lays _).answer

theorem generatorStar_lays : Lays base L b .anywhere generatorStar := by
  refine (eat_lays _).bind fun ok => ?_
  split
  · exact (reportUnsupported_lays _).loose
  · exact Lays.done

theorem functionRest_lays : Lays base (lags .functionDecl) b .anywhere functionRest := by
  refine (eatWord_lays _).bind fun _ => bump_lays.bind fun _ => generatorStar_lays.bind fun _ => ?_
  refine Lays.bind (c := .anywhere) (whenAt_lays bindingName_lays.answer) fun _ => ?_
  refine (signatureRest_lays type_neat rfl).bind fun _ => bodyOrSemicolon_lays ?_
  exact Lays.within (mayOpen_atToken _) fun _ => skipBalanced_lays

theorem variableTarget_lays : Lays base L b .anywhere variableTarget := by
  refine current_lays.bind fun k => ?_
  split
  · exact (reportUnsupported_lays _).bind fun _ => skipBalanced_lays
  · exact bindingName_lays.answer

theorem variableDeclaration_lays (hk : MayOpen L .variableDecl b) :
    Lays base L b .anywhere variableDeclaration := by
  refine Lays.within hk fun _ => variableTarget_lays.bind fun _ => (eat_lays _).bind fun _ => ?_
  refine Lays.bind (c := .anywhere) (whenAt_lays (colonType_lays type_neat (mayOpen_atToken _)).answer)
    fun _ => whenAt_lays ?_
  refine Lays.within (mayOpen_atToken _) fun _ => bump_lays.bind fun _ => ?_
  refine (skipExpression_lays _).bind fun ok => ?_
  split
  · exact (report_lays _).loose
  · exact Lays.done

theorem variablesRest_lays : Lays base (lags .variableStatement) b .anywhere variablesRest := by
  refine bump_lays.bind fun _ => (repeatWhile_lays ?_).bind fun _ => (eat_lays _).answer
  -- the first one is opened right behind the word, the others right behind a comma
  exact (variableDeclaration_lays (.inr rfl)).bind fun _ => eat_lays _

theorem unsupportedForm_lays : Lays base L b .atToken unsupportedForm := by
  refine current_lays.bind fun k => ?_
  split
  iterate 3 exact Lays.pure
  · exact currentText_lays.bind fun _ => Lays.pure

theorem unsupportedRest_lays : Lays base L b .anywhere unsupportedRest := by
  refine unsupportedForm_lays.bind fun form => (reportUnsupported_lays form).bind fun _ => ?_
  refine Lays.bind (c := .anywhere) (repeatWhile_lays ?_) fun _ => bodyOrSemicolon_lays skipBalanced_lays
  refine atEnd_lays.bind fun ended => ?_
  split
  · exact Lays.done
  refine (at?_lays _).bind fun opens => ?_
  split
  · exact Lays.done
  refine (at?_lays _).bind fun ends => ?_
  split
  · exact Lays.done
  · exact bump_lays.answer

theorem declareModifies_lays : Lays base L b .atToken declareModifies := by
  refine (atWord_lays _).bind fun word => ?_
  split
  · refine (lineBreakBefore_lays 1).bind fun breaks => ?_
    split
    · exact Lays.pure
    refine (peek_lays 1).bind fun next => ?_
    split
    iterate 5 exact Lays.pure
    · exact (peekText_lays 1).bind fun _ => Lays.pure
    · exact Lays.pure
  · exact Lays.pure

theorem wordDeclaration_lays : Lays base L b .atToken wordDeclaration? := by
  refine (peek_lays 1).bind fun next => (lineBreakBefore_lays 1).bind fun breaks => ?_
  refine currentText_lays.bind fun text => ?_
  -- every declaration is answered by its kind
  split
  · exact Lays.pure
  split
  · exact Lays.pure
  split
  · exact Lays.pure
  split
  · exact Lays.pure
  extract_lets opens
  split
  · exact Lays.pure
  · exact Lays.pure

theorem declaration?_lays : Lays base L b .atToken declaration? := by
  refine current_lays.bind fun k => ?_
  split
  · exact Lays.pure
  · exact (peek_lays 1).bind fun _ => Lays.pure
  iterate 3 exact Lays.pure
  · exact wordDeclaration_lays
  · exact Lays.pure

theorem declarationRest_lays (k : Kind) : Lays base (lags k) b .anywhere (declarationRest k) := by
  unfold declarationRest
  split
  · exact typeAliasRest_lays
  · exact interfaceRest_lays
  · exact functionRest_lays
  · exact variablesRest_lays
  · exact unsupportedRest_lays

theorem declarationModifiers_lays : Lays base L b .anywhere declarationModifiers := by
  refine (eat_lays _).bind fun exported => ?_
  split
  · exact (eat_lays _).bind fun _ => (bumpIf_lays declareModifies_lays).answer
  refine declareModifies_lays.bind fun declares => ?_
  split
  · exact bump_lays.answer
  · exact Lays.done

theorem strayModifiers_lays : Lays base L b .anywhere strayModifiers :=
  (report_lays _).bind fun _ => skipUntil_lays _

theorem expressionStatement_lays : Lays base L b .anywhere expressionStatement := by
  refine (skipExpression_lays _).bind fun ok => ?_
  split
  · exact (reportAndBump_lays _).bind fun _ => (eat_lays _).answer
  · exact (eat_lays _).answer

/-- A declaration starts at a mark, so that its modifiers are part of it. -/
theorem declaration_lays : Lays base L b .anywhere declaration := by
  refine Lays.mark fun s hmarked => declarationModifiers_lays.bind fun modified => ?_
  refine declaration?_lays.bind fun kind => ?_
  split
  · exact Lays.withinFrom hmarked fun _ => declarationRest_lays _
  split
  · exact Lays.withinFrom hmarked fun _ => strayModifiers_lays
  · exact Lays.withinFrom hmarked fun _ => expressionStatement_lays

/-! ## Statements and files -/

theorem defaultDeclares_lays : Lays base L b .atToken defaultDeclares := by
  refine (peek_lays 2).bind fun k => ?_
  split
  · exact Lays.pure
  · exact Lays.pure
  · refine (peekText_lays 2).bind fun text => ?_
    split
    · exact Lays.pure
    split
    · exact (peek_lays 3).bind fun _ => Lays.pure
    · exact Lays.pure
  · exact Lays.pure

theorem exporting_lays : Lays base L b .anywhere exporting := by
  refine (peek_lays 1).bind fun next => ?_
  split
  · exact exportStatement_lays
  · exact exportStatement_lays
  · exact exportedExpression_lays
  · refine defaultDeclares_lays.bind fun declares => ?_
    split
    · exact declaration_lays
    · exact exportedExpression_lays
  · refine (peekText_lays 1).bind fun text => ?_
    split
    · refine (peek_lays 2).bind fun after => ?_
      split
      · exact exportStatement_lays
      · exact declaration_lays
    · exact declaration_lays
  · exact declaration_lays

theorem statement_lays : Lays base L b .anywhere statement := by
  refine current_lays.bind fun k => ?_
  split
  · exact bump_lays
  · refine (peek_lays 1).bind fun next => ?_
    split
    · exact declaration_lays
    · exact importStatement_lays
  · exact exporting_lays
  · exact declaration_lays

theorem statementOrToken_lays : Lays base L b .anywhere statementOrToken := by
  refine Lays.get fun _ _ => statement_lays.bind fun _ => Lays.get fun _ _ => ?_
  split
  · refine atEnd_lays.bind fun ended => ?_
    split
    · exact reportAndBump_lays _
    · exact Lays.done
  · exact Lays.done

theorem statements_lays : Lays base L b .anywhere statements := by
  refine repeatWhile_lays (atEnd_lays.bind fun ended => ?_)
  split
  · exact Lays.done
  · exact statementOrToken_lays.answer

end

end DeclKit.Parser

/-
Statements are composed, and so is a whole file.

Statements do not nest, so the nodes of a file take a fixed number of levels on top of those of the
types in it: an object type within an interface is the highest.
-/
import DeclKit.Proofs.Limits.Types

set_option autoImplicit false

namespace DeclKit.Parser

section

variable {n : Nat}

/-! ## Imports and exports -/

theorem typeOnlySpecifier_flat : Flat typeOnlySpecifier := by
  intro n
  refine (peek_flat 1 n).bind fun next => (atWord_flat _ n).bind fun word => ?_
  split
  · split
    · refine (peekText_flat 1 n).bind fun text => ?_
      split
      · exact .pure
      · exact (peekText_flat 2 n).answer
    · exact .pure
  · exact .pure

theorem bumpIf_flat {look : Parse Bool} (h : Flat look) : Flat (bumpIf look) := by
  intro n
  refine (h n).bind fun yes => ?_
  split
  · exact bump_flat n
  · exact .pure

theorem specifier_stacks {k : Kind} (hn : 2 ≤ n) (hk : restricted k = false) :
    Stacks n (specifier k) := by
  have hname : Stacks 1 specifierName := specifierName_stacks (Nat.le_refl 1)
  refine Stacks.within ((bumpIf_flat typeOnlySpecifier_flat 1).bind fun _ => ?_) hn hk
  refine hname.bind fun _ => (eatWord_flat _ 1).bind fun renamed => ?_
  split
  · exact hname.answer
  · exact .pure

theorem atImportAttributes_flat : Flat atImportAttributes := by
  intro n
  refine (atWord_flat _ n).bind fun word => ?_
  -- whichever of the two words it is, the rest is the same
  have hrest (word : Bool) : Stacks n (do
      if word then
        if (← peek 1) == .braceOpen then return !(← lineBreakBefore 0)
      return false) := by
    split
    · refine (peek_flat 1 n).bind fun next => ?_
      split
      · exact (lineBreakBefore_flat 0 n).answer
      · exact .pure
    · exact .pure
  split
  · exact Stacks.pure.bind hrest
  · exact (atWord_flat _ n).bind hrest

theorem importAttributes_stacks (hn : 1 ≤ n) : Stacks n importAttributes := by
  refine (atImportAttributes_flat n).bind fun yes => ?_
  split
  · exact Stacks.within ((bump_flat 0).bind fun _ => skipBalanced_flat 0) hn rfl
  · exact .pure

theorem typeOnlyImport_flat : Flat typeOnlyImport := by
  intro n
  refine (atWord_flat _ n).bind fun word => ?_
  split
  · refine (peek_flat 1 n).bind fun next => ?_
    split
    · exact .pure
    · exact .pure
    · refine (peekText_flat 1 n).bind fun text => ?_
      split
      · exact .pure
      · exact (peek_flat 2 n).answer
    · exact .pure
  · exact .pure

theorem expectWord_flat (word : String) : Flat (expectWord word) := by
  intro n
  refine (eatWord_flat _ n).bind fun ok => ?_
  split
  · exact reportExpected_flat _ n
  · exact .pure

theorem importedNames_stacks (hn : 3 ≤ n) : Stacks n importedNames := by
  refine (current_flat n).bind fun k => ?_
  split
  · refine Stacks.within ((bump_flat 2).bind fun _ => (expectWord_flat _ 2).bind fun _ => ?_) hn rfl
    exact (bindingName_stacks (by decide)).answer
  · refine Stacks.within ((bump_flat 2).bind fun _ => ?_) hn rfl
    exact (commaList_stacks (specifier_stacks (Nat.le_refl 2) rfl) (by decide)).answer
  · exact .pure

theorem importBindings_stacks (hn : 4 ≤ n) : Stacks n importBindings := by
  have hnames : Stacks 3 importedNames := importedNames_stacks (Nat.le_refl 3)
  refine Stacks.within ((current_flat 3).bind fun k => ?_) hn rfl
  split
  · refine (bindingName_stacks (by decide)).bind fun _ => (at?_flat _ 3).bind fun assigns => ?_
    split
    · exact (reportUnsupported_flat _ 3).answer
    · exact (eat_flat _ 3).bind fun _ => hnames.answer
  · exact hnames.answer

theorem importRest_stacks (hn : 4 ≤ n) : Stacks n importRest := by
  refine (at?_flat _ n).bind fun bare => ?_
  split
  · exact moduleName_stacks (by omega)
  refine (bumpIf_flat typeOnlyImport_flat n).bind fun _ => (importBindings_stacks hn).bind fun ok => ?_
  split
  · refine (expectWord_flat _ n).bind fun _ => (moduleName_stacks (by omega)).bind fun _ => ?_
    exact importAttributes_stacks (by omega)
  · exact (skipExpression_flat _ n).answer

theorem assertAt_flat (k : Kind) : Flat (assertAt k) := by
  intro n
  refine (current_flat n).bind fun here => ?_
  split
  · exact raise_flat .misplaced n
  · exact .pure

theorem importStatement_stacks (hn : 5 ≤ n) : Stacks n importStatement := by
  refine (assertAt_flat _ n).bind fun _ => Stacks.within ((bump_flat 4).bind fun _ => ?_) hn rfl
  exact (importRest_stacks (Nat.le_refl 4)).bind fun _ => (eat_flat _ 4).answer

theorem exportRest_stacks (hn : 3 ≤ n) : Stacks n exportRest := by
  have hmodule : Stacks n moduleName := moduleName_stacks (by omega)
  refine (at?_flat _ n).bind fun all => ?_
  split
  · refine Stacks.bind (Stacks.within ((bump_flat 2).bind fun _ => ?_) hn rfl) fun _ =>
      (expectWord_flat _ n).bind fun _ => hmodule
    refine (eatWord_flat _ 2).bind fun named => ?_
    split
    · exact (specifierName_stacks (by decide)).answer
    · exact .pure
  · refine Stacks.bind (Stacks.within ((bump_flat 2).bind fun _ => ?_) hn rfl) fun _ => ?_
    · exact (commaList_stacks (specifier_stacks (Nat.le_refl 2) rfl) (by decide)).answer
    · refine (eatWord_flat _ n).bind fun source => ?_
      split
      · exact hmodule
      · exact .pure

theorem exportStatement_stacks (hn : 4 ≤ n) : Stacks n exportStatement := by
  refine (assertAt_flat _ n).bind fun _ => Stacks.within ((bump_flat 3).bind fun _ => ?_) hn rfl
  refine (eatWord_flat _ 3).bind fun _ => (exportRest_stacks (Nat.le_refl 3)).bind fun _ => ?_
  exact (importAttributes_stacks (by decide)).bind fun _ => (eat_flat _ 3).answer

/-- An expression, or a report that there is none. -/
theorem expressionOrReport_flat (stop : Kind → Bool) :
    Flat (do if !(← skipExpression stop) then report .unsupportedForm) := by
  intro n
  refine (skipExpression_flat stop n).bind fun ok => ?_
  split
  · exact report_flat _ n
  · exact .pure

theorem exportedExpression_stacks (hn : 2 ≤ n) : Stacks n exportedExpression := by
  refine Stacks.within ((bump_flat 1).bind fun _ => (bump_flat 1).bind fun _ => ?_) hn rfl
  exact ((expressionOrReport_flat _ 0).within (Nat.le_refl 1) rfl).bind fun _ => (eat_flat _ 1).answer

/-! ## Declarations -/

theorem typeAliasRest_stacks (hn : 3 ≤ n) : Stacks n typeAliasRest := by
  refine (bump_flat n).bind fun _ => (bindingName_stacks (by omega)).bind fun _ => ?_
  refine (typeParams_stacks type_flat hn).whenAt.bind fun _ => (expect_flat _ _ n).bind fun ok => ?_
  split
  · exact (type_flat n).bind fun _ => (eat_flat _ n).answer
  · exact (eat_flat _ n).answer

theorem heritage_stacks (hn : 4 ≤ n) : Stacks n heritage := by
  have hentry : Stacks 3 (within .typeRef do
      entity
      whenAt .lt (typeArgs type)) := by
    refine Stacks.within ((entity_stacks (by decide)).bind fun _ => ?_) (Nat.le_refl 3) rfl
    exact (typeArgs_stacks type_flat (Nat.le_refl 2)).whenAt
  refine Stacks.within ((bump_flat 3).bind fun _ => Stacks.repeatWhile ?_) hn rfl
  exact hentry.bind fun _ => eat_flat _ 3

theorem interfaceRest_stacks (hn : 5 ≤ n) : Stacks n interfaceRest := by
  refine (bump_flat n).bind fun _ => (bindingName_stacks (by omega)).bind fun _ => ?_
  refine (typeParams_stacks type_flat (by omega)).whenAt.bind fun _ => ?_
  exact (heritage_stacks (by omega)).whenAt.bind fun _ => objectType_stacks type_flat hn

theorem bodyOrSemicolon_stacks {body : Parse Unit} (h : Stacks n body) :
    Stacks n (bodyOrSemicolon body) := by
  refine (at?_flat _ n).bind fun opens => ?_
  split
  · exact h
  · exact (eat_flat _ n).answer

theorem generatorStar_flat : Flat generatorStar := by
  intro n
  refine (eat_flat _ n).bind fun ok => ?_
  split
  · exact reportUnsupported_flat _ n
  · exact .pure

theorem functionRest_stacks (hn : 3 ≤ n) : Stacks n functionRest := by
  refine (eatWord_flat _ n).bind fun _ => (bump_flat n).bind fun _ => ?_
  refine (generatorStar_flat n).bind fun _ => ?_
  refine (bindingName_stacks (by omega)).answer.whenAt.bind fun _ => ?_
  refine (signatureRest_stacks type_flat hn).bind fun _ => bodyOrSemicolon_stacks ?_
  exact (skipBalanced_flat 0).within (by omega) rfl

theorem variableTarget_stacks (hn : 1 ≤ n) : Stacks n variableTarget := by
  refine (current_flat n).bind fun k => ?_
  split
  · exact (reportUnsupported_flat _ n).bind fun _ => skipBalanced_flat n
  · exact (bindingName_stacks hn).answer

theorem variableDeclaration_stacks (hn : 2 ≤ n) : Stacks n variableDeclaration := by
  refine Stacks.within ((variableTarget_stacks (Nat.le_refl 1)).bind fun _ => ?_) hn rfl
  refine (eat_flat _ 1).bind fun _ => ?_
  refine (colonType_stacks type_flat (Nat.le_refl 1)).answer.whenAt.bind fun _ => Stacks.whenAt ?_
  exact Stacks.within ((bump_flat 0).bind fun _ => expressionOrReport_flat _ 0) (Nat.le_refl 1) rfl

theorem variablesRest_stacks (hn : 2 ≤ n) : Stacks n variablesRest := by
  refine (bump_flat n).bind fun _ => Stacks.bind (Stacks.repeatWhile ?_) fun _ => (eat_flat _ n).answer
  exact (variableDeclaration_stacks hn).bind fun _ => eat_flat _ n

theorem unsupportedForm_flat : Flat unsupportedForm := by
  intro n
  refine (current_flat n).bind fun k => ?_
  split
  iterate 3 exact .pure
  · exact (currentText_flat n).answer

theorem unsupportedRest_flat : Flat unsupportedRest := by
  intro n
  refine (unsupportedForm_flat n).bind fun form => (reportUnsupported_flat form n).bind fun _ => ?_
  refine Stacks.bind (Stacks.repeatWhile ?_) fun _ => bodyOrSemicolon_stacks (skipBalanced_flat n)
  refine (atEnd_flat n).bind fun ended => ?_
  split
  · exact .pure
  refine (at?_flat _ n).bind fun opens => ?_
  split
  · exact .pure
  refine (at?_flat _ n).bind fun ends => ?_
  split
  · exact .pure
  · exact (bump_flat n).answer

theorem declareModifies_flat : Flat declareModifies := by
  intro n
  refine (atWord_flat _ n).bind fun word => ?_
  split
  · refine (lineBreakBefore_flat 1 n).bind fun breaks => ?_
    split
    · exact .pure
    refine (peek_flat 1 n).bind fun next => ?_
    split
    iterate 5 exact .pure
    · exact (peekText_flat 1 n).answer
    · exact .pure
  · exact .pure

theorem wordDeclaration_flat : Flat wordDeclaration? := by
  intro n
  refine (peek_flat 1 n).bind fun next => (lineBreakBefore_flat 1 n).bind fun breaks => ?_
  refine (currentText_flat n).bind fun text => ?_
  -- every declaration is answered by its kind
  split
  · exact .pure
  split
  · exact .pure
  split
  · exact .pure
  split
  · exact .pure
  extract_lets opens
  split
  · exact .pure
  · exact .pure

theorem declaration?_flat : Flat declaration? := by
  intro n
  refine (current_flat n).bind fun k => ?_
  split
  · exact .pure
  · exact (peek_flat 1 n).answer
  iterate 3 exact .pure
  · exact wordDeclaration_flat n
  · exact .pure

/-- A step with such answers only, whatever state it is taken in. -/
def Answers {α : Type} (P : α → Prop) (p : Parse α) : Prop := ∀ s, P (p s).1

/-- The last of some steps gives their answer. -/
theorem Answers.after {α β : Type} {P : β → Prop} {p : Parse α} {f : α → Parse β}
    (hf : ∀ x, Answers P (f x)) : Answers P (p >>= f) :=
  fun _ => hf _ _

/-- A kind that is answered, if any, is not restricted. -/
def Unrestricted (kind? : Option Kind) : Prop := ∀ k, kind? = some k → restricted k = false

theorem unrestricted_none : Unrestricted none := nofun

theorem unrestricted_some {k : Kind} (hk : restricted k = false) : Unrestricted (some k) :=
  fun _ h => Option.some.inj h ▸ hk

theorem wordDeclaration?_answers : Answers Unrestricted wordDeclaration? := by
  refine Answers.after fun next => Answers.after fun breaks => Answers.after fun text => ?_
  split
  · exact fun _ => unrestricted_some rfl
  split
  · exact fun _ => unrestricted_some rfl
  split
  · exact fun _ => unrestricted_some rfl
  split
  · exact fun _ => unrestricted_some rfl
  extract_lets opens
  split
  · exact fun _ => unrestricted_some rfl
  · exact fun _ => unrestricted_none

/-- No declaration is restricted to where conditional types are allowed. -/
theorem declaration?_answers : Answers Unrestricted declaration? := by
  refine Answers.after fun k => ?_
  split
  case h_2 =>
    refine Answers.after fun next => fun _ => unrestricted_some ?_
    split <;> rfl
  case h_6 => exact wordDeclaration?_answers
  case h_7 => exact fun _ => unrestricted_none
  all_goals exact fun _ => unrestricted_some rfl

theorem declarationRest_stacks (k : Kind) (hn : 5 ≤ n) : Stacks n (declarationRest k) := by
  unfold declarationRest
  split
  · exact typeAliasRest_stacks (by omega)
  · exact interfaceRest_stacks hn
  · exact functionRest_stacks (by omega)
  · exact variablesRest_stacks (by omega)
  · exact unsupportedRest_flat n

theorem declarationModifiers_flat : Flat declarationModifiers := by
  intro n
  refine (eat_flat _ n).bind fun exported => ?_
  split
  · exact (eat_flat _ n).bind fun _ => (bumpIf_flat declareModifies_flat n).answer
  refine (declareModifies_flat n).bind fun declares => ?_
  split
  · exact (bump_flat n).answer
  · exact .pure

theorem strayModifiers_stacks (hn : 1 ≤ n) : Stacks n strayModifiers :=
  (report_flat _ n).bind fun _ => skipUntil_stacks _ hn

theorem expressionStatement_stacks (hn : 1 ≤ n) : Stacks n expressionStatement := by
  refine (skipExpression_flat _ n).bind fun ok => ?_
  split
  · exact (reportAndBump_stacks hn).bind fun _ => (eat_flat _ n).answer
  · exact (eat_flat _ n).answer

/-- Only modifiers are behind the mark of a declaration when its node is opened. -/
theorem declaration_stacks (hn : 6 ≤ n) : Stacks n declaration := by
  refine Stacks.marked fun m => (declarationModifiers_flat 0 m).bind fun modified => ?_
  refine .step (declaration?_flat 0 m) fun s => ?_
  have hkind := declaration?_answers s
  split
  · rename_i k hk
    exact ((declarationRest_stacks k (Nat.le_refl 5)).behind hn (hkind k hk)).from_zero
  split
  · exact ((strayModifiers_stacks (Nat.le_refl 1)).behind (by omega) rfl).from_zero
  · exact ((expressionStatement_stacks (Nat.le_refl 1)).behind (by omega) rfl).from_zero

/-! ## Statements and files -/

theorem defaultDeclares_flat : Flat defaultDeclares := by
  intro n
  refine (peek_flat 2 n).bind fun k => ?_
  split
  · exact .pure
  · exact .pure
  · refine (peekText_flat 2 n).bind fun text => ?_
    split
    · exact .pure
    split
    · exact (peek_flat 3 n).answer
    · exact .pure
  · exact .pure

theorem exporting_stacks (hn : 6 ≤ n) : Stacks n exporting := by
  have hlist : Stacks n exportStatement := exportStatement_stacks (by omega)
  have hexpression : Stacks n exportedExpression := exportedExpression_stacks (by omega)
  have hdeclaration : Stacks n declaration := declaration_stacks hn
  refine (peek_flat 1 n).bind fun next => ?_
  split
  · exact hlist
  · exact hlist
  · exact hexpression
  · refine (defaultDeclares_flat n).bind fun declares => ?_
    split
    · exact hdeclaration
    · exact hexpression
  · refine (peekText_flat 1 n).bind fun text => ?_
    split
    · refine (peek_flat 2 n).bind fun after => ?_
      split
      · exact hlist
      · exact hdeclaration
    · exact hdeclaration
  · exact hdeclaration

theorem statement_stacks (hn : 6 ≤ n) : Stacks n statement := by
  refine (current_flat n).bind fun k => ?_
  split
  · exact bump_flat n
  · refine (peek_flat 1 n).bind fun next => ?_
    split
    · exact declaration_stacks hn
    · exact importStatement_stacks (by omega)
  · exact exporting_stacks hn
  · exact declaration_stacks hn

theorem statementOrToken_stacks (hn : 6 ≤ n) : Stacks n statementOrToken := by
  refine Stacks.read (fun s => ?_) fun _ _ _ _ => rfl
  refine (statement_stacks hn).bind fun _ => Stacks.read (fun s' => ?_) fun _ _ _ _ => rfl
  split
  · refine (atEnd_flat n).bind fun ended => ?_
    split
    · exact reportAndBump_stacks (by omega)
    · exact .pure
  · exact .pure

theorem statements_stacks (hn : 6 ≤ n) : Stacks n statements := by
  refine Stacks.repeatWhile ((atEnd_flat n).bind fun ended => ?_)
  split
  · exact .pure
  · exact (statementOrToken_stacks hn).answer

/-- A whole file takes seven levels on top of those of the types in it. -/
theorem file_stacks (hn : 7 ≤ n) : Stacks n file := by
  refine Stacks.within ((statements_stacks (Nat.le_refl 6)).bind fun _ => ?_) hn rfl
  exact (skipTrivia_flat 6).bind fun _ _ => .placeTrivia

end

end DeclKit.Parser

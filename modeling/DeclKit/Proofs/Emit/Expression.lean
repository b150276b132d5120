/-
Exported expressions.

The words of an exported expression are written side by side, and the blanks and comments between them are
lost. What is written has the same words exactly if none of them goes on in those behind it. So a call
or a dotted name is kept, but a reserved word runs into the name behind it.
-/
import DeclKit.Emit.Statements
import DeclKit.Proofs.Parser.File
import DeclKit.Proofs.Token.Apart

set_option autoImplicit false

namespace DeclKit

namespace Node

mutual

/-- The tokens of a node are tokens of the tree that it is in. -/
theorem tokens_subset_of_nodesOf {n : Node} : ∀ {above : List Tree} {t : Tree},
    n ∈ nodesOf above t → n.tree.tokens ⊆ t.tokens
  | _, .token _, h => absurd h List.not_mem_nil
  | above, .node k a b cs, h => by
    rw [nodesOf] at h
    rcases List.mem_cons.1 h with rfl | h
    · exact List.Subset.refl _
    · exact tokens_subset_of_nodesOfList h

theorem tokens_subset_of_nodesOfList {n : Node} : ∀ {above ts : List Tree},
    n ∈ nodesOfList above ts → n.tree.tokens ⊆ Tree.tokensOfList ts
  | _, [], h => absurd h List.not_mem_nil
  | above, t :: ts, h => by
    rw [nodesOfList] at h
    rw [Tree.tokensOfList_eq_flatMap, List.flatMap_cons, ← Tree.tokensOfList_eq_flatMap]
    rcases List.mem_append.1 h with h | h
    · exact List.subset_append_of_subset_left _ (tokens_subset_of_nodesOf h)
    · exact List.subset_append_of_subset_right _ (tokens_subset_of_nodesOfList h)

end

end Node

namespace Emit

open Token (apart)

variable {source : SourceId} {limits : Limits} {text : String} {f : ParsedFile} {n : Node} {t : Token}

/-- The words of the expression that a statement exports. -/
def exportedWords (n : Node) : List Token :=
  ((n.child? .initializer).map (·.expressionTokens)).getD []

theorem of_mem_exportedWords (h : t ∈ exportedWords n) :
    t ∈ n.tree.tokens ∧ t.kind.isTrivia = false := by
  rw [exportedWords] at h
  cases hchild : n.child? .initializer with
  | none =>
    rw [hchild] at h
    cases h
  | some c =>
    rw [hchild, Option.map_some, Option.getD_some, Node.expressionTokens] at h
    obtain ⟨ht, htrivia⟩ := List.mem_filter.1 (List.dropWhile_subset _ h)
    exact ⟨Node.tokens_subset_of_children (List.mem_of_find?_eq_some hchild) ht,
      by simpa using htrivia⟩

theorem join_text (ts : List Token) :
    String.join (ts.map (·.text)) = String.ofList ((ts.map Token.lexeme).flatMap (·.chars)) := by
  induction ts with
  | nil => rfl
  | cons t ts ih =>
    rw [List.map_cons, String.join_cons, ih, List.map_cons, List.flatMap_cons, String.ofList_append,
      Token.lexeme, String.ofList_toList]

/-- An exported expression without garbage and without pieces of templates is kept if and only if none of
its words goes on in those behind it, and the first does not start with a byte-order mark: exactly then
what is written for it has the same words. -/
theorem expression_kept_iff (h : parseWith source limits text = .ok f)
    (hn : n ∈ (Node.mk f.tree []).descendants)
    (hplain : ∀ t ∈ exportedWords n, t.kind ≠ .garbage ∧ Token.isPiece t.kind = false) :
    ∃ a, assignmentStatement n = .assignment a ∧
      (wordsIn (Token.lex a.expression) = (exportedWords n).map Token.lexeme ↔
        apart ((exportedWords n).map Token.lexeme) = true ∧
          a.expression.toList.head? ≠ some '\uFEFF') := by
  have hwhole : ∀ l ∈ (exportedWords n).map Token.lexeme,
      Token.Whole l ∧ l.kind.isTrivia = false ∧ l.kind ≠ .garbage := by
    intro l hl
    obtain ⟨t, ht, rfl⟩ := List.mem_map.1 hl
    obtain ⟨htree, htrivia⟩ := of_mem_exportedWords ht
    obtain ⟨hgarbage, hpiece⟩ := hplain t ht
    -- the words of a node are words of the text
    have hlex : t ∈ Token.lex text :=
      (parseWith_spec h).2.1 ▸ Node.tokens_subset_of_nodesOf hn htree
    exact ⟨Token.everywhere_whole.lex hlex htrivia hgarbage hpiece, htrivia, hgarbage⟩
  refine ⟨_, rfl, ?_⟩
  dsimp only
  rw [join_text, String.toList_ofList]
  exact Token.lex_eq_iff_apart hwhole

/-- A call of a constructor is parsed without a report, and its reserved word runs into the name. -/
theorem expression_kept_iff_new :
    ∃ f n a, parseWith ⟨0⟩ .standard "export default new Foo();" = .ok f ∧ f.diagnostics = [] ∧
      n ∈ (Node.mk f.tree []).descendants ∧ n.kind = .exportAssignment ∧
      (∀ t ∈ exportedWords n, t.kind ≠ .garbage ∧ Token.isPiece t.kind = false) ∧
      assignmentStatement n = .assignment a ∧ a.expression = "newFoo()" ∧
      wordsIn (Token.lex a.expression) ≠ (exportedWords n).map Token.lexeme := by
  have hlex : Token.lex "export default new Foo();" =
      [⟨.kwExport, 0, "export"⟩, ⟨.whitespace, 6, " "⟩, ⟨.kwDefault, 7, "default"⟩,
        ⟨.whitespace, 14, " "⟩, ⟨.kwNew, 15, "new"⟩, ⟨.whitespace, 18, " "⟩, ⟨.ident, 19, "Foo"⟩,
        ⟨.parenOpen, 22, "("⟩, ⟨.parenClose, 23, ")"⟩, ⟨.semicolon, 24, ";"⟩] := by
    cbv
  have hfound : (parseWith ⟨0⟩ .standard "export default new Foo();").toOption.any (fun f =>
      f.diagnostics == [] && (Node.mk f.tree []).descendants.any fun n =>
        n.kind == .exportAssignment && (exportedWords n).map Token.lexeme ==
          [⟨.kwNew, ['n', 'e', 'w']⟩, ⟨.ident, ['F', 'o', 'o']⟩, ⟨.parenOpen, ['(']⟩,
            ⟨.parenClose, [')']⟩]) = true := by
    rw [parseWith, Parser.State.afterFile, Parser.State.start, hlex]
    decide +kernel
  cases hf : parseWith ⟨0⟩ .standard "export default new Foo();" with
  | error e =>
    rw [hf] at hfound
    cases hfound
  | ok f =>
    rw [hf] at hfound
    obtain ⟨hnone, hnode⟩ := Bool.and_eq_true_iff.1 hfound
    obtain ⟨n, hn, hall⟩ := List.any_eq_true.1 hnode
    obtain ⟨hkind, hwords⟩ := Bool.and_eq_true_iff.1 hall
    rw [beq_iff_eq] at hnone hkind hwords
    have hplain : ∀ t ∈ exportedWords n, t.kind ≠ .garbage ∧ Token.isPiece t.kind = false := by
      intro t ht
      have hlexeme : t.lexeme ∈ (exportedWords n).map Token.lexeme := List.mem_map_of_mem ht
      rw [hwords] at hlexeme
      have hkinds : ∀ l ∈ ([⟨.kwNew, ['n', 'e', 'w']⟩, ⟨.ident, ['F', 'o', 'o']⟩,
          ⟨.parenOpen, ['(']⟩, ⟨.parenClose, [')']⟩] : List Lexeme),
          l.kind ≠ .garbage ∧ Token.isPiece l.kind = false := by decide
      exact hkinds _ hlexeme
    obtain ⟨a, ha, hiff⟩ := expression_kept_iff hf hn hplain
    have htext : a.expression = "newFoo()" := by
      obtain rfl := Decl.Statement.assignment.inj ha
      dsimp only
      rw [← exportedWords, join_text, hwords]
      decide
    refine ⟨f, n, a, rfl, hnone, hn, hkind, hplain, ha, htext, fun hkept => ?_⟩
    have hapart := (hiff.1 hkept).1
    rw [hwords] at hapart
    exact absurd hapart (by decide)

end Emit

end DeclKit

/-
What the parser makes of a whole text.

A parse starts from tokens that tile the text and from nothing placed, so everything that is shown of
runs holds of it: it ends with one root, all of its nodes closed, and no fault. When nothing failed
every token has been placed, so the leaves of the root are the tokens of the text, and with them the
text itself.
-/
import DeclKit.Proofs.Parser.Statements
import DeclKit.Proofs.Token.Lexer
import Mathlib

set_option autoImplicit false

namespace DeclKit

open Kind DeclKit.Tree

namespace Parser

variable (source : SourceId) (limits : Limits) (text : String)

/-! ## The first and the last state -/

theorem start_ready : Ready fullPatience (State.start source limits text) where
  placed_le := Nat.le_refl _
  pos_le := Nat.zero_le _
  no_fault := rfl
  patience_le := Nat.le_refl _
  tiled := by
    rw [State.start, List.toList_toArray]
    exact Token.tiles_lex text
  leaves := rfl
  covered := rfl
  good := trivial
  inside := fun _ _ h => nomatch h
  patience_ge := Nat.le_refl _

/-- A parse is a run that leaves one root behind, and that places all tokens unless it fails. -/
theorem afterFile_spec :
    let s' := State.afterFile source limits text
    Run 24 73 (State.start source limits text) s' ∧
      (∃ a b cs, s'.row.toList = [.node root a b cs]) ∧
      (s'.failure = none → s'.placed = s'.tokens.size) ∧
      ((∀ t ∈ Token.lex text, opensLink t.kind = false) →
        ∀ t ∈ s'.row.toList, Linkless t.children) := by
  have hstart : Ready 25 (State.start source limits text) :=
    (start_ready source limits text).weaken (by decide)
  have htokens : (State.start source limits text).tokens = (Token.lex text).toArray := rfl
  have hempty : (State.start source limits text).row = #[] := rfl
  have hplaced : (State.start source limits text).placed = (State.start source limits text).pos := rfl
  rw [State.afterFile]
  generalize State.start source limits text = s at hstart htokens hempty hplaced
  obtain ⟨hrun, ⟨a, b, cs, hroot, hlink⟩, hall⟩ := file_spec hstart hplaced
  generalize (file s).2 = s' at hrun hroot hall
  rw [grown, hempty, Array.size_empty, List.drop_zero] at hroot
  refine ⟨hrun, ⟨a, b, cs, hroot⟩,
    fun hnone => (hall hnone).trans (by rw [hrun.tokens_eq]), fun hnone t ht => ?_⟩
  rw [hroot] at ht
  obtain rfl := List.mem_singleton.1 ht
  rw [htokens] at hlink
  exact hlink fun t ht => hnone t (List.mem_toArray.1 ht)

end Parser

variable {source : SourceId} {limits : Limits} {text : String} {p : ParsedFile}

/-- The tree of a successful parse is one root over the whole text, its leaves are the tokens of the
text, and it is all that a row of the parser is. -/
theorem parseWith_spec (h : parseWith source limits text = .ok p) :
    (∃ cs, p.tree = .node root 0 text.utf8ByteSize cs) ∧
      p.tree.tokens = Token.lex text ∧ Covers 0 text.utf8ByteSize p.tree ∧ Good p.tree ∧
      hollows p.tree ≤ 1 := by
  obtain ⟨hrun, ⟨a, b, cs, hroot⟩, hall, -⟩ := Parser.afterFile_spec source limits text
  rw [parseWith, Parser.State.result] at h
  generalize Parser.State.afterFile source limits text = s at hrun hroot hall h
  split at h
  · cases h
  rename_i hnone
  obtain rfl := Except.ok.inj h
  have htree : s.row.getD 0 default = .node root a b cs := by
    rw [Array.getD_eq_getD_getElem?, ← Array.getElem?_toList, hroot]
    rfl
  have htokens : s.tokens.toList = Token.lex text := by
    rw [hrun.tokens_eq, Parser.State.start, List.toList_toArray]
  have hleaves := hrun.sound.leaves
  have hcovers := hrun.sound.covered
  have hgood := hrun.sound.good
  -- the parse starts with an empty row, so what was added to it is all of it
  have hhollow : hollowsAll s.row.toList ≤ 1 := by
    rcases hrun.hollow with h0 | ⟨h1, -⟩
    · exact Nat.le_trans (Nat.le_of_eq h0) (Nat.zero_le 1)
    · exact Nat.le_of_eq h1
  rw [hroot] at hleaves hcovers hgood hhollow
  rw [hall hnone, List.take_of_length_le (Nat.le_of_eq Array.length_toList), htokens] at hleaves
  obtain ⟨m, hcover, -⟩ := hcovers
  simp only [tokensOfList, List.append_nil] at hleaves
  -- the leaves tile what the root covers, and they tile the text
  have hm : m = text.utf8ByteSize :=
    Token.Tiles.stop_unique (hleaves ▸ hcover.tiles) (Token.tiles_lex text)
  subst hm
  rw [htree]
  refine ⟨⟨cs, ?_⟩, hleaves, hcover, hgood.1, hhollow⟩
  rw [hcover.1, hcover.2.1]

/-- The tree of a text without the words that links start with has no links at its top. -/
theorem parseWith_linkless (h : parseWith source limits text = .ok p)
    (hnone : ∀ t ∈ Token.lex text, Parser.opensLink t.kind = false) :
    Parser.Linkless p.tree.children := by
  obtain ⟨-, ⟨a, b, cs, hroot⟩, -, hlink⟩ := Parser.afterFile_spec source limits text
  rw [parseWith, Parser.State.result] at h
  generalize Parser.State.afterFile source limits text = s at hroot hlink h
  split at h
  · cases h
  obtain rfl := Except.ok.inj h
  refine hlink hnone _ ?_
  rw [Array.getD_eq_getD_getElem?, ← Array.getElem?_toList, hroot]
  exact List.mem_singleton_self _

/-- A parse fails only where a limit is reached. -/
theorem isLimit_of_parseWith {e : Failure} (h : parseWith source limits text = .error e) :
    Parser.isLimit e = true := by
  obtain ⟨hrun, -⟩ := Parser.afterFile_spec source limits text
  rw [parseWith, Parser.State.result] at h
  split at h
  · rename_i e' hfailure
    obtain rfl := Except.error.inj h
    exact (hrun.failure_limit e' hfailure).resolve_left fun h => Option.some_ne_none e' h.symm
  · cases h

/-! ## The results -/

/-- Parsing is lossless: the tree of a successful parse is one root over the whole text, and its
leaves are the tokens of the text, blanks, comments and garbage included, each once and in their order.
So the text of the tree is the text. -/
theorem parseWith_lossless (h : parseWith source limits text = .ok p) :
    p.tree.text = text ∧ p.tree.tokens = Token.lex text ∧
      ∃ cs, p.tree = .node root 0 text.utf8ByteSize cs := by
  obtain ⟨hroot, htokens, -⟩ := parseWith_spec h
  refine ⟨?_, htokens, hroot⟩
  rw [Tree.text, htokens, Token.join_text_lex]

/-- A type that is cut off in the middle is parsed, with a report. -/
theorem parseWith_lossless_cut_off :
    ∃ p, parseWith ⟨0⟩ .standard "type A = (B" = .ok p ∧ p.diagnostics ≠ [] ∧
      p.tree.text = "type A = (B" := by
  have hlex : Token.lex "type A = (B" =
      [⟨.ident, 0, "type"⟩, ⟨.whitespace, 4, " "⟩, ⟨.ident, 5, "A"⟩, ⟨.whitespace, 6, " "⟩,
        ⟨.equals, 7, "="⟩, ⟨.whitespace, 8, " "⟩, ⟨.parenOpen, 9, "("⟩, ⟨.ident, 10, "B"⟩] := by
    cbv
  have hok : (parseWith ⟨0⟩ .standard "type A = (B").toOption.any (·.diagnostics != []) = true := by
    rw [parseWith, Parser.State.afterFile, Parser.State.start, hlex]
    decide +kernel
  cases hp : parseWith ⟨0⟩ .standard "type A = (B" with
  | error e =>
    rw [hp] at hok
    cases hok
  | ok p =>
    rw [hp] at hok
    exact ⟨p, rfl, bne_iff_ne.1 hok, (parseWith_lossless hp).1⟩

/-- The parser never finds anything broken that it takes for granted, whatever the text and the
limits: it does not look around without moving on until its patience is used up, it enters no
production at another token than its own, it opens nodes at marks of the innermost open node only, it
closes the node it has opened, it never closes more brackets than it has opened, and no loop or nesting
goes on for longer than there are tokens. When it is done, also after a failure, no node is open and
one root is left. -/
theorem afterFile_sound (source : SourceId) (limits : Limits) (text : String) :
    let s := Parser.State.afterFile source limits text
    s.fault = none ∧ s.opened = [] ∧ ∃ a b cs, s.row = #[.node root a b cs] := by
  obtain ⟨hrun, ⟨a, b, cs, hroot⟩, -⟩ := Parser.afterFile_spec source limits text
  refine ⟨hrun.sound.no_fault, hrun.opened_eq, a, b, cs, ?_⟩
  exact Array.toList_inj.1 hroot

end DeclKit

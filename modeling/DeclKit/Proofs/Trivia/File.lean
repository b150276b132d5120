/-
Where the nodes of a file start.

A parse starts with an empty row, so all that is in the row in the end has been added to it, and no fault
has come up on the way. So the whole tree is trimmed, and what that says of an element and its parts holds
of every node of the tree and the node around it.
-/
import DeclKit.Proofs.Parser.File
import DeclKit.Proofs.Tree.Keys
import DeclKit.Proofs.Trivia.Statements

set_option autoImplicit false

namespace DeclKit

open DeclKit.Tree Node

/-! ## Trimmed trees -/

/-- A node starts with a token that is no trivia, unless the node around it lets it start late. -/
def Node.Timely (n : Node) : Prop :=
  ∀ p, n.parent? = some p → Parser.lags p.kind n.kind = true ∨
    ∀ t, n.tree.tokens.head? = some t → t.kind.isTrivia = false

mutual

/-- Below an element that is trimmed every node is timely. -/
theorem Tree.Trimmed.timely {above : List Tree} {t : Tree} {n : Node} (h : Trimmed t)
    (hlate : ∀ p, above.head? = some p → t.startsBlank = true → Parser.lags p.kind t.kind = true)
    (hn : n ∈ nodesOf above t) : n.Timely := by
  match t with
  | .token _ => exact absurd hn List.not_mem_nil
  | .node k start stop cs =>
    rcases List.mem_cons.1 hn with rfl | hn
    · -- the node itself: what it may start with is told by the innermost node around it
      intro p hp
      cases above with
      | nil => cases hp
      | cons q above =>
        obtain rfl := Option.some.inj hp
        cases hblank : Tree.startsBlank (.node k start stop cs) with
        | true => exact .inl (hlate q rfl hblank)
        | false => exact .inr fun t ht => (Option.any_eq_false _ _).1 hblank t ht
    · cases h with
      | node htrim hparts =>
        exact Tree.timely_of_list (p := .node k start stop cs) htrim hparts hn

theorem Tree.timely_of_list {p : Tree} {above ts : List Tree} {n : Node} (h : ∀ c ∈ ts, Trimmed c)
    (hlate : ∀ c ∈ ts, c.startsBlank → Parser.lags p.kind c.kind)
    (hn : n ∈ nodesOfList (p :: above) ts) : n.Timely := by
  match ts with
  | [] => exact absurd hn List.not_mem_nil
  | t :: ts =>
    rcases List.mem_append.1 hn with hn | hn
    · refine Tree.Trimmed.timely (h t List.mem_cons_self) (fun q hq => ?_) hn
      obtain rfl := Option.some.inj hq
      exact hlate t List.mem_cons_self
    · exact Tree.timely_of_list (fun c hc => h c (List.mem_cons_of_mem t hc))
        (fun c hc => hlate c (List.mem_cons_of_mem t hc)) hn

end

/-! ## Whole files -/

namespace Parser

theorem placeTrivia_lays {base : State} {L : Kind → Bool} {b : Spot} :
    Lays base L b .anywhere placeTrivia :=
  fun _ hs _ => ⟨hs.place, trivial⟩

/-- The root may start with trivia: it takes up all that is placed. -/
theorem file_lays {base : State} : Lays base (fun _ => true) .anywhere .anywhere file :=
  Lays.within (.inr rfl) fun _ => statements_lays.bind fun _ => skipTrivia_lays.bind fun _ =>
    placeTrivia_lays

theorem start_orderly (source : SourceId) (limits : Limits) (text : String) :
    Orderly (State.start source limits text) :=
  ⟨Nat.le_refl _, Nat.zero_le _, rfl⟩

/-- All that a parse leaves in the row is trimmed. -/
theorem afterFile_trimmed (source : SourceId) (limits : Limits) (text : String) :
    ∀ t ∈ (State.afterFile source limits text).row.toList, t.Trimmed := by
  obtain ⟨hrun, -⟩ := afterFile_spec source limits text
  obtain ⟨hextends, -⟩ := file_lays _ (.refl (start_orderly source limits text)) trivial
  obtain ⟨ts, hrow, hfine⟩ := hextends.row_eq
  intro t ht
  -- the row is empty at the start, so all of it has been added
  have hmem : t ∈ ts := by
    rw [State.afterFile, hrow] at ht
    exact ht
  exact (hfine hrun.sound.no_fault t hmem).trimmed

end Parser

variable {source : SourceId} {limits : Limits} {text : String} {f : ParsedFile}

theorem parseWith_timely (h : parseWith source limits text = .ok f) {n : Node}
    (hn : n ∈ (Node.mk f.tree []).descendants) : n.Timely := by
  obtain ⟨-, ⟨a, b, cs, hroot⟩, -⟩ := Parser.afterFile_spec source limits text
  have htrimmed := Parser.afterFile_trimmed source limits text
  rw [parseWith, Parser.State.result] at h
  generalize Parser.State.afterFile source limits text = s at hroot htrimmed h
  split at h
  · cases h
  obtain rfl := Except.ok.inj h
  -- the tree is the only element of the row, and nothing is around it
  have htree : s.row.getD 0 default ∈ s.row.toList := by
    rw [Array.getD_eq_getD_getElem?, ← Array.getElem?_toList, hroot]
    exact List.mem_singleton_self _
  exact (htrimmed _ htree).timely (fun _ hnone => by cases hnone) hn

/-- Every node of a parsed file but the root that has any tokens starts where its first token does, and
that token is neither a blank nor a comment, unless the node is of a kind that the node around it opens
right behind a token it has taken. -/
theorem node_starts_at_word (h : parseWith source limits text = .ok f) {n p : Node} {t : Token}
    (hn : n ∈ (Node.mk f.tree []).descendants) (hp : n.parent? = some p)
    (hlags : Parser.lags p.kind n.kind = false) (ht : n.tree.tokens.head? = some t) :
    n.start = t.start ∧ t.kind.isTrivia = false := by
  obtain ⟨-, -, hcovers, -⟩ := parseWith_spec h
  constructor
  -- the tokens of a node cover its range from the start on
  · have htiles := (hcovers.mem hn).1.tiles
    obtain ⟨ts, hts⟩ := List.head?_eq_some_iff.1 ht
    rw [hts] at htiles
    exact htiles.1.symm
  · rcases parseWith_timely h hn p hp with hlate | hword
    · rw [hlags] at hlate
      cases hlate
    · exact hword t ht

/-- A comment between the equals sign and the type of an alias stands before the type. -/
theorem node_starts_at_word_comment :
    ∃ f n p t, parseWith ⟨0⟩ .standard "type A = /* c */ B" = .ok f ∧
      n ∈ (Node.mk f.tree []).descendants ∧ n.parent? = some p ∧
      Parser.lags p.kind n.kind = false ∧ n.tree.tokens.head? = some t ∧ n.kind = .typeRef ∧
      n.start = t.start ∧ t.kind.isTrivia = false := by
  have hlex : Token.lex "type A = /* c */ B" =
      [⟨.ident, 0, "type"⟩, ⟨.whitespace, 4, " "⟩, ⟨.ident, 5, "A"⟩, ⟨.whitespace, 6, " "⟩,
        ⟨.equals, 7, "="⟩, ⟨.whitespace, 8, " "⟩, ⟨.blockComment, 9, "/* c */"⟩,
        ⟨.whitespace, 16, " "⟩, ⟨.ident, 17, "B"⟩] := by
    cbv
  have hfound : (parseWith ⟨0⟩ .standard "type A = /* c */ B").toOption.any (fun f =>
      (Node.mk f.tree []).descendants.any fun n => n.kind == .typeRef &&
        n.parent?.any (fun p => !Parser.lags p.kind n.kind) && n.tree.tokens.head?.isSome) = true := by
    rw [parseWith, Parser.State.afterFile, Parser.State.start, hlex]
    decide +kernel
  cases hf : parseWith ⟨0⟩ .standard "type A = /* c */ B" with
  | error e =>
    rw [hf] at hfound
    cases hfound
  | ok f =>
    rw [hf] at hfound
    obtain ⟨n, hn, hall⟩ := List.any_eq_true.1 hfound
    simp only [Bool.and_eq_true, Option.any_eq_true, Bool.not_eq_true', beq_iff_eq] at hall
    obtain ⟨⟨hkind, p, hp, hlags⟩, hsome⟩ := hall
    obtain ⟨t, ht⟩ := Option.isSome_iff_exists.1 hsome
    exact ⟨f, n, p, t, rfl, hn, hp, hlags, ht, hkind, node_starts_at_word hf hn hp hlags ht⟩

/-- The first type that an interface extends may start with the blank behind the word. -/
example : (parseWith ⟨0⟩ .standard "interface A extends B \x7b\x7d").toOption.any (fun f =>
    (Node.mk f.tree []).descendants.any fun n => n.kind == .typeRef &&
      n.tree.tokens.head?.any (·.kind == .whitespace)) = true := by
  have hlex : Token.lex "interface A extends B \x7b\x7d" =
      [⟨.ident, 0, "interface"⟩, ⟨.whitespace, 9, " "⟩, ⟨.ident, 10, "A"⟩, ⟨.whitespace, 11, " "⟩,
        ⟨.kwExtends, 12, "extends"⟩, ⟨.whitespace, 19, " "⟩, ⟨.ident, 20, "B"⟩, ⟨.whitespace, 21, " "⟩,
        ⟨.braceOpen, 22, "\x7b"⟩, ⟨.braceClose, 23, "\x7d"⟩] := by
    cbv
  rw [parseWith, Parser.State.afterFile, Parser.State.start, hlex]
  decide +kernel

end DeclKit

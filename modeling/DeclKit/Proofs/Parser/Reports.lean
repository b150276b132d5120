/-
Where the parser reports.

A report is made at the current token or, behind the last one, at the end of the text, and it is dropped
if the report before it was made there too. The cursor never goes back, whatever is read or skipped, so no
report is made before the last one, and every report that is not dropped is made behind it.
-/
import DeclKit.Proofs.Limits.Account

set_option autoImplicit false

namespace DeclKit

/-- One diagnostic starts before another. -/
def Diagnostic.StartsBefore (d e : Diagnostic) : Prop :=
  ∃ a b, d.span = some a ∧ e.span = some b ∧ a.start < b.start

/-- A span is that of a token of the text that is no trivia, or the empty one at the end of the text. -/
def Span.Points (source : SourceId) (text : String) (a : Span) : Prop :=
  (∃ t ∈ Token.lex text, t.kind.isTrivia = false ∧ a = ⟨source, t.start, t.stop⟩) ∨
    a = ⟨source, text.utf8ByteSize, text.utf8ByteSize⟩

namespace Parser

variable {source : SourceId} {text : String} {s s' s'' : State}

/-! ## Steps that report nothing -/

/-- Nothing is reported, and the cursor does not go back. -/
structure Silent (s s' : State) : Prop where
  source_eq : s'.source = s.source
  tokens_eq : s'.tokens = s.tokens
  textSize_eq : s'.textSize = s.textSize
  diagnostics_eq : s'.diagnostics = s.diagnostics
  lastReport_eq : s'.lastReport = s.lastReport
  pos_le : s.pos ≤ s'.pos

theorem Silent.trans (h : Silent s s') (h' : Silent s' s'') : Silent s s'' where
  source_eq := h'.source_eq.trans h.source_eq
  tokens_eq := h'.tokens_eq.trans h.tokens_eq
  textSize_eq := h'.textSize_eq.trans h.textSize_eq
  diagnostics_eq := h'.diagnostics_eq.trans h.diagnostics_eq
  lastReport_eq := h'.lastReport_eq.trans h.lastReport_eq
  pos_le := Nat.le_trans h.pos_le h'.pos_le

theorem skipTrivia_silent (s : State) : Silent s (skipTrivia s).2 :=
  ⟨rfl, rfl, rfl, rfl, rfl, pos_le_cursor s⟩

theorem placeTrivia_silent (s : State) : Silent s (placeTrivia s).2 :=
  ⟨rfl, rfl, rfl, rfl, rfl, Nat.le_refl _⟩

theorem openNode_silent (k : Kind) (s : State) : Silent s (openNode k s).2 :=
  ⟨rfl, rfl, rfl, rfl, rfl, Nat.le_refl _⟩

theorem inExtends_silent (s : State) (allowed : Bool) : Silent s { s with inExtends := allowed } :=
  ⟨rfl, rfl, rfl, rfl, rfl, Nat.le_refl _⟩

theorem mark_silent (s : State) : Silent s (mark s).2 :=
  (skipTrivia_silent s).trans (placeTrivia_silent _)

theorem openAt_silent (m : Nat) (k : Kind) (s : State) : Silent s (openAt m k s).2 := by
  obtain ⟨-, fault, -, heq⟩ := openAt_after m k s
  rw [heq]
  exact ⟨rfl, rfl, rfl, rfl, rfl, Nat.le_refl _⟩

theorem closed_silent (s : State) : Silent s s.closed := by
  unfold State.closed
  split
  · exact ⟨rfl, rfl, rfl, rfl, rfl, Nat.le_refl _⟩
  · exact ⟨rfl, rfl, rfl, rfl, rfl, Nat.le_refl _⟩

theorem closeNode_silent (count : Nat) (s : State) : Silent s (closeNode count s).2 := by
  unfold closeNode
  change Silent s ((if s.opened.length != count then _ else _ : Parse Unit) s).2
  split
  · have hraise : Silent s (raise .unbalanced s).2 := ⟨rfl, rfl, rfl, rfl, rfl, Nat.le_refl _⟩
    exact hraise.trans (closed_silent _)
  · exact closed_silent s

theorem bump_silent (s : State) : Silent s (bump s).2 := by
  obtain ⟨-, heq⟩ | ⟨-, spent, failure, -, heq⟩ := bump_cases s
  · rw [heq]
    exact skipTrivia_silent s
  · rw [heq]
    exact ⟨rfl, rfl, rfl, rfl, rfl, Nat.le_trans (pos_le_cursor s) (Nat.le_succ _)⟩

/-! ## What holds of the reports -/

/-- In a parse of a text the reports that have been made are in order, each at a token or at the end, and
none of them is behind a token that has not been passed. -/
structure Reported (source : SourceId) (text : String) (s : State) : Prop where
  source_eq : s.source = source
  tokens_eq : s.tokens.toList = Token.lex text
  textSize_eq : s.textSize = text.utf8ByteSize
  /-- The last report is in front of all that is left. -/
  last_le : ∀ p, s.lastReport = some p →
    p ≤ s.textSize ∧ ∀ t ∈ s.tokens.toList.drop s.pos, p ≤ t.start
  /-- No report starts behind the last one. -/
  upto : ∀ d ∈ s.diagnostics.toList, ∃ a p, d.span = some a ∧ s.lastReport = some p ∧ a.start ≤ p
  ordered : s.diagnostics.toList.Pairwise Diagnostic.StartsBefore
  points : ∀ d ∈ s.diagnostics.toList, ∃ a, d.span = some a ∧ a.Points source text

theorem Reported.silent (h : Reported source text s) (hs : Silent s s') : Reported source text s' where
  source_eq := hs.source_eq.trans h.source_eq
  tokens_eq := hs.tokens_eq ▸ h.tokens_eq
  textSize_eq := hs.textSize_eq.trans h.textSize_eq
  last_le p hp := by
    rw [hs.lastReport_eq] at hp
    rw [hs.textSize_eq, hs.tokens_eq]
    obtain ⟨hend, hleft⟩ := h.last_le p hp
    -- what is left now was left before
    exact ⟨hend, fun t ht => hleft t ((List.drop_subset_drop_left _ hs.pos_le) ht)⟩
  upto := by
    rw [hs.diagnostics_eq, hs.lastReport_eq]
    exact h.upto
  ordered := by
    rw [hs.diagnostics_eq]
    exact h.ordered
  points := by
    rw [hs.diagnostics_eq]
    exact h.points

/-- A report is made at the end of the text if nothing is left, and otherwise at what is left first, which
is no trivia. -/
theorem spanHere_cases (s : State) :
    (s.tokens.toList.drop (cursor s) = [] ∧ spanHere s = ⟨s.source, s.textSize, s.textSize⟩) ∨
    ∃ t ts, s.tokens.toList.drop (cursor s) = t :: ts ∧ t.kind.isTrivia = false ∧
      spanHere s = ⟨s.source, t.start, t.stop⟩ := by
  unfold spanHere
  cases hat : s.tokens[cursor s]? with
  | none =>
    refine .inl ⟨?_, rfl⟩
    rw [List.drop_eq_nil_iff, Array.length_toList]
    exact Array.getElem?_eq_none_iff.1 hat
  | some t =>
    obtain ⟨hlt, heq⟩ := Array.getElem?_eq_some_iff.1 hat
    refine .inr ⟨t, s.tokens.toList.drop (cursor s + 1), ?_, not_isTrivia_at_cursor hat, rfl⟩
    rw [← heq, ← Array.getElem_toList hlt]
    exact List.drop_eq_getElem_cons _

/-- A report is made in front of all that is left. -/
theorem Reported.points_here (h : Reported source text s) :
    (spanHere s).Points source text ∧ (spanHere s).start ≤ s.textSize ∧
      ∀ t ∈ s.tokens.toList.drop (cursor s), (spanHere s).start ≤ t.start := by
  obtain ⟨hleft, heq⟩ | ⟨t, ts, hleft, htrivia, heq⟩ := spanHere_cases s
  · rw [heq, hleft, h.source_eq, h.textSize_eq]
    exact ⟨.inr rfl, Nat.le_refl _, fun t ht => absurd ht List.not_mem_nil⟩
  · have hmem : t ∈ Token.lex text :=
      h.tokens_eq ▸ List.mem_of_mem_drop (hleft ▸ List.mem_cons_self)
    -- what is left lies side by side, and this is the first of it
    have htiles := Token.tiles_lex text
    rw [← h.tokens_eq, ← List.take_append_drop (cursor s) s.tokens.toList, Token.tiles_append,
      hleft] at htiles
    obtain ⟨m, -, hrest⟩ := htiles
    have hstart := hrest.1
    have hstop := (hrest.mem List.mem_cons_self).2
    rw [heq, hleft, h.source_eq, h.textSize_eq]
    refine ⟨.inl ⟨t, hmem, htrivia, rfl⟩, by dsimp only; omega, fun u hu => ?_⟩
    dsimp only
    rw [hstart]
    exact (hrest.mem hu).1

/-- A report that is made is behind the last one, and in front of all that is left. -/
theorem Reported.report (h : Reported source text s) (kind : DiagnosticKind) (args : List String) :
    Reported source text (reportWith kind args s).2 := by
  obtain ⟨-, heq⟩ | ⟨hlast, heq⟩ := reportWith_cases kind args s
  · rw [heq]
    exact h.silent (skipTrivia_silent s)
  obtain ⟨hpoints, hend, hleft⟩ := h.points_here
  have hlt (p : Nat) (hp : s.lastReport = some p) : p < (spanHere s).start := by
    obtain ⟨hple, hall⟩ := h.last_le p hp
    refine Nat.lt_of_le_of_ne ?_ fun he => hlast (he ▸ hp)
    obtain ⟨-, heq⟩ | ⟨t, ts, hleft', -, heq⟩ := spanHere_cases s
    · rw [heq]
      exact hple
    · rw [heq]
      exact hall t (List.drop_subset_drop_left _ (pos_le_cursor s) (hleft' ▸ List.mem_cons_self))
  have hbefore : ∀ d ∈ s.diagnostics.toList,
      d.StartsBefore (.detailed kind (some (spanHere s)) args) := by
    intro d hd
    obtain ⟨a, p, ha, hp, hap⟩ := h.upto d hd
    exact ⟨a, spanHere s, ha, rfl, Nat.lt_of_le_of_lt hap (hlt p hp)⟩
  rw [heq]
  refine ⟨h.source_eq, h.tokens_eq, h.textSize_eq, fun p hp => ?_, fun d hd => ?_, ?_, fun d hd => ?_⟩
  · obtain rfl := Option.some.inj hp
    exact ⟨hend, hleft⟩
  · dsimp only at hd
    rw [Array.toList_push] at hd
    rcases List.mem_append.1 hd with hd | hd
    · obtain ⟨a, p, ha, hp, hap⟩ := h.upto d hd
      exact ⟨a, _, ha, rfl, Nat.le_of_lt (Nat.lt_of_le_of_lt hap (hlt p hp))⟩
    · obtain rfl := List.mem_singleton.1 hd
      exact ⟨_, _, rfl, rfl, Nat.le_refl _⟩
  · dsimp only
    rw [Array.toList_push, List.pairwise_append]
    refine ⟨h.ordered, List.pairwise_singleton _ _, fun d hd e he => ?_⟩
    rw [List.mem_singleton.1 he]
    exact hbefore d hd
  · dsimp only at hd ⊢
    rw [Array.toList_push] at hd
    rcases List.mem_append.1 hd with hd | hd
    · exact h.points d hd
    · obtain rfl := List.mem_singleton.1 hd
      exact ⟨_, rfl, hpoints⟩

/-- Whatever the parser does, the reports stay in order. -/
theorem Composed.reported {α : Type} {allowed : Bool} {m a c : Nat} {p : Parse α}
    (h : Composed allowed m a c p) (hs : Reported source text s) :
    Reported source text (p s).2 := by
  induction h generalizing s with
  | pure => exact hs
  | step _ _ hp hf => exact hf s (hp hs)
  | weaken _ _ _ hp => exact hp hs
  | read _ _ hf => exact hf s hs
  | adjust hg =>
    obtain ⟨_, _, heq⟩ := hg.only s
    rw [modify_apply, heq]
    exact hs.silent ⟨rfl, rfl, rfl, rfl, rfl, Nat.le_refl _⟩
  | report => exact hs.report _ _
  | skipTrivia => exact hs.silent (skipTrivia_silent s)
  | placeTrivia => exact hs.silent (placeTrivia_silent s)
  | atEnd => exact hs.silent (skipTrivia_silent s)
  | bump => exact hs.silent (bump_silent s)
  | within _ _ _ _ hp => exact (hp 0 (hs.silent (openNode_silent _ s))).silent (closeNode_silent _ _)
  | marked _ _ hf => exact hf _ (hs.silent (mark_silent s))
  | withinFrom _ _ _ hp => exact (hp (hs.silent (openAt_silent _ _ s))).silent (closeNode_silent _ _)
  | nested _ hp =>
    obtain ⟨-, -, -, heq⟩ | ⟨-, heq⟩ := typeWith_cases _ s
    · rw [heq]
      exact hs.silent ⟨rfl, rfl, rfl, rfl, rfl, Nat.le_refl _⟩
    · rw [heq]
      have henter : Silent s { s with depth := s.depth + 1, patience := fullPatience } :=
        ⟨rfl, rfl, rfl, rfl, rfl, Nat.le_refl _⟩
      exact (hp 0 (hs.silent henter)).silent ⟨rfl, rfl, rfl, rfl, rfl, Nat.le_refl _⟩
  | lift _ hp => exact hp hs
  | allowing _ hp => exact (hp (hs.silent (inExtends_silent s _))).silent (inExtends_silent _ _)
  | @choice _ _ _ _ p q _ _ hp hq =>
    change Reported source text ((if s.inExtends then p else q) s).2
    split
    · exact hp hs
    · exact hq hs
  | forbidding _ _ hp hq =>
    have hforbidden := hp (hs.silent (inExtends_silent s true))
    exact hq (hforbidden.silent (inExtends_silent _ false))

end Parser

open DeclKit.Parser

variable {source : SourceId} {limits : Limits} {text : String} {f : ParsedFile}

/-- Reports come in the order of the text: the diagnostics of a parse start at strictly increasing
offsets, and each is at a token of the text that is no trivia, or at the end of the text. -/
theorem parseWith_reports (h : parseWith source limits text = .ok f) :
    f.diagnostics.Pairwise Diagnostic.StartsBefore ∧
      ∀ d ∈ f.diagnostics, ∃ a, d.span = some a ∧ a.Points source text := by
  have hstart : Reported source text (State.start source limits text) :=
    { source_eq := rfl
      tokens_eq := List.toList_toArray
      textSize_eq := rfl
      last_le := fun _ hp => nomatch hp
      upto := fun _ hd => absurd hd List.not_mem_nil
      ordered := .nil
      points := fun _ hd => absurd hd List.not_mem_nil }
  have hend : Reported source text (State.afterFile source limits text) :=
    file_composed.reported hstart
  rw [parseWith, State.result] at h
  split at h
  · cases h
  · obtain rfl := Except.ok.inj h
    exact ⟨hend.ordered, hend.points⟩

/-- Two types are missing, one in front of a semicolon and one at the end of the text. -/
theorem parseWith_reports_missing_types :
    ∃ f d e, parseWith ⟨0⟩ .standard "type A=;type B=" = .ok f ∧ f.diagnostics = [d, e] ∧
      d.StartsBefore e ∧ ∃ a, e.span = some a ∧ a.Points ⟨0⟩ "type A=;type B=" := by
  have hlex : Token.lex "type A=;type B=" =
      [⟨.ident, 0, "type"⟩, ⟨.whitespace, 4, " "⟩, ⟨.ident, 5, "A"⟩, ⟨.equals, 6, "="⟩,
        ⟨.semicolon, 7, ";"⟩, ⟨.ident, 8, "type"⟩, ⟨.whitespace, 12, " "⟩, ⟨.ident, 13, "B"⟩,
        ⟨.equals, 14, "="⟩] := by
    cbv
  have htwo : (parseWith ⟨0⟩ .standard "type A=;type B=").toOption.any
      (·.diagnostics.length == 2) = true := by
    rw [parseWith, Parser.State.afterFile, Parser.State.start, hlex]
    decide +kernel
  cases hp : parseWith ⟨0⟩ .standard "type A=;type B=" with
  | error e =>
    rw [hp] at htwo
    cases htwo
  | ok f =>
    rw [hp] at htwo
    obtain ⟨d, e, hlist⟩ := List.length_eq_two.1 (beq_iff_eq.1 htwo)
    obtain ⟨hordered, hpoints⟩ := parseWith_reports hp
    rw [hlist] at hordered hpoints
    exact ⟨f, d, e, rfl, hlist, List.pairwise_pair.1 hordered, hpoints e (by simp)⟩

end DeclKit

/-
What a parse has ahead of it.

The words ahead are the tokens from the cursor on, without blanks and places. A look at the current
token or at one further ahead is a look at these words, and a step that takes tokens takes them from
the front. What a step adds to the row of finished elements is told by its outline.

All this is said of a parse that has not failed and is not counted. A line break ends what is read
before it, so line breaks are met only where nothing is left to read, or where a declaration starts.
-/
import DeclKit.Parser.Types
import DeclKit.Proofs.Grammar.Outline
import DeclKit.Proofs.Parser.Run

set_option autoImplicit false

namespace DeclKit.Parser

open Kind

/-! ## Words from an index on -/

section Words

variable {tokens : Array Token} {i n : Nat} {t : Token}

/-- The words of tokens from an index on. -/
def wordsFrom (tokens : Array Token) (i : Nat) : List Lexeme := wordsIn (tokens.toList.drop i)

theorem drop_of_getElem? (h : tokens[i]? = some t) :
    tokens.toList.drop i = t :: tokens.toList.drop (i + 1) := by
  obtain ⟨hlt, rfl⟩ := Array.getElem?_eq_some_iff.1 h
  rw [List.drop_eq_getElem_cons (by simpa using hlt), Array.getElem_toList]

theorem wordsFrom_trivia (h : tokens[i]? = some t) (ht : t.kind.isTrivia = true) :
    wordsFrom tokens i = wordsFrom tokens (i + 1) := by
  rw [wordsFrom, drop_of_getElem? h]
  simp [wordsIn, ht, wordsFrom]

theorem wordsFrom_word (h : tokens[i]? = some t) (ht : t.kind.isTrivia = false) :
    wordsFrom tokens i = t.lexeme :: wordsFrom tokens (i + 1) := by
  rw [wordsFrom, drop_of_getElem? h]
  simp [wordsIn, ht, wordsFrom]

theorem wordsFrom_none (h : tokens[i]? = none) : wordsFrom tokens i = [] := by
  have hle : tokens.toList.length ≤ i := by simpa using h
  rw [wordsFrom, List.drop_eq_nil_of_le hle]
  rfl

/-- Trivia that are skipped are no words. -/
theorem wordsFrom_skipTriviaFrom (n i : Nat) :
    wordsFrom tokens (skipTriviaFrom tokens n i) = wordsFrom tokens i := by
  fun_induction skipTriviaFrom tokens n i with
  | case1 => rfl
  | case2 n i t h ht ih => rw [ih, wordsFrom_trivia h ht]
  | case3 => rfl
  | case4 => rfl

/-- Where skipping stops there is a word, or nothing. -/
theorem not_trivia_of_skipTriviaFrom (hn : tokens.size ≤ i + n)
    (h : tokens[skipTriviaFrom tokens n i]? = some t) : t.kind.isTrivia = false := by
  fun_induction skipTriviaFrom tokens n i with
  | case1 i =>
    have hnone : tokens[i]? = none := Array.getElem?_eq_none hn
    cases hnone.symm.trans h
  | case2 n i u hu hut ih => exact ih (by omega) h
  | case3 n i u hu hut =>
    obtain rfl := Option.some.inj (hu.symm.trans h)
    exact Bool.not_eq_true _ ▸ hut
  | case4 n i hnone =>
    rw [hnone] at h
    cases h

/-- The words from one index to another one and those behind. -/
theorem wordsFrom_append {a b : Nat} (h : a ≤ b) :
    wordsFrom tokens a = wordsIn ((tokens.toList.take b).drop a) ++ wordsFrom tokens b := by
  obtain ⟨n, rfl⟩ := Nat.exists_eq_add_of_le h
  rw [wordsFrom, wordsFrom, ← wordsIn_append, List.drop_take, Nat.add_sub_cancel_left,
    ← List.drop_drop, List.take_append_drop]

theorem wordsFrom_triviaStart (tokens : Array Token) (i : Nat) :
    wordsFrom tokens (triviaStart tokens i) = wordsFrom tokens i := by
  fun_induction triviaStart tokens i with
  | case1 => rfl
  | case2 i t h ht ih => rw [ih, wordsFrom_trivia h ht]
  | case3 => rfl
  | case4 => rfl

/-- Between two indices with the same words behind them there are no words. -/
theorem wordsFrom_between {a b : Nat} (h : wordsFrom tokens a = wordsFrom tokens b) (ha : a ≤ i)
    (hb : i ≤ b) : wordsFrom tokens i = wordsFrom tokens b := by
  have hfront : wordsFrom tokens a = _ := wordsFrom_append ha
  have hback : wordsFrom tokens i = _ := wordsFrom_append hb
  have hlength := congrArg List.length (hfront.symm.trans h)
  rw [hback] at hlength
  simp only [List.length_append] at hlength
  have hnone : wordsIn ((tokens.toList.take b).drop i) = [] :=
    List.eq_nil_of_length_eq_zero (by omega)
  rw [hback, hnone, List.nil_append]

/-- Behind the trivia is the first word, or the end. -/
theorem word_behind_trivia (tokens : Array Token) (i : Nat) :
    (∃ t, tokens[skipTriviaFrom tokens (tokens.size - i) i]? = some t ∧ wordsFrom tokens i =
      t.lexeme :: wordsFrom tokens (skipTriviaFrom tokens (tokens.size - i) i + 1)) ∨
    tokens[skipTriviaFrom tokens (tokens.size - i) i]? = none ∧ wordsFrom tokens i = [] := by
  rw [← wordsFrom_skipTriviaFrom (tokens.size - i) i]
  cases ht : tokens[skipTriviaFrom tokens (tokens.size - i) i]? with
  | none => exact .inr ⟨rfl, wordsFrom_none ht⟩
  | some t =>
    have hword : t.kind.isTrivia = false := not_trivia_of_skipTriviaFrom (by omega) ht
    exact .inl ⟨t, rfl, wordsFrom_word ht hword⟩

end Words

/-! ## The words ahead -/

/-- The words from the cursor on. -/
def ahead (s : State) : List Lexeme := wordsFrom s.tokens s.pos

/-- The kind of the first word; `error` when there is none. -/
def firstKind (ws : List Lexeme) : Kind := (ws.head?.map (·.kind)).getD error

/-- The text of the first word; empty when there is none. -/
def firstText (ws : List Lexeme) : String := (ws.head?.map fun w => String.ofList w.chars).getD ""

@[simp] theorem firstKind_cons (w : Lexeme) (ws : List Lexeme) : firstKind (w :: ws) = w.kind := rfl

@[simp] theorem firstText_cons (w : Lexeme) (ws : List Lexeme) :
    firstText (w :: ws) = String.ofList w.chars := rfl

theorem kind_ne_of_firstKind_ne {ws : List Lexeme} {k : Kind} (h : firstKind ws ≠ k) :
    ∀ w ∈ ws.head?, w.kind ≠ k := by
  cases ws with
  | nil => exact nofun
  | cons v ws => exact fun w hw => Option.mem_some.1 hw ▸ h

section Looking

variable {s : State}

/-- At the cursor is the first word ahead, or the end. -/
theorem word_at_cursor (s : State) :
    (∃ t, s.tokens[cursor s]? = some t ∧
      ahead s = t.lexeme :: wordsFrom s.tokens (cursor s + 1)) ∨
    s.tokens[cursor s]? = none ∧ ahead s = [] :=
  word_behind_trivia s.tokens s.pos

theorem kindHere_eq (s : State) : kindHere s = firstKind (ahead s) := by
  rw [kindHere]
  obtain ⟨t, ht, hahead⟩ | ⟨hnone, hahead⟩ := word_at_cursor s
  · rw [ht, hahead]
    rfl
  · rw [hnone, hahead]
    rfl

end Looking

/-! ## Reading -/

/-- A line may start with these words: a name or `export`, and a name behind it. -/
def startsLine (ws : List Lexeme) : Bool :=
  (firstKind ws == ident || firstKind ws == kwExport) && firstKind ws.tail == ident

/-- A parse that goes on: it has not failed and is not counted, only trivia wait to be placed, and
lines end at the end of the text or where a line may start. -/
structure Steady (s : State) : Prop where
  placed_le : s.placed ≤ s.pos
  waits : wordsFrom s.tokens s.placed = ahead s
  going : s.failure = none
  unlimited : s.limits.tokens = none
  lines : ∀ i t, s.tokens[i]? = some t → breaksLine t = true →
    wordsFrom s.tokens (i + 1) = [] ∨ startsLine (wordsFrom s.tokens (i + 1)) = true

/-- What stays as it is in the course of a parse. -/
structure Same (s s' : State) : Prop where
  tokens_eq : s'.tokens = s.tokens
  limits_eq : s'.limits = s.limits
  depth_eq : s'.depth = s.depth
  inExtends_eq : s'.inExtends = s.inExtends

theorem Same.refl (s : State) : Same s s := ⟨rfl, rfl, rfl, rfl⟩

theorem Same.trans {s s' s'' : State} (h : Same s s') (h' : Same s' s'') : Same s s'' :=
  ⟨h'.tokens_eq.trans h.tokens_eq, h'.limits_eq.trans h.limits_eq, h'.depth_eq.trans h.depth_eq,
    h'.inExtends_eq.trans h.inExtends_eq⟩

/-- From one state to another one elements with given outlines are added to the row, without a
report; then given words are ahead. -/
structure Reads (s s' : State) (os : List Outline) (ws : List Lexeme) : Prop extends
    Same s s', Steady s' where
  opened_eq : s'.opened = s.opened
  diagnostics_eq : s'.diagnostics = s.diagnostics
  row_eq : ∃ new, s'.row.toList = s.row.toList ++ new ∧ Tree.outlines new = os
  ahead_eq : ahead s' = ws

namespace Reads

variable {s s' s'' : State} {os os' : List Outline} {ws ws' : List Lexeme}

theorem refl (h : Steady s) : Reads s s [] (ahead s) :=
  ⟨.refl s, h, rfl, rfl, ⟨[], (List.append_nil _).symm, Tree.outlines_nil⟩, rfl⟩

theorem trans (h : Reads s s' os ws) (h' : Reads s' s'' os' ws') : Reads s s'' (os ++ os') ws' where
  toSame := h.toSame.trans h'.toSame
  toSteady := h'.toSteady
  opened_eq := h'.opened_eq.trans h.opened_eq
  diagnostics_eq := h'.diagnostics_eq.trans h.diagnostics_eq
  row_eq := by
    obtain ⟨new, hnew, rfl⟩ := h.row_eq
    obtain ⟨new', hnew', rfl⟩ := h'.row_eq
    refine ⟨new ++ new', ?_, Tree.outlines_append new new'⟩
    rw [hnew', hnew, List.append_assoc]
  ahead_eq := h'.ahead_eq

/-- What is ahead fits into the tokens. -/
theorem length_le (h : Reads s s' os ws) : ws.length ≤ s.tokens.size := by
  rw [← h.ahead_eq, ahead, wordsFrom, wordsIn, List.length_map, h.tokens_eq]
  refine Nat.le_trans (List.length_filter_le _ _) ?_
  rw [List.length_drop, Array.length_toList]
  exact Nat.sub_le _ _

end Reads

/-- A step answers, and from a state before it on given outlines are added to the row and given words
are left ahead. -/
def Yields {α : Type} (s0 : State) (p : Parse α) (s : State) (a : α) (os : List Outline)
    (ws : List Lexeme) : Prop :=
  (p s).1 = a ∧ Reads s0 (p s).2 os ws

section Yields

variable {α β : Type} {p : Parse α} {f : α → Parse β} {a : α} {b : β} {s0 s s' : State}
  {os os' : List Outline} {ws ws' : List Lexeme}

theorem Yields.bind (h : Yields s0 p s a os ws)
    (hf : ∀ s', Reads s0 s' os ws → Yields s0 (f a) s' b os' ws') :
    Yields s0 (p >>= f) s b os' ws' := by
  obtain ⟨rfl, hreads⟩ := h
  exact hf _ hreads

theorem Reads.pure (h : Reads s0 s os ws) : Yields s0 (Pure.pure a) s a os ws := ⟨rfl, h⟩

theorem Yields.get {f : State → Parse β} (h : Yields s0 (f s) s b os ws) :
    Yields s0 (MonadState.get >>= f) s b os ws := h

/-- Goes on from what was read before. -/
theorem Reads.then (h : Reads s0 s os ws) (hp : Yields s p s a os' ws') :
    Yields s0 p s a (os ++ os') ws' :=
  ⟨hp.1, h.trans hp.2⟩

end Yields

/-! ## Looking -/

namespace Reads

variable {s0 s s' : State} {os : List Outline} {w : Lexeme} {ws : List Lexeme}

/-- Passing trivia changes nothing that is read. -/
theorem glance (h : Reads s0 s os ws) (patience : Nat) (fault : Option Fault) :
    Reads s0 { s with pos := cursor s, patience, fault } os ws where
  toSame := ⟨h.tokens_eq, h.limits_eq, h.depth_eq, h.inExtends_eq⟩
  toSteady := {
    placed_le := Nat.le_trans h.placed_le (pos_le_cursor s)
    waits := h.waits.trans (wordsFrom_skipTriviaFrom _ _).symm
    going := h.going
    unlimited := h.unlimited
    lines := h.lines }
  opened_eq := h.opened_eq
  diagnostics_eq := h.diagnostics_eq
  row_eq := h.row_eq
  ahead_eq := (wordsFrom_skipTriviaFrom _ _).trans h.ahead_eq

theorem skipTrivia (h : Reads s0 s os ws) : Yields s0 skipTrivia s () os ws :=
  ⟨rfl, h.glance s.patience s.fault⟩

theorem currentToken (h : Reads s0 s os ws) :
    Yields s0 currentToken? s s.tokens[cursor s]? os ws :=
  ⟨rfl, h.glance s.patience s.fault⟩

/-- Patience and faults are no part of what is read. -/
theorem blur (h : Reads s0 s os ws) (patience : Nat) (fault : Option Fault) :
    Reads s0 { s with patience, fault } os ws where
  toSame := ⟨h.tokens_eq, h.limits_eq, h.depth_eq, h.inExtends_eq⟩
  toSteady := ⟨h.placed_le, h.waits, h.going, h.unlimited, h.lines⟩
  opened_eq := h.opened_eq
  diagnostics_eq := h.diagnostics_eq
  row_eq := h.row_eq
  ahead_eq := h.ahead_eq

theorem raise (h : Reads s0 s os ws) (f : Fault) : Yields s0 (raise f) s () os ws :=
  ⟨rfl, h.blur s.patience (s.fault.or (some f))⟩

theorem current (h : Reads s0 s os ws) : Yields s0 current s (firstKind ws) os ws := by
  have hkind : (s.tokens[cursor s]?.map (·.kind)).getD error = firstKind ws := by
    rw [← h.ahead_eq]
    exact kindHere_eq s
  unfold Parser.current
  refine h.currentToken.bind fun s1 h1 => Yields.get ?_
  rw [hkind]
  split
  · exact (h1.raise .stuck).bind fun s2 h2 => ⟨rfl, h2.blur (s2.patience - 1) s2.fault⟩
  · exact ⟨rfl, h1.blur (s1.patience - 1) s1.fault⟩

theorem currentText (h : Reads s0 s os ws) : Yields s0 currentText s (firstText ws) os ws := by
  have htext : (s.tokens[cursor s]?.map (·.text)).getD "" = firstText ws := by
    rw [← h.ahead_eq]
    obtain ⟨t, ht, hahead⟩ | ⟨hnone, hahead⟩ := word_at_cursor s
    · rw [ht, hahead, firstText_cons, Token.lexeme, String.ofList_toList]
      rfl
    · rw [hnone, hahead]
      rfl
  unfold Parser.currentText
  refine h.currentToken.bind fun s1 h1 => ?_
  rw [htext]
  exact h1.pure

/-- The word that is a number of words ahead is found. -/
theorem find_eq (s : State) (k i : Nat) :
    (∃ j t, nthIndex?.find s k i = some j ∧ s.tokens[j]? = some t ∧
      wordsFrom s.tokens j = (wordsFrom s.tokens i).drop k ∧
      (wordsFrom s.tokens i).drop k = t.lexeme :: wordsFrom s.tokens (j + 1)) ∨
    nthIndex?.find s k i = none ∧ (wordsFrom s.tokens i).drop k = [] := by
  induction k generalizing i with
  | zero =>
    unfold nthIndex?.find
    obtain ⟨t, ht, hwords⟩ | ⟨hnone, hwords⟩ := word_behind_trivia s.tokens i
    · have hlt := (Array.getElem?_eq_some_iff.1 ht).1
      exact .inl ⟨_, t, if_pos hlt, ht, wordsFrom_skipTriviaFrom _ _, hwords⟩
    · have hle := Array.getElem?_eq_none_iff.1 hnone
      exact .inr ⟨if_neg (Nat.not_lt.2 hle), hwords⟩
  | succ k ih =>
    unfold nthIndex?.find
    obtain ⟨t, ht, hwords⟩ | ⟨hnone, hwords⟩ := word_behind_trivia s.tokens i
    · have hlt := (Array.getElem?_eq_some_iff.1 ht).1
      rw [hwords, List.drop_succ_cons]
      dsimp only
      rw [if_pos hlt]
      exact ih _
    · have hle := Array.getElem?_eq_none_iff.1 hnone
      exact .inr ⟨if_neg (Nat.not_lt.2 hle), by rw [hwords, List.drop_nil]⟩

theorem nthIndex (h : Reads s0 s os ws) (n : Nat) :
    Yields s0 (nthIndex? n) s (nthIndex?.find { s with pos := cursor s } n (cursor s)) os ws :=
  ⟨rfl, h.glance s.patience s.fault⟩

/-- What is found ahead, told by the words ahead. -/
theorem find_ahead (h : Reads s0 s os ws) (n : Nat) :
    (∃ j t, nthIndex?.find { s with pos := cursor s } n (cursor s) = some j ∧
      s.tokens[j]? = some t ∧ wordsFrom s.tokens j = ws.drop n ∧
      ws.drop n = t.lexeme :: wordsFrom s.tokens (j + 1)) ∨
    nthIndex?.find { s with pos := cursor s } n (cursor s) = none ∧ ws.drop n = [] := by
  have hwords : wordsFrom s.tokens (cursor s) = ws :=
    (wordsFrom_skipTriviaFrom _ _).trans h.ahead_eq
  obtain ⟨j, t, hj, ht, hhere, hdrop⟩ | hnone := find_eq { s with pos := cursor s } n (cursor s)
  · exact .inl ⟨j, t, hj, ht, hwords ▸ hhere, hwords ▸ hdrop⟩
  · exact .inr (hwords ▸ hnone)

theorem peek (h : Reads s0 s os ws) (n : Nat) :
    Yields s0 (peek n) s (firstKind (ws.drop n)) os ws := by
  unfold Parser.peek
  refine (h.nthIndex n).bind fun s1 h1 => ?_
  obtain ⟨j, t, hj, ht, -, hdrop⟩ | ⟨hnone, hdrop⟩ := h.find_ahead n
  · rw [hj, hdrop]
    refine Yields.get ?_
    rw [h1.tokens_eq, ← h.tokens_eq, ht]
    exact h1.pure
  · rw [hnone, hdrop]
    exact h1.pure

theorem peekText (h : Reads s0 s os ws) (n : Nat) :
    Yields s0 (peekText n) s (firstText (ws.drop n)) os ws := by
  unfold Parser.peekText
  refine (h.nthIndex n).bind fun s1 h1 => ?_
  obtain ⟨j, t, hj, ht, -, hdrop⟩ | ⟨hnone, hdrop⟩ := h.find_ahead n
  · rw [hj, hdrop, firstText_cons, Token.lexeme, String.ofList_toList]
    refine Yields.get ?_
    rw [h1.tokens_eq, ← h.tokens_eq, ht]
    exact h1.pure
  · rw [hnone, hdrop]
    exact h1.pure

/-- No line ends between two places with the same words behind them, if no line may start there. -/
theorem unbroken (h : Reads s0 s os ws) {n first stop : Nat} (hline : startsLine (ws.drop n) = false)
    (hne : ws.drop n ≠ []) (hfirst : wordsFrom s.tokens first = ws.drop n)
    (hstop : wordsFrom s.tokens stop = ws.drop n) :
    (s.tokens.extract first stop).any breaksLine = false := by
  rw [Array.any_eq_false']
  intro t ht hbreaks
  obtain ⟨k, hk, rfl⟩ := Array.mem_extract_iff_getElem.1 ht
  have hwords : wordsFrom s.tokens (first + k + 1) = ws.drop n := by
    rw [← hstop]
    exact wordsFrom_between (hfirst.trans hstop.symm) (by omega) (by omega)
  obtain hnil | hstarts := h.lines (first + k) _ (Array.getElem?_eq_getElem _) hbreaks
  · exact hne (hwords.symm.trans hnil)
  · rw [hwords, hline] at hstarts
    cases hstarts

/-- There is no line break before a word that no line may start with. -/
theorem lineBreakBefore (h : Reads s0 s os ws) (n : Nat) (hline : startsLine (ws.drop n) = false) :
    Yields s0 (lineBreakBefore n) s false os ws := by
  unfold Parser.lineBreakBefore
  refine (h.nthIndex n).bind fun s1 h1 => ?_
  obtain ⟨stop, t, hfind, -, hstop, hdrop⟩ | ⟨hnone, -⟩ := h.find_ahead n
  · have hne : ws.drop n ≠ [] := by
      rw [hdrop]
      exact List.cons_ne_nil _ _
    rw [h.tokens_eq, ← h1.tokens_eq] at hstop
    rw [hfind]
    refine Yields.get ?_
    cases n with
    | zero =>
      have hfirst : wordsFrom s1.tokens (triviaStart s1.tokens s1.pos) = ws.drop 0 :=
        (wordsFrom_triviaStart _ _).trans h1.ahead_eq
      show Yields s0 (Pure.pure _) s1 false os ws
      rw [h1.unbroken hline hne hfirst hstop]
      exact h1.pure
    | succ n =>
      dsimp only
      have hfirst : Yields s0 ((·.map (· + 1)) <$> nthIndex? n) s1
          ((nthIndex?.find { s1 with pos := cursor s1 } n (cursor s1)).map (· + 1)) os ws :=
        ⟨rfl, (h1.nthIndex n).2⟩
      refine hfirst.bind fun s2 h2 => ?_
      obtain ⟨j, u, hj, -, -, hbefore⟩ | ⟨hnone, -⟩ := h1.find_ahead n
      · have hbehind : wordsFrom s1.tokens (j + 1) = ws.drop (n + 1) := by
          rw [← List.drop_drop, hbefore]
          rfl
        rw [hj, Option.map_some]
        dsimp only
        rw [h1.unbroken hline hne hbehind hstop]
        exact h2.pure
      · rw [hnone]
        exact h2.pure
  · rw [hnone]
    exact h1.pure

/-- The end is reached when no words are ahead. -/
theorem atEnd (h : Reads s0 s os ws) : Yields s0 atEnd s ws.isEmpty os ws := by
  have hempty : decide (s.tokens.size ≤ cursor s) = ws.isEmpty := by
    rw [← h.ahead_eq]
    obtain ⟨t, ht, hahead⟩ | ⟨hnone, hahead⟩ := word_at_cursor s
    · rw [hahead, List.isEmpty_cons]
      exact decide_eq_false (Nat.not_le.2 (Array.getElem?_eq_some_iff.1 ht).1)
    · rw [hahead, List.isEmpty_nil]
      exact decide_eq_true (Array.getElem?_eq_none_iff.1 hnone)
  refine ⟨?_, h.glance s.patience s.fault⟩
  show (decide (s.tokens.size ≤ cursor s) || s.failure.isSome) = ws.isEmpty
  rw [hempty, h.going, Option.isSome_none, Bool.or_false]

theorem at? (h : Reads s0 s os ws) (k : Kind) : Yields s0 (at? k) s (firstKind ws == k) os ws := by
  unfold Parser.at?
  exact h.current.bind fun s1 h1 => h1.pure

theorem atWord (h : Reads s0 s os ws) (word : String) :
    Yields s0 (atWord word) s (firstKind ws == ident && firstText ws == word) os ws := by
  unfold Parser.atWord
  refine h.current.bind fun s1 h1 => ?_
  cases firstKind ws == ident with
  | true => exact h1.currentText.bind fun s2 h2 => h2.pure
  | false => exact h1.pure

end Reads

/-! ## Taking -/

namespace Reads

variable {s0 s s' : State} {os : List Outline} {w : Lexeme} {ws : List Lexeme}

theorem bind_apply {α β : Type} (p : Parse α) (f : α → Parse β) (s : State) :
    (p >>= f) s = f (p s).1 (p s).2 := rfl

/-- The trivia that wait are no words. -/
theorem placeTrivia (h : Reads s0 s os ws) : Yields s0 placeTrivia s () os ws := by
  have hnone : wordsIn ((s.tokens.toList.take s.pos).drop s.placed) = [] := by
    have hwords := (wordsFrom_append h.placed_le).symm.trans h.waits
    exact List.append_left_eq_self.1 hwords
  refine ⟨rfl, ?_⟩
  have hplaced : (Parser.placeTrivia s).2.placed = s.pos := Nat.max_eq_right h.placed_le
  refine ⟨⟨h.tokens_eq, h.limits_eq, h.depth_eq, h.inExtends_eq⟩,
    ⟨Nat.le_of_eq hplaced, ?_, h.going, h.unlimited, h.lines⟩, h.opened_eq, h.diagnostics_eq, ?_,
    h.ahead_eq⟩
  · rw [hplaced]
    rfl
  · obtain ⟨new, hnew, rfl⟩ := h.row_eq
    refine ⟨new ++ ((s.tokens.toList.take s.pos).drop s.placed).map .token, ?_, ?_⟩
    · rw [placeTrivia_row, hnew, List.append_assoc]
    · rw [Tree.outlines_append, Tree.outlines_token, hnone, List.map_nil, List.append_nil]

/-- The current token is taken, the trivia before it with it. -/
theorem bump (h : Reads s0 s os (w :: ws)) : Yields s0 bump s () (os ++ [.word w]) ws := by
  obtain ⟨t, ht, hahead⟩ | ⟨-, hnil⟩ := word_at_cursor s
  · obtain ⟨rfl, rfl⟩ := List.cons.inj (h.ahead_eq.symm.trans hahead)
    have hlt : cursor s < s.tokens.size := (Array.getElem?_eq_some_iff.1 ht).1
    have hle : s.placed ≤ cursor s + 1 :=
      Nat.le_trans h.placed_le (Nat.le_trans (pos_le_cursor s) (Nat.le_succ _))
    -- among the tokens that are placed now there is one word
    have hone : wordsIn ((s.tokens.toList.take (cursor s + 1)).drop s.placed) = [t.lexeme] := by
      exact List.append_left_inj (wordsFrom s.tokens (cursor s + 1)) |>.1
        ((wordsFrom_append hle).symm.trans (h.waits.trans hahead))
    have hrun : Parser.bump s = Parser.placeTrivia
        { s with pos := cursor s + 1, patience := fullPatience } := by
      have hcharge : ∀ s' : State, s'.limits = s.limits → charge s' = ((), s') := by
        intro s' hs'
        have hunlimited : s'.limits.tokens = none := by rw [hs', h.unlimited]
        unfold charge
        rw [modify_apply]
        simp only [hunlimited]
      unfold Parser.bump
      rw [bind_apply, bind_apply]
      show (if cursor s < s.tokens.size then _ else _ : Parse Unit) { s with pos := cursor s } = _
      rw [if_pos hlt]
      let s1 : State := { s with pos := cursor s, patience := fullPatience }
      show Parser.placeTrivia { (charge s1).2 with pos := (charge s1).2.pos + 1 } = _
      rw [hcharge s1 rfl]
    have hplaced : (Parser.bump s).2.placed = cursor s + 1 := by
      rw [hrun]
      exact Nat.max_eq_right hle
    have hrow : (Parser.bump s).2.row.toList = s.row.toList ++
        ((s.tokens.toList.take (cursor s + 1)).drop s.placed).map .token := by
      rw [hrun]
      exact placeTrivia_row _
    refine ⟨rfl, ?_⟩
    rw [hrun] at hplaced hrow ⊢
    refine ⟨⟨h.tokens_eq, h.limits_eq, h.depth_eq, h.inExtends_eq⟩,
      ⟨Nat.le_of_eq hplaced, ?_, h.going, h.unlimited, h.lines⟩, h.opened_eq, h.diagnostics_eq, ?_,
      rfl⟩
    · rw [hplaced]
      rfl
    · obtain ⟨new, hnew, rfl⟩ := h.row_eq
      refine ⟨_, hrow.trans (by rw [hnew, List.append_assoc]), ?_⟩
      rw [Tree.outlines_append, Tree.outlines_token, hone]
      rfl
  · cases hnil.symm.trans h.ahead_eq

theorem eat (h : Reads s0 s os (w :: ws)) : Yields s0 (eat w.kind) s true (os ++ [.word w]) ws := by
  unfold Parser.eat
  refine (h.at? w.kind).bind fun s1 h1 => ?_
  rw [firstKind_cons, beq_self_eq_true, if_pos rfl]
  exact h1.bump.bind fun s2 h2 => h2.pure

theorem eat_not (h : Reads s0 s os ws) {k : Kind} (hk : firstKind ws ≠ k) :
    Yields s0 (Parser.eat k) s false os ws := by
  unfold Parser.eat
  refine (h.at? k).bind fun s1 h1 => ?_
  rw [beq_false_of_ne hk, if_neg Bool.false_ne_true]
  exact h1.pure

theorem expect (h : Reads s0 s os (w :: ws)) (what : String) :
    Yields s0 (expect w.kind what) s true (os ++ [.word w]) ws := by
  unfold Parser.expect
  exact h.eat.bind fun s1 h1 => h1.pure

theorem whenAt {k : Kind} {step : Parse Unit} {os' : List Outline} {ws' : List Lexeme}
    (h : Reads s0 s os ws) (hk : firstKind ws = k)
    (hstep : ∀ s', Reads s0 s' os ws → Yields s0 step s' () os' ws') :
    Yields s0 (Parser.whenAt k step) s () os' ws' := by
  unfold Parser.whenAt
  refine (h.at? k).bind fun s1 h1 => ?_
  rw [hk, beq_self_eq_true, if_pos rfl]
  exact hstep s1 h1

theorem whenAt_not (h : Reads s0 s os ws) {k : Kind} (hk : firstKind ws ≠ k) (step : Parse Unit) :
    Yields s0 (Parser.whenAt k step) s () os ws := by
  unfold Parser.whenAt
  refine (h.at? k).bind fun s1 h1 => ?_
  rw [beq_false_of_ne hk, if_neg Bool.false_ne_true]
  exact h1.pure

end Reads

/-! ## Nodes -/

section Nodes

variable {α β : Type} {s0 s : State} {os os' : List Outline} {ws ws' : List Lexeme} {a : α} {b : β}
  {k : Kind}

/-- A place is marked: it is the size of the row in the state that goes on. -/
theorem Reads.mark_bind {f : Nat → Parse β} (h : Reads s0 s os ws)
    (hf : ∀ s', Reads s0 s' os ws → Yields s0 (f s'.row.size) s' b os' ws') :
    Yields s0 (mark >>= f) s b os' ws' := by
  have hmark : Yields s0 (Parser.skipTrivia >>= fun _ => Parser.placeTrivia) s () os ws :=
    h.skipTrivia.bind fun s1 h1 => h1.placeTrivia
  exact hf _ hmark.2

/-- Closing a node makes the elements behind its mark its parts. -/
theorem closeNode_apply {opened : List (Kind × Nat)} {m : Nat} (h : s.opened = (k, m) :: opened) :
    closeNode (opened.length + 1) s = ((), { s with
      opened, row := (s.row.shrink m).push
        (nodeOf k (s.row.extract m s.row.size).toList (placedStop s)) }) := by
  have hcount : (s.opened.length != opened.length + 1) = false := by
    rw [h, List.length_cons, bne_self_eq_false]
  have hclosed : closeNode (opened.length + 1) s = ((), s.closed) := by
    show (if s.opened.length != opened.length + 1 then _ else _ : Parse Unit) s = _
    rw [hcount, if_neg Bool.false_ne_true]
    rfl
  rw [hclosed, State.closed, h]

/-- The state with a node opened in it. -/
def withOpen (s : State) (k : Kind) (m : Nat) (fault : Option Fault) : State :=
  { s.opening k m with fault }

theorem Steady.withOpen (h : Steady s) (m : Nat) (fault : Option Fault) :
    Steady (withOpen s k m fault) :=
  ⟨h.placed_le, h.waits, h.going, h.unlimited, h.lines⟩

/-- A step between the opening of a node and its closing: what stands in the row from its mark on
becomes part of the node. -/
theorem Reads.node {step : Parse α} {front pre : List Tree}
    (h : Reads s0 s os ws) (hrow : s.row.toList = s0.row.toList ++ front ++ pre) (k : Kind)
    (fault : Option Fault)
    (hstep : ∀ s1, Reads s1 s1 [] ws → Same s s1 → Yields s1 step s1 a os' ws') :
    Yields s0 (step >>= fun out => closeNode (s.opened.length + 1) >>= fun _ => Pure.pure out)
      (withOpen s k (s0.row.toList ++ front).length fault) a
      (Tree.outlines front ++ [.node k (Tree.outlines pre ++ os')]) ws' := by
  let s1 := withOpen s k (s0.row.toList ++ front).length fault
  have h1 : Reads s1 s1 [] ws := by
    have hrefl := Reads.refl (h.toSteady.withOpen (k := k) (s0.row.toList ++ front).length fault)
    rwa [show ahead (withOpen s k _ fault) = ws from h.ahead_eq] at hrefl
  obtain ⟨ha, h2⟩ := hstep s1 h1 ⟨rfl, rfl, rfl, rfl⟩
  obtain ⟨more, hmore, rfl⟩ := h2.row_eq
  have hall : (step s1).2.row.toList = (s0.row.toList ++ front) ++ (pre ++ more) := by
    rw [hmore, ← List.append_assoc]
    exact congrArg (· ++ more) hrow
  refine ⟨ha, ?_⟩
  show Reads s0 (closeNode (s.opened.length + 1) (step s1).2).2 _ _
  rw [closeNode_apply h2.opened_eq]
  refine ⟨⟨h2.tokens_eq.trans h.tokens_eq, h2.limits_eq.trans h.limits_eq,
    h2.depth_eq.trans h.depth_eq, h2.inExtends_eq.trans h.inExtends_eq⟩,
    ⟨h2.placed_le, h2.waits, h2.going, h2.unlimited, h2.lines⟩, h.opened_eq,
    h2.diagnostics_eq.trans h.diagnostics_eq, ?_, h2.ahead_eq⟩
  -- the row is cut at the mark
  refine ⟨front ++ [nodeOf k (pre ++ more) (placedStop (step s1).2)], ?_, ?_⟩
  · have hparts : ((step s1).2.row.extract (s0.row.toList ++ front).length
        (step s1).2.row.size).toList = pre ++ more := by
      rw [Array.toList_extract, List.extract_eq_take_drop, ← Array.length_toList, hall,
        List.drop_left]
      exact List.take_of_length_le (by simp only [List.length_append]; omega)
    have hshrink : ((step s1).2.row.shrink (s0.row.toList ++ front).length).toList =
        s0.row.toList ++ front := by
      rw [Array.toList_shrink, hall, List.take_left]
    dsimp only
    rw [hparts, Array.toList_push, hshrink, List.append_assoc]
  · rw [Tree.outlines_append, Tree.outlines_cons, Tree.outlines_nil, nodeOf, Tree.outline_node,
      Tree.outlines_append, List.append_nil]

theorem Reads.within {step : Parse α} (h : Reads s0 s os ws)
    (hstep : ∀ s1, Reads s1 s1 [] ws → Same s s1 → Yields s1 step s1 a os' ws') :
    Yields s0 (within k step) s a (os ++ [.node k os']) ws' := by
  obtain ⟨-, h1⟩ := h.placeTrivia
  obtain ⟨front, hfront, rfl⟩ := h1.row_eq
  have hsame : Same s (Parser.placeTrivia s).2 := ⟨rfl, rfl, rfl, rfl⟩
  have hmark : (s0.row.toList ++ front).length = (Parser.placeTrivia s).2.row.size := by
    rw [← hfront, Array.length_toList]
  have hnode := h1.node ((List.append_nil _).trans hfront.symm).symm k s.fault
    fun s2 h2 hs2 => hstep s2 h2 (hsame.trans hs2)
  rw [hmark] at hnode
  exact hnode

/-- A step inside a node that starts at an earlier place: what was read since becomes part of it. -/
theorem Reads.withinFrom {step : Parse α} {pre : List Outline} (h : Reads s0 s pre ws)
    (hstep : ∀ s1, Reads s1 s1 [] ws → Same s s1 → Yields s1 step s1 a os' ws') :
    Yields s0 (withinFrom s0.row.size k step) s a [.node k (pre ++ os')] ws' := by
  obtain ⟨new, hnew, rfl⟩ := h.row_eq
  have hopen : ∃ fault, openAt s0.row.size k s =
      (s.opened.length + 1, withOpen s k s0.row.size fault) := by
    unfold openAt
    rw [bind_apply]
    show ∃ fault, (if s.row.size < s0.row.size || (s.opened.head?.map (·.2)).any (s0.row.size < ·)
      then _ else _ : Parse Nat) s = _
    split
    · exact ⟨s.fault.or (some .staleMark), rfl⟩
    · exact ⟨s.fault, rfl⟩
  obtain ⟨fault, hopen⟩ := hopen
  have hrow : s.row.toList = s0.row.toList ++ [] ++ new := by rw [hnew, List.append_nil]
  have hnode := h.node hrow k fault hstep
  rw [List.append_nil, Array.length_toList, Tree.outlines_nil, List.nil_append] at hnode
  unfold Parser.withinFrom
  refine ⟨?_, ?_⟩
  · rw [bind_apply, hopen]
    exact hnode.1
  · rw [bind_apply, hopen]
    exact hnode.2

theorem Reads.bumpAs {w : Lexeme} (h : Reads s0 s os (w :: ws)) :
    Yields s0 (bumpAs k) s () (os ++ [.node k [.word w]]) ws :=
  h.within fun _ h1 _ => h1.bump

end Nodes

/-! ## Repeating and nesting -/

section Repeating

variable {α : Type} {s0 s : State} {os os' : List Outline} {ws ws' : List Lexeme} {a : α}

theorem Yields.iterate_stop {step : Parse Bool} {n : Nat} (h : Yields s0 step s false os ws) :
    Yields s0 (iterate (n + 1) step) s () os ws := by
  rw [iterate]
  exact h.bind fun s1 h1 => h1.pure

theorem Yields.iterate_next {step : Parse Bool} {n : Nat} (h : Yields s0 step s true os ws)
    (hnext : ∀ s1, Reads s0 s1 os ws → Yields s0 (iterate n step) s1 () os' ws') :
    Yields s0 (iterate (n + 1) step) s () os' ws' := by
  rw [iterate]
  exact h.bind fun s1 h1 => hnext s1 h1

/-- What a step reads under another setting is read, once the setting is back. -/
theorem Reads.resume {s1 : State} {depth depth' patience patience' : Nat} {inExtends inExtends' : Bool}
    (h : Reads s0 s os ws) (h1 : Reads { s with depth, inExtends, patience } s1 os' ws')
    (hdepth : depth' = s.depth) (hinExtends : inExtends' = s.inExtends) :
    Reads s0 { s1 with depth := depth', inExtends := inExtends', patience := patience' }
      (os ++ os') ws' where
  toSame := ⟨h1.tokens_eq.trans h.tokens_eq, h1.limits_eq.trans h.limits_eq,
    hdepth.trans h.depth_eq, hinExtends.trans h.inExtends_eq⟩
  toSteady := ⟨h1.placed_le, h1.waits, h1.going, h1.unlimited, h1.lines⟩
  opened_eq := h1.opened_eq.trans h.opened_eq
  diagnostics_eq := h1.diagnostics_eq.trans h.diagnostics_eq
  row_eq := by
    obtain ⟨new, hnew, rfl⟩ := h.row_eq
    obtain ⟨new', hnew', rfl⟩ := h1.row_eq
    refine ⟨new ++ new', ?_, Tree.outlines_append new new'⟩
    dsimp only at hnew' ⊢
    rw [hnew', hnew, List.append_assoc]
  ahead_eq := h1.ahead_eq

/-- Another setting is none of what a parse reads. -/
theorem Reads.reset (h : Reads s0 s os ws) (depth patience : Nat) (inExtends : Bool) :
    Reads { s with depth, inExtends, patience } { s with depth, inExtends, patience } [] ws := by
  have hsteady : Steady { s with depth, inExtends, patience } :=
    ⟨h.placed_le, h.waits, h.going, h.unlimited, h.lines⟩
  have hrefl := Reads.refl hsteady
  rwa [show ahead { s with depth, inExtends, patience } = ws from h.ahead_eq] at hrefl

/-- A step with conditional types allowed. -/
theorem Reads.allowingConditional {step : Parse α} (h : Reads s0 s os ws)
    (hstep : ∀ s1, Reads s1 s1 [] ws → Same s { s1 with inExtends := s.inExtends } →
      s1.inExtends = false → Yields s1 step s1 a os' ws') :
    Yields s0 (allowingConditional step) s a (os ++ os') ws' := by
  obtain ⟨ha, h1⟩ := hstep _ (h.reset s.depth s.patience false) (.refl s) rfl
  exact ⟨ha, h.resume h1 h1.depth_eq rfl⟩

/-- A type one level deeper, if there is room for it. -/
theorem Reads.typeWith {type : Parse Bool} (h : Reads s0 s os ws)
    (hroom : ∀ m ∈ s.limits.nesting, s.depth < m)
    (hstep : ∀ s1, Reads s1 s1 [] ws → Same s { s1 with depth := s.depth } →
      s1.depth = s.depth + 1 → Yields s1 (typeHere type) s1 true os' ws') :
    Yields s0 (typeWith type) s true (os ++ os') ws' := by
  let s1 : State := { s with depth := s.depth + 1, patience := fullPatience }
  obtain ⟨ha, h1⟩ := hstep s1 (h.reset (s.depth + 1) fullPatience s.inExtends)
    ⟨rfl, rfl, rfl, rfl⟩ rfl
  have henter : enter s = (true, s1) := by
    have hany : s.limits.nesting.any (· ≤ s.depth) = false := by
      rw [Option.any_eq_false_iff_get]
      intro hsome
      simpa using hroom _ (Option.get_mem hsome)
    unfold enter
    show (if s.limits.nesting.any (· ≤ s.depth) then _ else _ : Parse Bool) s = _
    rw [hany]
    rfl
  have hrun : Parser.typeWith type s = ((typeHere type s1).1, (leave (typeHere type s1).2).2) := by
    unfold Parser.typeWith
    rw [Reads.bind_apply, henter]
    rfl
  rw [Yields, hrun]
  have hdepth : (typeHere type s1).2.depth - 1 = s.depth := Nat.sub_eq_of_eq_add h1.depth_eq
  exact ⟨ha, h.resume h1 hdepth h1.inExtends_eq⟩

end Repeating

end DeclKit.Parser

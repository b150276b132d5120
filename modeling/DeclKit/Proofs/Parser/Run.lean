/-
What a parsing step does to the state of a parse.

Every production is shown to be a run: it keeps what is always true of a state, it only adds to the row
of finished elements, it leaves the open nodes as it found them, it never steps back, and it costs a
bounded amount of patience. Runs compose, so a production is a run because its parts are; the rest of
this development reads off what runs keep.

The cost of a run is two numbers. Where the run does not move past a token, patience falls by at most
the first. Where it does, patience was full at the last token taken, and the second says how much may
be gone since. Of two runs in a row the first numbers add up; the second number is the larger of the
second run's own and the first run's plus what the second may use without moving.
-/
import DeclKit.Parser.State
import DeclKit.Proofs.Tree.Cover

set_option autoImplicit false

namespace DeclKit.Parser

open Kind
open DeclKit.Tree (tokensOfList bareAll hollowsAll CoversAll GoodAll Owns Quiet Proper)

/-! ## What holds after a step -/

/-- The answer and the state in which a step ends satisfy `Q`. -/
def After {α : Type} (p : Parse α) (s : State) (Q : α → State → Prop) : Prop := Q (p s).1 (p s).2

section After

variable {α β : Type} {p : Parse α} {f : α → Parse β} {s : State}

theorem After.mono {Q R : α → State → Prop} (h : After p s Q) (hQ : ∀ a s', Q a s' → R a s') :
    After p s R :=
  hQ _ _ h

theorem After.bind {Q : α → State → Prop} {R : β → State → Prop} (h : After p s Q)
    (hf : ∀ a s', Q a s' → After (f a) s' R) : After (p >>= f) s R :=
  hf _ _ h

theorem After.pure {a : α} {Q : α → State → Prop} (h : Q a s) : After (pure a) s Q := h

theorem After.get {f : State → Parse β} {Q : β → State → Prop} (h : After (f s) s Q) :
    After (MonadState.get >>= f) s Q := h

theorem After.modify {g : State → State} {f : PUnit → Parse β} {Q : β → State → Prop}
    (h : After (f ⟨⟩) (g s) Q) : After (modify g >>= f) s Q := h

theorem modify_apply {g : State → State} : (modify g : Parse PUnit) s = (⟨⟩, g s) := rfl

theorem After.set {s1 : State} {f : PUnit → Parse β} {Q : β → State → Prop}
    (h : After (f ⟨⟩) s1 Q) : After (MonadStateOf.set s1 >>= f) s Q := h

end After

/-! ## The cursor -/

section Trivia

variable {tokens : Array Token}

theorem le_skipTriviaFrom (n pos : Nat) : pos ≤ skipTriviaFrom tokens n pos := by
  fun_induction skipTriviaFrom tokens n pos with
  | case1 => exact Nat.le_refl _
  | case2 n pos t ht htr ih => exact Nat.le_trans (Nat.le_succ pos) ih
  | case3 => exact Nat.le_refl _
  | case4 => exact Nat.le_refl _

theorem skipTriviaFrom_le {n pos : Nat} (h : pos ≤ tokens.size) :
    skipTriviaFrom tokens n pos ≤ tokens.size := by
  fun_induction skipTriviaFrom tokens n pos with
  | case1 => exact h
  | case2 n pos t ht htr ih =>
    have hlt : pos < tokens.size := (Array.getElem?_eq_some_iff.1 ht).1
    exact ih hlt
  | case3 => exact h
  | case4 => exact h

/-- Where skipping stops there is no trivia, so that skipping again stays. -/
theorem skipTriviaFrom_again {n m pos : Nat} (h : tokens.size ≤ pos + n) :
    skipTriviaFrom tokens m (skipTriviaFrom tokens n pos) = skipTriviaFrom tokens n pos := by
  fun_induction skipTriviaFrom tokens n pos with
  | case1 pos =>
    -- the count runs out at the end of the tokens only
    have hnone : tokens[pos]? = none := Array.getElem?_eq_none (by omega)
    cases m with
    | zero => rfl
    | succ m => simp [skipTriviaFrom, hnone]
  | case2 n pos t ht htr ih => exact ih (by omega)
  | case3 n pos t ht htr =>
    cases m with
    | zero => rfl
    | succ m => simp [skipTriviaFrom, ht, htr]
  | case4 n pos hnone =>
    cases m with
    | zero => rfl
    | succ m => simp [skipTriviaFrom, hnone]

end Trivia

/-- The index of the token that is next after trivia. -/
def cursor (s : State) : Nat := skipTriviaFrom s.tokens (s.tokens.size - s.pos) s.pos

/-- The kind of the token that is next after trivia; `error` at the end. -/
def kindHere (s : State) : Kind := (s.tokens[cursor s]?.map (·.kind)).getD error

/-- How many tokens are left at and after the cursor. -/
def left (s : State) : Nat := s.tokens.size - cursor s

theorem pos_le_cursor (s : State) : s.pos ≤ cursor s := le_skipTriviaFrom _ _

theorem cursor_le_size {s : State} (h : s.pos ≤ s.tokens.size) : cursor s ≤ s.tokens.size :=
  skipTriviaFrom_le h

theorem cursor_at (s : State) :
    skipTriviaFrom s.tokens (s.tokens.size - cursor s) (cursor s) = cursor s :=
  skipTriviaFrom_again (by omega)

/-- A token of a kind other than `error` is next, so there is one. -/
theorem cursor_lt_of_kind {s : State} (h : kindHere s ≠ error) : cursor s < s.tokens.size := by
  rcases Nat.lt_or_ge (cursor s) s.tokens.size with hlt | hge
  · exact hlt
  · exact absurd (by simp [kindHere, Array.getElem?_eq_none hge]) h

/-! ## What always holds of a state -/

/-- What has been added to the row between two states. -/
def grown (s s' : State) : List Tree := s'.row.toList.drop s.row.size

/-- What holds of every state of a parse. -/
structure Sound (s : State) : Prop where
  placed_le : s.placed ≤ s.pos
  pos_le : s.pos ≤ s.tokens.size
  no_fault : s.fault = none
  patience_le : s.patience ≤ fullPatience
  /-- The tokens tile the text. -/
  tiled : Token.Tiles 0 s.textSize s.tokens.toList
  /-- The leaves of the row are the tokens that are placed, in their order. -/
  leaves : tokensOfList s.row.toList = s.tokens.toList.take s.placed
  covered : CoversAll 0 (placedStop s) s.row.toList
  good : GoodAll s.row.toList
  /-- The innermost open node starts within the row. -/
  inside : ∀ k m, s.opened.head? = some (k, m) → m ≤ s.row.size

/-- A sound state with some patience left. -/
structure Ready (n : Nat) (s : State) : Prop extends Sound s where
  patience_ge : n ≤ s.patience

theorem Ready.weaken {n m : Nat} {s : State} (h : Ready n s) (hm : m ≤ n) : Ready m s :=
  ⟨h.toSound, Nat.le_trans hm h.patience_ge⟩

/-- Nothing has been taken: the same token is next. -/
structure Still (s s' : State) : Prop where
  tokens_eq : s'.tokens = s.tokens
  cursor_eq : cursor s' = cursor s
  failure_eq : s'.failure = s.failure

/-- The failure says that a limit of the parse has been reached. -/
def isLimit : Failure → Bool
  | .outOfTokens | .tooDeep => true
  | .cannotWrite _ => false

/-- The cursor stays or moves on, at a cost of patience. -/
structure Moves (idle busy : Nat) (s s' : State) : Prop where
  tokens_eq : s'.tokens = s.tokens
  pos_mono : s.pos ≤ s'.pos
  cursor_le : cursor s ≤ cursor s'
  failure_some : s.failure.isSome → s'.failure.isSome
  failure_limit : ∀ e, s'.failure = some e → s.failure = some e ∨ isLimit e = true
  calm : cursor s' = cursor s → s.patience ≤ s'.patience + idle
  moved : cursor s < cursor s' → fullPatience ≤ s'.patience + busy

/-- A run that may leave a hollow parameter behind wherever it starts. -/
structure Walk (idle busy : Nat) (s s' : State) : Prop extends Moves idle busy s s' where
  sound : Sound s'
  opened_eq : s'.opened = s.opened
  row_le : s.row.toList <+: s'.row.toList

/-- A parameter without tokens is left behind at most once, by a run to the end of the text that
starts before it. -/
def Hollow (s s' : State) : Prop :=
  hollowsAll (grown s s') = 0 ∨
    hollowsAll (grown s s') = 1 ∧ cursor s < s.tokens.size ∧ cursor s' = s.tokens.size

/-- What a production does to a state, at a cost of patience. -/
structure Run (idle busy : Nat) (s s' : State) : Prop extends Walk idle busy s s' where
  hollow : Hollow s s'

/-- A token was taken that no keyed node holds. -/
structure Bare (s s' : State) : Prop where
  cursor_lt : cursor s < cursor s'
  bare : bareAll (grown s s') ≠ []

/-! ## Runs compose -/

section Compose

variable {s s' s'' : State} {i b i' b' : Nat}

theorem row_append (h : s.row.toList <+: s'.row.toList) :
    s'.row.toList = s.row.toList ++ grown s s' := by
  obtain ⟨t, ht⟩ := h
  rw [grown, ← ht, ← Array.length_toList, List.drop_left]

theorem grown_self (s : State) : grown s s = [] := by
  rw [grown, ← Array.length_toList, List.drop_length]

theorem grown_of_row_eq (h : s'.row = s.row) : grown s s' = [] := by
  rw [grown, h, ← Array.length_toList, List.drop_length]

theorem hollows_of_row_eq (h : s'.row = s.row) : hollowsAll (grown s s') = 0 := by
  rw [grown_of_row_eq h]
  rfl

theorem quiet_of_row_eq (h : s'.row = s.row) : Quiet (grown s s') := .inl (grown_of_row_eq h)

theorem grown_of_append {ts : List Tree} (h : s'.row.toList = s.row.toList ++ ts) :
    grown s s' = ts := by
  rw [grown, h, ← Array.length_toList, List.drop_left]

theorem grown_trans (h : s.row.toList <+: s'.row.toList) (h' : s'.row.toList <+: s''.row.toList) :
    grown s s'' = grown s s' ++ grown s' s'' := by
  apply grown_of_append
  rw [row_append h', row_append h, List.append_assoc]

theorem Still.kind_eq (h : Still s s') : kindHere s' = kindHere s := by
  rw [kindHere, kindHere, h.tokens_eq, h.cursor_eq]

theorem Still.left_eq (h : Still s s') : left s' = left s := by
  rw [left, left, h.tokens_eq, h.cursor_eq]

theorem Still.trans (h : Still s s') (h' : Still s' s'') : Still s s'' :=
  ⟨h'.tokens_eq.trans h.tokens_eq, h'.cursor_eq.trans h.cursor_eq,
    h'.failure_eq.trans h.failure_eq⟩

theorem Still.refl (s : State) : Still s s := ⟨rfl, rfl, rfl⟩

theorem Run.refl (hs : Sound s) : Run 0 0 s s where
  sound := hs
  tokens_eq := rfl
  pos_mono := Nat.le_refl _
  opened_eq := rfl
  row_le := List.prefix_refl _
  cursor_le := Nat.le_refl _
  failure_some := id
  failure_limit := fun _ => .inl
  calm := fun _ => Nat.le_refl _
  moved := fun h => absurd h (Nat.lt_irrefl _)
  hollow := .inl (by rw [grown_self]; rfl)

theorem Moves.trans (h : Moves i b s s') (h' : Moves i' b' s' s'') :
    Moves (i + i') (max (b + i') b') s s'' where
  tokens_eq := h'.tokens_eq.trans h.tokens_eq
  pos_mono := Nat.le_trans h.pos_mono h'.pos_mono
  cursor_le := Nat.le_trans h.cursor_le h'.cursor_le
  failure_some := fun hf => h'.failure_some (h.failure_some hf)
  failure_limit := fun e he => (h'.failure_limit e he).elim (h.failure_limit e) .inr
  calm := by
    intro hc
    have h1 := h.cursor_le
    have h2 := h'.cursor_le
    have hp := h.calm (by omega)
    have hp' := h'.calm (by omega)
    omega
  moved := by
    intro hc
    -- either the second step moved, or it used up to `i'` after the first had
    rcases Nat.lt_or_ge (cursor s') (cursor s'') with hlt | hge
    · have := h'.moved hlt
      omega
    · have h2 := h'.cursor_le
      have hp := h.moved (by omega)
      have hp' := h'.calm (by omega)
      omega

theorem Walk.trans (h : Walk i b s s') (h' : Walk i' b' s' s'') :
    Walk (i + i') (max (b + i') b') s s'' where
  toMoves := h.toMoves.trans h'.toMoves
  sound := h'.sound
  opened_eq := h'.opened_eq.trans h.opened_eq
  row_le := h.row_le.trans h'.row_le

/-- A run to the end leaves the next one no room for another hollow parameter. -/
theorem Hollow.join {s1 s2 : State} (h : Hollow s s') (hm : Moves i b s s') (hst : Still s' s1)
    (h' : Hollow s1 s2) (hm' : Moves i' b' s1 s2) (hs2 : Sound s2) :
    hollowsAll (grown s s' ++ grown s1 s2) = 0 ∨
      hollowsAll (grown s s' ++ grown s1 s2) = 1 ∧ cursor s < s.tokens.size ∧
        cursor s2 = s.tokens.size := by
  have ht : s1.tokens = s.tokens := hst.tokens_eq.trans hm.tokens_eq
  have hc := hm.cursor_le
  have hc' := hm'.cursor_le
  have hsize := cursor_le_size hs2.pos_le
  rw [hm'.tokens_eq, ht] at hsize
  rw [hst.cursor_eq] at hc'
  simp only [Tree.hollowsAll_append]
  rcases h with h0 | ⟨h1, hlt, he⟩
  · rcases h' with h0' | ⟨h1', hlt', he'⟩
    · exact .inl (by omega)
    · rw [ht, hst.cursor_eq] at hlt'
      rw [ht] at he'
      exact .inr ⟨by omega, by omega, he'⟩
  · -- the first run has come to the end, where the second would have to start before it
    rcases h' with h0' | ⟨h1', hlt', he'⟩
    · exact .inr ⟨by omega, hlt, by omega⟩
    · rw [ht, hst.cursor_eq] at hlt'
      omega

theorem Run.trans (h : Run i b s s') (h' : Run i' b' s' s'') :
    Run (i + i') (max (b + i') b') s s'' where
  toWalk := h.toWalk.trans h'.toWalk
  hollow := by
    rw [Hollow, grown_trans h.row_le h'.row_le]
    exact h.hollow.join h.toMoves (Still.refl _) h'.hollow h'.toMoves h'.sound

/-- A run that moves costs nothing where it does not move. -/
theorem Run.moving (h : Run i b s s') (hc : cursor s < cursor s') : Run 0 b s s' :=
  { h with calm := fun he => absurd hc (by omega) }

/-- Once the second of two runs moves, what the first has cost does not matter. -/
theorem Run.trans_moved (h : Run i b s s') (h' : Run i' b' s' s'') (hc : cursor s' < cursor s'') :
    Run 0 b' s s'' :=
  { (h.trans h').moving (Nat.lt_of_le_of_lt h.cursor_le hc) with moved := fun _ => h'.moved hc }

theorem Walk.mono (h : Walk i b s s') (hi : i ≤ i') (hb : b ≤ b') : Walk i' b' s s' :=
  { h with
    calm := fun hc => Nat.le_trans (h.calm hc) (Nat.add_le_add_left hi _)
    moved := fun hc => Nat.le_trans (h.moved hc) (Nat.add_le_add_left hb _) }

theorem Run.mono (h : Run i b s s') (hi : i ≤ i') (hb : b ≤ b') : Run i' b' s s' :=
  ⟨h.toWalk.mono hi hb, h.hollow⟩

/-- What patience is left after a run. -/
theorem Walk.ready {n m : Nat} (h : Walk i b s s') (hs : Ready n s) (hi : i + m ≤ n)
    (hb : b + m ≤ fullPatience) : Ready m s' := by
  refine ⟨h.sound, ?_⟩
  have hn := hs.patience_ge
  rcases Nat.lt_or_ge (cursor s) (cursor s') with hlt | hge
  · have := h.moved hlt
    omega
  · have := h.calm (Nat.le_antisymm hge h.cursor_le)
    omega

/-- What patience is left after a run that moves, however little there was before. -/
theorem Walk.ready_moved {m : Nat} (h : Walk i b s s') (hc : cursor s < cursor s')
    (hb : b + m ≤ fullPatience) : Ready m s' := by
  refine ⟨h.sound, ?_⟩
  have := h.moved hc
  omega

theorem Walk.left_le (h : Walk i b s s') : left s' ≤ left s := by
  have := h.cursor_le
  rw [left, left, h.tokens_eq]
  omega

/-- A run that moves leaves fewer tokens. -/
theorem Walk.left_lt (h : Walk i b s s') (hc : cursor s < cursor s') : left s' < left s := by
  have := cursor_le_size h.sound.pos_le
  rw [h.tokens_eq] at this
  rw [left, left, h.tokens_eq]
  omega

theorem Bare.trans_walk (h : Bare s s') (hw : Walk i b s s') (h' : Walk i' b' s' s'') :
    Bare s s'' where
  cursor_lt := Nat.lt_of_lt_of_le h.cursor_lt h'.cursor_le
  bare := by
    rw [grown_trans hw.row_le h'.row_le]
    simp [h.bare]

theorem Walk.trans_bare (hw : Walk i b s s') (h : Bare s' s'') (h' : Walk i' b' s' s'') :
    Bare s s'' where
  cursor_lt := Nat.lt_of_le_of_lt hw.cursor_le h.cursor_lt
  bare := by
    rw [grown_trans hw.row_le h'.row_le]
    simp [h.bare]

theorem Bare.quiet (h : Bare s s') : Quiet (grown s s') := .inr h.bare

theorem Walk.owns_trans (h : Walk i b s s') (h' : Walk i' b' s' s'') (ho : Owns (grown s s'))
    (ho' : Owns (grown s' s'')) : Owns (grown s s'') := by
  rw [grown_trans h.row_le h'.row_le]
  exact ho.append ho'

theorem Walk.quiet_trans (h : Walk i b s s') (h' : Walk i' b' s' s'') (hq : Quiet (grown s s'))
    (hq' : Quiet (grown s' s'')) : Quiet (grown s s'') := by
  rw [grown_trans h.row_le h'.row_le]
  exact hq.append hq'

/-- Goes on from a state that a run has led to. -/
theorem After.step {α β : Type} {p : Parse α} {f : α → Parse β} {Q : α → State → Prop}
    {R : β → State → Prop} (hp : After p s' fun a s'' => Run i' b' s' s'' ∧ Q a s'')
    (h : Run i b s s')
    (hf : ∀ a s'', Run (i + i') (max (b + i') b') s s'' → Run i' b' s' s'' → Q a s'' →
      After (f a) s'' R) : After (p >>= f) s' R :=
  hp.bind fun a s'' hr => hf a s'' (h.trans hr.1) hr.1 hr.2

end Compose

/-! ## Looking -/

/-- Only trivia have been passed, and the current token was looked at up to `n` times. -/
def Looks (n : Nat) (s s' : State) : Prop :=
  ∃ m ≤ n, s' = { s with pos := cursor s, patience := s.patience - m }

section Looks

variable {s s' s'' : State} {n m i b : Nat}

theorem Looks.still (h : Looks n s s') : Still s s' := by
  obtain ⟨m, -, rfl⟩ := h
  exact ⟨rfl, cursor_at s, rfl⟩

theorem Looks.row_eq (h : Looks n s s') : s'.row = s.row := by
  obtain ⟨m, -, rfl⟩ := h
  rfl

theorem Looks.hollows_eq (h : Looks n s s') : hollowsAll (grown s s') = 0 :=
  hollows_of_row_eq h.row_eq

theorem Looks.quiet (h : Looks n s s') : Quiet (grown s s') := quiet_of_row_eq h.row_eq

theorem Looks.trans (h : Looks n s s') (h' : Looks m s' s'') : Looks (n + m) s s'' := by
  have hc := h.still.cursor_eq
  obtain ⟨a, ha, rfl⟩ := h
  obtain ⟨c, hc', rfl⟩ := h'
  refine ⟨a + c, Nat.add_le_add ha hc', ?_⟩
  simp only [hc, Nat.sub_sub]

theorem Looks.mono (h : Looks n s s') (hn : n ≤ m) : Looks m s s' := by
  obtain ⟨a, ha, rfl⟩ := h
  exact ⟨a, Nat.le_trans ha hn, rfl⟩

theorem Looks.run (h : Looks n s s') (hs : Sound s) : Run n 0 s s' := by
  have hst := h.still
  have hhollow := h.hollows_eq
  obtain ⟨m, hm, rfl⟩ := h
  refine ⟨⟨⟨rfl, pos_le_cursor s, Nat.le_of_eq hst.cursor_eq.symm, id, fun _ => .inl, ?_, ?_⟩, ⟨?_, ?_, hs.no_fault, ?_, hs.tiled,
    hs.leaves, hs.covered, hs.good, hs.inside⟩, rfl, List.prefix_refl _⟩, .inl hhollow⟩
  · intro _
    dsimp only
    omega
  · intro hlt
    have := hst.cursor_eq
    omega
  · exact Nat.le_trans hs.placed_le (pos_le_cursor s)
  · exact cursor_le_size hs.pos_le
  · exact Nat.le_trans (Nat.sub_le _ _) hs.patience_le

theorem Looks.ready (h : Looks n s s') (hs : Ready (n + m) s) : Ready m s' :=
  (h.run hs.toSound).ready hs (Nat.le_refl _) (by
    have := hs.patience_ge
    have := hs.patience_le
    omega)

/-- Goes on from a look ahead. -/
theorem After.look {α β : Type} {p : Parse α} {f : α → Parse β} {Q : α → State → Prop}
    {R : β → State → Prop} (hp : After p s' fun a s'' => Looks n s' s'' ∧ Q a s'')
    (h : Run i b s s')
    (hf : ∀ a s'', Run (i + n) (b + n) s s'' → Looks n s' s'' → Q a s'' → After (f a) s'' R) :
    After (p >>= f) s' R :=
  hp.bind fun a s'' hr =>
    hf a s'' ((h.trans (hr.1.run h.sound)).mono (Nat.le_refl _) (by omega)) hr.1 hr.2

/-- Goes on from a look ahead whose answer does not matter. -/
theorem After.glance {α β : Type} {p : Parse α} {f : α → Parse β} {R : β → State → Prop}
    (hp : After p s' fun _ s'' => Looks n s' s'') (h : Run i b s s')
    (hf : ∀ a s'', Run (i + n) (b + n) s s'' → Looks n s' s'' → After (f a) s'' R) :
    After (p >>= f) s' R :=
  After.look (Q := fun _ _ => True) (hp.mono fun _ _ h => ⟨h, trivial⟩) h
    fun a s'' h1 h2 _ => hf a s'' h1 h2

theorem skipTrivia_spec (s : State) : After skipTrivia s fun _ s' => Looks 0 s s' :=
  ⟨0, Nat.le_refl _, rfl⟩

theorem currentToken_spec (s : State) :
    After currentToken? s fun t s' => Looks 0 s s' ∧ t = s.tokens[cursor s]? :=
  ⟨⟨0, Nat.le_refl _, rfl⟩, rfl⟩

theorem current_spec (hs : Ready 1 s) :
    After current s fun k s' => Looks 1 s s' ∧ k = kindHere s := by
  have hp : (s.patience == 0) = false := by
    have := hs.patience_ge
    exact beq_false_of_ne (by omega)
  unfold current
  refine (currentToken_spec s).bind ?_
  rintro t s1 ⟨⟨m, hm, rfl⟩, rfl⟩
  obtain rfl : m = 0 := by omega
  refine After.get ?_
  simp only [Nat.sub_zero, hp, Bool.false_eq_true, if_false]
  exact ⟨⟨1, Nat.le_refl _, rfl⟩, rfl⟩

theorem currentText_spec (s : State) : After currentText s fun _ s' => Looks 0 s s' := by
  unfold currentText
  refine (currentToken_spec s).bind ?_
  rintro t s1 ⟨h1, -⟩
  exact After.pure h1

theorem nthIndex_spec (i : Nat) (s : State) : After (nthIndex? i) s fun _ s' => Looks 0 s s' := by
  unfold nthIndex?
  refine (skipTrivia_spec s).bind fun _ s1 h1 => ?_
  exact h1

theorem peek_spec (i : Nat) (s : State) : After (peek i) s fun _ s' => Looks 0 s s' := by
  unfold peek
  refine (nthIndex_spec i s).bind fun at? s1 h1 => ?_
  cases at? with
  | none => exact h1
  | some i => exact h1

theorem peekText_spec (i : Nat) (s : State) : After (peekText i) s fun _ s' => Looks 0 s s' := by
  unfold peekText
  refine (nthIndex_spec i s).bind fun at? s1 h1 => ?_
  cases at? with
  | none => exact h1
  | some i => exact h1

theorem lineBreakBefore_spec (i : Nat) (s : State) :
    After (lineBreakBefore i) s fun _ s' => Looks 0 s s' := by
  unfold lineBreakBefore
  refine (nthIndex_spec i s).bind fun stop? s1 h1 => ?_
  cases stop? with
  | none => exact h1
  | some stop =>
    refine After.get ?_
    cases i with
    | zero => exact h1
    | succ i =>
      refine ((nthIndex_spec i s1).bind (R := fun _ s' => Looks 0 s s')
        fun first? s2 h2 => After.pure (h1.trans h2)).bind fun first? s2 h2 => ?_
      cases first? with
      | none => exact h2
      | some first => exact h2

theorem atEnd_spec (s : State) :
    After atEnd s fun e s' => Looks 0 s s' ∧
      (e = false → cursor s < s.tokens.size ∧ s.failure = none) ∧
      (e = true → s.tokens.size ≤ cursor s ∨ s.failure.isSome) := by
  unfold atEnd
  refine (skipTrivia_spec s).bind fun _ s1 h1 => ?_
  refine After.get (After.pure ⟨h1, ?_⟩)
  obtain ⟨m, -, rfl⟩ := h1
  simp

theorem at_spec (k : Kind) (hs : Ready 1 s) :
    After (at? k) s fun yes s' => Looks 1 s s' ∧ (yes = true ↔ kindHere s = k) := by
  unfold at?
  refine (current_spec hs).bind ?_
  rintro c s1 ⟨h1, rfl⟩
  exact After.pure ⟨h1, beq_iff_eq⟩

theorem atWord_spec (word : String) (hs : Ready 1 s) :
    After (atWord word) s fun yes s' => Looks 1 s s' ∧ (yes = true → kindHere s = ident) := by
  unfold atWord
  refine (current_spec hs).bind ?_
  rintro c s1 ⟨h1, rfl⟩
  split
  · rename_i hk
    refine (currentText_spec s1).bind fun text s2 h2 => ?_
    exact After.pure ⟨h1.trans h2, fun _ => eq_of_beq hk⟩
  · exact After.pure ⟨h1, fun h => by cases h⟩

end Looks

/-! ## Placing tokens -/

section Placing

variable {s s' : State}

theorem tiles_getLast {a b : Nat} {ts : List Token} (h : Token.Tiles a b ts) {t : Token}
    (ht : ts.getLast? = some t) : t.stop = b := by
  induction ts generalizing a with
  | nil => cases ht
  | cons u us ih =>
    cases us with
    | nil =>
      cases ht
      exact h.2.2
    | cons v vs => exact ih h.2.2 (by simpa using ht)

/-- The tokens that are placed end where `placedStop` says, and the others go on from there. -/
theorem tiles_placedStop (ht : Token.Tiles 0 s.textSize s.tokens.toList)
    (hp : s.placed ≤ s.tokens.size) :
    Token.Tiles 0 (placedStop s) (s.tokens.toList.take s.placed) ∧
      Token.Tiles (placedStop s) s.textSize (s.tokens.toList.drop s.placed) := by
  rw [← List.take_append_drop s.placed s.tokens.toList, Token.tiles_append] at ht
  obtain ⟨m, h1, h2⟩ := ht
  suffices hm : m = placedStop s by
    rw [← hm]
    exact ⟨h1, h2⟩
  cases hn : s.placed with
  | zero =>
    rw [hn] at h1
    rw [placedStop, hn]
    exact h1.symm
  | succ n =>
    have hlt : n < s.tokens.toList.length := by
      rw [Array.length_toList]
      omega
    have hlast : (s.tokens.toList.take s.placed).getLast? = some s.tokens.toList[n] := by
      rw [hn, List.getLast?_take, if_neg (Nat.succ_ne_zero n), Nat.add_sub_cancel,
        List.getElem?_eq_getElem hlt]
      rfl
    rw [placedStop, hn, ← tiles_getLast h1 hlast]
    simp [Array.getElem?_eq_getElem (by simpa using hlt : n < s.tokens.size)]

/-- What placing the tokens before the cursor adds to the row. -/
theorem placeTrivia_row (s : State) :
    (placeTrivia s).2.row.toList
      = s.row.toList ++ ((s.tokens.toList.take s.pos).drop s.placed).map .token := by
  have hfold : (placeTrivia s).2.row
      = (s.tokens.extract s.placed s.pos).foldl (fun row t => row.push (.token t)) s.row := rfl
  rw [hfold, Array.foldl_push_eq_append rfl, Array.toList_append, Array.toList_map,
    Array.toList_extract, List.extract_eq_take_drop, List.drop_take]

/-- Placing what stands before the cursor keeps a state sound. -/
theorem placeTrivia_sound (hs : Sound s) : Sound (placeTrivia s).2 := by
  have hrow := placeTrivia_row s
  have hpl : (placeTrivia s).2.placed = s.pos := Nat.max_eq_right hs.placed_le
  have htake : s.tokens.toList.take s.pos
      = s.tokens.toList.take s.placed ++ (s.tokens.toList.take s.pos).drop s.placed := by
    conv => lhs; rw [← List.take_append_drop s.placed (s.tokens.toList.take s.pos)]
    rw [List.take_take, Nat.min_eq_left hs.placed_le]
  have hold := tiles_placedStop hs.tiled (Nat.le_trans hs.placed_le hs.pos_le)
  have hnew := tiles_placedStop (s := (placeTrivia s).2) hs.tiled (by rw [hpl]; exact hs.pos_le)
  rw [hpl] at hnew
  refine ⟨by rw [hpl]; exact Nat.le_refl _, hs.pos_le, hs.no_fault, hs.patience_le, hs.tiled,
    ?_, ?_, ?_, ?_⟩
  · rw [hrow, hpl, Tree.tokensOfList_append, Tree.tokensOfList_token, hs.leaves]
    exact htake.symm
  · -- the new tokens tile from where the old ones end
    have htiles : Token.Tiles 0 (placedStop (placeTrivia s).2) (s.tokens.toList.take s.pos) := hnew.1
    rw [htake, Token.tiles_append] at htiles
    obtain ⟨m, h1, h2⟩ := htiles
    obtain rfl : m = placedStop s := h1.stop_unique hold.1
    rw [hrow, Tree.coversAll_append]
    exact ⟨placedStop s, hs.covered, Tree.coversAll_token.2 h2⟩
  · rw [hrow, Tree.goodAll_append]
    exact ⟨hs.good, Tree.goodAll_token _⟩
  · intro k m hm
    have hsize : s.row.size ≤ (placeTrivia s).2.row.size := by
      rw [← Array.length_toList, ← Array.length_toList, hrow, List.length_append]
      omega
    exact Nat.le_trans (hs.inside k m hm) hsize

theorem placeTrivia_spec (hs : Sound s) :
    After placeTrivia s fun _ s' => Run 0 0 s s' ∧ Still s s' ∧ s'.placed = s.pos ∧
      s'.pos = s.pos ∧ s'.patience = s.patience ∧
      grown s s' = ((s.tokens.toList.take s.pos).drop s.placed).map .token := by
  have hgrown := grown_of_append (placeTrivia_row s)
  refine ⟨⟨⟨⟨rfl, Nat.le_refl _, Nat.le_refl _, id, fun _ => .inl, fun _ => Nat.le_refl _,
    fun h => absurd h (Nat.lt_irrefl _)⟩, placeTrivia_sound hs, rfl, ⟨_, (placeTrivia_row s).symm⟩⟩, .inl ?_⟩, ⟨rfl, rfl, rfl⟩,
    Nat.max_eq_right hs.placed_le, rfl, rfl, hgrown⟩
  rw [hgrown, Tree.hollowsAll_token]

/-- A mark is the size of the row, with the trivia before it placed. -/
theorem mark_spec (hs : Sound s) :
    After mark s fun m s' => Run 0 0 s s' ∧ Still s s' ∧ Quiet (grown s s') ∧ m = s'.row.size := by
  unfold mark
  refine (skipTrivia_spec s).bind fun _ s1 h1 => ?_
  refine (placeTrivia_spec (h1.run hs).sound).bind ?_
  rintro _ s2 ⟨h2, hst, -, -, -, hgrown⟩
  have hr1 := h1.run hs
  refine After.get (After.pure ⟨hr1.trans h2, h1.still.trans hst, ?_, rfl⟩)
  refine hr1.toWalk.quiet_trans h2.toWalk h1.quiet ?_
  rw [hgrown]
  exact Tree.quiet_token _

/-- A failure is kept, or it is that of the limit that has been reached. -/
theorem or_limit {before : Option Failure} {limit : Failure} (h : isLimit limit = true) (e : Failure)
    (he : before.or (some limit) = some e) : before = some e ∨ isLimit e = true := by
  cases before with
  | none =>
    obtain rfl := Option.some.inj he
    exact .inr h
  | some f => exact .inl he

/-- What charging for a token may change. -/
theorem charge_spec (s : State) :
    After charge s fun _ s' => ∃ spent failure,
      s' = { s with spent, failure } ∧ (s.failure.isSome → failure.isSome) ∧
        ∀ e, failure = some e → s.failure = some e ∨ isLimit e = true := by
  unfold charge After
  rw [modify_apply]
  dsimp only
  split
  · exact ⟨s.spent, s.failure, rfl, id, fun _ => .inl⟩
  · split
    · exact ⟨s.spent + 1, s.failure, rfl, id, fun _ => .inl⟩
    · exact ⟨s.spent, _, rfl, fun h => by simp, or_limit rfl⟩

/-- Taking a token moves past it and leaves it in the row, unless the text has ended. -/
theorem bump_spec (hs : Sound s) :
    After bump s fun _ s' => Run 0 0 s s' ∧ (cursor s < s.tokens.size → Bare s s') ∧
      Quiet (grown s s') ∧ hollowsAll (grown s s') = 0 := by
  unfold bump
  refine (skipTrivia_spec s).bind fun _ s1 h1 => ?_
  have hrun := h1.run hs
  have hidle := h1.quiet
  have hhollow := h1.hollows_eq
  refine After.get ?_
  obtain ⟨m, hm, rfl⟩ := h1
  obtain rfl : m = 0 := by omega
  split
  · rename_i hlt
    refine After.modify ?_
    refine (charge_spec _).bind ?_
    rintro _ s2 ⟨spent, failure, rfl, hfail, hlimit⟩
    refine After.modify ?_
    -- the state just before the token is placed: the cursor has moved on, the row has not grown
    have hsound : Sound { s with
        pos := cursor s + 1, patience := fullPatience, spent := spent, failure := failure } :=
      ⟨Nat.le_trans hs.placed_le (Nat.le_trans (pos_le_cursor s) (Nat.le_succ _)), hlt, hs.no_fault,
        Nat.le_refl _, hs.tiled, hs.leaves, hs.covered, hs.good, hs.inside⟩
    refine (placeTrivia_spec hsound).mono ?_
    rintro _ s' ⟨h, hst, -, hpos, hpat, hgrown⟩
    have hlt' : cursor s < cursor s' := by
      rw [hst.cursor_eq]
      exact Nat.lt_of_lt_of_le (Nat.lt_succ_self _) (le_skipTriviaFrom _ _)
    have htokens : (s.tokens.toList.take (cursor s + 1)).drop s.placed ≠ [] := by
      have := Nat.le_trans hs.placed_le (pos_le_cursor s)
      have : cursor s < s.tokens.toList.length := by simpa using hlt
      simp only [ne_eq, List.drop_eq_nil_iff, List.length_take]
      omega
    have hgrown' : grown s s' = ((s.tokens.toList.take (cursor s + 1)).drop s.placed).map .token :=
      hgrown
    have hbare : Bare s s' := ⟨hlt', by rw [hgrown', Tree.bareAll_token]; exact htokens⟩
    have hpos' : s.pos ≤ s'.pos := by
      rw [hpos]
      exact Nat.le_trans (pos_le_cursor s) (Nat.le_succ _)
    refine ⟨⟨⟨⟨h.tokens_eq, hpos', Nat.le_of_lt hlt', ?_, ?_, ?_, ?_⟩, h.sound, h.opened_eq, h.row_le⟩, .inl ?_⟩,
      fun _ => hbare, hbare.quiet, ?_⟩
    · intro hf
      exact h.failure_some (hfail hf)
    · intro e he
      exact (h.failure_limit e he).elim (hlimit e) .inr
    · intro hc
      omega
    · intro _
      rw [hpat]
      exact Nat.le_refl _
    · rw [hgrown', Tree.hollowsAll_token]
    · rw [hgrown', Tree.hollowsAll_token]
  · rename_i hge
    exact After.pure ⟨hrun, fun hlt => absurd hlt hge, hidle, hhollow⟩

/-- What an attempt to take one token does, by its answer. -/
structure Takes (ok : Bool) (s s' : State) : Prop where
  taken : ok = true → Bare s s'
  passed : ok = false → Still s s' ∧ s'.row = s.row
  hollows_eq : hollowsAll (grown s s') = 0

theorem Takes.quiet {ok : Bool} (h : Takes ok s s') : Quiet (grown s s') := by
  cases ok with
  | true => exact (h.taken rfl).quiet
  | false => exact quiet_of_row_eq (h.passed rfl).2

/-- Taking a token after a look at it. -/
theorem bump_takes {n : Nat} {s1 : State} (hs : Sound s) (h1 : Looks n s s1)
    (hk : kindHere s ≠ error) :
    After bump s1 fun _ s' => Run n 0 s s' ∧ Takes true s s' := by
  have hr1 := h1.run hs
  refine (bump_spec hr1.sound).mono ?_
  rintro _ s2 ⟨h2, hbare, -, hhollow⟩
  have hb : Bare s1 s2 := hbare (cursor_lt_of_kind (by rw [h1.still.kind_eq]; exact hk))
  refine ⟨(hr1.trans h2).mono (Nat.le_refl _) (Nat.le_refl _),
    fun _ => hr1.toWalk.trans_bare hb h2.toWalk, fun h => (by cases h), ?_⟩
  rw [grown_trans hr1.row_le h2.row_le, Tree.hollowsAll_append, h1.hollows_eq, hhollow]

theorem Looks.takes {n : Nat} (h : Looks n s s') : Takes false s s' :=
  ⟨fun h => (by cases h), fun _ => ⟨h.still, h.row_eq⟩, h.hollows_eq⟩

/-- A token that is taken for its kind was there to be taken. -/
theorem eat_spec {k : Kind} (hk : k ≠ error) (hs : Ready 1 s) :
    After (eat k) s fun ok s' => Run 1 0 s s' ∧ Takes ok s s' ∧ (ok = true ↔ kindHere s = k) := by
  unfold eat
  refine (at_spec k hs).bind ?_
  rintro yes s1 ⟨h1, hyes⟩
  cases yes with
  | true =>
    have hkind := hyes.1 rfl
    refine (bump_takes hs.toSound h1 (by rw [hkind]; exact hk)).bind ?_
    rintro _ s2 ⟨h2, htake⟩
    exact After.pure ⟨h2, htake, hyes⟩
  | false => exact After.pure ⟨h1.run hs.toSound, h1.takes, hyes⟩

theorem eatWord_spec (word : String) (hs : Ready 1 s) :
    After (eatWord word) s fun ok s' => Run 1 0 s s' ∧ Takes ok s s' := by
  unfold eatWord
  refine (atWord_spec word hs).bind ?_
  rintro yes s1 ⟨h1, hyes⟩
  cases yes with
  | true =>
    refine (bump_takes hs.toSound h1 (by rw [hyes rfl]; decide)).bind ?_
    rintro _ s2 ⟨h2, htake⟩
    exact After.pure ⟨h2, htake⟩
  | false => exact After.pure ⟨h1.run hs.toSound, h1.takes⟩

end Placing

end DeclKit.Parser

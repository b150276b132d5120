/-
What limits do to a parse.

Every token that is no trivia is charged once, when it is passed, and the first one that the allowance
does not cover fails the parse. This is an account of the state that every composed step keeps. Of two
parses of one text of which the second has looser limits, the second does what the first does, as long
as the first has not failed: up to the limits and the account of them the two states are equal.

Steps that are free, that is, neither see the limits nor pass a word, are treated alike. What is left
are the steps that deal with limits: taking a token, nesting a type, and asking whether to go on.
-/
import DeclKit.Proofs.Limits.Statements
import DeclKit.Proofs.Parser.File
import DeclKit.Proofs.Trivia.Step

set_option autoImplicit false

namespace DeclKit

namespace Parser

/-! ## Free steps -/

/-- How many words, tokens that are no trivia, the cursor has passed. -/
def wordsPassed (s : State) : Nat := (s.tokens.toList.take s.pos).countP (!·.kind.isTrivia)

/-- A step that neither sees the limits nor passes a word. -/
structure Free {α : Type} (p : Parse α) : Prop where
  under : ∀ s limits spent failure,
    p (s.under limits spent failure) = ((p s).1, (p s).2.under limits spent failure)
  tokens_eq : ∀ s, (p s).2.tokens = s.tokens
  passed_eq : ∀ s, wordsPassed (p s).2 = wordsPassed s

section Free

variable {α β : Type} {p : Parse α}

/-- A free step leaves the limits and the account of them as they are. -/
theorem Free.eq_under (h : Free p) (s : State) :
    (p s).2 = (p s).2.under s.limits s.spent s.failure :=
  congrArg Prod.snd (h.under s s.limits s.spent s.failure)

theorem Free.limits_eq (h : Free p) (s : State) : (p s).2.limits = s.limits := by
  rw [h.eq_under s]
  rfl

theorem Free.spent_eq (h : Free p) (s : State) : (p s).2.spent = s.spent := by
  rw [h.eq_under s]
  rfl

theorem Free.failure_eq (h : Free p) (s : State) : (p s).2.failure = s.failure := by
  rw [h.eq_under s]
  rfl

theorem Free.bind {f : α → Parse β} (hp : Free p) (hf : ∀ x, Free (f x)) : Free (p >>= f) where
  under s limits spent failure := by
    change f (p (s.under limits spent failure)).1 (p (s.under limits spent failure)).2 = _
    rw [hp.under]
    exact (hf _).under _ limits spent failure
  tokens_eq s := ((hf _).tokens_eq _).trans (hp.tokens_eq s)
  passed_eq s := ((hf _).passed_eq _).trans (hp.passed_eq s)

theorem Free.read {f : State → Parse α} (hf : ∀ s, Free (f s))
    (hblind : ∀ s limits spent failure, f (s.under limits spent failure) = f s) :
    Free (MonadState.get >>= f) where
  under s limits spent failure := by
    change f (s.under limits spent failure) (s.under limits spent failure) = _
    rw [hblind]
    exact (hf s).under s limits spent failure
  tokens_eq s := (hf s).tokens_eq s
  passed_eq s := (hf s).passed_eq s

theorem Free.pure {x : α} : Free (Pure.pure x) := ⟨fun _ _ _ _ => rfl, fun _ => rfl, fun _ => rfl⟩

theorem Adjusts.free {g : State → State} (h : Adjusts g) : Free (modify g) where
  under s limits spent failure := congrArg (Prod.mk _) (h.under s limits spent failure)
  tokens_eq s := by
    obtain ⟨_, _, hg⟩ := h.only s
    rw [modify_apply, hg]
  passed_eq s := by
    obtain ⟨_, _, hg⟩ := h.only s
    rw [modify_apply, hg]
    rfl

/-- Trivia that are skipped are no words. -/
theorem countP_take_skipTriviaFrom (tokens : Array Token) (n pos : Nat) :
    (tokens.toList.take (skipTriviaFrom tokens n pos)).countP (!·.kind.isTrivia) =
      (tokens.toList.take pos).countP (!·.kind.isTrivia) := by
  fun_induction skipTriviaFrom tokens n pos with
  | case1 => rfl
  | case2 n pos t ht htrivia ih =>
    rw [ih, List.take_add_one, Array.getElem?_toList, ht]
    simp [htrivia]
  | case3 => rfl
  | case4 => rfl

theorem wordsPassed_cursor (s : State) : wordsPassed { s with pos := cursor s } = wordsPassed s :=
  countP_take_skipTriviaFrom _ _ _

theorem skipTrivia_free : Free skipTrivia := ⟨fun _ _ _ _ => rfl, fun _ => rfl, wordsPassed_cursor⟩

theorem placeTrivia_free : Free placeTrivia := ⟨fun _ _ _ _ => rfl, fun _ => rfl, fun _ => rfl⟩

theorem mark_free : Free mark := ⟨fun _ _ _ _ => rfl, fun _ => rfl, wordsPassed_cursor⟩

theorem openNode_free (k : Kind) : Free (openNode k) :=
  ⟨fun _ _ _ _ => rfl, fun _ => rfl, fun _ => rfl⟩

/-- The bytes at which a report is made: those of the current token, or the end of the text. -/
def spanHere (s : State) : Span :=
  match s.tokens[cursor s]? with
  | some t => ⟨s.source, t.start, t.stop⟩
  | none => ⟨s.source, s.textSize, s.textSize⟩

theorem currentSpan_eq (s : State) : currentSpan s = (spanHere s, { s with pos := cursor s }) := by
  unfold spanHere
  change (match s.tokens[cursor s]? with
    | some t => Pure.pure ⟨s.source, t.start, t.stop⟩
    | none => Pure.pure ⟨s.source, s.textSize, s.textSize⟩ : Parse Span) { s with pos := cursor s } = _
  cases s.tokens[cursor s]? <;> rfl

/-- A report at the place of the last one is dropped, and any other one is added. -/
theorem reportWith_cases (kind : DiagnosticKind) (args : List String) (s : State) :
    (s.lastReport = some (spanHere s).start ∧
      reportWith kind args s = (⟨⟩, { s with pos := cursor s })) ∨
    (s.lastReport ≠ some (spanHere s).start ∧
      reportWith kind args s = (⟨⟩, { s with
        pos := cursor s
        lastReport := some (spanHere s).start
        diagnostics := s.diagnostics.push (.detailed kind (some (spanHere s)) args) })) := by
  have hreport : reportWith kind args s = (⟨⟩, if s.lastReport == some (spanHere s).start then
      { s with pos := cursor s }
    else { s with
      pos := cursor s
      lastReport := some (spanHere s).start
      diagnostics := s.diagnostics.push (.detailed kind (some (spanHere s)) args) }) := by
    have hbind {β : Type} (f : Span → Parse β) :
        (currentSpan >>= f) s = f (spanHere s) { s with pos := cursor s } := by
      change f (currentSpan s).1 (currentSpan s).2 = _
      rw [currentSpan_eq]
    rw [reportWith, hbind, modify_apply]
  rw [hreport]
  split
  · rename_i hlast
    exact .inl ⟨beq_iff_eq.1 hlast, rfl⟩
  · rename_i hlast
    exact .inr ⟨fun h => hlast (beq_iff_eq.2 h), rfl⟩

theorem reportWith_free (kind : DiagnosticKind) (args : List String) : Free (reportWith kind args) := by
  have hspan : Free currentSpan :=
    ⟨fun s _ _ _ => by rw [currentSpan_eq, currentSpan_eq]; rfl, fun s => by rw [currentSpan_eq],
      fun s => by rw [currentSpan_eq]; exact wordsPassed_cursor s⟩
  -- what is reported, and whether it is, does not depend on the limits
  refine hspan.bind fun span => ⟨fun s _ _ _ => ?_, fun s => ?_, fun s => ?_⟩
  · simp only [modify_apply, State.under]
    split <;> rfl
  all_goals
    simp only [modify_apply]
    split <;> rfl

theorem raise_free (f : Fault) : Free (raise f) :=
  ⟨fun _ _ _ _ => rfl, fun _ => rfl, fun _ => rfl⟩

theorem inExtends_free (allowed : Bool) :
    Free (modify fun s => { s with inExtends := allowed }) :=
  ⟨fun _ _ _ _ => rfl, fun _ => rfl, fun _ => rfl⟩

theorem openAt_free (m : Nat) (k : Kind) : Free (openAt m k) := by
  have hopen : Free (do
      modify (State.opening k m)
      return (← get).opened.length : Parse Nat) :=
    ⟨fun _ _ _ _ => rfl, fun _ => rfl, fun _ => rfl⟩
  refine Free.read (fun s => ?_) fun _ _ _ _ => rfl
  dsimp only
  split
  · exact (raise_free .staleMark).bind fun _ => hopen
  · exact hopen

theorem closed_under (s : State) (limits : Limits) (spent : Nat) (failure : Option Failure) :
    (s.under limits spent failure).closed = s.closed.under limits spent failure := by
  cases h : s.opened with
  | nil => simp only [State.closed, State.under, h]
  | cons o outer =>
    simp only [State.closed, State.under, h]
    rfl

theorem closed_free : Free (modify State.closed) where
  under s limits spent failure := congrArg (Prod.mk _) (closed_under s limits spent failure)
  tokens_eq s := by
    change s.closed.tokens = s.tokens
    unfold State.closed
    split <;> rfl
  passed_eq s := by
    change wordsPassed s.closed = wordsPassed s
    unfold State.closed
    split <;> rfl

theorem closeNode_free (count : Nat) : Free (closeNode count) := by
  refine Free.read (fun s => ?_) fun _ _ _ _ => rfl
  dsimp only
  split
  · exact (raise_free .unbalanced).bind fun _ => closed_free
  · exact closed_free

end Free

/-! ## Nesting -/

/-- A nested type, once the limit on nesting has let it in. -/
def deeper (type : Parse Bool) : Parse Bool := do
  modify fun s => { s with depth := s.depth + 1, patience := fullPatience }
  let parsed ← typeHere type
  leave
  return parsed

/-- A nested type is refused, which fails the parse, or read one level deeper. -/
theorem typeWith_cases (type : Parse Bool) (s : State) :
    (∃ l, s.limits.nesting = some l ∧ l ≤ s.depth ∧
      typeWith type s = (false, { s with failure := s.failure.or (some .tooDeep) })) ∨
    ((∀ l, s.limits.nesting = some l → s.depth < l) ∧ typeWith type s = deeper type s) := by
  have henter : enter s = if s.limits.nesting.any (· ≤ s.depth) then
      (false, { s with failure := s.failure.or (some .tooDeep) })
    else (true, { s with depth := s.depth + 1, patience := fullPatience }) := by
    unfold enter
    change (if s.limits.nesting.any (· ≤ s.depth) then _ else _ : Parse Bool) s = _
    split <;> rfl
  have htype : typeWith type s = (if !(enter s).1 then return false else do
      let parsed ← typeHere type
      leave
      return parsed : Parse Bool) (enter s).2 := rfl
  rw [htype, henter]
  split
  · rename_i hany
    obtain ⟨l, hl, hle⟩ := (Option.any_eq_true _ _).1 hany
    exact .inl ⟨l, hl, of_decide_eq_true hle, rfl⟩
  · rename_i hany
    refine .inr ⟨fun l hl => ?_, rfl⟩
    rw [hl] at hany
    simpa using hany

/-! ## Composed steps, with free steps taken together -/

/-- What holds of free steps, of the steps that deal with limits, and of all that is put together from
steps of which it holds, holds of composed steps. -/
theorem Composed.of_free {P : {α : Type} → Parse α → Prop}
    (free : ∀ {α : Type} {p : Parse α}, Free p → P p)
    (bind : ∀ {α β : Type} {p : Parse α} {f : α → Parse β}, P p → (∀ s, P (f (p s).1)) →
      P (p >>= f))
    (read : ∀ {α : Type} {f : State → Parse α}, (∀ s, P (f s)) →
      (∀ s limits spent failure, f (s.under limits spent failure) = f s) →
      P (MonadState.get >>= f))
    (atEnd : P Parser.atEnd) (bump : P Parser.bump)
    (nested : ∀ {type : Parse Bool}, P (deeper type) → P (typeWith type))
    {α : Type} {allowed : Bool} {m a c : Nat} {p : Parse α} (h : Composed allowed m a c p) :
    P p := by
  induction h with
  | pure => exact free .pure
  | step _ _ hp hf => exact bind hp hf
  | weaken _ _ _ hp => exact hp
  | read _ hblind hf => exact read hf hblind
  | adjust hg => exact free hg.free
  | report => exact free (reportWith_free _ _)
  | skipTrivia => exact free skipTrivia_free
  | placeTrivia => exact free placeTrivia_free
  | atEnd => exact atEnd
  | bump => exact bump
  | within _ _ _ _ hp =>
    -- a node is opened and closed in free steps, whatever comes between
    refine bind (free (openNode_free _)) fun _ => bind (hp 0) fun _ => ?_
    exact bind (free (closeNode_free _)) fun _ => free .pure
  | marked _ _ hf => exact bind (free mark_free) fun _ => hf _
  | withinFrom _ _ _ hp =>
    refine bind (free (openAt_free _ _)) fun _ => bind hp fun _ => ?_
    exact bind (free (closeNode_free _)) fun _ => free .pure
  | nested _ hp =>
    have henter : Free (modify fun s => { s with depth := s.depth + 1, patience := fullPatience }) :=
      ⟨fun _ _ _ _ => rfl, fun _ => rfl, fun _ => rfl⟩
    have hleave : Free leave := ⟨fun _ _ _ _ => rfl, fun _ => rfl, fun _ => rfl⟩
    refine nested (bind (free henter) fun _ => bind (hp 0) fun parsed => ?_)
    exact bind (free hleave) fun _ => free .pure
  | lift _ hp => exact hp
  | allowing _ hp =>
    refine read (fun s => ?_) fun _ _ _ _ => rfl
    refine bind (free (inExtends_free false)) fun _ => bind hp fun _ => ?_
    exact bind (free (inExtends_free _)) fun _ => free .pure
  | choice _ _ hp hq =>
    refine read (fun s => ?_) fun _ _ _ _ => rfl
    split
    · exact hp
    · exact hq
  | forbidding _ _ hp hq =>
    refine bind (free (inExtends_free true)) fun _ => bind hp fun _ => ?_
    exact bind (free (inExtends_free false)) fun _ => hq

/-! ## Taking a token -/

/-- What is left of the allowance after a token has been charged to it, and whether that fails. -/
inductive Charged (s : State) : Nat → Option Failure → Prop where
  | unlimited : s.limits.tokens = none → Charged s s.spent s.failure
  | paid {n : Nat} : s.limits.tokens = some n → s.spent < n → Charged s (s.spent + 1) s.failure
  | refused {n : Nat} : s.limits.tokens = some n → n ≤ s.spent →
      Charged s s.spent (s.failure.or (some .outOfTokens))

/-- The state with the current token placed and passed. -/
def forward (s : State) : State :=
  (placeTrivia { s with pos := cursor s + 1, patience := fullPatience }).2

theorem charge_cases (s : State) : ∃ spent failure, Charged s spent failure ∧
    (charge s).2 = s.under s.limits spent failure := by
  cases hn : s.limits.tokens with
  | none =>
    have hcharge : (charge s).2 = s := by
      unfold charge
      simp only [modify_apply, hn]
    exact ⟨s.spent, s.failure, .unlimited hn, hcharge⟩
  | some n =>
    have hcharge : (charge s).2 = if s.spent < n then { s with spent := s.spent + 1 }
        else { s with failure := s.failure.or (some .outOfTokens) } := by
      unfold charge
      simp only [modify_apply, hn]
    rw [hcharge]
    split
    · rename_i hlt
      exact ⟨_, _, .paid hn hlt, rfl⟩
    · rename_i hge
      exact ⟨_, _, .refused hn (Nat.le_of_not_lt hge), rfl⟩

/-- Taking a token does nothing but skip trivia at the end, and otherwise passes one token, which is
charged. -/
theorem bump_cases (s : State) :
    (s.tokens.size ≤ cursor s ∧ bump s = skipTrivia s) ∨
    (cursor s < s.tokens.size ∧ ∃ spent failure, Charged s spent failure ∧
      bump s = (⟨⟩, (forward s).under s.limits spent failure)) := by
  have hbump : bump s = (⟨⟩, if cursor s < s.tokens.size then
      let s' := (charge { s with pos := cursor s, patience := fullPatience }).2
      (placeTrivia { s' with pos := s'.pos + 1 }).2
    else { s with pos := cursor s }) := by
    unfold bump
    change (if cursor s < s.tokens.size then _ else _ : Parse Unit) { s with pos := cursor s } = _
    split <;> rfl
  rw [hbump]
  split
  · rename_i hlt
    obtain ⟨spent, failure, hcharged, heq⟩ :=
      charge_cases { s with pos := cursor s, patience := fullPatience }
    refine .inr ⟨hlt, spent, failure, ?_, ?_⟩
    · cases hcharged with
      | unlimited hn => exact .unlimited hn
      | paid hn hlt => exact .paid hn hlt
      | refused hn hle => exact .refused hn hle
    · dsimp only
      rw [heq]
      rfl
  · rename_i hge
    exact .inl ⟨Nat.le_of_not_lt hge, rfl⟩

/-- At a token that is no trivia, one more word is passed. -/
theorem wordsPassed_forward {s : State} (h : cursor s < s.tokens.size) :
    wordsPassed (forward s) = wordsPassed s + 1 := by
  have hat : s.tokens[cursor s]? = some s.tokens[cursor s] := Array.getElem?_eq_getElem h
  change (s.tokens.toList.take (cursor s + 1)).countP (!·.kind.isTrivia) = _
  rw [List.take_add_one, Array.getElem?_toList, hat, List.countP_append, ← wordsPassed_cursor s]
  simp [wordsPassed, not_isTrivia_at_cursor hat]

/-! ## Failures stay -/

/-- The tokens and the limits stay as they are, and a failure stays. -/
structure Onward (s s' : State) : Prop where
  tokens_eq : s'.tokens = s.tokens
  limits_eq : s'.limits = s.limits
  failure_none : s'.failure = none → s.failure = none

theorem Onward.trans {s s' s'' : State} (h : Onward s s') (h' : Onward s' s'') : Onward s s'' :=
  ⟨h'.tokens_eq.trans h.tokens_eq, h'.limits_eq.trans h.limits_eq,
    fun hnone => h.failure_none (h'.failure_none hnone)⟩

theorem Free.onward {α : Type} {p : Parse α} (h : Free p) (s : State) : Onward s (p s).2 :=
  ⟨h.tokens_eq s, h.limits_eq s, fun hnone => h.failure_eq s ▸ hnone⟩

theorem Charged.failure_none {s : State} {spent : Nat} {failure : Option Failure}
    (h : Charged s spent failure) (hnone : failure = none) : s.failure = none := by
  cases h with
  | unlimited => exact hnone
  | paid => exact hnone
  | refused => exact (Option.or_eq_none_iff.1 hnone).1

theorem bump_onward (s : State) : Onward s (bump s).2 := by
  obtain ⟨-, h⟩ | ⟨-, spent, failure, hcharged, h⟩ := bump_cases s
  · rw [h]
    exact skipTrivia_free.onward s
  · rw [h]
    exact ⟨rfl, rfl, hcharged.failure_none⟩

/-! ## The account of words -/

/-- The limit that a failure names has been reached. -/
def Reached (s : State) : Failure → Prop
  | .outOfTokens => ∃ n, s.limits.tokens = some n ∧ n < wordsPassed s
  | .tooDeep => s.limits.nesting.isSome
  | .cannotWrite _ => False

/-- What has been charged is the words that have been passed, as far as the allowance goes; to pass more
words than that is a failure; and a failure names a limit that has been reached. -/
structure Accounted (s : State) : Prop where
  spent_eq : s.spent = (s.limits.tokens.map (min (wordsPassed s))).getD 0
  failed : ∀ n, s.limits.tokens = some n → n < wordsPassed s → s.failure.isSome
  reached : ∀ e, s.failure = some e → Reached s e

theorem Reached.mono {s s' : State} {e : Failure} (h : Reached s e) (hlimits : s'.limits = s.limits)
    (hwords : wordsPassed s ≤ wordsPassed s') : Reached s' e := by
  cases e with
  | outOfTokens =>
    obtain ⟨n, hn, hlt⟩ := h
    exact ⟨n, hlimits ▸ hn, Nat.lt_of_lt_of_le hlt hwords⟩
  | tooDeep =>
    change s'.limits.nesting.isSome = true
    rw [hlimits]
    exact h
  | cannotWrite => exact h

theorem Accounted.free {α : Type} {p : Parse α} {s : State} (h : Accounted s) (hp : Free p) :
    Accounted (p s).2 where
  spent_eq := by
    rw [hp.spent_eq, hp.limits_eq, hp.passed_eq]
    exact h.spent_eq
  failed := by
    rw [hp.limits_eq, hp.failure_eq, hp.passed_eq]
    exact h.failed
  reached e he :=
    (h.reached e (hp.failure_eq s ▸ he)).mono (hp.limits_eq s) (Nat.le_of_eq (hp.passed_eq s).symm)

theorem Accounted.atEnd {s : State} (h : Accounted s) : Accounted (atEnd s).2 :=
  show Accounted (skipTrivia s).2 from h.free skipTrivia_free

/-- A word is charged when it is passed. -/
theorem Accounted.bump {s : State} (h : Accounted s) : Accounted (bump s).2 := by
  obtain ⟨-, heq⟩ | ⟨hlt, spent, failure, hcharged, heq⟩ := bump_cases s
  · rw [heq]
    exact h.free skipTrivia_free
  rw [heq]
  change Accounted ((forward s).under s.limits spent failure)
  have hwords : wordsPassed ((forward s).under s.limits spent failure) = wordsPassed s + 1 :=
    wordsPassed_forward hlt
  have hspent := h.spent_eq
  have hold (e : Failure) (he : s.failure = some e) :
      Reached ((forward s).under s.limits spent failure) e :=
    (h.reached e he).mono rfl (by omega)
  -- only a token that is paid for moves the account, and only a refused one is a failure
  cases hcharged with
  | unlimited hn =>
    rw [hn] at hspent
    refine ⟨?_, fun n hn' => ?_, hold⟩
    · exact hspent.trans (by simp [State.under, hn])
    · exact absurd (hn.symm.trans hn') (Option.some_ne_none n).symm
  | @paid n hn hlt =>
    simp only [hn, Option.map_some, Option.getD_some] at hspent
    refine ⟨?_, fun n' hn' hlt' => ?_, hold⟩
    · rw [hwords]
      simp only [State.under, hn, Option.map_some, Option.getD_some]
      omega
    · obtain rfl : n = n' := Option.some.inj (hn.symm.trans hn')
      omega
  | @refused n hn hle =>
    simp only [hn, Option.map_some, Option.getD_some] at hspent
    refine ⟨?_, fun n' _ _ => ?_, fun e he => ?_⟩
    · rw [hwords]
      simp only [State.under, hn, Option.map_some, Option.getD_some]
      omega
    · exact (Option.isSome_or ..).trans (Bool.or_true _)
    · rcases Option.or_eq_some_iff.1 he with he | ⟨-, he⟩
      · exact hold e he
      · rw [← Option.some.inj he]
        exact ⟨n, hn, by omega⟩

theorem Composed.accounted {α : Type} {allowed : Bool} {m a c : Nat} {p : Parse α}
    (h : Composed allowed m a c p) {s : State} (hs : Accounted s) : Accounted (p s).2 := by
  refine Composed.of_free (P := fun p => ∀ s, Accounted s → Accounted (p s).2)
    (fun hp s hs => hs.free hp) ?_ ?_ ?_ (fun s hs => hs.bump) ?_ h s hs
  · exact fun hp hf s hs => hf s _ (hp s hs)
  · exact fun hf _ s hs => hf s s hs
  · exact fun s hs => hs.atEnd
  · intro type hdeeper s hs
    obtain ⟨l, hl, -, h⟩ | ⟨-, h⟩ := typeWith_cases type s
    · rw [h]
      refine ⟨hs.spent_eq, fun _ _ _ => (Option.isSome_or ..).trans (Bool.or_true _), fun e he => ?_⟩
      rcases Option.or_eq_some_iff.1 he with he | ⟨-, he⟩
      · exact (hs.reached e he).mono rfl (Nat.le_refl _)
      · rw [← Option.some.inj he]
        exact Option.isSome_iff_exists.2 ⟨l, hl⟩
    · rw [h]
      exact hdeeper s hs

/-! ## Looser limits -/

/-- The second limits allow whatever the first allow. -/
structure Loosened (l l' : Limits) : Prop where
  tokens : ∀ n', l'.tokens = some n' → ∃ n, l.tokens = some n ∧ n ≤ n'
  nesting : ∀ n', l'.nesting = some n' → ∃ n, l.nesting = some n ∧ n ≤ n'

/-- The second state has looser limits, of which as much has been used, and has not failed; otherwise
the two are the same. -/
inductive Freer (s : State) : State → Prop where
  | under {limits : Limits} {spent : Nat} : Loosened s.limits limits →
      (limits.tokens.isSome → spent = s.spent) → Freer s (s.under limits spent none)

/-- A step fails where it has failed before; and where it does not fail, it does and answers the same
under looser limits. -/
structure Bears {α : Type} (p : Parse α) : Prop where
  onward : ∀ s, Onward s (p s).2
  agrees : ∀ {s s'}, Freer s s' → (p s).2.failure = none →
    (p s').1 = (p s).1 ∧ Freer (p s).2 (p s').2

theorem Free.bears {α : Type} {p : Parse α} (hp : Free p) : Bears p where
  onward := hp.onward
  agrees {s s'} h _ := by
    cases h with
    | under hloose hspent =>
      rw [hp.under]
      rw [← hp.limits_eq s] at hloose
      rw [← hp.spent_eq s] at hspent
      exact ⟨rfl, .under hloose hspent⟩

theorem Bears.bind {α β : Type} {p : Parse α} {f : α → Parse β} (hp : Bears p)
    (hf : ∀ s, Bears (f (p s).1)) : Bears (p >>= f) where
  onward s := (hp.onward s).trans ((hf s).onward _)
  agrees {s s'} h hnone := by
    -- had the first step failed, so would have both
    have hmiddle : (p s).2.failure = none := ((hf s).onward _).failure_none hnone
    obtain ⟨hanswer, hstate⟩ := hp.agrees h hmiddle
    change (f (p s').1 (p s').2).1 = _ ∧ Freer _ (f (p s').1 (p s').2).2
    rw [hanswer]
    exact (hf s).agrees hstate hnone

theorem Bears.read {α : Type} {f : State → Parse α} (hf : ∀ s, Bears (f s))
    (hblind : ∀ s limits spent failure, f (s.under limits spent failure) = f s) :
    Bears (MonadState.get >>= f) where
  onward s := (hf s).onward s
  agrees {s s'} h hnone := by
    have hsame : f s' = f s := by
      cases h with
      | under => exact hblind s _ _ _
    change (f s' s').1 = _ ∧ Freer _ (f s' s').2
    rw [hsame]
    exact (hf s).agrees h hnone

/-- As long as nothing has failed, whether the end has been reached does not depend on the limits. -/
theorem atEnd_bears : Bears atEnd where
  onward := skipTrivia_free.onward
  agrees {s s'} h hnone := by
    refine ⟨?_, (skipTrivia_free.bears.agrees h hnone).2⟩
    have hnone' : s.failure = none := hnone
    cases h with
    | under =>
      change (_ || (none : Option Failure).isSome) = (_ || s.failure.isSome)
      rw [hnone']
      rfl

/-- A token that is paid for is paid for under looser limits too. -/
theorem Charged.looser {s : State} {limits : Limits} {spent spent₁ spent₂ : Nat}
    {failure₁ failure₂ : Option Failure} (h : Charged s spent₁ failure₁) (hnone : failure₁ = none)
    (hloose : Loosened s.limits limits) (hspent : limits.tokens.isSome → spent = s.spent)
    (h' : Charged (s.under limits spent none) spent₂ failure₂) :
    failure₂ = none ∧ (limits.tokens.isSome → spent₂ = spent₁) := by
  -- under looser limits there is an allowance only where there was one
  have hpaid (n' : Nat) (hn' : limits.tokens = some n') :
      s.spent < n' ∧ spent₁ = s.spent + 1 := by
    obtain ⟨n, hn, hle⟩ := hloose.tokens n' hn'
    cases h with
    | unlimited hno => exact absurd (hno.symm.trans hn) (Option.some_ne_none n).symm
    | paid hn₁ hlt =>
      obtain rfl := Option.some.inj (hn₁.symm.trans hn)
      exact ⟨Nat.lt_of_lt_of_le hlt hle, rfl⟩
    | refused => exact absurd (Option.or_eq_none_iff.1 hnone).2 (Option.some_ne_none _)
  cases h' with
  | unlimited hn' =>
    refine ⟨rfl, fun hsome => ?_⟩
    rw [show limits.tokens = none from hn'] at hsome
    cases hsome
  | @paid n' hn' _ =>
    refine ⟨rfl, fun hsome => ?_⟩
    rw [(hpaid n' hn').2, ← hspent hsome]
    rfl
  | @refused n' hn' hle =>
    have hlt := (hpaid n' hn').1
    have hsame : spent = s.spent := hspent (Option.isSome_iff_exists.2 ⟨n', hn'⟩)
    have hle' : n' ≤ spent := hle
    omega

theorem bump_bears : Bears bump where
  onward := bump_onward
  agrees {s s'} h hnone := by
    -- the tokens and the place are the same, so both states are at the end or both before it
    obtain ⟨hge, heq⟩ | ⟨hlt, spent, failure, hcharged, heq⟩ := bump_cases s <;>
      obtain ⟨hge', heq'⟩ | ⟨hlt', spent', failure', hcharged', heq'⟩ := bump_cases s'
    · rw [heq] at hnone ⊢
      rw [heq']
      exact skipTrivia_free.bears.agrees h hnone
    · cases h with
      | under => exact absurd hge (Nat.not_le_of_lt hlt')
    · cases h with
      | under => exact absurd hge' (Nat.not_le_of_lt hlt)
    · rw [heq] at hnone
      rw [heq, heq']
      cases h with
      | under hloose hspent =>
        obtain ⟨rfl, hsame⟩ := hcharged.looser hnone hloose hspent hcharged'
        exact ⟨rfl, .under hloose hsame⟩

/-- A type that is let in is let in under looser limits too. -/
theorem typeWith_bears {type : Parse Bool} (hdeeper : Bears (deeper type)) :
    Bears (typeWith type) where
  onward s := by
    obtain ⟨l, -, -, heq⟩ | ⟨-, heq⟩ := typeWith_cases type s
    · rw [heq]
      exact ⟨rfl, rfl, fun hnone => (Option.or_eq_none_iff.1 hnone).1⟩
    · rw [heq]
      exact hdeeper.onward s
  agrees {s s'} h hnone := by
    obtain ⟨l, -, -, heq⟩ | ⟨hlet, heq⟩ := typeWith_cases type s
    · rw [heq] at hnone
      exact absurd (Option.or_eq_none_iff.1 hnone).2 (Option.some_ne_none _)
    obtain ⟨l', hl', hle, -⟩ | ⟨-, heq'⟩ := typeWith_cases type s'
    · -- a bound that refuses the type would have refused it under the tighter limits too
      cases h with
      | under hloose _ =>
        obtain ⟨l, hl, hll⟩ := hloose.nesting l' hl'
        exact absurd (Nat.le_trans hll hle) (Nat.not_le_of_lt (hlet l hl))
    · rw [heq] at hnone ⊢
      rw [heq']
      exact hdeeper.agrees h hnone

theorem Composed.bears {α : Type} {allowed : Bool} {m a c : Nat} {p : Parse α}
    (h : Composed allowed m a c p) : Bears p :=
  h.of_free (fun hp => hp.bears) (fun hp hf => hp.bind hf) (fun hf hblind => .read hf hblind)
    atEnd_bears bump_bears typeWith_bears

/-! ## Whole files -/

section File

variable (source : SourceId) (limits : Limits) (text : String)

theorem file_composed : Composed false 0 0 7 file := (file_stacks (Nat.le_refl 7) 0).from_zero

theorem start_accounted : Accounted (State.start source limits text) where
  spent_eq := by
    change 0 = (limits.tokens.map (min 0)).getD 0
    cases limits.tokens with
    | none => rfl
    | some n => exact (Nat.zero_min n).symm
  failed _ _ h := absurd h (Nat.not_lt_zero _)
  reached _ h := absurd h.symm (Option.some_ne_none _)

theorem afterFile_accounted : Accounted (State.afterFile source limits text) :=
  file_composed.accounted (start_accounted source limits text)

/-- How many words a text has: tokens that are no trivia. -/
def wordCount (text : String) : Nat := (Token.lex text).countP (!·.kind.isTrivia)

/-- No more words are passed than there are, and all of them unless the parse fails. -/
theorem wordsPassed_afterFile :
    let s := State.afterFile source limits text
    wordsPassed s ≤ wordCount text ∧ (s.failure = none → wordsPassed s = wordCount text) := by
  obtain ⟨hrun, -, hall, -⟩ := afterFile_spec source limits text
  have htokens : (State.afterFile source limits text).tokens.toList = Token.lex text := by
    rw [hrun.tokens_eq, State.start, List.toList_toArray]
  refine ⟨?_, fun hnone => ?_⟩
  · rw [wordsPassed, htokens]
    exact (List.take_sublist _ _).countP_le
  · have hpos : (State.afterFile source limits text).pos =
        (State.afterFile source limits text).tokens.size :=
      Nat.le_antisymm hrun.sound.pos_le (hall hnone ▸ hrun.sound.placed_le)
    rw [wordsPassed, hpos, ← Array.length_toList, List.take_length, htokens, wordCount]

theorem Freer.result_eq {s s' : State} (h : Freer s s') (hnone : s.failure = none) :
    s'.result = s.result := by
  cases h with
  | under =>
    rw [State.result, State.result, hnone]
    rfl

/-- A parse that does not fail has the same result under looser limits. -/
theorem parseWith_of_loosened {limits' : Limits} (hloose : Loosened limits limits')
    {f : ParsedFile} (h : parseWith source limits text = .ok f) :
    parseWith source limits' text = .ok f := by
  have hnone : (State.afterFile source limits text).failure = none := by
    rw [parseWith, State.result] at h
    split at h
    · cases h
    · assumption
  have hstart : Freer (State.start source limits text) (State.start source limits' text) :=
    Freer.under (s := State.start source limits text) hloose fun _ => rfl
  exact ((file_composed.bears.agrees hstart hnone).2.result_eq hnone).trans h

end File

end Parser

open DeclKit.Parser

variable (source : SourceId) (text : String)

/-- A parse fails only where a failure is left behind. -/
theorem parseWith_eq_error_iff (limits : Limits) (e : Failure) :
    parseWith source limits text = .error e ↔
      (State.afterFile source limits text).failure = some e := by
  rw [parseWith, State.result]
  split
  · rename_i e' h
    rw [h, Option.some.injEq, Except.error.injEq]
  · rename_i h
    simp [h]

theorem parseWith_ok_of_failure_none (limits : Limits)
    (h : (State.afterFile source limits text).failure = none) :
    ∃ f, parseWith source limits text = .ok f := by
  rw [parseWith, State.result, h]
  exact ⟨_, rfl⟩

/-- With an allowance and no bound on nesting a parse succeeds if the allowance covers the words of the
text, and otherwise runs out of tokens; the words are charged as far as it goes. -/
theorem parseWith_allowance (n : Nat) :
    (State.afterFile source { tokens := some n } text).spent = min n (wordCount text) ∧
      (wordCount text ≤ n → ∃ f, parseWith source { tokens := some n } text = .ok f) ∧
      (n < wordCount text → parseWith source { tokens := some n } text = .error .outOfTokens) := by
  have haccount := afterFile_accounted source { tokens := some n } text
  obtain ⟨hle, hall⟩ := wordsPassed_afterFile source { tokens := some n } text
  have hlimits : (State.afterFile source { tokens := some n } text).limits = { tokens := some n } :=
    (file_composed.bears.onward _).limits_eq
  have hok := parseWith_ok_of_failure_none source text { tokens := some n }
  have herror := parseWith_eq_error_iff source text { tokens := some n }
  generalize State.afterFile source { tokens := some n } text = s at *
  -- without a bound on nesting the allowance is the only limit that can be reached
  have hfailure (e : Failure) (he : s.failure = some e) :
      e = .outOfTokens ∧ n < wordsPassed s := by
    have hreached := haccount.reached e he
    cases e with
    | outOfTokens =>
      obtain ⟨n', hn', hlt⟩ := hreached
      rw [hlimits] at hn'
      exact ⟨rfl, Option.some.inj hn' ▸ hlt⟩
    | tooDeep =>
      rw [Reached, hlimits] at hreached
      cases hreached
    | cannotWrite => exact hreached.elim
  have hspent : s.spent = min (wordsPassed s) n := by
    rw [haccount.spent_eq, hlimits]
    rfl
  cases hf : s.failure with
  | none =>
    have hwords := hall hf
    -- all words have been passed, so the allowance has covered them
    have hcovered : ¬ n < wordsPassed s := fun hlt => by
      have hsome := haccount.failed n (by rw [hlimits]) hlt
      rw [hf] at hsome
      cases hsome
    exact ⟨by omega, fun _ => hok hf, fun hlt => by omega⟩
  | some e =>
    obtain ⟨rfl, hlt⟩ := hfailure e hf
    exact ⟨by omega, fun hle' => by omega, fun _ => (herror _).2 hf⟩

/-- A parse with a bound on nesting only fails where types nest more deeply. -/
theorem parseWith_nesting {l : Nat} {e : Failure}
    (h : parseWith source { nesting := some l } text = .error e) : e = .tooDeep := by
  have hreached := (afterFile_accounted source { nesting := some l } text).reached e
    ((parseWith_eq_error_iff source text _ e).1 h)
  have hlimits : (State.afterFile source { nesting := some l } text).limits =
      { nesting := some l } := (file_composed.bears.onward _).limits_eq
  cases e with
  | outOfTokens =>
    obtain ⟨n, hn, -⟩ := hreached
    rw [hlimits] at hn
    cases hn
  | tooDeep => rfl
  | cannotWrite => exact hreached.elim

/-- Limits are exact, and they change no result. A parse that is allowed `n` tokens is charged the words
of the text, as far as the allowance goes. It succeeds exactly if it may take them all, and then gives
what it gives without limits; otherwise it runs out of tokens. A parse with a bound on nesting that
succeeds gives the same with any larger bound and without one, and one that fails is too deep. -/
theorem limits_exact :
    (∀ n, (State.afterFile source { tokens := some n } text).spent = min n (wordCount text) ∧
      (wordCount text ≤ n → ∃ f, parseWith source { tokens := some n } text = .ok f ∧
        parseWith source {} text = .ok f) ∧
      (n < wordCount text → parseWith source { tokens := some n } text = .error .outOfTokens)) ∧
    (∀ l, (∀ f, parseWith source { nesting := some l } text = .ok f →
        (∀ l', l ≤ l' → parseWith source { nesting := some l' } text = .ok f) ∧
          parseWith source {} text = .ok f) ∧
      ∀ e, parseWith source { nesting := some l } text = .error e → e = .tooDeep) := by
  have hfree (limits : Limits) : Loosened limits {} :=
    ⟨fun n h => absurd h.symm (Option.some_ne_none n), fun n h => absurd h.symm (Option.some_ne_none n)⟩
  refine ⟨fun n => ?_, fun l => ⟨fun f hf => ⟨fun l' hll => ?_, ?_⟩, fun e he => ?_⟩⟩
  · obtain ⟨hspent, hok, herror⟩ := parseWith_allowance source text n
    refine ⟨hspent, fun hle => ?_, herror⟩
    obtain ⟨f, hf⟩ := hok hle
    exact ⟨f, hf, parseWith_of_loosened source _ text (hfree _) hf⟩
  · refine parseWith_of_loosened source _ text ⟨fun n h => ?_, fun n' hn' => ?_⟩ hf
    · exact absurd h.symm (Option.some_ne_none n)
    obtain rfl := Option.some.inj hn'
    exact ⟨l, rfl, hll⟩
  · exact parseWith_of_loosened source _ text (hfree _) hf
  · exact parseWith_nesting source text he

end DeclKit

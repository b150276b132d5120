/-
Where nodes start.

Blanks and comments that wait are placed before the next node opens, so that they do not count as parts
of it. They wait only once the cursor has been moved past them, which every look at the current token
does. A production that opens a node right behind a token it has taken, without a look in between, puts
the trivia there into that node. `lags` says of which nodes this can happen.

What a step adds to the row is followed from a base state on. A step is told by where it may start and
where it ends: anywhere, or at a token that is no trivia. A node that is opened at such a token starts
with it; one that is opened anywhere may start with trivia, which has to be allowed.
-/
import DeclKit.Proofs.Parser.Run

set_option autoImplicit false

namespace DeclKit

/-- A node of a kind may start with the trivia before it, by the kind of the node around it. -/
def Parser.lags (parent k : Kind) : Bool :=
  match parent with
  | .functionType | .constructorType => k == .paramList || k == .returnType
  | .callSig | .constructSig | .methodSig | .functionDecl => k == .paramList
  | .typePredicate | .namedTupleMember | .mappedTypeParam => k == .name
  | .inferType => k == .typeParam
  | .typeQuery | .typeRef => k == .entityName
  | .templateLiteralType => k == .templateSpan
  | .mappedType => k == .mappedTypeParam
  | .heritageClause => k == .typeRef
  | .importDecl => k == .importClause
  | .variableStatement => k == .variableDecl
  | .exportAssignment => k == .initializer
  | .indexSig => k == .param || k == .colonType
  | .param => k == .colonType
  | _ => false

namespace Tree

/-- The first token of a node is trivia. -/
def startsBlank : Tree → Bool
  | token _ => false
  | node _ _ _ cs => (tokensOfList cs).head?.any (·.kind.isTrivia)

/-- No node below an element starts with trivia, unless it may. -/
inductive Trimmed : Tree → Prop where
  | token {t : Token} : Trimmed (.token t)
  | node {k : Kind} {start stop : Nat} {cs : List Tree} : (∀ c ∈ cs, Trimmed c) →
      (∀ c ∈ cs, c.startsBlank → Parser.lags k c.kind) → Trimmed (.node k start stop cs)

end Tree

namespace Parser

open DeclKit.Tree (tokensOfList)

/-! ## States -/

/-- An element is trimmed, and if it starts with trivia itself, it is of a kind that may. -/
structure Fine (L : Kind → Bool) (t : Tree) : Prop where
  trimmed : t.Trimmed
  late : t.startsBlank → L t.kind

/-- No node may start with trivia. -/
def noKind (_ : Kind) : Bool := false

theorem fine_token (L : Kind → Bool) (t : Token) : Fine L (.token t) := ⟨.token, fun h => nomatch h⟩

theorem Fine.of_noKind {L : Kind → Bool} {t : Tree} (h : Fine noKind t) : Fine L t :=
  ⟨h.trimmed, fun hlate => nomatch h.late hlate⟩

/-- The leaves of the row are the tokens that are placed, and no more than have been passed. -/
structure Orderly (s : State) : Prop where
  placed_le : s.placed ≤ s.pos
  pos_le : s.pos ≤ s.tokens.size
  leaves : tokensOfList s.row.toList = s.tokens.toList.take s.placed

/-- The cursor is at a token that is no trivia, or at the end, unless something was broken. -/
def AtToken (s : State) : Prop :=
  s.fault = none → ∀ t, s.tokens[s.pos]? = some t → t.kind.isTrivia = false

/-- What has been added to the row is fine, unless something was broken. -/
structure Extends (L : Kind → Bool) (s s' : State) : Prop where
  tokens_eq : s'.tokens = s.tokens
  opened_eq : s'.opened = s.opened
  sane : s'.fault = none → s.fault = none
  orderly : Orderly s'
  row_eq : ∃ ts, s'.row.toList = s.row.toList ++ ts ∧ (s'.fault = none → ∀ t ∈ ts, Fine L t)

namespace Extends

variable {L : Kind → Bool} {s s' s'' : State}

theorem refl (hs : Orderly s) : Extends L s s :=
  ⟨rfl, rfl, id, hs, [], (List.append_nil _).symm, fun _ _ ht => absurd ht List.not_mem_nil⟩

/-- A step that leaves the row alone extends nothing. -/
theorem still (h : Extends L s s') (ht : s''.tokens = s'.tokens) (ho : s''.opened = s'.opened)
    (hrow : s''.row = s'.row) (hplaced : s''.placed = s'.placed) (hpos : s'.pos ≤ s''.pos)
    (hsize : s''.pos ≤ s'.tokens.size) (hf : s''.fault = none → s'.fault = none) :
    Extends L s s'' where
  tokens_eq := ht.trans h.tokens_eq
  opened_eq := ho.trans h.opened_eq
  sane hnone := h.sane (hf hnone)
  orderly := by
    refine ⟨?_, ?_, ?_⟩
    · rw [hplaced]
      exact Nat.le_trans h.orderly.placed_le hpos
    · rwa [ht]
    · rw [hrow, ht, hplaced]
      exact h.orderly.leaves
  row_eq := by
    obtain ⟨ts, hts, hfine⟩ := h.row_eq
    exact ⟨ts, by rw [hrow, hts], fun hnone => hfine (hf hnone)⟩

theorem trans {L' : Kind → Bool} (h : Extends L s s') (h' : Extends L' s' s'')
    (hL : ∀ t, Fine L' t → Fine L t) : Extends L s s'' where
  tokens_eq := h'.tokens_eq.trans h.tokens_eq
  opened_eq := h'.opened_eq.trans h.opened_eq
  sane hnone := h.sane (h'.sane hnone)
  orderly := h'.orderly
  row_eq := by
    obtain ⟨ts, hts, hfine⟩ := h.row_eq
    obtain ⟨ts', hts', hfine'⟩ := h'.row_eq
    refine ⟨ts ++ ts', by rw [hts', hts, List.append_assoc], fun hnone t ht => ?_⟩
    rcases List.mem_append.1 ht with ht | ht
    · exact hfine (h'.sane hnone) t ht
    · exact hL t (hfine' hnone t ht)

end Extends

/-! ## Steps -/

/-- Where a step starts or ends. -/
inductive Spot where
  | anywhere
  | atToken

/-- The state is at such a spot. -/
def Spot.Holds : Spot → State → Prop
  | anywhere, _ => True
  | atToken, s => AtToken s

/-- A step that starts at the spot `b` extends the row since a base state with what is fine, and ends
at the spot `c`. -/
def Lays {α : Type} (base : State) (L : Kind → Bool) (b c : Spot) (p : Parse α) : Prop :=
  ∀ s, Extends L base s → b.Holds s → After p s fun _ s' => Extends L base s' ∧ c.Holds s'

section Rules

variable {α β : Type} {base : State} {L : Kind → Bool} {b c d : Spot} {p : Parse α}

theorem Lays.bind {f : α → Parse β} (hp : Lays base L b c p) (hf : ∀ a, Lays base L c d (f a)) :
    Lays base L b d (p >>= f) := by
  intro s hs hb
  exact (hp s hs hb).bind fun a s' h => hf a s' h.1 h.2

/-- An answer at a token. -/
theorem Lays.pure {a : α} : Lays base L .atToken d (Pure.pure a) := by
  intro s hs hb
  refine After.pure ⟨hs, ?_⟩
  cases d with
  | anywhere => trivial
  | atToken => exact hb

/-- An answer leaves the step where it has come to. -/
theorem Lays.stay {a : α} : Lays base L b b (Pure.pure a) := fun _ hs hb => After.pure ⟨hs, hb⟩

/-- An answer wherever the step has come to. -/
theorem Lays.done {a : α} : Lays base L b .anywhere (Pure.pure a) :=
  fun _ hs _ => After.pure ⟨hs, trivial⟩

/-- A step, and an answer made of what it has given. -/
theorem Lays.answer {f : α → β} (h : Lays base L b .anywhere p) :
    Lays base L b .anywhere (p >>= fun a => Pure.pure (f a)) :=
  h.bind fun _ => Lays.done

/-- Where a step ends need not be known. -/
theorem Lays.loose (h : Lays base L b c p) : Lays base L b .anywhere p :=
  fun s hs hb => (h s hs hb).mono fun _ _ h => ⟨h.1, trivial⟩

/-- A step that can start anywhere can start at a token. -/
theorem Lays.start (h : Lays base L .anywhere c p) : Lays base L b c p := fun s hs _ => h s hs trivial

theorem Lays.get {f : State → Parse β} (hf : ∀ s, Extends L base s → Lays base L b d (f s)) :
    Lays base L b d (MonadState.get >>= f) :=
  fun s hs hb => After.get (hf s hs s hs hb)

/-- Two states agree on what this development looks at. -/
structure Agrees (s s' : State) : Prop where
  tokens_eq : s'.tokens = s.tokens
  opened_eq : s'.opened = s.opened
  row_eq : s'.row = s.row
  placed_eq : s'.placed = s.placed
  pos_eq : s'.pos = s.pos
  fault_eq : s'.fault = s.fault

theorem Extends.agree {s s' : State} (hs : Extends L base s) (hb : b.Holds s) (h : Agrees s s') :
    Extends L base s' ∧ b.Holds s' := by
  have hpos := h.pos_eq
  refine ⟨hs.still h.tokens_eq h.opened_eq h.row_eq h.placed_eq (Nat.le_of_eq hpos.symm) ?_
    fun hnone => h.fault_eq ▸ hnone, ?_⟩
  · rw [hpos]
    exact hs.orderly.pos_le
  · cases b with
    | anywhere => trivial
    | atToken =>
      intro hnone
      rw [h.tokens_eq, hpos]
      exact hb (h.fault_eq ▸ hnone)

theorem lays_modify {g : State → State} (hg : ∀ s, Agrees s (g s)) : Lays base L b b (modify g) :=
  fun s hs hb => hs.agree hb (hg s)

/-- After a fault nothing is claimed any more. -/
theorem raise_lays (f : Fault) : Lays base L b c (raise f) := by
  intro s hs _
  -- an older fault stays, and otherwise this one is there
  have hsome : (s.fault.or (some f)) ≠ none := by cases s.fault <;> simp
  refine ⟨hs.still rfl rfl rfl rfl (Nat.le_refl _) hs.orderly.pos_le fun h => absurd h hsome, ?_⟩
  cases c with
  | anywhere => trivial
  | atToken => exact fun h => absurd h hsome

end Rules

/-! ## Looking -/

section Looking

variable {base : State} {L : Kind → Bool} {b c : Spot}

/-- Where skipping trivia ends there is none. -/
theorem not_isTrivia_at_cursor {s : State} {t : Token} (h : s.tokens[cursor s]? = some t) :
    t.kind.isTrivia = false := by
  have hstay := cursor_at s
  have hlt : cursor s < s.tokens.size := (Array.getElem?_eq_some_iff.1 h).1
  obtain ⟨n, hn⟩ : ∃ n, s.tokens.size - cursor s = n + 1 := ⟨s.tokens.size - cursor s - 1, by omega⟩
  cases htrivia : t.kind.isTrivia with
  | false => rfl
  | true =>
    -- one more step would move on
    rw [hn, skipTriviaFrom, h] at hstay
    simp only [htrivia, if_true] at hstay
    have hle : cursor s + 1 ≤ skipTriviaFrom s.tokens n (cursor s + 1) := le_skipTriviaFrom _ _
    omega

/-- Moving past trivia leads to a token. -/
theorem Extends.look {s s' : State} (h : Extends L base s) (ht : s'.tokens = s.tokens)
    (ho : s'.opened = s.opened) (hrow : s'.row = s.row) (hplaced : s'.placed = s.placed)
    (hpos : s'.pos = cursor s) (hf : s'.fault = none → s.fault = none) :
    Extends L base s' ∧ AtToken s' := by
  refine ⟨h.still ht ho hrow hplaced (hpos ▸ pos_le_cursor s) ?_ hf, fun _ t hat => ?_⟩
  · rw [hpos]
    exact cursor_le_size h.orderly.pos_le
  · rw [ht, hpos] at hat
    exact not_isTrivia_at_cursor hat

/-- What looks ahead only ends at a token. -/
theorem lays_of_looks {α : Type} {p : Parse α} {n : Nat}
    (hp : ∀ s, After p s fun _ s' => Looks n s s') : Lays base L b .atToken p := by
  intro s hs _
  refine (hp s).mono fun _ s' hlooks => ?_
  obtain ⟨m, -, rfl⟩ := hlooks
  exact hs.look rfl rfl rfl rfl rfl id

theorem skipTrivia_lays : Lays base L b .atToken skipTrivia := lays_of_looks skipTrivia_spec

theorem currentToken?_lays : Lays base L b .atToken currentToken? :=
  lays_of_looks fun s => (currentToken_spec s).mono fun _ _ h => h.1

theorem currentText_lays : Lays base L b .atToken currentText := lays_of_looks currentText_spec

theorem peek_lays (n : Nat) : Lays base L b .atToken (peek n) := lays_of_looks (peek_spec n)

theorem peekText_lays (n : Nat) : Lays base L b .atToken (peekText n) := lays_of_looks (peekText_spec n)

theorem lineBreakBefore_lays (n : Nat) : Lays base L b .atToken (lineBreakBefore n) :=
  lays_of_looks (lineBreakBefore_spec n)

theorem atEnd_lays : Lays base L b .atToken atEnd :=
  lays_of_looks fun s => (atEnd_spec s).mono fun _ _ h => h.1

theorem current_lays : Lays base L b .atToken current := by
  unfold current
  refine currentToken?_lays.bind fun t => Lays.get fun s _ => ?_
  dsimp only
  split
  · refine Lays.bind (c := .atToken) (raise_lays .stuck) fun _ => ?_
    exact Lays.bind (lays_modify fun _ => ⟨rfl, rfl, rfl, rfl, rfl, rfl⟩) fun _ => Lays.pure
  · exact Lays.bind (lays_modify fun _ => ⟨rfl, rfl, rfl, rfl, rfl, rfl⟩) fun _ => Lays.pure

theorem at?_lays (k : Kind) : Lays base L b .atToken (at? k) :=
  current_lays.bind fun _ => Lays.pure

theorem atWord_lays (word : String) : Lays base L b .atToken (atWord word) := by
  refine current_lays.bind fun k => ?_
  split
  · exact currentText_lays.bind fun _ => Lays.pure
  · exact Lays.pure

/-- A step that is taken at its own token only. -/
theorem whenAt_lays {k : Kind} {step : Parse Unit} (h : Lays base L .atToken c step) :
    Lays base L b c (whenAt k step) := by
  refine (at?_lays k).bind fun yes => ?_
  split
  · exact h
  · exact Lays.pure

end Looking

/-! ## Taking tokens -/

section Taking

variable {base s : State} {L : Kind → Bool} {b c : Spot}

/-- What placing the trivia that wait does to a state. -/
theorem Extends.place (h : Extends L base s) : Extends L base (placeTrivia s).2 := by
  have hrow := placeTrivia_row s
  have hplaced : (placeTrivia s).2.placed = s.pos := Nat.max_eq_right h.orderly.placed_le
  refine ⟨h.tokens_eq, h.opened_eq, h.sane, ⟨?_, h.orderly.pos_le, ?_⟩, ?_⟩
  · exact Nat.le_of_eq hplaced
  · have htake : s.tokens.toList.take s.pos =
        s.tokens.toList.take s.placed ++ (s.tokens.toList.take s.pos).drop s.placed := by
      conv => lhs; rw [← List.take_append_drop s.placed (s.tokens.toList.take s.pos)]
      rw [List.take_take, Nat.min_eq_left h.orderly.placed_le]
    rw [hrow, hplaced, Tree.tokensOfList_append, Tree.tokensOfList_token, h.orderly.leaves]
    exact htake.symm
  · obtain ⟨ts, hts, hfine⟩ := h.row_eq
    refine ⟨ts ++ ((s.tokens.toList.take s.pos).drop s.placed).map .token,
      by rw [hrow, hts, List.append_assoc], fun hnone t ht => ?_⟩
    rcases List.mem_append.1 ht with ht | ht
    · exact hfine hnone t ht
    · obtain ⟨u, -, rfl⟩ := List.mem_map.1 ht
      exact fine_token L u

theorem bump_lays : Lays base L b .anywhere bump := by
  intro s hs _
  unfold bump
  refine (skipTrivia_spec s).bind ?_
  rintro _ _ ⟨m, -, rfl⟩
  have hlook : Extends L base { s with pos := cursor s, patience := s.patience - m } :=
    hs.still rfl rfl rfl rfl (pos_le_cursor s) (cursor_le_size hs.orderly.pos_le) id
  refine After.get ?_
  split
  · rename_i hlt
    refine After.modify ((charge_spec _).bind ?_)
    rintro _ _ ⟨spent, failure, rfl, -, -⟩
    refine After.modify ?_
    have hpast : Extends L base { s with
        pos := cursor s + 1, patience := fullPatience, spent := spent, failure := failure } :=
      hs.still rfl rfl rfl rfl (Nat.le_trans (pos_le_cursor s) (Nat.le_succ _)) hlt id
    exact ⟨hpast.place, trivial⟩
  · exact After.pure ⟨hlook, trivial⟩

/-- A token that is not taken is still there. -/
theorem eat_after {k : Kind} (hs : Extends L base s) :
    After (eat k) s fun ok s' => Extends L base s' ∧ (ok = false → AtToken s') := by
  unfold eat
  refine (at?_lays (b := .anywhere) k s hs trivial).bind fun yes s1 h1 => ?_
  -- only where nothing is taken the look is the last thing that happens
  cases yes with
  | true =>
    refine (bump_lays (b := .anywhere) s1 h1.1 trivial).bind fun _ s2 h2 => ?_
    exact After.pure ⟨h2.1, fun h => nomatch h⟩
  | false => exact After.pure ⟨h1.1, fun _ => h1.2⟩

theorem eat_lays (k : Kind) : Lays base L b .anywhere (eat k) :=
  fun _ hs _ => (eat_after hs).mono fun _ _ h => ⟨h.1, trivial⟩

theorem eatWord_lays (word : String) : Lays base L b .anywhere (eatWord word) := by
  refine (atWord_lays word).bind fun yes => ?_
  split
  · exact bump_lays.answer
  · exact Lays.done

end Taking

/-! ## Reporting -/

section Reporting

variable {base : State} {L : Kind → Bool} {b : Spot}

theorem reportWith_lays (kind : DiagnosticKind) (args : List String) :
    Lays base L b .atToken (reportWith kind args) := by
  refine Lays.bind (c := .atToken) ?_ fun span => lays_modify fun s => ?_
  · refine currentToken?_lays.bind fun t => Lays.get fun s _ => ?_
    split
    · exact Lays.pure
    · exact Lays.pure
  · split
    · exact ⟨rfl, rfl, rfl, rfl, rfl, rfl⟩
    · exact ⟨rfl, rfl, rfl, rfl, rfl, rfl⟩

theorem report_lays (kind : DiagnosticKind) : Lays base L b .atToken (report kind) :=
  reportWith_lays kind []

theorem reportExpected_lays (what : String) : Lays base L b .atToken (reportExpected what) :=
  reportWith_lays _ _

theorem reportUnsupported_lays (what : String) : Lays base L b .atToken (reportUnsupported what) :=
  reportWith_lays _ _

theorem expect_lays (k : Kind) (what : String) : Lays base L b .anywhere (expect k what) := by
  refine (eat_lays k).bind fun ok => ?_
  split
  · exact Lays.done
  · exact (reportExpected_lays what).bind fun _ => Lays.done

end Reporting

/-! ## Nodes -/

/-- What stands behind the first `q` tokens starts with the next one. -/
theorem getElem?_of_take_append {tokens : List Token} {q n : Nat} {rest : List Token} {t : Token}
    (h : tokens.take q ++ rest = tokens.take n) (ht : rest.head? = some t) :
    tokens[q]? = some t := by
  have hget : (tokens.take n)[(tokens.take q).length]? = some t := by
    rw [← h, List.getElem?_append_right (Nat.le_refl _), Nat.sub_self, ← List.head?_eq_getElem?, ht]
  rw [List.getElem?_take] at hget
  split at hget
  · have hlt := (List.getElem?_eq_some_iff.1 hget).1
    rw [List.length_take] at hlt hget
    have hq : min q tokens.length = q := by omega
    rwa [hq] at hget
  · cases hget

section Nodes

variable {α : Type} {base : State} {L : Kind → Bool} {b c : Spot} {k : Kind}

/-- Closing the innermost node by the step that opened it. -/
theorem closeNode_eq {s : State} {m : Nat} {outer : List (Kind × Nat)}
    (ho : s.opened = (k, m) :: outer) :
    (closeNode (outer.length + 1) s).2 = { s with
      opened := outer
      row := (s.row.shrink m).push (nodeOf k (s.row.toList.drop m) (placedStop s)) } := by
  have hcount : (s.opened.length != outer.length + 1) = false := by
    rw [ho]
    simp
  have hparts : (s.row.extract m s.row.size).toList = s.row.toList.drop m := by
    rw [Array.toList_extract, List.extract_eq_take_drop, ← Array.length_toList]
    exact List.take_of_length_le (by simp)
  have hclosed : (closeNode (outer.length + 1) s).2 = s.closed := by
    unfold closeNode
    change ((if (s.opened.length != outer.length + 1) = true then _ else _ : Parse Unit) s).2 = _
    rw [hcount, if_neg Bool.false_ne_true]
    rfl
  rw [hclosed, State.closed, ho, ← hparts]

/-- A node is fine when its parts are, and it starts with trivia only where it may. -/
theorem fine_nodeOf {parts : List Tree} {stop : Nat} (hparts : ∀ c ∈ parts, Fine (lags k) c)
    (hstart : ∀ t, (tokensOfList parts).head? = some t → t.kind.isTrivia = true → L k = true) :
    Fine L (nodeOf k parts stop) := by
  refine ⟨.node (fun c hc => (hparts c hc).trimmed) fun c hc => (hparts c hc).late, fun hblank => ?_⟩
  obtain ⟨t, hhead, htrivia⟩ := (Option.any_eq_true _ _).1 hblank
  exact hstart t hhead htrivia

/-- A node that is closed takes up what has been added since it was opened, and what stands behind its
mark. It starts with trivia only if the token at its start is trivia. -/
theorem Extends.close {s s' : State} (hs : Extends L base s) (front inner : List Tree) (q : Nat)
    (hrow : s.row.toList = front ++ inner) (hfront : tokensOfList front = s.tokens.toList.take q)
    (hbase : ∃ ts, front = base.row.toList ++ ts ∧ (s.fault = none → ∀ t ∈ ts, Fine L t))
    (hinner : s.fault = none → ∀ t ∈ inner, Fine (lags k) t)
    (hstart : s.fault = none → L k = true ∨ ∀ t, s.tokens[q]? = some t → t.kind.isTrivia = false)
    (h : Extends (lags k) (s.opening k front.length) s') :
    Extends L base (closeNode (s.opened.length + 1) s').2 := by
  have ho : s'.opened = (k, front.length) :: s.opened := h.opened_eq
  have ht : s'.tokens = s.tokens := h.tokens_eq
  obtain ⟨ts, hts, hfine⟩ := h.row_eq
  obtain ⟨older, rfl, holder⟩ := hbase
  have hts : s'.row.toList = s.row.toList ++ ts := hts
  have hall : s'.row.toList = (base.row.toList ++ older) ++ (inner ++ ts) := by
    rw [hts, hrow, List.append_assoc]
  have hleaves := h.orderly.leaves
  rw [hall, Tree.tokensOfList_append, hfront, ht] at hleaves
  have hpushed (node : Tree) : ((s'.row.shrink (base.row.toList ++ older).length).push node).toList =
      base.row.toList ++ (older ++ [node]) := by
    rw [Array.toList_push, Array.toList_shrink, hall, List.take_left' rfl, List.append_assoc]
  rw [closeNode_eq ho, hall, List.drop_left' rfl]
  refine ⟨ht.trans hs.tokens_eq, hs.opened_eq, fun hnone => hs.sane (h.sane hnone),
    ⟨h.orderly.placed_le, h.orderly.pos_le, ?_⟩, older ++ [nodeOf k (inner ++ ts) (placedStop s')],
    hpushed _, fun (hnone : s'.fault = none) t hmem => ?_⟩
  · -- the node has the leaves that its parts had
    change tokensOfList ((s'.row.shrink _).push _).toList = s'.tokens.toList.take s'.placed
    rw [hpushed, ← List.append_assoc, Tree.tokensOfList_append, hfront, ht, ← hleaves]
    simp [nodeOf, tokensOfList, Tree.tokens]
  · -- the body has not been broken, so neither was anything before it
    have hsane := h.sane hnone
    rcases List.mem_append.1 hmem with hmem | hmem
    · exact holder hsane t hmem
    obtain rfl := List.mem_singleton.1 hmem
    refine fine_nodeOf (fun c hc => ?_) fun t hhead htrivia => ?_
    · exact (List.mem_append.1 hc).elim (hinner hsane c) (hfine hnone c)
    · -- its first leaf is the token that stood there when it was opened
      refine (hstart hsane).resolve_right fun hword => ?_
      have hat := getElem?_of_take_append hleaves hhead
      rw [Array.getElem?_toList] at hat
      rw [hword t hat] at htrivia
      cases htrivia

/-- Closing a node leaves the cursor where it is. -/
theorem holds_closeNode {s : State} {m : Nat} {outer : List (Kind × Nat)}
    (ho : s.opened = (k, m) :: outer) (hc : c.Holds s) :
    c.Holds (closeNode (outer.length + 1) s).2 := by
  rw [closeNode_eq ho]
  cases c with
  | anywhere => trivial
  | atToken => exact hc

/-- A node of a kind may be opened: it starts at a token, or it may start with trivia. -/
def MayOpen (L : Kind → Bool) (k : Kind) (b : Spot) : Prop := b = .atToken ∨ L k = true

theorem Lays.within {p : Parse α} (hk : MayOpen L k b) (h : ∀ s, Lays s (lags k) b c p) :
    Lays base L b c (within k p) := by
  intro s hs hb
  have hstart (hnone : s.fault = none) :
      L k = true ∨ ∀ t, s.tokens[s.pos]? = some t → t.kind.isTrivia = false := by
    rcases hk with rfl | hL
    · exact .inr (hb hnone)
    · exact .inl hL
  have hplace := hs.place
  have hplaced : (placeTrivia s).2.placed = s.pos := Nat.max_eq_right hs.orderly.placed_le
  -- the body starts from the state in which the node has been opened
  let s1 : State := (placeTrivia s).2
  let s2 : State := s1.opening k s1.row.size
  have hopen : Orderly s2 := ⟨hplace.orderly.placed_le, hplace.orderly.pos_le, hplace.orderly.leaves⟩
  have hb2 : b.Holds s2 := by
    cases b with
    | anywhere => trivial
    | atToken => exact hb
  obtain ⟨hbody, hc⟩ := h s2 s2 (.refl hopen) hb2
  have hwithin : (Parser.within k p s).2 = (closeNode (s1.opened.length + 1) (p s2).2).2 := rfl
  refine show Extends L base (Parser.within k p s).2 ∧ c.Holds (Parser.within k p s).2 from ?_
  rw [hwithin]
  refine ⟨hplace.close s1.row.toList [] s.pos (List.append_nil _).symm
    ?_ hplace.row_eq (fun _ _ ht => absurd ht List.not_mem_nil) hstart ?_,
    holds_closeNode hbody.opened_eq hc⟩
  · rw [hplace.orderly.leaves, hplaced]
  · rw [Array.length_toList]
    exact hbody

/-! ## Nodes behind a mark -/

/-- A state from which a node may be opened later: everything has been placed up to a token. -/
structure Marked (s : State) : Prop where
  placed_eq : s.placed = s.pos
  leaves : tokensOfList s.row.toList = s.tokens.toList.take s.placed
  atToken : AtToken s

/-- What follows a mark is looked at from the mark on, where nothing may start with trivia. -/
theorem Lays.mark {f : Nat → Parse α}
    (h : ∀ s, Marked s → Lays s noKind .atToken c (f s.row.size)) :
    Lays base L b c (Parser.mark >>= f) := by
  intro s hs _
  obtain ⟨hskip, hat⟩ := skipTrivia_lays (b := .anywhere) s hs trivial
  have hplace := hskip.place
  let s1 : State := (placeTrivia (skipTrivia s).2).2
  have hplaced : s1.placed = s1.pos := Nat.max_eq_right hskip.orderly.placed_le
  obtain ⟨hf, hc⟩ := h s1 ⟨hplaced, hplace.orderly.leaves, hat⟩ s1 (.refl hplace.orderly) hat
  exact ⟨hplace.trans hf fun _ => .of_noKind, hc⟩

/-- What opening a node at a mark does; a mark that is stale is a fault. -/
theorem openAt_after (m : Nat) (k : Kind) (s : State) :
    After (openAt m k) s fun count s' => count = s.opened.length + 1 ∧
      ∃ fault, (fault = none → s.fault = none) ∧
        s' = { s.opening k m with fault := fault } := by
  unfold openAt
  refine After.get ?_
  extract_lets rest
  split
  · exact ⟨rfl, _, fun hnone => (Option.or_eq_none_iff.1 hnone).1, rfl⟩
  · exact ⟨rfl, s.fault, id, rfl⟩

/-- A node that is opened at a mark starts with the token there. -/
theorem Lays.withinFrom {p : Parse α} (hbase : Marked base) (h : ∀ s, Lays s (lags k) b c p) :
    Lays base noKind b c (withinFrom base.row.size k p) := by
  intro s hs hb
  unfold Parser.withinFrom
  refine (openAt_after base.row.size k s).bind ?_
  rintro _ _ ⟨rfl, fault, hsane, rfl⟩
  let s1 : State := { s with fault := fault }
  have hs1 : Extends noKind base s1 :=
    hs.still rfl rfl rfl rfl (Nat.le_refl _) hs.orderly.pos_le hsane
  let s2 : State := s1.opening k base.row.size
  have hb2 : b.Holds s2 := by
    cases b with
    | anywhere => trivial
    | atToken => exact fun hnone => hb (hsane hnone)
  obtain ⟨ts, hts, hfine⟩ := hs1.row_eq
  refine (h s2 s2 (.refl ⟨hs1.orderly.placed_le, hs1.orderly.pos_le, hs1.orderly.leaves⟩) hb2).bind
    fun out s3 ⟨hbody, hc⟩ => ?_
  refine show Extends noKind base (closeNode (s1.opened.length + 1) s3).2 ∧
    c.Holds (closeNode (s1.opened.length + 1) s3).2 from ?_
  refine ⟨hs1.close (k := k) base.row.toList ts base.pos hts ?_
    ⟨[], (List.append_nil _).symm, fun _ _ ht => absurd ht List.not_mem_nil⟩
    (fun hnone t ht => (hfine hnone t ht).of_noKind) (fun hnone => .inr ?_) ?_,
    holds_closeNode hbody.opened_eq hc⟩
  · rw [hbase.leaves, hbase.placed_eq, hs1.tokens_eq]
  · rw [hs1.tokens_eq]
    exact hbase.atToken (hs1.sane hnone)
  · rw [Array.length_toList]
    exact hbody

end Nodes

/-! ## Repeating and nesting -/

section Repeating

variable {α : Type} {base : State} {L : Kind → Bool} {b c : Spot}

/-- A loop ends where its step does when it answers `false`. -/
theorem iterate_lays {step : Parse Bool} (n : Nat) (h : ∀ s, Extends L base s →
      After step s fun more s' => Extends L base s' ∧ (more = false → c.Holds s')) :
    Lays base L .anywhere c (iterate n step) := by
  induction n with
  | zero => exact raise_lays .endless
  | succ n ih =>
    intro s hs _
    refine (h s hs).bind fun more s1 ⟨h1, hstop⟩ => ?_
    cases more with
    | true => exact ih s1 h1 trivial
    | false => exact After.pure ⟨h1, hstop rfl⟩

theorem repeatWhile_ends {step : Parse Bool} (h : ∀ s, Extends L base s →
      After step s fun more s' => Extends L base s' ∧ (more = false → c.Holds s')) :
    Lays base L b c (repeatWhile step) :=
  Lays.get fun _ _ => (iterate_lays _ h).start

theorem repeatWhile_lays {step : Parse Bool} (h : Lays base L .anywhere .anywhere step) :
    Lays base L b .anywhere (repeatWhile step) :=
  repeatWhile_ends fun s hs => (h s hs trivial).mono fun _ _ h => ⟨h.1, fun _ => trivial⟩

theorem bumpAs_lays {k : Kind} (hk : MayOpen L k b) : Lays base L b .anywhere (bumpAs k) :=
  Lays.within hk fun _ => bump_lays

theorem reportAndBump_lays (kind : DiagnosticKind) :
    Lays base L b .anywhere (reportAndBump kind) := by
  refine (report_lays kind).bind fun _ => Lays.get fun s _ => ?_
  split
  · exact bumpAs_lays (.inl rfl)
  · exact Lays.done

theorem skipUntil_lays (stop : Kind → Bool) : Lays base L b .anywhere (skipUntil stop) := by
  refine current_lays.bind fun k => ?_
  split
  · exact Lays.done
  refine atEnd_lays.bind fun ended => ?_
  split
  · exact Lays.done
  refine Lays.within (.inl rfl) fun _ => repeatWhile_lays ?_
  refine current_lays.bind fun k => ?_
  split
  · exact Lays.done
  refine atEnd_lays.bind fun ended => ?_
  split
  · exact Lays.done
  · exact bump_lays.answer

theorem enter_lays : Lays base L b b enter := by
  intro s hs hb
  unfold enter
  refine After.get ?_
  split
  · exact After.set (After.pure (hs.agree hb ⟨rfl, rfl, rfl, rfl, rfl, rfl⟩))
  · exact After.set (After.pure (hs.agree hb ⟨rfl, rfl, rfl, rfl, rfl, rfl⟩))

theorem leave_lays : Lays base L b b leave :=
  lays_modify fun _ => ⟨rfl, rfl, rfl, rfl, rfl, rfl⟩

theorem allowingConditional_lays {step : Parse α} (h : Lays base L b c step) :
    Lays base L b c (allowingConditional step) := by
  refine Lays.get fun s _ => ?_
  refine Lays.bind (lays_modify fun _ => ⟨rfl, rfl, rfl, rfl, rfl, rfl⟩) fun _ => ?_
  refine h.bind fun out => ?_
  refine Lays.bind (lays_modify fun _ => ⟨rfl, rfl, rfl, rfl, rfl, rfl⟩) fun _ => ?_
  exact Lays.stay

end Repeating

end Parser

end DeclKit

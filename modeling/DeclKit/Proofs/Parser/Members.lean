/-
Members, signatures and parameters are runs, given that types are.

Types are read by a production that is passed in. It is a run wherever fewer tokens are left than a
bound, and at the end of the text it puts no token into a keyed node. Every production here that starts
with a token of its own leaves that token bare, so the types behind it may do as they like.
-/
import DeclKit.Parser.Members
import DeclKit.Proofs.Parser.Lists

set_option autoImplicit false

namespace DeclKit.Parser

open Kind
open DeclKit.Tree (tokensOfList bareAll hollowsAll CoversAll GoodAll Owns Quiet Proper)

/-- Started at the end of the text, a run puts no token into a keyed node. -/
def Rests (s s' : State) : Prop := s.tokens.size ≤ cursor s → Owns (grown s s')

/-- A production for types may be called wherever fewer than `n` tokens are left. -/
def Nests (n : Nat) (type : Parse Bool) : Prop :=
  ∀ s, Sound s → left s < n → After type s fun _ s' => Run 0 0 s s' ∧ Rests s s'

section Members

variable {s : State} {type : Parse Bool} {n : Nat}

/-- Before the end of the text there is nothing to rest from. -/
theorem rests_of_lt {s' : State} (hc : cursor s < s.tokens.size) : Rests s s' :=
  fun hend => absurd hc (Nat.not_lt.2 hend)

/-- A step that does not move may come first. -/
theorem Rests.after {i b i' b' : Nat} {s' s'' : State} (h : Run i b s s') (hc : cursor s' = cursor s)
    (ho : Owns (grown s s')) (h' : Run i' b' s' s'') (hrest : Rests s' s'') : Rests s s'' := by
  intro hend
  refine h.toWalk.owns_trans h'.toWalk ho (hrest ?_)
  rw [h.tokens_eq, hc]
  exact hend

/-- A look ahead may come last. -/
theorem Rests.look {i b m : Nat} {s' s'' : State} (hrest : Rests s s') (h : Run i b s s')
    (hl : Looks m s' s'') : Rests s s'' :=
  fun hend => h.toWalk.owns_trans (hl.run h.sound).toWalk (hrest hend) hl.quiet.owns

theorem Nests.run (ht : Nests n type) (hs : Sound s) (hn : left s < n) :
    After type s fun _ s' => Run 0 0 s s' :=
  (ht s hs hn).mono fun _ _ h => h.1

/-- Behind a token that has been taken there is room for a type. -/
theorem Nests.after {i b : Nat} {s' : State} (ht : Nests n type) (h : Run i b s s')
    (hc : cursor s < cursor s') (hn : left s ≤ n) : After type s' fun _ s'' => Run 0 0 s' s'' :=
  ht.run h.sound (Nat.lt_of_lt_of_le (h.left_lt hc) hn)

/-- A token and the type behind it, as a node that is not keyed. -/
theorem within_bump_type {k : Kind} (ht : Nests n type) (hk : k.isKeyed = false) (hs : Ready 0 s)
    (hc : cursor s < s.tokens.size) (hn : left s ≤ n) :
    After (within k do bump; let _ ← type) s fun _ s' => Run 0 0 s s' ∧ Bare s s' := by
  refine within_bump_bare (i := 0) (b := 0) hk hs hc fun s1 hs1 hlt => ?_
  refine (ht.run hs1.toSound (Nat.lt_of_lt_of_le hlt hn)).bind ?_
  intro _ s2 h2
  exact After.pure h2

/-! ## Annotations -/

theorem atAsserts_spec (hs : Ready 1 s) : After atAsserts s fun _ s' => Looks 1 s s' := by
  unfold atAsserts
  refine (atWord_spec _ hs).bind ?_
  rintro yes s1 ⟨hl1, -⟩
  cases yes with
  | false => exact After.pure hl1
  | true =>
    refine (peek_spec 1 s1).bind fun next s2 hl2 => ?_
    split
    · refine (lineBreakBefore_spec 1 s2).bind fun breaks s3 hl3 => ?_
      exact After.pure ((hl1.trans hl2).trans hl3)
    · exact After.pure (hl1.trans hl2)

theorem atPredicate_spec {m : Nat} {s1 : State} (k : Kind) (hl1 : Looks m s s1) :
    After (atPredicate k) s1 fun _ s' => Looks m s s' := by
  unfold atPredicate
  split
  · refine (peek_spec 1 s1).bind fun next s2 hl2 => ?_
    refine (peekText_spec 1 s2).bind fun text s3 hl3 => ?_
    have hl13 := (hl1.trans hl2).trans hl3
    split
    · refine (lineBreakBefore_spec 1 s3).bind fun breaks s4 hl4 => ?_
      exact After.pure (hl13.trans hl4)
    · exact After.pure hl13
  · exact After.pure hl1

theorem predicateRest_spec (ht : Nests n type) (hs : Ready 1 s) (hn : left s < n) :
    After (predicateRest type) s fun _ s' => Run 1 1 s s' := by
  unfold predicateRest
  refine (bumpAs_starts (k := name) rfl hs).bind ?_
  rintro _ s1 ⟨h1, -⟩
  refine (eatWord_spec "is" (h1.ready hs (by decide) (by decide))).bind ?_
  rintro ok s2 ⟨h2, -⟩
  have h12 := h1.trans h2
  cases ok with
  | false => exact After.pure h12
  | true =>
    refine (ht.run h2.sound (Nat.lt_of_le_of_lt h12.left_le hn)).bind ?_
    intro _ s3 h3
    exact After.pure (h12.trans h3)

theorem typeOrPredicate_spec (ht : Nests n type) (hs : Ready 3 s) (hn : left s < n) :
    After (typeOrPredicate type) s fun _ s' => Run 3 1 s s' := by
  unfold typeOrPredicate
  refine (current_spec (hs.weaken (by decide))).bind ?_
  rintro k s1 ⟨hl1, -⟩
  refine (atAsserts_spec ((hl1.ready (m := 2) hs).weaken (by decide))).bind fun asserts s2 hl2 => ?_
  refine (atPredicate_spec k (hl1.trans hl2)).bind fun predicate s3 hl3 => ?_
  have h3 := hl3.run hs.toSound
  have hs3 : Ready 1 s3 := hl3.ready hs
  have hn3 : left s3 < n := Nat.lt_of_le_of_lt h3.left_le hn
  split
  · refine (within_run (k := typePredicate) (i := 1) (b := 1) rfl hs3 fun s4 hs4 hst4 => ?_).bind ?_
    · refine (bump_spec hs4.toSound).bind ?_
      rintro _ s5 ⟨h5, -⟩
      have hn5 : left s5 < n := Nat.lt_of_le_of_lt h5.left_le (by rw [hst4.left_eq]; exact hn3)
      refine (predicateRest_spec ht (h5.ready hs4 (by decide) (by decide)) hn5).mono ?_
      intro _ s6 h6
      exact h5.trans h6
    · intro _ s4 h4
      exact After.pure ((h3.trans h4).mono (by decide) (by decide))
  split
  · refine (within_run (k := typePredicate) rfl hs3 fun s4 hs4 hst4 =>
      predicateRest_spec ht hs4 (by rw [hst4.left_eq]; exact hn3)).bind ?_
    intro _ s4 h4
    exact After.pure ((h3.trans h4).mono (by decide) (by decide))
  · refine (ht.run h3.sound hn3).mono ?_
    intro _ s4 h4
    exact (h3.trans h4).mono (by decide) (by decide)

theorem colonType_spec (ht : Nests n type) (hs : Ready 1 s) (hn : left s ≤ n) :
    After (colonType type) s fun _ s' => Run 1 0 s s' ∧ Owns (grown s s') ∧
      (kindHere s = colon → Bare s s') := by
  unfold colonType
  refine within_starts rfl hs fun s1 hs1 hst => ?_
  refine (expect_spec ":" (by decide) hs1).bind ?_
  rintro ok s2 ⟨h2, htake, hiff⟩
  rw [hst.kind_eq] at hiff
  cases ok with
  | false =>
    exact After.pure ⟨h2, htake.quiet.owns, fun hk => absurd (hiff.2 hk) (by decide)⟩
  | true =>
    have hb := htake.taken rfl
    refine (ht.after h2 hb.cursor_lt (by rw [hst.left_eq]; exact hn)).mono ?_
    intro _ s3 h3
    have hb3 := hb.trans_walk h2.toWalk h3.toWalk
    exact ⟨h2.trans h3, hb3.quiet.owns, fun _ => hb3⟩

theorem returnType_spec (ht : Nests n type) (hs : Ready 1 s) (hn : left s ≤ n) :
    After (returnType type) s fun _ s' => Run 1 3 s s' ∧ Owns (grown s s') ∧
      (kindHere s = colon → Bare s s') := by
  unfold returnType
  refine within_starts rfl hs fun s1 hs1 hst => ?_
  refine (expect_spec ":" (by decide) hs1).bind ?_
  rintro ok s2 ⟨h2, htake, hiff⟩
  rw [hst.kind_eq] at hiff
  cases ok with
  | false =>
    exact After.pure ⟨h2.mono (by decide) (by decide), htake.quiet.owns,
      fun hk => absurd (hiff.2 hk) (by decide)⟩
  | true =>
    have hb := htake.taken rfl
    have hn2 : left s2 < n := Nat.lt_of_lt_of_le (h2.left_lt hb.cursor_lt) (by
      rw [hst.left_eq]
      exact hn)
    have hs2 : Ready 3 s2 := h2.ready_moved hb.cursor_lt (by decide)
    refine (typeOrPredicate_spec ht hs2 hn2).bind ?_
    intro _ s3 h3
    have hb3 := hb.trans_walk h2.toWalk h3.toWalk
    exact After.pure ⟨((h2.moving hb.cursor_lt).trans h3).moving hb3.cursor_lt |>.mono (by decide)
      (by decide), hb3.quiet.owns, fun _ => hb3⟩

/-! ## Type parameters and arguments -/

theorem typeParamModifiers_spec (hs : Ready 2 s) :
    After typeParamModifiers s fun _ s' => Run 2 2 s s' ∧ Quiet (grown s s') := by
  unfold typeParamModifiers
  refine repeatWhile_spec (i := 2) (b := 0) (J := fun _ s1 => Quiet (grown s s1)) hs (by decide)
    (quiet_of_row_eq rfl) fun s1 h1 hs1 hq1 => ?_
  have stays : ∀ {m : Nat} {s2 : State}, m ≤ 2 → Looks m s1 s2 →
      Run 2 0 s1 s2 ∧ Quiet (grown s s2) ∧ (false = true → cursor s1 < cursor s2) := fun hm hl =>
    have h2 := hl.run hs1.toSound
    ⟨h2.mono hm (Nat.le_refl 0), h1.toWalk.quiet_trans h2.toWalk hq1 hl.quiet, fun h => by cases h⟩
  have taken : ∀ {m : Nat} {s2 : State}, m ≤ 2 → Looks m s1 s2 → kindHere s1 ≠ error →
      After (do bump; return true) s2 fun more s3 =>
        Run 2 0 s1 s3 ∧ Quiet (grown s s3) ∧ (more = true → cursor s1 < cursor s3) := by
    intro m s2 hm hl hk
    refine (bump_takes hs1.toSound hl hk).bind ?_
    rintro _ s3 ⟨h3, htake⟩
    exact After.pure ⟨h3.mono hm (Nat.le_refl 0), h1.toWalk.quiet_trans h3.toWalk hq1 htake.quiet,
      fun _ => (htake.taken rfl).cursor_lt⟩
  refine (current_spec (hs1.weaken (by decide))).bind ?_
  rintro k s2 ⟨hl2, rfl⟩
  split
  · rename_i hk
    refine taken (by decide) hl2 fun he => ?_
    rw [he] at hk
    exact absurd hk (by decide)
  · refine (atWord_spec "out" (hl2.ready hs1)).bind ?_
    rintro yes s3 ⟨hl3, hyes⟩
    have hl13 := hl2.trans hl3
    cases yes with
    | false => exact After.pure (stays (by decide) hl13)
    | true =>
      refine (peek_spec 1 s3).bind fun next s4 hl4 => ?_
      split
      · refine taken (by decide) (hl13.trans hl4) ?_
        rw [← hl2.still.kind_eq, hyes rfl]
        decide
      · exact After.pure (stays (by decide) (hl13.trans hl4))

/-- A type parameter has no parts but tokens, its name, and parts that start with a token. -/
theorem typeParam_spec (ht : Nests n type) (hs : Ready 5 s) (hn : left s ≤ n) :
    After (typeParam type) s fun _ s' => Run 5 5 s s' := by
  unfold typeParam
  refine (within_spec (k := Kind.typeParam) (i := 5) (b := 5) (R := fun _ _ _ => True) (by decide) hs
    fun s1 hs1 hst => ?_).mono fun _ _ h => h.1
  refine (typeParamModifiers_spec (hs1.weaken (by decide))).bind ?_
  rintro _ s2 ⟨h2, hq2⟩
  refine (bindingName_spec (h2.ready hs1 (by decide) (by decide))).bind ?_
  rintro named s3 ⟨h3, hq3⟩
  have h13 := h2.trans h3
  have hq13 := h2.toWalk.quiet_trans h3.toWalk hq2 hq3
  have optional : ∀ {k p : Kind} {i b : Nat} {s4 : State}, k ≠ error → p.isKeyed = false →
      Run i b s1 s4 → Ready 1 s4 → After (whenAt k (within p do bump; let _ ← type)) s4 fun _ s5 =>
        Run 1 0 s4 s5 ∧ Quiet (grown s4 s5) := by
    intro k p i b s4 hk hp h4 hs4
    refine (whenAt_bare (i := 0) (b := 0) hs4 fun s5 hs5 hst5 hkind =>
      within_bump_type ht hp hs5 (cursor_lt_of_kind (by rw [hkind]; exact hk)) ?_).mono
        fun _ _ h => ⟨h.1, h.2.1⟩
    rw [hst5.left_eq]
    exact Nat.le_trans h4.left_le (by rw [hst.left_eq]; exact hn)
  refine (optional (k := kwExtends) (p := Kind.constraint) (by decide) rfl h13
    (h13.ready hs1 (by decide) (by decide))).bind ?_
  rintro _ s4 ⟨h4, hq4⟩
  have h14 := h13.trans h4
  refine (optional (k := equals) (p := Kind.defaultType) (by decide) rfl h14
    (h14.ready hs1 (by decide) (by decide))).bind ?_
  rintro _ s5 ⟨h5, hq5⟩
  refine After.pure ⟨(h14.trans h5).mono (by decide) (by decide), proper_of_quiet ?_, trivial⟩
  exact h14.toWalk.quiet_trans h5.toWalk (h13.toWalk.quiet_trans h4.toWalk hq13 hq4) hq5

/-- A list behind its opening bracket, in which conditional types are allowed. -/
theorem bracketList_spec {close : Kind} {closeText : String} {item : Parse Bool} {i b : Nat}
    (hclose : close ≠ error) (hs : Ready (i + 5) s) (hb : max (i + 1) b + i + 8 ≤ fullPatience)
    (hitem : ∀ s1, left s1 ≤ left s → Ready i s1 → After item s1 fun _ s2 => Run i b s1 s2) :
    After (do let _ ← allowingConditional (commaList close closeText item)) s fun _ s' =>
      Run (i + 5) (max (i + 1) b + i + 8) s s' := by
  refine (allowingConditional_run hs fun s1 hs1 hst =>
    commaList_spec (i := i) (b := b) hclose hs1 hb fun s2 hle hs2 => hitem s2 ?_ hs2).bind ?_
  · rw [← hst.left_eq]
    exact hle
  · intro _ s1 h1
    exact After.pure h1

theorem typeParams_spec (ht : Nests n type) (hs : Ready 0 s) (hc : cursor s < s.tokens.size)
    (hn : left s ≤ n) : After (typeParams type) s fun _ s' => Run 0 19 s s' ∧ Bare s s' := by
  unfold typeParams
  refine within_bump_bare (i := 10) (b := 19) rfl hs hc fun s1 hs1 hlt => ?_
  refine bracketList_spec (i := 5) (b := 5) (by decide) (hs1.weaken (by decide)) (by decide)
    fun s2 hle hs2 => typeParam_spec ht hs2 (by omega)

theorem typeArgs_spec (ht : Nests n type) (hs : Ready 0 s) (hc : cursor s < s.tokens.size)
    (hn : left s ≤ n) : After (typeArgs type) s fun _ s' => Run 0 9 s s' ∧ Bare s s' := by
  unfold typeArgs
  refine within_bump_bare (i := 5) (b := 9) rfl hs hc fun s1 hs1 hlt => ?_
  refine bracketList_spec (i := 0) (b := 0) (by decide) (hs1.weaken (by decide)) (by decide)
    fun s2 hle hs2 => ht.run hs2.toSound (by omega)

/-! ## Parameters and signatures -/

theorem reportParameterProperty_spec (hs : Ready 1 s) :
    After reportParameterProperty s fun _ s' => Run 1 0 s s' := by
  unfold reportParameterProperty
  refine (current_spec hs).bind ?_
  rintro k s1 ⟨hl1, -⟩
  split
  · refine (currentText_spec s1).bind fun text s2 hl2 => ?_
    have hl12 := hl1.trans hl2
    split
    · refine (peek_spec 1 s2).bind fun next s3 hl3 => ?_
      split
      · exact (report_looked _ _ hs.toSound (hl12.trans hl3)).mono fun _ _ h => h.1
      · exact After.pure ((hl12.trans hl3).run hs.toSound)
    · exact After.pure (hl12.run hs.toSound)
  · exact After.pure (hl1.run hs.toSound)

/-- An optional annotation. -/
theorem whenAt_colonType (ht : Nests n type) (hs : Ready 2 s) (hn : left s ≤ n) :
    After (whenAt colon do let _ ← colonType type) s fun _ s' =>
      Run 1 0 s s' ∧ Quiet (grown s s') := by
  refine (whenAt_bare (i := 1) (b := 0) hs fun s1 hs1 hst hk => ?_).mono fun _ _ h => ⟨h.1, h.2.1⟩
  refine (colonType_spec ht hs1 (by rw [hst.left_eq]; exact hn)).bind ?_
  rintro _ s2 ⟨h2, -, hbare⟩
  exact After.pure ⟨h2, hbare hk⟩

theorem param_spec (ht : Nests n type) (hs : Ready 7 s) (hn : left s ≤ n) :
    After (param type) s fun _ s' => Run 6 5 s s' := by
  unfold param
  refine (reportParameterProperty_spec (hs.weaken (by decide))).bind ?_
  intro _ s1 h1
  have hs1 : Ready 6 s1 := h1.ready hs (by decide) (by decide)
  refine (within_run (k := Kind.param) (i := 5) (b := 4) rfl hs1 fun s2 hs2 hst2 => ?_).mono ?_
  · refine (eat_spec (k := dotDotDot) (by decide) (hs2.weaken (by decide))).bind ?_
    rintro _ s3 ⟨h3, -⟩
    refine (parameterName_spec (h3.ready hs2 (by decide) (by decide))).bind ?_
    rintro named s4 ⟨h4, -⟩
    have h24 := h3.trans h4
    refine (eat_spec (k := question) (by decide) (h24.ready hs2 (by decide) (by decide))).bind ?_
    rintro _ s5 ⟨h5, -⟩
    have h25 := h24.trans h5
    have hn2 : left s2 ≤ n := by
      rw [hst2.left_eq]
      exact Nat.le_trans h1.left_le hn
    refine (whenAt_colonType ht (h25.ready hs2 (by decide) (by decide))
      (Nat.le_trans h25.left_le hn2)).bind ?_
    rintro _ s6 ⟨h6, -⟩
    have h26 := h25.trans h6
    have hs6 : Ready 1 s6 := h26.ready hs2 (by decide) (by decide)
    refine (whenAt_bare (i := 0) (b := 3) hs6 fun s7 hs7 _ hk => ?_).bind ?_
    · refine within_bump_bare (k := initializer) (i := 3) (b := 3) rfl hs7
        (cursor_lt_of_kind (by rw [hk]; decide)) fun s8 hs8 _ => ?_
      refine (skipExpression_spec _ (hs8.weaken (by decide))).bind ?_
      rintro _ s9 ⟨h9, -⟩
      exact After.pure h9
    · rintro _ s7 ⟨h7, -⟩
      exact After.pure ((h26.trans h7).mono (by decide) (by decide))
  · intro _ s2 h2
    exact (h1.trans h2).mono (by decide) (by decide)

theorem params_spec (ht : Nests n type) (hs : Ready 1 s) (hn : left s ≤ n) :
    After (params type) s fun _ s' => Run 1 23 s s' ∧ Owns (grown s s') ∧
      (kindHere s = parenOpen → Bare s s') := by
  unfold params
  refine within_starts rfl hs fun s1 hs1 hst => ?_
  refine (expect_spec "(" (by decide) hs1).bind ?_
  rintro ok s2 ⟨h2, htake, hiff⟩
  rw [hst.kind_eq] at hiff
  cases ok with
  | false =>
    exact After.pure ⟨h2.mono (by decide) (by decide), htake.quiet.owns,
      fun hk => absurd (hiff.2 hk) (by decide)⟩
  | true =>
    have hb := htake.taken rfl
    have hs2 : Ready 12 s2 := h2.ready_moved hb.cursor_lt (by decide)
    have hn2 : left s2 ≤ n := Nat.le_trans h2.left_le (by rw [hst.left_eq]; exact hn)
    refine (bracketList_spec (i := 7) (b := 5) (by decide) hs2 (by decide) fun s3 hle hs3 =>
      (param_spec ht hs3 (Nat.le_trans hle hn2)).mono fun _ _ h =>
        h.mono (by decide) (by decide)).mono ?_
    intro _ s3 h3
    have hb3 := hb.trans_walk h2.toWalk h3.toWalk
    exact ⟨((h2.moving hb.cursor_lt).trans h3).moving hb3.cursor_lt |>.mono (by decide)
      (by decide), hb3.quiet.owns, fun _ => hb3⟩

theorem signatureRest_spec (ht : Nests n type) (hs : Ready 4 s) (hn : left s ≤ n) :
    After (signatureRest type) s fun _ s' => Run 3 24 s s' ∧ Owns (grown s s') ∧
      (kindHere s = parenOpen ∨ kindHere s = lt → Bare s s') := by
  unfold signatureRest
  refine (whenAt_bare (i := 0) (b := 19) hs fun s1 hs1 hst hk => typeParams_spec ht (hs1.weaken
    (by decide)) (cursor_lt_of_kind (by rw [hk]; decide)) (by rw [hst.left_eq]; exact hn)).bind ?_
  rintro _ s1 ⟨h1, hq1, hbare1, hstill1⟩
  have hn1 := Nat.le_trans h1.left_le hn
  refine (params_spec ht (h1.ready hs (by decide) (by decide)) hn1).bind ?_
  rintro _ s2 ⟨h2, ho2, hbare2⟩
  have h12 := h1.trans h2
  have hn2 := Nat.le_trans h2.left_le hn1
  have hs2 : Ready 2 s2 := h12.ready hs (by decide) (by decide)
  refine (whenAt_bare (i := 1) (b := 3) hs2 fun s3 hs3 hst3 hk => ?_).mono ?_
  · refine (returnType_spec ht hs3 (by rw [hst3.left_eq]; exact hn2)).mono ?_
    rintro _ s4 ⟨h4, -, hbare⟩
    exact ⟨h4, hbare hk⟩
  · rintro _ s3 ⟨h3, hq3, -⟩
    refine ⟨(h12.trans h3).mono (by decide) (by decide), ?_, ?_⟩
    · exact h12.toWalk.owns_trans h3.toWalk (h1.toWalk.owns_trans h2.toWalk hq1.owns ho2) hq3.owns
    · rintro (hk | hk)
      · have hst1 := hstill1 (by rw [hk]; decide)
        have hb2 := hbare2 (hst1.kind_eq.trans hk)
        exact (h1.toWalk.trans_bare hb2 h2.toWalk).trans_walk h12.toWalk h3.toWalk
      · exact (hbare1 hk).trans_walk h1.toWalk (h2.trans h3).toWalk

/-! ## Members -/

theorem modifiesMember_spec (s : State) : After modifiesMember s fun _ s' => Looks 0 s s' := by
  unfold modifiesMember
  refine (peek_spec 1 s).bind fun next s1 hl1 => ?_
  split
  · refine (lineBreakBefore_spec 1 s1).bind fun breaks s2 hl2 => ?_
    exact After.pure (hl1.trans hl2)
  · exact After.pure hl1

theorem atIndexSignature_spec (hs : Ready 1 s) :
    After atIndexSignature s fun yes s' => Looks 1 s s' ∧ (yes = true → kindHere s = bracketOpen) := by
  unfold atIndexSignature
  refine (at_spec bracketOpen hs).bind ?_
  rintro yes s1 ⟨hl1, hyes⟩
  cases yes with
  | false => exact After.pure ⟨hl1, fun h => by cases h⟩
  | true =>
    refine (peek_spec 1 s1).bind fun next s2 hl2 => ?_
    split
    · refine (peek_spec 2 s2).bind fun after s3 hl3 => ?_
      exact After.pure ⟨(hl1.trans hl2).trans hl3, fun _ => hyes.1 rfl⟩
    · exact After.pure ⟨hl1.trans hl2, fun h => by cases h⟩

/-- Modifiers are taken, or nothing has happened. -/
theorem memberModifiers_spec (hs : Ready 1 s) :
    After memberModifiers s fun _ s' => Run 1 1 s s' ∧ Quiet (grown s s') ∧
      (Still s s' ∨ cursor s < cursor s') := by
  unfold memberModifiers
  refine repeatWhile_spec (i := 1) (b := 0) (J := fun _ s1 => Quiet (grown s s1) ∧
    (Still s s1 ∨ cursor s < cursor s1)) hs (by decide) ⟨quiet_of_row_eq rfl, .inl (Still.refl s)⟩ ?_
  rintro s1 h1 hs1 ⟨hq1, hmv1⟩
  have stays : ∀ {m : Nat} {s2 : State}, m ≤ 1 → Looks m s1 s2 → Run 1 0 s1 s2 ∧
      (Quiet (grown s s2) ∧ (Still s s2 ∨ cursor s < cursor s2)) ∧
      (false = true → cursor s1 < cursor s2) := by
    intro m s2 hm hl
    have h2 := hl.run hs1.toSound
    refine ⟨h2.mono hm (Nat.le_refl 0), ⟨h1.toWalk.quiet_trans h2.toWalk hq1 hl.quiet, ?_⟩,
      fun h => by cases h⟩
    rcases hmv1 with hst | hlt
    · exact .inl (hst.trans hl.still)
    · exact .inr (Nat.lt_of_lt_of_le hlt h2.cursor_le)
  refine (atWord_spec "readonly" hs1).bind ?_
  rintro yes s2 ⟨hl2, hyes⟩
  cases yes with
  | false => exact After.pure (stays (by decide) hl2)
  | true =>
    refine (modifiesMember_spec s2).bind fun modifies s3 hl3 => ?_
    cases modifies with
    | false => exact After.pure (stays (by decide) (hl2.trans hl3))
    | true =>
      have hne : kindHere s1 ≠ error := by rw [hyes rfl]; decide
      refine (bump_takes hs1.toSound (hl2.trans hl3) hne).bind ?_
      rintro _ s4 ⟨h4, htake⟩
      have hlt := (htake.taken rfl).cursor_lt
      refine After.pure ⟨h4, ⟨h1.toWalk.quiet_trans h4.toWalk hq1 htake.quiet, .inr ?_⟩, fun _ => hlt⟩
      exact Nat.lt_of_le_of_lt h1.cursor_le hlt

theorem indexSignature_spec (ht : Nests n type) (hs : Ready 0 s) (hc : cursor s < s.tokens.size)
    (hn : left s ≤ n) : After (indexSignature type) s fun _ s' => Run 0 4 s s' ∧ Bare s s' := by
  unfold indexSignature
  refine bump_then (i := 4) (b := 4) hs.toSound hc fun s1 hs1 hlt => ?_
  refine (within_run (k := Kind.param) (i := 2) (b := 2) rfl hs1 fun s2 hs2 hst2 => ?_).bind ?_
  · refine (bindingName_spec (hs2.weaken (by decide))).bind ?_
    rintro _ s3 ⟨h3, -⟩
    have hn2 : left s2 ≤ n := by rw [hst2.left_eq]; omega
    refine (colonType_spec ht (h3.ready hs2 (by decide) (by decide))
      (Nat.le_trans h3.left_le hn2)).bind ?_
    rintro _ s4 ⟨h4, -⟩
    exact After.pure ((h3.trans h4).mono (by decide) (by decide))
  · intro _ s2 h2
    refine (expect_spec "]" (by decide) (h2.ready hs1 (by decide) (by decide))).bind ?_
    rintro _ s3 ⟨h3, -⟩
    have h13 := h2.trans h3
    refine (colonType_spec ht (h13.ready hs1 (by decide) (by decide))
      (Nat.le_trans h13.left_le (by omega))).bind ?_
    rintro _ s4 ⟨h4, -⟩
    exact After.pure ((h13.trans h4).mono (by decide) (by decide))

/-- What a member does: when it answers `true` it has taken a token, and otherwise it has, or nothing
has happened. -/
structure Tries (ok : Bool) (s s' : State) : Prop where
  owns : Owns (grown s s')
  taken : ok = true → cursor s < cursor s'
  passed : ok = false → Still s s' ∨ cursor s < cursor s'

/-- A step that does not move may come before a try. -/
theorem Tries.after {i b i' b' : Nat} {ok : Bool} {s' s'' : State} (h : Run i b s s')
    (hst : Still s s') (ho : Owns (grown s s')) (h' : Run i' b' s' s'') (htries : Tries ok s' s'') :
    Tries ok s s'' := by
  refine ⟨h.toWalk.owns_trans h'.toWalk ho htries.owns, fun hok => ?_, fun hok => ?_⟩
  · rw [← hst.cursor_eq]
    exact htries.taken hok
  · rw [← hst.cursor_eq]
    exact (htries.passed hok).imp_left hst.trans

theorem Tries.of_bare {s' : State} (h : Bare s s') : Tries true s s' :=
  ⟨h.quiet.owns, fun _ => h.cursor_lt, fun h => (by cases h)⟩

theorem unnamedMember_spec {start s1 : State} {i b : Nat} (modified : Bool) (hstart : Sound start)
    (h1 : Run i b start s1) (ho : Owns (grown start s1))
    (hmv : Still start s1 ∨ cursor start < cursor s1) :
    After (unnamedMember start.row.size modified) s1 fun _ s' =>
      Run i b start s' ∧ Tries false start s' := by
  have hreport : ∀ s2, Sound s2 → After (report .expectedIdentifier) s2 fun _ s3 =>
      Run 0 0 s2 s3 ∧ Still s2 s3 ∧ Quiet (grown s2 s3) := fun s2 hs2 =>
    (reportWith_spec _ _ hs2).mono fun _ _ h => ⟨h.1, h.2.1, quiet_of_row_eq h.2.2.1⟩
  have hend : ∀ s', Still s1 s' → Still start s' ∨ cursor start < cursor s' := by
    intro s' hst
    rcases hmv with hst1 | hlt
    · exact .inl (hst1.trans hst)
    · exact .inr (by rw [hst.cursor_eq]; exact hlt)
  unfold unnamedMember
  split
  · refine (withinFrom_spec (n := 0) (i := 0) (b := 0) (R := fun _ s2 s3 =>
      Still s2 s3 ∧ Quiet (grown s2 s3)) (by decide) hstart h1 ⟨h1.sound, Nat.zero_le _⟩
      fun s2 hs2 _ => (hreport s2 hs2.toSound).mono fun _ _ h =>
        ⟨h.1, proper_of_not_keyed rfl, h.2⟩).mono ?_
    rintro _ s' ⟨h', s2, s3, hst2, -, hcloses, hst', hst3, hq3⟩
    refine ⟨h'.mono (by omega) (by omega), hcloses.owns rfl (ho.append hq3.owns), fun h => (by cases h),
      fun _ => hend s' ((hst2.trans hst3).trans hst'.toStill)⟩
  · refine (hreport s1 h1.sound).mono ?_
    rintro _ s' ⟨h', hst', hq'⟩
    exact ⟨(h1.trans h').mono (by omega) (by omega), h1.toWalk.owns_trans h'.toWalk ho hq'.owns,
      fun h => (by cases h), fun _ => hend s' hst'⟩

/-- Behind its name a member has its name for a bare token. -/
theorem memberRest_spec {start s1 : State} {i b : Nat} (ht : Nests n type) (hstart : Sound start)
    (h1 : Run i b start s1) (hb1 : Bare start s1) (hb : b + 6 ≤ fullPatience) (hn : left start ≤ n) :
    After (memberRest type start.row.size) s1 fun _ s' =>
      Run 0 (max (b + 5) 24) start s' ∧ Bare start s' := by
  unfold memberRest
  have hs1 : Ready 6 s1 := h1.ready_moved hb1.cursor_lt hb
  refine (eat_spec (k := question) (by decide) (hs1.weaken (by decide))).bind ?_
  rintro _ s2 ⟨h2, -⟩
  have h12 := h1.trans h2
  refine (current_spec (h2.ready (m := 1) hs1 (by decide) (by decide))).look h2 ?_
  rintro k s3 h3 hl3 -
  have h13 := h1.trans h3
  have hs3 : Ready 4 s3 := h3.ready hs1 (by decide) (by decide)
  have hn3 : left s3 ≤ n := Nat.le_trans h13.left_le hn
  have hb13 := hb1.trans_walk h1.toWalk h3.toWalk
  split
  · refine (withinFrom_bare (k := methodSig) (i := 3) (b := 24) rfl hstart h13 hs3 fun s4 hs4 hst4 =>
      (signatureRest_spec ht hs4 (by rw [hst4.left_eq]; exact hn3)).mono fun _ _ h =>
        ⟨h.1, .inl hb13⟩).mono ?_
    rintro _ s' ⟨h', hb'⟩
    exact ⟨h'.mono (Nat.le_refl 0) (by omega), hb'⟩
  · refine (withinFrom_bare (k := propertySig) (i := 1) (b := 0) rfl hstart h13 hs3 fun s4 hs4 hst4 =>
      (whenAt_colonType ht (hs4.weaken (by decide)) (by rw [hst4.left_eq]; exact hn3)).mono
        fun _ _ h => ⟨h.1, .inl hb13⟩).mono ?_
    rintro _ s' ⟨h', hb'⟩
    exact ⟨h'.mono (Nat.le_refl 0) (by omega), hb'⟩

/-- A member that has a name holds its name, which is no part of a type. -/
theorem namedMember_spec (ht : Nests n type) (hs : Ready 4 s) (hn : left s ≤ n) :
    After (namedMember type) s fun ok s' => Run 3 25 s s' ∧ Tries ok s s' := by
  unfold namedMember
  refine (mark_spec hs.toSound).bind ?_
  rintro start s1 ⟨h1, hst1, hq1, rfl⟩
  have hn1 : left s1 ≤ n := by rw [hst1.left_eq]; exact hn
  have hs1 : Ready 4 s1 := h1.ready hs (by decide) (by decide)
  -- all parts start at the mark, so it is enough to argue from there
  suffices hmain : After _ s1 fun ok s' => Run 3 25 s1 s' ∧ Tries ok s1 s' by
    refine hmain.mono ?_
    rintro ok s' ⟨h', htries⟩
    exact ⟨(h1.trans h').mono (by decide) (by decide), Tries.after h1 hst1 hq1.owns h' htries⟩
  refine After.get ?_
  refine (memberModifiers_spec (hs1.weaken (by decide))).bind ?_
  rintro _ s2 ⟨h2, hq2, hmv2⟩
  refine After.get ?_
  refine (atIndexSignature_spec (h2.ready hs1 (by decide) (by decide))).look h2 ?_
  rintro index s3 h3 hl3 hindex
  have hs3 : Ready 2 s3 := h3.ready hs1 (by decide) (by decide)
  have hn3 : left s3 ≤ n := Nat.le_trans h3.left_le hn1
  cases index with
  | true =>
    have hc3 : cursor s3 < s3.tokens.size := cursor_lt_of_kind (by
      rw [hl3.still.kind_eq, hindex rfl]
      decide)
    refine (withinFrom_bare (k := indexSig) (i := 0) (b := 4) (n := 0) rfl h1.sound h3
      (hs3.weaken (by decide)) fun s4 hs4 hst4 => ?_).bind ?_
    · refine (indexSignature_spec ht hs4 ?_ (by rw [hst4.left_eq]; exact hn3)).mono fun _ _ h =>
        ⟨h.1, .inr h.2⟩
      rw [hst4.tokens_eq, hst4.cursor_eq]
      exact hc3
    · rintro _ s' ⟨h', hb⟩
      exact After.pure ⟨h'.mono (by decide) (by decide), Tries.of_bare hb⟩
  | false =>
    refine (current_spec (hs3.weaken (by decide))).look h3 ?_
    rintro k s4 h4 hl4 rfl
    have hl24 := hl3.trans hl4
    have hs4 : Ready 1 s4 := h4.ready hs1 (by decide) (by decide)
    split
    · -- there may have been modifiers, and then tokens have been taken although nothing is named
      have ho4 := h2.toWalk.owns_trans (hl24.run h2.sound).toWalk hq2.owns hl24.quiet.owns
      have hmv4 : Still s1 s4 ∨ cursor s1 < cursor s4 := by
        rw [hl24.still.cursor_eq]
        exact hmv2.imp_left fun hst => hst.trans hl24.still
      refine (unnamedMember_spec _ h1.sound h4 ho4 hmv4).bind ?_
      rintro _ s' ⟨h', htries⟩
      exact After.pure ⟨h'.mono (by decide) (by decide), htries⟩
    · rename_i hstarts
      have hs4' : startsMemberName (kindHere s4) = true := by
        rw [hl4.still.kind_eq]
        simpa using hstarts
      refine (memberName_spec hs4).bind ?_
      rintro _ s5 ⟨h5, -, hbare5⟩
      have hb5 := hbare5 hs4'
      refine (memberRest_spec ht h1.sound (h4.trans_moved h5 hb5.cursor_lt)
        (h4.toWalk.trans_bare hb5 h5.toWalk) (by decide) hn1).bind ?_
      rintro _ s' ⟨h', hb'⟩
      exact After.pure ⟨h'.mono (by decide) (by decide), Tries.of_bare hb'⟩

theorem member_spec (ht : Nests n type) (hs : Ready 5 s) (hn : left s ≤ n) :
    After (member type) s fun ok s' => Run 4 28 s s' ∧ Tries ok s s' := by
  unfold member
  refine (current_spec (hs.weaken (by decide))).bind ?_
  rintro k s1 ⟨hl1, rfl⟩
  have h1 := hl1.run hs.toSound
  have hs1 : Ready 4 s1 := hl1.ready hs
  have hn1 : left s1 ≤ n := by rw [hl1.still.left_eq]; exact hn
  -- a signature of its own kind, or a member with a name, seen from where the member starts
  have bare : ∀ {i b : Nat} {s' : State}, b ≤ 28 → Run i b s1 s' → Bare s1 s' →
      Run 4 28 s s' ∧ Tries true s s' := fun hb h' hb' =>
    ⟨(h1.trans_moved h' hb'.cursor_lt).mono (by decide) hb,
      Tries.of_bare (h1.toWalk.trans_bare hb' h'.toWalk)⟩
  have named : ∀ s2, Looks 1 s s2 → Ready 4 s2 → After (namedMember type) s2 fun ok s' =>
      Run 4 28 s s' ∧ Tries ok s s' := by
    intro s2 hl2 hs2
    have h2 := hl2.run hs.toSound
    refine (namedMember_spec ht hs2 (by rw [hl2.still.left_eq]; exact hn)).mono ?_
    rintro ok s' ⟨h', htries⟩
    exact ⟨(h2.trans h').mono (by decide) (by decide),
      Tries.after h2 hl2.still hl2.quiet.owns h' htries⟩
  split
  · rename_i hk
    have hk1 : kindHere s1 = parenOpen ∨ kindHere s1 = lt := by
      rw [hl1.still.kind_eq]
      simpa using hk
    refine (within_bare (k := callSig) (i := 3) (b := 24) rfl hs1 fun s2 hs2 hst2 => ?_).bind ?_
    · refine (signatureRest_spec ht hs2 (by rw [hst2.left_eq]; exact hn1)).mono fun _ _ h =>
        ⟨h.1, h.2.2 (by rw [hst2.kind_eq]; exact hk1)⟩
    · rintro _ s' ⟨h', hb'⟩
      exact After.pure (bare (by decide) h' hb')
  split
  · rename_i hnew
    refine (peek_spec 1 s1).bind fun next s2 hl2 => ?_
    have hl12 := hl1.trans hl2
    have hs2 : Ready 4 s2 := hl2.ready (m := 4) hs1
    split
    · have hc2 : kindHere s2 ≠ error := by
        rw [hl12.still.kind_eq, eq_of_beq hnew]
        decide
      refine (within_bump_bare (k := constructSig) (i := 3) (b := 24) rfl hs2 (cursor_lt_of_kind hc2)
        fun s3 hs3 hlt => ?_).bind ?_
      · rw [hl12.still.left_eq] at hlt
        exact (signatureRest_spec ht (hs3.weaken (by decide)) (by omega)).mono fun _ _ h => h.1
      · rintro _ s' ⟨h', hb'⟩
        have h2 := hl2.run h1.sound
        exact After.pure (bare (by decide) (h2.trans h') (h2.toWalk.trans_bare hb' h'.toWalk))
    · exact named s2 hl12 hs2
  · exact named s1 hl1 hs1

/-- A member or what stands in its place takes a token, unless members end here. -/
theorem memberOrSkipped_spec (ht : Nests n type) (hs : Ready 6 s) (hn : left s ≤ n) :
    After (memberOrSkipped type) s fun _ s' => Run 6 30 s s' ∧ Owns (grown s s') ∧
      (cursor s < cursor s' ∨ Still s s' ∧ Halts recoversMember s) := by
  unfold memberOrSkipped
  refine (member_spec ht (hs.weaken (by decide)) hn).bind ?_
  rintro ok s1 ⟨h1, htries⟩
  cases ok with
  | true =>
    exact After.pure ⟨h1.mono (by decide) (by decide), htries.owns, .inl (htries.taken rfl)⟩
  | false =>
    refine (skipUntil_spec recoversMember (h1.ready hs (by decide) (by decide))).mono ?_
    rintro _ s2 ⟨h2, ho2, hmv2⟩
    refine ⟨(h1.trans h2).mono (by decide) (by decide),
      h1.toWalk.owns_trans h2.toWalk htries.owns ho2, ?_⟩
    rcases htries.passed rfl with hst | hlt
    · rw [hst.halts_iff, hst.cursor_eq] at hmv2
      exact hmv2.imp_right fun h => ⟨hst.trans h.1, h.2⟩
    · exact .inl (Nat.lt_of_lt_of_le hlt h2.cursor_le)

theorem memberEnd_spec (hs : Ready 3 s) :
    After memberEnd s fun _ s' => Run 3 2 s s' ∧ Quiet (grown s s') ∧
      (kindHere s = semicolon ∨ kindHere s = comma → cursor s < cursor s') := by
  unfold memberEnd
  refine (eat_spec (k := semicolon) (by decide) (hs.weaken (by decide))).bind ?_
  rintro semi s1 ⟨h1, htake1, hsemi⟩
  cases semi with
  | true =>
    exact After.pure ⟨h1.mono (by decide) (by decide), htake1.quiet,
      fun _ => (htake1.taken rfl).cursor_lt⟩
  | false =>
    obtain ⟨hst1, -⟩ := htake1.passed rfl
    refine (eat_spec (k := comma) (by decide) (h1.ready hs (by decide) (by decide))).bind ?_
    rintro com s2 ⟨h2, htake2, hcom⟩
    have h12 := h1.trans h2
    have hq12 := h1.toWalk.quiet_trans h2.toWalk htake1.quiet htake2.quiet
    cases com with
    | true =>
      refine After.pure ⟨h12.mono (by decide) (by decide), hq12, fun _ => ?_⟩
      exact Nat.lt_of_le_of_lt h1.cursor_le (htake2.taken rfl).cursor_lt
    | false =>
      have hneither : ¬ (kindHere s = semicolon ∨ kindHere s = comma) := by
        rw [hst1.kind_eq] at hcom
        rintro (hk | hk)
        · exact absurd (hsemi.2 hk) (by decide)
        · exact absurd (hcom.2 hk) (by decide)
      refine (at_spec braceClose (h12.ready hs (by decide) (by decide))).look h12 ?_
      rintro closes s3 h3 hl3 -
      have hq3 := h12.toWalk.quiet_trans (hl3.run h2.sound).toWalk hq12 hl3.quiet
      cases closes with
      | true => exact After.pure ⟨h3.mono (by decide) (by decide), hq3, fun h => absurd h hneither⟩
      | false =>
        refine (lineBreakBefore_spec 0 s3).glance h3 fun breaks s4 h4 hl4 => ?_
        have hq4 := h3.toWalk.quiet_trans (hl4.run h3.sound).toWalk hq3 hl4.quiet
        cases breaks with
        | true => exact After.pure ⟨h4.mono (by decide) (by decide), hq4, fun h => absurd h hneither⟩
        | false =>
          refine (reportWith_spec _ _ h4.sound).mono ?_
          rintro _ s5 ⟨h5, -, hrow, -⟩
          exact ⟨(h4.trans h5).mono (by decide) (by decide),
            h4.toWalk.quiet_trans h5.toWalk hq4 (quiet_of_row_eq hrow), fun h => absurd h hneither⟩

/-- Members go on past a token with every turn: what is no member is skipped up to a separator, and
a separator is taken. -/
theorem members_spec (ht : Nests n type) (hs : Ready 10 s) (hn : left s ≤ n) :
    After (members type) s fun _ s' => Run 10 43 s s' ∧ Owns (grown s s') := by
  unfold members
  refine repeatWhile_spec (i := 10) (b := 33) (J := fun _ s1 => Owns (grown s s1)) hs (by decide)
    (quiet_of_row_eq rfl).owns fun s1 h1 hs1 ho1 => ?_
  have stays : ∀ {m : Nat} {s2 : State}, m ≤ 1 → Looks m s1 s2 → Run 10 33 s1 s2 ∧
      Owns (grown s s2) ∧ (false = true → cursor s1 < cursor s2) := fun hm hl =>
    have h2 := hl.run hs1.toSound
    ⟨h2.mono (Nat.le_trans hm (by decide)) (by decide),
      h1.toWalk.owns_trans h2.toWalk ho1 hl.quiet.owns, fun h => by cases h⟩
  refine (atEnd_spec s1).bind ?_
  rintro e s2 ⟨hl2, hmore, -⟩
  cases e with
  | true => exact After.pure (stays (by decide) hl2)
  | false =>
    refine (at_spec braceClose ((hl2.ready (m := 10) hs1).weaken (by decide))).bind ?_
    rintro closes s3 ⟨hl3, hcloses⟩
    have hl13 := hl2.trans hl3
    cases closes with
    | true => exact After.pure (stays (by decide) hl13)
    | false =>
      have h3 := hl13.run hs1.toSound
      have hs3 : Ready 9 s3 := hl13.ready hs1
      have hn3 : left s3 ≤ n := Nat.le_trans (Nat.le_trans h3.left_le h1.left_le) hn
      refine (memberOrSkipped_spec ht (hs3.weaken (by decide)) hn3).bind ?_
      rintro _ s4 ⟨h4, ho4, hmv4⟩
      refine (memberEnd_spec (h4.ready hs3 (by decide) (by decide))).bind ?_
      rintro _ s5 ⟨h5, hq5, hmv5⟩
      have h15 := (h3.trans h4).trans h5
      refine After.pure ⟨h15.mono (by decide) (by decide), ?_, fun _ => ?_⟩
      · refine (h1.trans h3).toWalk.owns_trans (h4.trans h5).toWalk ?_ ?_
        · exact h1.toWalk.owns_trans h3.toWalk ho1 hl13.quiet.owns
        · exact h4.toWalk.owns_trans h5.toWalk ho4 hq5.owns
      · rw [← hl13.still.cursor_eq]
        rcases hmv4 with hlt | ⟨hst, hhalt⟩
        · exact Nat.lt_of_lt_of_le hlt h5.cursor_le
        · -- nothing was taken although the text goes on: a separator is next
          obtain ⟨hlt, hfail⟩ := hmore rfl
          have hbrace : kindHere s3 ≠ braceClose := by
            rw [hl3.still.kind_eq]
            exact fun hk => absurd (hcloses.2 hk) (by decide)
          have hstop := (hl13.still.halts_iff.1 hhalt).stops hlt hfail
          rw [← hl13.still.kind_eq] at hstop
          rw [← hst.cursor_eq]
          refine hmv5 ?_
          rw [hst.kind_eq]
          revert hstop hbrace
          cases kindHere s3 <;> simp [recoversMember]

/-- An object type owns its braces; without them, what its members hold outside types. -/
theorem objectType_spec (ht : Nests n type) (hs : Ready 12 s) (hn : left s ≤ n) :
    After (objectType type) s fun _ s' => Run 12 44 s s' ∧
      (kindHere s = braceOpen → cursor s < cursor s') := by
  unfold objectType
  refine (within_spec (k := Kind.objectType) (i := 12) (b := 44) (R := fun _ s1 s2 =>
    kindHere s1 = braceOpen → cursor s1 < cursor s2) (by decide) hs fun s1 hs1 hst => ?_).mono ?_
  · refine (expect_spec _ (by decide) (hs1.weaken (by decide))).bind ?_
    rintro ok s2 ⟨h2, htake, hiff⟩
    have hs2 : Ready 11 s2 := h2.ready hs1 (by decide) (by decide)
    have hn2 : left s2 ≤ n := Nat.le_trans h2.left_le (by rw [hst.left_eq]; exact hn)
    refine (allowingConditional_spec (R := fun _ s3 s4 => Run 10 43 s3 s4 ∧ Owns (grown s3 s4))
      (hs2.weaken (by decide)) fun s3 hs3 h3 =>
        members_spec ht hs3 (by rw [h3.left_eq]; exact hn2)).bind ?_
    rintro _ s3 ⟨s2', s3', ha2, ha3, h3', ho3'⟩
    have h3 := ha2.run h3' ha3
    have ho3 : Owns (grown s2 s3) := by rw [ha2.grown_eq ha3]; exact ho3'
    refine (expect_spec _ (by decide) (h3.ready hs2 (by decide) (by decide))).bind ?_
    rintro _ s4 ⟨h4, htake4, -⟩
    have h24 := h3.trans h4
    refine After.pure ⟨(h2.trans h24).mono (by decide) (by decide), proper_of_owns ?_ (by decide),
      fun hk => ?_⟩
    · exact h2.toWalk.owns_trans h24.toWalk htake.quiet.owns
        (h3.toWalk.owns_trans h4.toWalk ho3 htake4.quiet.owns)
    · exact Nat.lt_of_lt_of_le (htake.taken (hiff.2 hk)).cursor_lt h24.cursor_le
  · rintro _ s' ⟨h', s1, s2, hst, -, -, hst', hmv⟩
    refine ⟨h', fun hk => ?_⟩
    rw [hst'.cursor_eq, ← hst.cursor_eq]
    exact hmv (hst.kind_eq.trans hk)

end Members

end DeclKit.Parser

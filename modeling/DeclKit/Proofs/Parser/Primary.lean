/-
Function types and primary types are runs, given that the types inside them are.

Every form but a missing type starts with a token of its own, which is bare in it: so the node owns a
token, and the type inside is called with fewer tokens left. The parameter of a mapped type is the one
keyed node that may be left without a token, where the text ends behind its brace.
-/
import DeclKit.Parser.Types
import DeclKit.Proofs.Parser.Members

set_option autoImplicit false

namespace DeclKit.Parser

open Kind
open DeclKit.Tree (tokensOfList bareAll hollowsAll CoversAll GoodAll Owns Quiet Proper)

section Primary

variable {s : State} {type : Parse Bool} {n : Nat}

/-! ## Function and constructor types -/

theorem atParameters_spec (s : State) : After atParameters s fun _ s' => Looks 0 s s' := by
  unfold atParameters
  refine (peek_spec 1 s).bind fun k s1 hl1 => ?_
  split
  case h_3 | h_4 =>
    refine (peek_spec 2 s1).bind fun k s2 hl2 => ?_
    split
    case h_5 =>
      refine (peek_spec 3 s2).bind fun k s3 hl3 => ?_
      exact After.pure ((hl1.trans hl2).trans hl3)
    all_goals exact After.pure (hl1.trans hl2)
  all_goals exact After.pure hl1

theorem atFunctionType_spec (hs : Ready 1 s) :
    After atFunctionType s fun yes s' => Looks 1 s s' ∧
      (yes = true → kindHere s = parenOpen ∨ kindHere s = lt) := by
  unfold atFunctionType
  refine (current_spec hs).bind ?_
  rintro k s1 ⟨hl1, rfl⟩
  split
  · rename_i hk
    exact After.pure ⟨hl1, fun _ => .inr hk⟩
  · rename_i hk
    refine (atParameters_spec s1).mono fun _ s2 hl2 => ?_
    exact ⟨hl1.trans hl2, fun _ => .inl hk⟩
  · exact After.pure ⟨hl1, fun h => by cases h⟩

/-- What an arrow type consists of takes a bare token, if its own first token is there. -/
theorem arrowRest_spec (ht : Nests n type) (hs : Ready 6 s) (hn : left s ≤ n)
    (hfew : kindHere s = parenOpen ∨ kindHere s = lt ∨ left s < n) :
    After (arrowRest type) s fun _ s' => Run 6 27 s s' ∧
      (kindHere s = parenOpen ∨ kindHere s = lt → Bare s s') := by
  unfold arrowRest
  refine (whenAt_bare (i := 0) (b := 19) hs fun s1 hs1 hst hk => typeParams_spec ht (hs1.weaken
    (by decide)) (cursor_lt_of_kind (by rw [hk]; decide)) (by rw [hst.left_eq]; exact hn)).bind ?_
  rintro _ s1 ⟨h1, -, hbare1, hstill1⟩
  refine (params_spec ht (h1.ready hs (by decide) (by decide)) (Nat.le_trans h1.left_le hn)).bind ?_
  rintro _ s2 ⟨h2, -, hbare2⟩
  have h12 := h1.trans h2
  have hs2 : Ready 4 s2 := h12.ready hs (by decide) (by decide)
  have hb12 : kindHere s = parenOpen ∨ kindHere s = lt → Bare s s2 := by
    rintro (hk | hk)
    · have hst1 := hstill1 (by rw [hk]; decide)
      exact h1.toWalk.trans_bare (hbare2 (hst1.kind_eq.trans hk)) h2.toWalk
    · exact (hbare1 hk).trans_walk h1.toWalk h2.toWalk
  -- the arrow may be missing, so the type behind it counts on what was taken before
  have hn2 : left s2 < n := by
    rcases hfew with hk | hk | hlt
    · exact Nat.lt_of_lt_of_le (h12.left_lt (hb12 (.inl hk)).cursor_lt) hn
    · exact Nat.lt_of_lt_of_le (h12.left_lt (hb12 (.inr hk)).cursor_lt) hn
    · exact Nat.lt_of_le_of_lt h12.left_le hlt
  refine (within_run (k := Kind.returnType) (i := 4) (b := 3) rfl hs2 fun s3 hs3 hst3 => ?_).mono ?_
  · refine (expect_spec _ (by decide) (hs3.weaken (by decide))).bind ?_
    rintro _ s4 ⟨h4, -⟩
    have hn4 : left s4 < n := Nat.lt_of_le_of_lt h4.left_le (by rw [hst3.left_eq]; exact hn2)
    refine (typeOrPredicate_spec ht (h4.ready hs3 (by decide) (by decide)) hn4).bind ?_
    intro _ s5 h5
    exact After.pure ((h4.trans h5).mono (by decide) (by decide))
  · intro _ s3 h3
    exact ⟨(h12.trans h3).mono (by decide) (by decide),
      fun hk => (hb12 hk).trans_walk h12.toWalk h3.toWalk⟩

theorem functionType_spec (ht : Nests n type) (hs : Ready 6 s) (hn : left s ≤ n)
    (hk : kindHere s = parenOpen ∨ kindHere s = lt) :
    After (functionType type) s fun _ s' => Run 0 27 s s' := by
  unfold functionType
  refine (within_keyed (k := Kind.functionType) (i := 6) (b := 27) (by decide) hs
    fun s1 hs1 hst => ?_).mono fun _ s' h => h.1.moving h.2
  have hk1 : kindHere s1 = parenOpen ∨ kindHere s1 = lt := by rw [hst.kind_eq]; exact hk
  refine (arrowRest_spec ht hs1 (by rw [hst.left_eq]; exact hn) (hk1.imp_right .inl)).mono ?_
  rintro _ s2 ⟨h2, hbare⟩
  exact ⟨h2, hbare hk1⟩

theorem atConstructorType_spec (hs : Ready 2 s) :
    After atConstructorType s fun yes s' => Looks 2 s s' ∧ (yes = true → kindHere s ≠ error) := by
  unfold atConstructorType
  refine (at_spec kwNew (hs.weaken (by decide))).bind ?_
  rintro yes s1 ⟨hl1, hyes⟩
  cases yes with
  | true => exact After.pure ⟨hl1.mono (by decide), fun _ => by rw [hyes.1 rfl]; decide⟩
  | false =>
    refine (atWord_spec _ (hl1.ready hs)).bind ?_
    rintro yes s2 ⟨hl2, hyes2⟩
    cases yes with
    | false => exact After.pure ⟨hl1.trans hl2, fun h => by cases h⟩
    | true =>
      have hk : kindHere s = ident := hl1.still.kind_eq.symm.trans (hyes2 rfl)
      refine (peek_spec 1 s2).bind fun next s3 hl3 => ?_
      exact After.pure ⟨(hl1.trans hl2).trans hl3, fun _ => by rw [hk]; decide⟩

theorem constructorType_spec (ht : Nests n type) (hs : Ready 1 s) (hn : left s ≤ n)
    (hk : kindHere s ≠ error) :
    After (constructorType type) s fun _ s' => Run 0 27 s s' := by
  unfold constructorType
  refine (within_keyed (k := Kind.constructorType) (i := 0) (b := 27) (by decide) hs
    fun s1 hs1 hst => ?_).mono fun _ s' h => h.1
  refine (eatWord_spec _ hs1).bind ?_
  rintro ok s2 ⟨h2, htake⟩
  refine (bump_spec h2.sound).bind ?_
  rintro _ s3 ⟨h3, hbare, -⟩
  have h13 := h2.trans h3
  have hb : Bare s1 s3 := by
    cases ok with
    | true => exact (htake.taken rfl).trans_walk h2.toWalk h3.toWalk
    | false =>
      obtain ⟨hst2, -⟩ := htake.passed rfl
      refine h2.toWalk.trans_bare (hbare (cursor_lt_of_kind ?_)) h3.toWalk
      rw [hst2.kind_eq, hst.kind_eq]
      exact hk
  have hs3 : Ready 6 s3 := h13.ready_moved hb.cursor_lt (by decide)
  have hn3 : left s3 < n := by
    refine Nat.lt_of_lt_of_le (h13.left_lt hb.cursor_lt) ?_
    rw [hst.left_eq]
    exact hn
  refine (arrowRest_spec ht hs3 (Nat.le_of_lt hn3) (.inr (.inr hn3))).mono ?_
  rintro _ s4 ⟨h4, -⟩
  have hb4 := hb.trans_walk h13.toWalk h4.toWalk
  exact ⟨((h13.trans h4).moving hb4.cursor_lt).mono (by decide) (by decide), hb4⟩

/-! ## References -/

theorem entityWithArgs_spec (ht : Nests n type) (hs : Ready 3 s) (hn : left s ≤ n) :
    After (entityWithArgs type) s fun _ s' => Run 3 9 s s' ∧ Owns (grown s s') := by
  unfold entityWithArgs
  refine (entity_spec (hs.weaken (by decide))).bind ?_
  rintro _ s1 ⟨h1, ho1⟩
  refine whenAt_spec (h1.ready hs (by decide) (by decide)) ?_ ?_
  · intro s2 hl2 _
    have h2 := hl2.run h1.sound
    exact ⟨(h1.trans h2).mono (by decide) (by decide),
      h1.toWalk.owns_trans h2.toWalk ho1 hl2.quiet.owns⟩
  · intro s2 hl2 hk
    refine (lineBreakBefore_spec 0 s2).bind fun breaks s3 hl3 => ?_
    have hl13 := hl2.trans hl3
    have h3 := hl13.run h1.sound
    have ho3 := h1.toWalk.owns_trans h3.toWalk ho1 hl13.quiet.owns
    cases breaks with
    | true => exact After.pure ⟨(h1.trans h3).mono (by decide) (by decide), ho3⟩
    | false =>
      have hc3 : kindHere s3 ≠ error := by rw [hl13.still.kind_eq, hk]; decide
      refine (typeArgs_spec ht ⟨h3.sound, Nat.zero_le _⟩ (cursor_lt_of_kind hc3)
        (Nat.le_trans (h1.trans h3).left_le hn)).mono ?_
      rintro _ s4 ⟨h4, hb4⟩
      exact ⟨((h1.trans h3).trans h4).mono (by decide) (by decide),
        (h1.trans h3).toWalk.owns_trans h4.toWalk ho3 hb4.quiet.owns⟩

theorem typeReference_spec (ht : Nests n type) (hs : Ready 3 s) (hn : left s ≤ n) :
    After (typeReference type) s fun _ s' => Run 3 9 s s' :=
  within_owning (by decide) (by decide) hs fun _ hs1 hst =>
    entityWithArgs_spec ht hs1 (by rw [hst.left_eq]; exact hn)

theorem typeQuery_spec (ht : Nests n type) (hs : Ready 0 s) (hc : cursor s < s.tokens.size)
    (hn : left s ≤ n) : After (typeQuery type) s fun _ s' => Run 0 9 s s' := by
  unfold typeQuery
  refine within_bump_keyed (i := 3) (b := 9) (by decide) hs hc fun s1 hs1 hlt => ?_
  exact (entityWithArgs_spec ht (hs1.weaken (by decide)) (by omega)).mono fun _ _ h => h.1

/-! ## Templates and tuples -/

theorem templateType_spec (ht : Nests n type) (hs : Ready 0 s) (hc : cursor s < s.tokens.size)
    (hn : left s ≤ n) : After (templateType type) s fun _ s' => Run 0 2 s s' := by
  unfold templateType
  refine within_bump_keyed (i := 1) (b := 2) (by decide) hs hc fun s1 hs1 hlt => ?_
  refine (repeatWhile_spec (i := 1) (b := 1) (J := fun _ _ => True) (hs1.weaken (m := 1) (by decide))
    (by decide) trivial fun s2 h2 hs2 _ => ?_).mono fun _ _ h => h.1
  refine (within_spec (k := templateSpan) (i := 1) (b := 1) (R := fun more s3 s4 =>
    more = true → cursor s3 < cursor s4) (by decide) hs2 fun s3 hs3 hst3 => ?_).mono ?_
  · have hn3 : left s3 < n := by
      have := h2.left_le
      rw [hst3.left_eq]
      omega
    refine (allowingConditional_run hs3 fun s4 hs4 hst4 =>
      ht.run hs4.toSound (by rw [hst4.left_eq]; exact hn3)).bind fun _ s4 h4 => ?_
    refine (current_spec (h4.ready hs3 (by decide) (by decide))).bind ?_
    rintro k s5 ⟨hl5, rfl⟩
    split
    · rename_i hk
      have hne : kindHere s4 ≠ error := by
        intro he
        rw [he] at hk
        exact absurd hk (by decide)
      refine (bump_takes h4.sound hl5 hne).bind ?_
      rintro _ s6 ⟨h6, htake⟩
      refine After.pure ⟨(h4.trans h6).mono (by decide) (by decide), proper_of_not_keyed rfl,
        fun _ => ?_⟩
      exact Nat.lt_of_le_of_lt h4.cursor_le (htake.taken rfl).cursor_lt
    · refine (report_looked _ _ h4.sound hl5).bind ?_
      rintro _ s6 ⟨h6, -⟩
      exact After.pure ⟨(h4.trans h6).mono (by decide) (by decide), proper_of_not_keyed rfl,
        fun h => by cases h⟩
  · rintro more s' ⟨h', s3, s4, hst3, -, -, hst', hmv⟩
    refine ⟨h', trivial, fun hm => ?_⟩
    rw [hst'.cursor_eq, ← hst3.cursor_eq]
    exact hmv hm

theorem atLabel_spec (nameAt : Nat) (s : State) :
    After (atLabel nameAt) s fun _ s' => Looks 0 s s' := by
  unfold atLabel
  refine (peek_spec nameAt s).bind fun k s1 hl1 => ?_
  split
  · refine (peek_spec (nameAt + 1) s1).bind fun k s2 hl2 => ?_
    split
    · exact After.pure (hl1.trans hl2)
    · refine (peek_spec (nameAt + 2) s2).bind fun k s3 hl3 => ?_
      exact After.pure ((hl1.trans hl2).trans hl3)
    · exact After.pure (hl1.trans hl2)
  · exact After.pure hl1

theorem tupleElement_spec (ht : Nests n type) (hs : Ready 4 s) (hn : left s < n) :
    After (tupleElement type) s fun _ s' => Run 4 4 s s' := by
  unfold tupleElement
  refine (at_spec dotDotDot (hs.weaken (by decide))).bind ?_
  rintro rest s1 ⟨hl1, -⟩
  refine (atLabel_spec _ s1).bind fun named s2 hl2 => ?_
  have hl12 := hl1.trans hl2
  have h2 := hl12.run hs.toSound
  have hs2 : Ready 3 s2 := hl12.ready hs
  have hn2 : left s2 < n := by rw [hl12.still.left_eq]; exact hn
  split
  · refine (within_run (k := namedTupleMember) (i := 3) (b := 3) rfl hs2 fun s3 hs3 hst3 => ?_).mono
      fun _ s' h' => (h2.trans h').mono (by decide) (by decide)
    refine (eat_spec (k := dotDotDot) (by decide) (hs3.weaken (by decide))).bind ?_
    rintro _ s4 ⟨h4, -⟩
    refine (bumpAs_starts (n := 2) (k := name) rfl (h4.ready hs3 (by decide) (by decide))).bind ?_
    rintro _ s5 ⟨h5, -⟩
    have h35 := h4.trans h5
    refine (eat_spec (k := question) (by decide) (h35.ready hs3 (by decide) (by decide))).bind ?_
    rintro _ s6 ⟨h6, -⟩
    have h36 := h35.trans h6
    refine (expect_spec ":" (by decide) (h36.ready hs3 (by decide) (by decide))).bind ?_
    rintro _ s7 ⟨h7, -⟩
    have h37 := h36.trans h7
    refine (ht.run h7.sound (Nat.lt_of_le_of_lt h37.left_le (by rw [hst3.left_eq]; exact hn2))).mono ?_
    intro _ s8 h8
    exact (h37.trans h8).mono (by decide) (by decide)
  split
  · refine (within_run (k := restType) (i := 0) (b := 0) rfl hs2 fun s3 hs3 hst3 => ?_).mono
      fun _ s' h' => (h2.trans h').mono (by decide) (by decide)
    refine (bump_spec hs3.toSound).bind ?_
    rintro _ s4 ⟨h4, -⟩
    refine (ht.run h4.sound (Nat.lt_of_le_of_lt h4.left_le (by rw [hst3.left_eq]; exact hn2))).mono ?_
    intro _ s5 h5
    exact h4.trans h5
  · refine (mark_spec h2.sound).bind ?_
    rintro start s3 ⟨h3, hst3, -, rfl⟩
    have h23 := h2.trans h3
    refine (ht.run h3.sound (by rw [hst3.left_eq]; exact hn2)).bind fun ok s4 h4 => ?_
    have h24 := h23.trans h4
    cases ok with
    | false => exact After.pure (h24.mono (by decide) (by decide))
    | true =>
      have hs4 : Ready 1 s4 := h24.ready hs (by decide) (by decide)
      refine ((whenAt_spec (Q := fun s' => Run 1 1 s3 s') hs4 ?_ ?_).bind ?_)
      · intro s5 hl5 _
        exact (h4.trans (hl5.run h4.sound)).mono (by decide) (by decide)
      · intro s5 hl5 hk
        have h5 := hl5.run h4.sound
        have hc5 : cursor s5 < s5.tokens.size := cursor_lt_of_kind (by
          rw [hl5.still.kind_eq, hk]
          decide)
        refine (withinFrom_bare (k := optionalType) (i := 0) (b := 0) (n := 0) rfl h3.sound
          (h4.trans h5) ⟨h5.sound, Nat.zero_le _⟩ fun s6 hs6 hst6 => ?_).mono
            fun _ s' h' => h'.1.mono (by decide) (by decide)
        refine (bump_spec hs6.toSound).mono fun _ s7 h7 => ⟨h7.1, .inr (h7.2.1 ?_)⟩
        rw [hst6.tokens_eq, hst6.cursor_eq]
        exact hc5
      · intro _ s5 h5
        exact After.pure ((h23.trans h5).mono (by decide) (by decide))

theorem tupleType_spec (ht : Nests n type) (hs : Ready 0 s) (hc : cursor s < s.tokens.size)
    (hn : left s ≤ n) : After (tupleType type) s fun _ s' => Run 0 17 s s' := by
  unfold tupleType
  refine within_bump_keyed (i := 9) (b := 17) (by decide) hs hc fun s1 hs1 hlt => ?_
  exact bracketList_spec (i := 4) (b := 4) (by decide) (hs1.weaken (by decide)) (by decide)
    fun s2 hle hs2 => tupleElement_spec ht hs2 (by omega)

theorem parenthesizedType_spec (ht : Nests n type) (hs : Ready 0 s) (hc : cursor s < s.tokens.size)
    (hn : left s ≤ n) : After (parenthesizedType type) s fun _ s' => Run 0 1 s s' := by
  unfold parenthesizedType
  refine within_bump_keyed (i := 1) (b := 1) (by decide) hs hc fun s1 hs1 hlt => ?_
  refine (allowingConditional_run hs1 fun s2 hs2 hst2 =>
    ht.run hs2.toSound (by rw [hst2.left_eq]; omega)).bind fun _ s2 h2 => ?_
  refine (expect_spec ")" (by decide) (h2.ready (m := 1) hs1 (by decide) (by decide))).bind ?_
  rintro _ s3 ⟨h3, -⟩
  exact After.pure ((h2.trans h3).mono (by decide) (by decide))

/-! ## Mapped types -/

/-- At most one parameter without tokens has been left behind, and then the text has ended. -/
def Spent (s s' : State) : Prop :=
  hollowsAll (grown s s') = 0 ∨ hollowsAll (grown s s') = 1 ∧ cursor s' = s.tokens.size

section Spent

variable {s' s'' : State} {i b i' b' : Nat}

theorem Spent.after (hw : Walk i b s s') (hz : hollowsAll (grown s s') = 0)
    (hw' : Walk i' b' s' s'') (h : Spent s' s'') : Spent s s'' := by
  rw [Spent, grown_trans hw.row_le hw'.row_le, Tree.hollowsAll_append, hz, Nat.zero_add]
  rw [Spent, hw.tokens_eq] at h
  exact h

/-- Where the text has ended, a further run leaves no parameter behind. -/
theorem Spent.trans_run (hw : Walk i b s s') (h : Spent s s') (h' : Run i' b' s' s'') :
    Spent s s'' := by
  have hc := h'.cursor_le
  have hsize := cursor_le_size h'.sound.pos_le
  have hh := h'.hollow
  rw [h'.tokens_eq, hw.tokens_eq] at hsize
  rw [Hollow, hw.tokens_eq] at hh
  rw [Spent, grown_trans hw.row_le h'.row_le, Tree.hollowsAll_append]
  rcases h with h0 | ⟨h1, he⟩
  · rcases hh with h0' | ⟨h1', -, he'⟩
    · exact .inl (by omega)
    · exact .inr ⟨by omega, he'⟩
  · rcases hh with h0' | ⟨-, hlt, -⟩
    · exact .inr ⟨by omega, by omega⟩
    · omega

/-- Started before the end of the text, it is a run like any other. -/
theorem Spent.run (hw : Walk i b s s') (h : Spent s s') (hc : cursor s < s.tokens.size) :
    Run i b s s' :=
  ⟨hw, h.imp_right fun h => ⟨h.1, hc, h.2⟩⟩

end Spent

theorem atMappedType_spec (s : State) : After atMappedType s fun _ s' => Looks 0 s s' := by
  unfold atMappedType
  refine (peek_spec 1 s).bind fun k s1 hl1 => ?_
  split
  · refine (peekText_spec 2 s1).bind fun text s2 hl2 => ?_
    exact After.pure (hl1.trans hl2)
  · refine (peekText_spec 1 s1).bind fun text s2 hl2 => ?_
    have hl12 := hl1.trans hl2
    extract_lets at?
    refine (peek_spec at? s2).bind fun k s3 hl3 => ?_
    have hl13 := hl12.trans hl3
    split
    · refine (peek_spec (at? + 1) s3).bind fun k s4 hl4 => ?_
      have hl14 := hl13.trans hl4
      split
      · refine (peek_spec (at? + 2) s4).bind fun k s5 hl5 => ?_
        exact After.pure (hl14.trans hl5)
      · exact After.pure hl14
    · exact After.pure hl13

theorem mappedSign_spec (hs : Ready 1 s) :
    After mappedSign s fun _ s' => Run 1 0 s s' ∧ hollowsAll (grown s s') = 0 := by
  unfold mappedSign
  refine (current_spec hs).bind ?_
  rintro k s1 ⟨hl1, rfl⟩
  split
  · rename_i hk
    have hne : kindHere s ≠ error := by
      intro he
      rw [he] at hk
      exact absurd hk (by decide)
    refine (bump_takes hs.toSound hl1 hne).bind ?_
    rintro _ s2 ⟨h2, htake⟩
    exact After.pure ⟨h2, htake.hollows_eq⟩
  · exact After.pure ⟨hl1.run hs.toSound, hl1.hollows_eq⟩

/-- The parameter of a mapped type has the next token for its name. Where there is none, the types in
it find none either. -/
theorem mappedParam_spec (ht : Nests n type) (hs : Ready 2 s) (hn : left s < n) :
    After (mappedParam type) s fun _ s' => Walk 2 2 s s' ∧ Spent s s' := by
  unfold mappedParam
  refine (within_walk (i := 2) (b := 2) (R := fun _ s1 s2 => Run 2 2 s1 s2 ∧
    (cursor s1 < s1.tokens.size → Bare s1 s2)) hs fun s1 hs1 hst1 => ?_).mono ?_
  · have hn1 : left s1 < n := by rw [hst1.left_eq]; exact hn
    refine (bumpAs_starts (k := name) rfl hs1).bind ?_
    rintro _ s2 ⟨h2, ho2, hbare2⟩
    refine (expect_spec "in" (by decide) (h2.ready hs1 (by decide) (by decide))).bind ?_
    rintro _ s3 ⟨h3, htake3, -⟩
    have h13 := h2.trans h3
    refine (ht s3 h3.sound (Nat.lt_of_le_of_lt h13.left_le hn1)).bind ?_
    rintro _ s4 ⟨h4, hrest4⟩
    have h14 := h13.trans h4
    refine (eatWord_spec "as" (h14.ready hs1 (by decide) (by decide))).bind ?_
    rintro renamed s5 ⟨h5, htake5⟩
    have h15 := h14.trans h5
    have hbare : ∀ {i b : Nat} {s' : State}, Run i b s2 s' → cursor s1 < s1.tokens.size →
        Bare s1 s' := fun h' hc => (hbare2 hc).trans_walk h2.toWalk h'.toWalk
    -- where the text has ended, only trivia are added
    have hend : ∀ {i b : Nat} {s' : State}, Run i b s1 s' → ¬ cursor s1 < s1.tokens.size →
        s'.tokens.size ≤ cursor s' := by
      intro i b s' h' hc
      rw [h'.tokens_eq]
      exact Nat.le_trans (Nat.le_of_not_lt hc) h'.cursor_le
    have ho15 : ¬ cursor s1 < s1.tokens.size → Owns (grown s1 s5) := fun hc =>
      h14.toWalk.owns_trans h5.toWalk (h13.toWalk.owns_trans h4.toWalk
        (h2.toWalk.owns_trans h3.toWalk ho2 htake3.quiet.owns) (hrest4 (hend h13 hc)))
        htake5.quiet.owns
    have proper : ∀ {i b : Nat} {s' : State}, Run i b s2 s' →
        (¬ cursor s1 < s1.tokens.size → Owns (grown s1 s')) → Proper mappedTypeParam (grown s1 s') := by
      intro i b s' h' ho
      refine proper_of_owns ?_ (by decide)
      rcases Nat.lt_or_ge (cursor s1) s1.tokens.size with hc | hc
      · exact (hbare h' hc).quiet.owns
      · exact ho (Nat.not_lt.2 hc)
    cases renamed with
    | false =>
      have h25 := (h3.trans h4).trans h5
      have hr : Run 2 2 s1 s5 := h15.mono (by decide) (by decide)
      exact After.pure ⟨hr.toWalk, proper h25 ho15, hr, hbare h25⟩
    | true =>
      refine (ht s5 h5.sound (Nat.lt_of_le_of_lt h15.left_le hn1)).bind ?_
      rintro _ s6 ⟨h6, hrest6⟩
      have h26 := ((h3.trans h4).trans h5).trans h6
      have hr : Run 2 2 s1 s6 := (h15.trans h6).mono (by decide) (by decide)
      exact After.pure ⟨hr.toWalk, proper h26 fun hc =>
        h15.toWalk.owns_trans h6.toWalk (ho15 hc) (hrest6 (hend h15 hc)), hr, hbare h26⟩
  · rintro _ s' ⟨s1, s2, hst1, hw, hw', hcloses, hst', hr, hbare⟩
    refine ⟨hw', ?_⟩
    have hsize := cursor_le_size hw.sound.pos_le
    have hc := hw.cursor_le
    have hh := hr.hollow
    rw [Hollow] at hh
    rw [hw.tokens_eq] at hsize
    rw [Spent, hcloses.hollows_eq, hst'.cursor_eq, ← hst1.tokens_eq]
    split
    · rename_i hempty
      -- before the end the name would have been taken
      have hend : ¬ cursor s1 < s1.tokens.size := by
        intro hlt
        have hsub := Tree.bareAll_subset (grown s1 s2)
        rw [hempty.2] at hsub
        exact (hbare hlt).bare (List.subset_nil.1 hsub)
      rcases hh with h0 | ⟨-, hlt, -⟩
      · exact .inr ⟨by omega, by omega⟩
      · exact absurd hlt hend
    · rw [Nat.zero_add]
      exact hh.imp_right fun h => ⟨h.1, h.2.2⟩

theorem mappedRest_spec (ht : Nests n type) (hs : Ready 5 s) (hn : left s ≤ n) :
    After (mappedRest type) s fun _ s' => Run 5 4 s s' := by
  unfold mappedRest
  refine (mappedSign_spec (hs.weaken (by decide))).bind ?_
  rintro signed s1 ⟨h1, -⟩
  have hs1 : Ready 4 s1 := h1.ready hs (by decide) (by decide)
  extract_lets rest
  have key : ∀ s2, Run 1 0 s1 s2 → After (rest ⟨⟩) s2 fun _ s' => Run 5 4 s s' := by
    intro s2 h2
    have h12 := h1.trans h2
    have hs2 : Ready 3 s2 := h2.ready hs1 (by decide) (by decide)
    refine (whenAt_bare (i := 0) (b := 0) hs2 fun s3 hs3 hst3 hk => ?_).bind ?_
    · exact within_bump_type ht rfl (hs3.weaken (by decide)) (cursor_lt_of_kind (by rw [hk]; decide))
        (by rw [hst3.left_eq]; exact Nat.le_trans h12.left_le hn)
    · rintro _ s3 ⟨h3, -⟩
      have h13 := h12.trans h3
      refine (eat_spec (k := semicolon) (by decide) (h13.ready hs (by decide) (by decide))).bind ?_
      rintro semi s4 ⟨h4, -⟩
      have h14 := h13.trans h4
      cases semi with
      | true => exact After.pure (h14.mono (by decide) (by decide))
      | false =>
        refine (eat_spec (k := comma) (by decide) (h14.ready hs (by decide) (by decide))).bind ?_
        rintro _ s5 ⟨h5, -⟩
        exact After.pure ((h14.trans h5).mono (by decide) (by decide))
  cases signed with
  | true =>
    refine (expect_spec "?" (by decide) (hs1.weaken (by decide))).bind ?_
    rintro _ s2 ⟨h2, -⟩
    exact key s2 h2
  | false =>
    refine (eat_spec (k := question) (by decide) (hs1.weaken (by decide))).bind ?_
    rintro _ s2 ⟨h2, -⟩
    exact key s2 h2

theorem mappedBody_spec (ht : Nests n type) (hs : Ready 11 s) (hn : left s < n) :
    After (mappedBody type) s fun _ s' => Walk 11 10 s s' ∧ Spent s s' := by
  unfold mappedBody
  refine (mappedSign_spec (hs.weaken (by decide))).bind ?_
  rintro _ s1 ⟨h1, hz1⟩
  refine (eatWord_spec "readonly" (h1.ready hs (by decide) (by decide))).bind ?_
  rintro _ s2 ⟨h2, htake2⟩
  have h12 := h1.trans h2
  refine (expect_spec "[" (by decide) (h12.ready hs (by decide) (by decide))).bind ?_
  rintro _ s3 ⟨h3, htake3, -⟩
  have h13 := h12.trans h3
  have hz13 : hollowsAll (grown s s3) = 0 := by
    rw [grown_trans h12.row_le h3.row_le, grown_trans h1.row_le h2.row_le]
    simp only [Tree.hollowsAll_append, hz1, htake2.hollows_eq, htake3.hollows_eq]
  refine (mappedParam_spec ht (h13.ready hs (by decide) (by decide))
    (Nat.lt_of_le_of_lt h13.left_le hn)).bind ?_
  rintro _ s4 ⟨h4, hspent4⟩
  have h14 := h13.toWalk.trans h4
  refine (expect_spec "]" (by decide) (h14.ready hs (by decide) (by decide))).bind ?_
  rintro _ s5 ⟨h5, -⟩
  have h15 := h14.trans h5.toWalk
  refine (mappedRest_spec ht (h15.ready hs (by decide) (by decide))
    (Nat.le_of_lt (Nat.lt_of_le_of_lt h15.left_le hn))).mono ?_
  intro _ s6 h6
  exact ⟨(h15.trans h6.toWalk).mono (by decide) (by decide),
    (hspent4.after h13.toWalk hz13 h4).trans_run h14 (h5.trans h6)⟩

theorem mappedType_spec (ht : Nests n type) (hs : Ready 0 s) (hc : cursor s < s.tokens.size)
    (hn : left s ≤ n) : After (mappedType type) s fun _ s' => Run 0 12 s s' := by
  unfold mappedType
  refine (within_keyed (k := Kind.mappedType) (i := 0) (b := 12) (by decide) hs
    fun s1 hs1 hst => ?_).mono fun _ _ h => h.1
  have hc1 : cursor s1 < s1.tokens.size := by rw [hst.tokens_eq, hst.cursor_eq]; exact hc
  refine (bump_spec hs1.toSound).bind ?_
  rintro _ s2 ⟨h2, hbare, -, hz2⟩
  have hb := hbare hc1
  have hs2 : Ready 12 s2 := h2.ready_moved hb.cursor_lt (by decide)
  have hn2 : left s2 < n := by
    refine Nat.lt_of_lt_of_le (h2.left_lt hb.cursor_lt) ?_
    rw [hst.left_eq]
    exact hn
  refine (allowingConditional_spec (R := fun _ s3 s4 => Walk 11 10 s3 s4 ∧ Spent s3 s4)
    (hs2.weaken (by decide)) fun s3 hs3 h3 =>
      mappedBody_spec ht hs3 (by rw [h3.left_eq]; exact hn2)).bind ?_
  rintro _ s3 ⟨s2', s3', ha2, ha3, hw, hspent⟩
  -- the brace stands before whatever is left behind in the body
  have hw3 := ha2.walk hw ha3
  have hspent3 : Spent s2 s3 := by
    rw [Spent, ha2.grown_eq ha3, ha3.cursor_eq, ← ha2.tokens_eq]
    exact hspent
  have h13 := Spent.run (h2.toWalk.trans hw3) (hspent3.after h2.toWalk hz2 hw3) hc1
  refine (expect_spec _ (by decide) (hw3.ready hs2 (by decide) (by decide))).bind ?_
  rintro _ s4 ⟨h4, -⟩
  have hb4 := hb.trans_walk h2.toWalk (hw3.trans h4.toWalk)
  exact After.pure ⟨((h13.trans h4).moving hb4.cursor_lt).mono (by decide) (by decide), hb4⟩

/-! ## Primary types -/

/-- Where no type can be read at most one token is taken, into an error. -/
theorem missingType_spec (hs : Ready 1 s) :
    After missingType s fun _ s' => Run 1 1 s s' ∧ Owns (grown s s') := by
  unfold missingType
  refine (current_spec hs).bind ?_
  rintro k s1 ⟨hl1, -⟩
  have reports : ∀ (ended : Bool) (s2 : State), Looks 1 s s2 →
      After (do
        if ended then report .expectedType else reportAndBump .expectedType
        return false) s2 fun _ s' => Run 1 1 s s' ∧ Owns (grown s s') := by
    intro ended s2 hl2
    have h2 := hl2.run hs.toSound
    cases ended with
    | true =>
      refine (report_looked _ _ hs.toSound hl2).bind ?_
      rintro _ s3 ⟨h3, -, hrow⟩
      exact After.pure ⟨h3.mono (by decide) (by decide), (quiet_of_row_eq hrow).owns⟩
    | false =>
      refine (reportAndBump_spec (n := 0) _ ⟨h2.sound, Nat.zero_le _⟩).bind ?_
      rintro _ s3 ⟨h3, ho3, -⟩
      exact After.pure ⟨(h2.trans h3).mono (by decide) (by decide),
        h2.toWalk.owns_trans h3.toWalk hl2.quiet.owns ho3⟩
  extract_lets ends
  split
  · exact reports true s1 hl1
  · refine (atEnd_spec s1).bind ?_
    rintro e s2 ⟨hl2, -⟩
    exact reports e s2 (hl1.trans hl2)

/-- A name is a keyword for a type only where no dot follows. -/
theorem namedType_spec (ht : Nests n type) (hs : Ready 3 s) (hc : cursor s < s.tokens.size)
    (hn : left s ≤ n) :
    After (do
      if keywordTypes.contains (← currentText) then
        if (← peek 1) == dot then typeReference type else bumpAs keywordType
      else typeReference type
      return true) s fun _ s' => Run 3 9 s s' := by
  refine (currentText_spec s).bind fun text s1 hl1 => ?_
  have reference : ∀ {s2 : State}, Looks 0 s s2 →
      After (typeReference type) s2 fun _ s' => Run 3 9 s s' := by
    intro s2 hl2
    refine (typeReference_spec ht (hl2.ready hs) (by rw [hl2.still.left_eq]; exact hn)).mono ?_
    intro _ s' h'
    exact ((hl2.run hs.toSound).trans h').mono (by decide) (by decide)
  extract_lets done
  split
  · refine (peek_spec 1 s1).bind fun next s2 hl2 => ?_
    have hl12 := hl1.trans hl2
    split
    · exact (reference hl12).bind fun _ _ h => After.pure h
    · have hc2 : cursor s2 < s2.tokens.size := by
        rw [hl12.still.tokens_eq, hl12.still.cursor_eq]
        exact hc
      refine (bumpAs_spec (k := keywordType) (n := 3) (by decide) (hl12.ready hs) hc2).bind ?_
      rintro _ s3 ⟨h3, -⟩
      exact After.pure (((hl12.run hs.toSound).trans h3).mono (by decide) (by decide))
  · exact (reference hl1).bind fun _ _ h => After.pure h

/-- An open brace is taken by a mapped type as well as by an object type. -/
theorem braceType_spec (ht : Nests n type) (hs : Ready 12 s) (hk : kindHere s = braceOpen)
    (hn : left s ≤ n) :
    After (do
      if ← atMappedType then mappedType type else objectType type
      return true) s fun _ s' => Run 0 44 s s' := by
  refine (atMappedType_spec s).bind fun mapped s1 hl1 => ?_
  have h1 := hl1.run hs.toSound
  have hs1 : Ready 12 s1 := hl1.ready hs
  have hk1 : kindHere s1 = braceOpen := hl1.still.kind_eq.trans hk
  have hn1 : left s1 ≤ n := by rw [hl1.still.left_eq]; exact hn
  extract_lets done
  cases mapped with
  | true =>
    have hc1 : cursor s1 < s1.tokens.size := cursor_lt_of_kind (by rw [hk1]; decide)
    refine (mappedType_spec ht (hs1.weaken (by decide)) hc1 hn1).bind fun _ s2 h2 => ?_
    exact After.pure ((h1.trans h2).mono (by decide) (by decide))
  | false =>
    refine (objectType_spec ht hs1 hn1).bind ?_
    rintro _ s2 ⟨h2, hmv2⟩
    exact After.pure ((h1.trans_moved h2 (hmv2 hk1)).mono (by decide) (by decide))

/-- A primary type is a single token, or starts with a token of its own; where it is missing nothing
is put into a type. -/
theorem primaryType_spec (ht : Nests n type) (hs : Ready 13 s) (hn : left s ≤ n) :
    After (primaryType type) s fun _ s' => Run 4 44 s s' ∧ Rests s s' := by
  unfold primaryType
  refine (current_spec (hs.weaken (by decide))).bind ?_
  rintro k s1 ⟨hl1, rfl⟩
  have hs1 : Ready 12 s1 := hl1.ready hs
  have hn1 : left s1 ≤ n := by rw [hl1.still.left_eq]; exact hn
  -- every form but one starts at a token, and so before the end of the text
  have taken : ∀ {p : Parse Bool} {i b : Nat}, i ≤ 3 → b ≤ 44 → kindHere s ≠ error →
      (cursor s1 < s1.tokens.size → After p s1 fun _ s' => Run i b s1 s') →
      After p s1 fun _ s' => Run 4 44 s s' ∧ Rests s s' := by
    intro p i b hi hb hne inner
    have hc1 := cursor_lt_of_kind (s := s1) (by rw [hl1.still.kind_eq]; exact hne)
    refine (inner hc1).mono fun _ s' h' => ⟨?_, rests_of_lt (cursor_lt_of_kind hne)⟩
    exact ((hl1.run hs.toSound).trans h').mono (by omega) (by omega)
  have missing : ∀ {s2 : State}, Looks 1 s s2 → After missingType s2 fun _ s' =>
      Run 4 44 s s' ∧ Rests s s' := by
    intro s2 hl2
    have h2 := hl2.run hs.toSound
    refine (missingType_spec (h2.ready hs (by decide) (by decide))).mono ?_
    rintro _ s' ⟨h', ho'⟩
    exact ⟨(h2.trans h').mono (by decide) (by decide),
      Rests.after h2 hl2.still.cursor_eq hl2.quiet.owns h' fun _ => ho'⟩
  split
  case h_1 =>
    rename_i hk
    exact taken (by decide) (by decide) (by rw [hk]; decide) fun hc1 =>
      namedType_spec ht (hs1.weaken (by decide)) hc1 hn1
  case h_11 =>
    rename_i hk
    have hne : kindHere s ≠ error := by rw [hk]; decide
    refine (peek_spec 1 s1).bind fun next s2 hl2 => ?_
    have hl12 := hl1.trans hl2
    split
    · have hc2 := cursor_lt_of_kind (s := s2) (by rw [hl12.still.kind_eq]; exact hne)
      refine (within_bump_keyed (k := literalType) (n := 12) (i := 0) (b := 0) (by decide)
        (hl2.ready hs1) hc2 fun s3 hs3 _ =>
          (bump_spec hs3.toSound).mono fun _ _ h => h.1).bind fun _ s3 h3 => ?_
      exact After.pure ⟨((hl12.run hs.toSound).trans h3).mono (by decide) (by decide),
        rests_of_lt (cursor_lt_of_kind hne)⟩
    · exact missing hl12
  case h_12 =>
    rename_i hk
    exact taken (by decide) (by decide) (by rw [hk]; decide) fun hc1 =>
      (templateType_spec ht (hs1.weaken (by decide)) hc1 hn1).bind fun _ _ h => After.pure h
  case h_13 =>
    rename_i hk
    exact taken (by decide) (by decide) (by rw [hk]; decide) fun hc1 =>
      (typeQuery_spec ht (hs1.weaken (by decide)) hc1 hn1).bind fun _ _ h => After.pure h
  case h_14 =>
    rename_i hk
    exact taken (by decide) (by decide) (by rw [hk]; decide) fun _ =>
      braceType_spec ht hs1 (hl1.still.kind_eq.trans hk) hn1
  case h_15 =>
    rename_i hk
    exact taken (by decide) (by decide) (by rw [hk]; decide) fun hc1 =>
      (tupleType_spec ht (hs1.weaken (by decide)) hc1 hn1).bind fun _ _ h => After.pure h
  case h_16 =>
    rename_i hk
    exact taken (by decide) (by decide) (by rw [hk]; decide) fun hc1 =>
      (parenthesizedType_spec ht (hs1.weaken (by decide)) hc1 hn1).bind fun _ _ h => After.pure h
  case h_17 => exact missing hl1
  -- what is left are the types of a single token
  all_goals
    rename_i hk
    exact taken (by decide) (by decide) (by rw [hk]; decide) fun hc1 =>
      (bumpAs_spec (by decide) hs1 hc1).bind fun _ _ h => After.pure h.1

end Primary

end DeclKit.Parser

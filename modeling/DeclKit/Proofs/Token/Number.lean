/-
Numbers, and what goes on with them.

A number is cut off as digits behind a radix mark, or as digits with a fraction and an exponent, which
may be missing. Which of these a number is decides what it takes with it when more characters follow: more
digits always, a point only behind a whole number, an exponent only where there is none, and the mark of a
big integer only behind a whole number or behind hexadecimal digits.
-/
import DeclKit.Proofs.Comment.Scan
import DeclKit.Proofs.Token.Naming

set_option autoImplicit false

namespace DeclKit.Token

open Kind

variable {c d mark : Char} {cs ds w x rest : List Char} {p : Char → Bool}

/-! ## Runs of digits -/

theorem runLength_behind (hds : ∀ c ∈ ds, p c = true) (rest : List Char) :
    runLength p (ds ++ rest) = ds.length + runLength p rest := by
  rw [runLength, List.takeWhile_append_of_pos hds, List.length_append, runLength]

theorem runLength_eq_zero : runLength p cs = 0 ↔ cs.head?.any p = false := by
  cases cs with
  | nil => simp [runLength]
  | cons c cs => cases hc : p c <;> simp [runLength, hc]

theorem runLength_cons (hc : p c = true) (cs : List Char) :
    runLength p (c :: cs) = runLength p cs + 1 := by
  rw [runLength, List.takeWhile_cons_of_pos hc, List.length_cons, runLength]

theorem forall_take_runLength (p : Char → Bool) (cs : List Char) :
    ∀ c ∈ cs.take (runLength p cs), p c = true := fun _ hc => of_mem_take_runLength hc

/-- Decimal digits and digit separators only. -/
def DigitParts (ds : List Char) : Prop := ∀ c ∈ ds, isDigitPart c = true

theorem isDigitPart_of_isDigit (h : c.isDigit = true) : isDigitPart c = true := by
  rw [isDigitPart, h, Bool.true_or]

/-! ## Exponents -/

/-- The letter that an exponent starts with. -/
def isExponentMark (c : Char) : Bool := c == 'e' || c == 'E'

theorem isExponentMark_iff : isExponentMark c = true ↔ c = 'e' ∨ c = 'E' := by
  rw [isExponentMark, Bool.or_eq_true, beq_iff_eq, beq_iff_eq]

theorem not_isDigitPart_of_isExponentMark (h : isExponentMark c = true) : isDigitPart c = false := by
  obtain rfl | rfl := isExponentMark_iff.1 h <;> rfl

/-- An exponent, or nothing. -/
inductive ExponentText : List Char → Prop where
  | none : ExponentText []
  | plain {e d : Char} {ds : List Char} : isExponentMark e = true → d.isDigit = true →
      DigitParts ds → ExponentText (e :: d :: ds)
  | signed {e sign d : Char} {ds : List Char} : isExponentMark e = true → sign = '+' ∨ sign = '-' →
      d.isDigit = true → DigitParts ds → ExponentText (e :: sign :: d :: ds)

/-- An exponent goes on with digits only. -/
theorem exponentLength_append (hx : ExponentText x) (hne : x ≠ []) (rest : List Char) :
    exponentLength (x ++ rest) = x.length + runLength isDigitPart rest := by
  cases hx with
  | none => exact absurd rfl hne
  | @plain e d ds he hd hds =>
    simp only [List.cons_append, exponentLength]
    rw [if_pos (by exact he), if_pos hd, runLength_behind hds, List.length_cons, List.length_cons]
    omega
  | @signed e sign d ds he hsign hd hds =>
    have hnot : sign.isDigit = false := by obtain rfl | rfl := hsign <;> rfl
    have hmark : (sign == '+' || sign == '-') = true := by obtain rfl | rfl := hsign <;> rfl
    simp only [List.cons_append, exponentLength]
    rw [if_pos (by exact he), if_neg (by rw [hnot]; exact Bool.false_ne_true), if_pos hmark, if_pos hd,
      runLength_behind hds, List.length_cons, List.length_cons, List.length_cons]
    omega

theorem exponentText_take (cs : List Char) : ExponentText (cs.take (exponentLength cs)) := by
  unfold exponentLength
  split
  · rename_i e s rest
    split
    · rename_i he
      split
      · rename_i hs
        rw [Nat.add_comm, List.take_succ_cons, List.take_succ_cons]
        exact .plain he hs (forall_take_runLength _ _)
      split
      · rename_i hsign
        rw [Bool.or_eq_true, beq_iff_eq, beq_iff_eq] at hsign
        split
        · rename_i d more
          split
          · rename_i hd
            rw [Nat.add_comm, List.take_succ_cons, List.take_succ_cons, List.take_succ_cons]
            exact .signed he hsign hd (forall_take_runLength _ _)
          · exact .none
        · exact .none
      · exact .none
    · exact .none
  · rw [List.take_zero]
    exact .none

/-- At the front of an exponent stands its letter. -/
theorem head?_exponent (hx : ExponentText x) (hne : x ≠ []) (rest : List Char) :
    ∃ e more, x ++ rest = e :: more ∧ isExponentMark e = true := by
  cases hx with
  | none => exact absurd rfl hne
  | plain he => exact ⟨_, _, rfl, he⟩
  | signed he => exact ⟨_, _, rfl, he⟩

/-- Nothing goes on with an exponent but digits, and where there is none a whole one may follow. -/
def exponentGoesOn (x rest : List Char) : Bool :=
  rest.head?.any isDigitPart || (x.isEmpty && exponentLength rest != 0)

/-- Digits with an exponent are taken together, and nothing more exactly if neither goes on. -/
theorem digits_exponent_iff (hds : DigitParts ds) (hx : ExponentText x) :
    runLength isDigitPart (ds ++ (x ++ rest)) +
        exponentLength ((ds ++ (x ++ rest)).drop (runLength isDigitPart (ds ++ (x ++ rest)))) =
      ds.length + x.length ↔ exponentGoesOn x rest = false := by
  rw [exponentGoesOn, Bool.or_eq_false_iff, ← runLength_eq_zero, runLength_behind hds]
  by_cases hne : x = []
  · subst hne
    rw [List.nil_append, List.isEmpty_nil, Bool.true_and, bne_eq_false_iff_eq, List.length_nil]
    constructor
    · intro h
      have hrun : runLength isDigitPart rest = 0 := by omega
      rw [hrun, Nat.add_zero, List.drop_left] at h
      exact ⟨hrun, by omega⟩
    · rintro ⟨hrun, hexponent⟩
      rw [hrun, Nat.add_zero, List.drop_left, hexponent, Nat.add_zero]
  · obtain ⟨e, more, hhead, he⟩ := head?_exponent hx hne rest
    have hrun : runLength isDigitPart (x ++ rest) = 0 := by
      rw [runLength_eq_zero, hhead]
      exact not_isDigitPart_of_isExponentMark he
    rw [hrun, Nat.add_zero, List.drop_left, exponentLength_append hx hne,
      List.isEmpty_eq_false_iff.2 hne, Bool.false_and]
    simp only [and_true]
    omega

/-! ## Radix marks -/

/-- The digits that a radix mark allows. -/
def radixDigit? (mark : Char) : Option (Char → Bool) :=
  if mark == 'x' || mark == 'X' then some isHexPart
  else if mark == 'o' || mark == 'O' then some fun c => ('0' ≤ c && c ≤ '7') || c == '_'
  else if mark == 'b' || mark == 'B' then some fun c => c == '0' || c == '1' || c == '_'
  else none

/-- The radix mark that a big integer may have. -/
def isHexMark (mark : Char) : Bool := mark == 'x' || mark == 'X'

theorem radixLength_mark (hmark : radixDigit? mark = some p) (rest : List Char) :
    radixLength ('0' :: mark :: rest) =
      if runLength p rest = 0 then (0, false) else (runLength p rest + 2, isHexMark mark) := by
  simp only [radixLength, beq_iff_eq]
  unfold radixDigit? at hmark
  split_ifs at hmark with hx ho hb
  · obtain rfl := Option.some.inj hmark
    rw [if_pos hx, isHexMark, hx]
  · obtain rfl := Option.some.inj hmark
    rw [if_neg hx, if_pos ho, isHexMark, Bool.eq_false_iff.2 hx]
  · obtain rfl := Option.some.inj hmark
    rw [if_neg hx, if_neg ho, if_pos hb, isHexMark, Bool.eq_false_iff.2 hx]

theorem mem_of_radixDigit? (h : radixDigit? c = some p) : c ∈ ['x', 'X', 'o', 'O', 'b', 'B'] := by
  unfold radixDigit? at h
  simp only [Bool.or_eq_true, beq_iff_eq] at h
  split_ifs at h with hx ho hb
  · obtain rfl | rfl := hx <;> decide
  · obtain rfl | rfl := ho <;> decide
  · obtain rfl | rfl := hb <;> decide

/-- A character of a decimal number is no radix mark. -/
theorem radixDigit?_eq_none (h : isDigitPart c = true ∨ isExponentMark c = true ∨ c = '.' ∨ c = 'n') :
    radixDigit? c = none := by
  refine Option.eq_none_iff_forall_ne_some.2 fun p hp => ?_
  have hmem := mem_of_radixDigit? hp
  simp only [List.mem_cons, List.not_mem_nil, or_false] at hmem
  obtain rfl | rfl | rfl | rfl | rfl | rfl := hmem <;> exact absurd h (by decide)

theorem radixLength_none (h : cs[1]?.bind radixDigit? = none) : radixLength cs = (0, false) := by
  refine radixLength_eq fun c hc hmem => ?_
  rw [List.head?_drop] at hc
  rw [Option.mem_def.1 hc, Option.bind_some] at h
  simp only [List.mem_cons, List.not_mem_nil, or_false] at hmem
  obtain rfl | rfl | rfl | rfl | rfl | rfl := hmem <;> exact absurd h (by simp [radixDigit?])

/-- There is a number with a radix mark where digits stand behind the mark. -/
theorem radixLength_cases (cs : List Char) : radixLength cs = (0, false) ∨
    ∃ mark p rest, cs = '0' :: mark :: rest ∧ radixDigit? mark = some p ∧ runLength p rest ≠ 0 := by
  cases hsecond : cs[1]?.bind radixDigit? with
  | none => exact .inl (radixLength_none hsecond)
  | some p =>
    obtain ⟨mark, hget, hmark⟩ := Option.bind_eq_some_iff.1 hsecond
    match cs with
    | [] => cases hget
    | [_] => cases hget
    | c :: _ :: rest =>
      obtain rfl := Option.some.inj hget
      by_cases hc : c = '0'
      · subst hc
        by_cases hrun : runLength p rest = 0
        · left
          rw [radixLength_mark hmark, if_pos hrun]
        · exact .inr ⟨_, p, rest, rfl, hmark, hrun⟩
      · left
        unfold radixLength
        split
        · rename_i heq
          exact absurd (List.cons.inj heq).1 hc
        · rfl

/-! ## Numbers -/

/-- The characters of a number: behind a radix mark, whole, with a fraction, or with a point in front. -/
inductive NumberText : List Char → Prop where
  | radix {mark : Char} {p : Char → Bool} {ds : List Char} : radixDigit? mark = some p → ds ≠ [] →
      (∀ c ∈ ds, p c = true) → NumberText ('0' :: mark :: ds)
  | whole {d : Char} {ds x : List Char} : d.isDigit = true → DigitParts ds → ExponentText x →
      NumberText (d :: (ds ++ x))
  | fraction {d : Char} {ds places x : List Char} : d.isDigit = true → DigitParts ds →
      DigitParts places → ExponentText x → NumberText (d :: (ds ++ '.' :: (places ++ x)))
  | point {d : Char} {ds x : List Char} : d.isDigit = true → DigitParts ds → ExponentText x →
      NumberText ('.' :: d :: (ds ++ x))

/-- The characters of a big integer. -/
inductive BigText : List Char → Prop where
  | radix {mark : Char} {ds : List Char} : isHexMark mark = true → ds ≠ [] →
      (∀ c ∈ ds, isHexPart c = true) → BigText ('0' :: mark :: (ds ++ ['n']))
  | whole {d : Char} {ds : List Char} : d.isDigit = true → DigitParts ds → BigText (d :: (ds ++ ['n']))

/-- The number goes on in what stands behind it. -/
def numberGoesOn (w rest : List Char) : Bool :=
  match w[1]?.bind radixDigit? with
  | some p => rest.head?.any p || (w[1]?.any isHexMark && rest.head? == some 'n')
  | none =>
    rest.head?.any isDigitPart || (!w.any isExponentMark && exponentLength rest != 0) ||
      (w.all isDigitPart && (rest.head? == some '.' || rest.head? == some 'n' ||
        (w == ['0'] && (radixLength (w ++ rest)).1 != 0)))

theorem numberExtent_decimal (h : (radixLength cs).1 = 0) : numberExtent cs =
    if (cs.drop (runLength isDigitPart cs)).head? = some 'n' then
      (bigIntLiteral, runLength isDigitPart cs + 1)
    else (numberLiteral, decimalLength cs) := by
  unfold numberExtent
  generalize radixLength cs = r at h
  obtain ⟨marked, big⟩ := r
  obtain rfl : marked = 0 := h
  simp

theorem numberExtent_radix (h : (radixLength cs).1 ≠ 0) : numberExtent cs =
    if ((radixLength cs).2 && (cs.drop (radixLength cs).1).head? == some 'n') = true then
      (bigIntLiteral, (radixLength cs).1 + 1)
    else (numberLiteral, (radixLength cs).1) := by
  unfold numberExtent
  generalize radixLength cs = r at h
  obtain ⟨marked, big⟩ := r
  simp only [ne_eq] at h
  simp [h]

/-- Digits without a point behind them, and their exponent. -/
theorem decimalLength_whole (h : (cs.drop (runLength isDigitPart cs)).head? ≠ some '.') :
    decimalLength cs =
      runLength isDigitPart cs + exponentLength (cs.drop (runLength isDigitPart cs)) := by
  unfold decimalLength
  dsimp only
  split
  · rename_i more heq
    exact absurd (congrArg List.head? heq) h
  · rfl

/-- Digits with a point behind them, the digits behind that, and their exponent. -/
theorem decimalLength_fraction {more : List Char}
    (h : cs.drop (runLength isDigitPart cs) = '.' :: more) :
    decimalLength cs = runLength isDigitPart cs + 1 +
      (runLength isDigitPart more + exponentLength (more.drop (runLength isDigitPart more))) := by
  unfold decimalLength
  dsimp only
  rw [← List.drop_drop, h]
  show _ + (1 + runLength isDigitPart more) +
    exponentLength (('.' :: more).drop (1 + runLength isDigitPart more)) = _
  rw [Nat.add_comm 1, List.drop_succ_cons]
  omega

theorem any_isExponentMark_digits (hds : DigitParts ds) : ds.any isExponentMark = false := by
  refine List.any_eq_false.2 fun c hc he => ?_
  have hdigit := hds c hc
  rw [not_isDigitPart_of_isExponentMark he] at hdigit
  cases hdigit

theorem any_isExponentMark (hx : ExponentText x) : x.any isExponentMark = !x.isEmpty := by
  cases hx with
  | none => rfl
  | plain he => rw [List.any_cons, he, Bool.true_or, List.isEmpty_cons, Bool.not_false]
  | signed he => rw [List.any_cons, he, Bool.true_or, List.isEmpty_cons, Bool.not_false]

/-- A decimal number that is more than its first digits goes on as its exponent does. -/
theorem numberGoesOn_eq (hradix : w[1]?.bind radixDigit? = none)
    (hexponent : w.any isExponentMark = !x.isEmpty) (hall : w.all isDigitPart = false)
    (rest : List Char) : numberGoesOn w rest = exponentGoesOn x rest := by
  rw [numberGoesOn, hradix]
  dsimp only
  rw [hexponent, hall, Bool.not_not, Bool.false_and, Bool.or_false, exponentGoesOn]

theorem digitParts_cons (hd : d.isDigit = true) (hds : DigitParts ds) : DigitParts (d :: ds) :=
  List.forall_mem_cons.2 ⟨isDigitPart_of_isDigit hd, hds⟩

/-- The second character behind a digit, when digits, an exponent or a point follow. -/
theorem radix_second (hds : DigitParts ds)
    (hmore : ∀ c ∈ cs.head?, isDigitPart c = true ∨ isExponentMark c = true ∨ c = '.' ∨ c = 'n') :
    (d :: (ds ++ cs))[1]?.bind radixDigit? = none := by
  rw [List.getElem?_cons_succ]
  cases ds with
  | nil =>
    cases cs with
    | nil => rfl
    | cons c cs => exact radixDigit?_eq_none (hmore c rfl)
  | cons c ds => exact radixDigit?_eq_none (.inl (hds c List.mem_cons_self))

theorem head?_exponentText (hx : ExponentText x) : ∀ c ∈ x.head?, isExponentMark c = true := by
  cases hx with
  | none => exact fun _ hc => by cases hc
  | plain he => exact fun c hc => Option.mem_some.1 hc ▸ he
  | signed he => exact fun c hc => Option.mem_some.1 hc ▸ he

/-- A whole number without an exponent. -/
theorem numberExtent_digits (hd : d.isDigit = true) (hds : DigitParts ds) (rest : List Char) :
    numberExtent (d :: ds ++ rest) = (numberLiteral, (d :: ds).length) ↔
      numberGoesOn (d :: ds) rest = false := by
  have hall := digitParts_cons hd hds
  have hgoes : runLength isDigitPart (d :: ds ++ ([] ++ rest)) + exponentLength
      ((d :: ds ++ ([] ++ rest)).drop (runLength isDigitPart (d :: ds ++ ([] ++ rest)))) =
        (d :: ds).length + [].length ↔ exponentGoesOn [] rest = false :=
    digits_exponent_iff hall .none
  have hsecond : (d :: ds)[1]?.bind radixDigit? = none := by
    have h : (d :: (ds ++ []))[1]?.bind radixDigit? = none :=
      radix_second hds fun c hc => by cases hc
    rwa [List.append_nil] at h
  have hrun := runLength_behind hall rest
  rw [numberGoesOn, hsecond]
  dsimp only
  rw [any_isExponentMark_digits hall, List.all_eq_true.2 hall]
  rw [List.nil_append, List.length_nil, Nat.add_zero, exponentGoesOn, List.isEmpty_nil] at hgoes
  simp only [Bool.not_false, Bool.true_and, Bool.or_eq_false_iff, beq_eq_false_iff_ne] at hgoes ⊢
  rw [← hgoes]
  by_cases hradix : (radixLength (d :: ds ++ rest)).1 = 0
  · rw [numberExtent_decimal hradix, hradix, bne_self_eq_false, Bool.and_false, eq_self, and_true]
    constructor
    · intro h
      split at h
      · cases h
      rename_i hbig
      have hdecimal := (Prod.mk.inj h).2
      by_cases hpoint : ((d :: ds ++ rest).drop (runLength isDigitPart (d :: ds ++ rest))).head? =
          some '.'
      · obtain ⟨more, hmore⟩ := List.head?_eq_some_iff.1 hpoint
        rw [decimalLength_fraction hmore] at hdecimal
        omega
      · rw [decimalLength_whole hpoint] at hdecimal
        have hnone : runLength isDigitPart rest = 0 := by omega
        rw [hrun, hnone, Nat.add_zero, List.drop_left] at hbig hpoint
        exact ⟨hdecimal, hpoint, hbig⟩
    · rintro ⟨hdecimal, hpoint, hbig⟩
      have hnone : runLength isDigitPart rest = 0 := by omega
      have hafter : (d :: ds ++ rest).drop (runLength isDigitPart (d :: ds ++ rest)) = rest := by
        rw [hrun, hnone, Nat.add_zero, List.drop_left]
      rw [if_neg (by rwa [hafter]), decimalLength_whole (by rwa [hafter]), hdecimal]
  · -- a radix mark behind a zero makes a longer number
    obtain hnone | ⟨mark, p, more, heq, hmark, hdigits⟩ := radixLength_cases (d :: ds ++ rest)
    · rw [hnone] at hradix
      exact absurd rfl hradix
    obtain ⟨rfl, hrest⟩ := List.cons.inj heq
    obtain rfl : ds = [] := by
      cases ds with
      | nil => rfl
      | cons c ds =>
        obtain rfl := (List.cons.inj hrest).1
        rw [radixDigit?_eq_none (.inl (hds _ List.mem_cons_self))] at hmark
        cases hmark
    have hlength : (radixLength (['0'] ++ rest)).1 = runLength p more + 2 := by
      rw [heq, radixLength_mark hmark, if_neg hdigits]
    rw [numberExtent_radix hradix, hlength, List.length_singleton]
    constructor
    · intro h
      split at h
      · cases h
      · exact absurd (Prod.mk.inj h).2 (by omega)
    · rintro ⟨-, -, hnone⟩
      cases hnone

/-- A whole number with an exponent. -/
theorem numberExtent_exponent (hd : d.isDigit = true) (hds : DigitParts ds) (hx : ExponentText x)
    (hne : x ≠ []) (rest : List Char) :
    numberExtent (d :: (ds ++ x) ++ rest) = (numberLiteral, (d :: (ds ++ x)).length) ↔
      numberGoesOn (d :: (ds ++ x)) rest = false := by
  have hall := digitParts_cons hd hds
  have hgroup : d :: (ds ++ x) ++ rest = d :: ds ++ (x ++ rest) := by simp
  have hlength : (d :: (ds ++ x)).length = (d :: ds).length + x.length := by simp [Nat.add_right_comm]
  obtain ⟨e, more, hhead, he⟩ := head?_exponent hx hne rest
  -- the exponent ends the digits, and only more digits go on with it
  have hafter : ((d :: ds ++ (x ++ rest)).drop
      (runLength isDigitPart (d :: ds ++ (x ++ rest)))).head? = some e := by
    have hnone : runLength isDigitPart (x ++ rest) = 0 := by
      rw [runLength_eq_zero, hhead]
      exact not_isDigitPart_of_isExponentMark he
    rw [runLength_behind hall, hnone, Nat.add_zero, List.drop_left, hhead, List.head?_cons]
  have hradix : (radixLength (d :: ds ++ (x ++ rest))).1 = 0 := by
    rw [radixLength_none]
    refine radix_second hds fun c hc => ?_
    rw [hhead] at hc
    exact .inr (.inl (Option.mem_some.1 hc ▸ he))
  have hmark : e ≠ 'n' ∧ e ≠ '.' := by
    obtain rfl | rfl := isExponentMark_iff.1 he <;> decide
  rw [hgroup, hlength, numberExtent_decimal hradix, hafter, if_neg (by simpa using hmark.1),
    decimalLength_whole (by rw [hafter]; simpa using hmark.2), Prod.mk.injEq, numberGoesOn_eq (x := x)]
  · simpa using digits_exponent_iff hall hx
  · exact radix_second hds fun c hc => .inr (.inl (head?_exponentText hx c hc))
  · rw [← List.cons_append, List.any_append, any_isExponentMark_digits hall, any_isExponentMark hx,
      Bool.false_or]
  · obtain ⟨e, more, hx', he⟩ := head?_exponent hx hne []
    rw [List.append_nil] at hx'
    have hfirst : (e :: more).all isDigitPart = false := by
      rw [List.all_cons, not_isDigitPart_of_isExponentMark he, Bool.false_and]
    rw [hx', ← List.cons_append, List.all_append, hfirst, Bool.and_false]

/-- A number with a fraction. -/
theorem numberExtent_fraction {places : List Char} (hd : d.isDigit = true) (hds : DigitParts ds)
    (hplaces : DigitParts places) (hx : ExponentText x) (rest : List Char) :
    numberExtent (d :: (ds ++ '.' :: (places ++ x)) ++ rest) =
        (numberLiteral, (d :: (ds ++ '.' :: (places ++ x))).length) ↔
      numberGoesOn (d :: (ds ++ '.' :: (places ++ x))) rest = false := by
  have hall := digitParts_cons hd hds
  have hgroup : d :: (ds ++ '.' :: (places ++ x)) ++ rest =
      d :: ds ++ '.' :: (places ++ (x ++ rest)) := by simp
  have hlength : (d :: (ds ++ '.' :: (places ++ x))).length =
      (d :: ds).length + 1 + (places.length + x.length) := by
    simp only [List.length_cons, List.length_append]
    omega
  have hrun : runLength isDigitPart (d :: ds ++ '.' :: (places ++ (x ++ rest))) = (d :: ds).length :=
    runLength_behind hall _
  have hafter : (d :: ds ++ '.' :: (places ++ (x ++ rest))).drop
      (runLength isDigitPart (d :: ds ++ '.' :: (places ++ (x ++ rest)))) =
        '.' :: (places ++ (x ++ rest)) := by
    rw [hrun, List.drop_left]
  have hpoint : ∀ cs : List Char, ∀ c ∈ ('.' :: cs).head?,
      isDigitPart c = true ∨ isExponentMark c = true ∨ c = '.' ∨ c = 'n' :=
    fun _ c hc => .inr (.inr (.inl (Option.mem_some.1 hc).symm))
  have hradix : (radixLength (d :: ds ++ '.' :: (places ++ (x ++ rest)))).1 = 0 := by
    rw [radixLength_none]
    exact radix_second hds (hpoint _)
  rw [hgroup, hlength, numberExtent_decimal hradix, decimalLength_fraction hafter, hafter,
    if_neg (by simp), Prod.mk.injEq, numberGoesOn_eq (x := x), hrun, Nat.add_left_cancel_iff]
  · simpa using digits_exponent_iff hplaces hx
  · exact radix_second hds (hpoint _)
  · rw [← List.cons_append, List.any_append, any_isExponentMark_digits hall, List.any_cons,
      List.any_append, any_isExponentMark_digits hplaces, any_isExponentMark hx]
    rfl
  · rw [← List.cons_append, List.all_append, List.all_cons]
    exact Bool.and_false _

/-- A number behind a radix mark. -/
theorem numberExtent_marked (hmark : radixDigit? mark = some p) (hne : ds ≠ [])
    (hds : ∀ c ∈ ds, p c = true) (rest : List Char) :
    numberExtent ('0' :: mark :: ds ++ rest) = (numberLiteral, ('0' :: mark :: ds).length) ↔
      numberGoesOn ('0' :: mark :: ds) rest = false := by
  have hrun := runLength_behind hds rest
  have hpos := List.length_pos_iff.2 hne
  have hradix : radixLength ('0' :: mark :: ds ++ rest) =
      (ds.length + runLength p rest + 2, isHexMark mark) := by
    rw [List.cons_append, List.cons_append, radixLength_mark hmark, hrun, if_neg (by omega)]
  have hzero : (radixLength ('0' :: mark :: ds ++ rest)).1 ≠ 0 := by
    rw [hradix]
    exact Nat.succ_ne_zero _
  have hsome : ('0' :: mark :: ds)[1]? = some mark := rfl
  rw [numberExtent_radix hzero, hradix, numberGoesOn, hsome, Option.bind_some, hmark]
  dsimp only
  rw [Option.any_some, Bool.or_eq_false_iff, ← runLength_eq_zero]
  have hafter (h : runLength p rest = 0) :
      ('0' :: mark :: ds ++ rest).drop (ds.length + runLength p rest + 2) = rest := by
    rw [h, Nat.add_zero]
    exact @List.drop_left _ ('0' :: mark :: ds) _
  constructor
  · intro h
    split at h
    · cases h
    rename_i hbig
    have hlength := (Prod.mk.inj h).2
    have hnone : runLength p rest = 0 := by
      simp only [List.length_cons] at hlength
      omega
    rw [hafter hnone] at hbig
    exact ⟨hnone, Bool.eq_false_iff.2 hbig⟩
  · rintro ⟨hnone, hbig⟩
    rw [hafter hnone, hbig, if_neg Bool.false_ne_true, hnone]
    rfl

/-! ## Numbers at the front of a text -/

theorem extent_digit (hc : c.isDigit = true) (cs : List Char) :
    extent c cs = ((numberExtent (c :: cs)).1, (numberExtent (c :: cs)).2 - 1) := by
  obtain ⟨hstart, hblank⟩ := not_startsIdent_of_isDigit hc
  unfold extent
  rw [hstart, if_neg Bool.false_ne_true, hblank, if_neg Bool.false_ne_true, if_pos hc]

theorem numberExtent_pos (hc : c.isDigit = true) (cs : List Char) : 0 < (numberExtent (c :: cs)).2 := by
  have hrun := runLength_cons (isDigitPart_of_isDigit hc) cs
  by_cases hradix : (radixLength (c :: cs)).1 = 0
  · rw [numberExtent_decimal hradix]
    split
    · exact Nat.succ_pos _
    · unfold decimalLength
      dsimp only
      omega
  · rw [numberExtent_radix hradix]
    split
    · exact Nat.succ_pos _
    · exact Nat.pos_of_ne_zero hradix

theorem extent_point (hd : d.isDigit = true) (cs : List Char) :
    extent '.' (d :: cs) = (numberLiteral, 1 + (runLength isDigitPart cs +
      exponentLength (cs.drop (runLength isDigitPart cs)))) := by
  have hpoint : d ≠ '.' := by
    rintro rfl
    cases hd
  unfold extent
  rw [if_neg (by decide), if_neg (by decide), if_neg (by decide), if_neg (by decide)]
  split
  case h_4 heq =>
    exact absurd (List.cons.inj heq).1 hpoint
  case h_5 heq =>
    obtain ⟨rfl, rfl⟩ := List.cons.inj heq
    rw [if_pos hd]
    dsimp only
    rw [Nat.add_assoc]
  case h_10 hdigit _ _ _ _ => exact (hdigit d cs rfl rfl).elim
  all_goals contradiction

theorem NumberText.ne_tick (h : NumberText (c :: cs)) : c ≠ '`' := by
  rintro rfl
  cases h with
  | whole hd => cases hd
  | fraction hd => cases hd

/-- A number is cut off again in front of what it does not go on in. -/
theorem NumberText.extent_iff (h : NumberText (c :: cs)) (rest : List Char) :
    extent c (cs ++ rest) = (numberLiteral, cs.length) ↔ numberGoesOn (c :: cs) rest = false := by
  have hfirst (hc : c.isDigit = true)
      (hnumber : numberExtent (c :: cs ++ rest) = (numberLiteral, (c :: cs).length) ↔
        numberGoesOn (c :: cs) rest = false) :
      extent c (cs ++ rest) = (numberLiteral, cs.length) ↔ numberGoesOn (c :: cs) rest = false := by
    have hpos := numberExtent_pos hc (cs ++ rest)
    rw [← hnumber, extent_digit hc, List.cons_append, List.length_cons]
    generalize numberExtent (c :: (cs ++ rest)) = e at hpos
    obtain ⟨k, n⟩ := e
    simp only [Prod.mk.injEq]
    exact and_congr_right fun _ => by omega
  cases h with
  | radix hmark hne hds => exact hfirst rfl (numberExtent_marked hmark hne hds rest)
  | @whole d ds x hd hds hx =>
    refine hfirst hd ?_
    by_cases hne : x = []
    · subst hne
      rw [List.append_nil]
      exact numberExtent_digits hd hds rest
    · exact numberExtent_exponent hd hds hx hne rest
  | fraction hd hds hplaces hx => exact hfirst hd (numberExtent_fraction hd hds hplaces hx rest)
  | @point d ds x hd hds hx =>
    have hall := digitParts_cons hd hds
    have hsecond : ('.' :: d :: (ds ++ x))[1]?.bind radixDigit? = none :=
      radixDigit?_eq_none (.inl (isDigitPart_of_isDigit hd))
    have hexponent : ('.' :: d :: (ds ++ x)).any isExponentMark = !x.isEmpty := by
      rw [List.any_cons, ← List.cons_append, List.any_append, any_isExponentMark_digits hall,
        any_isExponentMark hx]
      rfl
    rw [numberGoesOn_eq hsecond hexponent rfl, List.cons_append, List.append_assoc, extent_point hd,
      Prod.mk.injEq, List.length_cons, List.length_append, Nat.add_comm _ 1, Nat.add_left_cancel_iff]
    simpa using digits_exponent_iff hds hx

/-! ## Where numbers come from -/

theorem take_succ_of_head? {n : Nat} (h : (cs.drop n).head? = some c) :
    cs.take (n + 1) = cs.take n ++ [c] := by
  rw [List.head?_drop] at h
  rw [List.take_add_one, h, Option.toList_some]

theorem radixDigit?_of_isHexMark (h : isHexMark mark = true) : radixDigit? mark = some isHexPart :=
  if_pos h

/-- What is cut off as a number has the characters of one, and what is cut off as a big integer those of
a big integer. -/
theorem numberText_take (hc : c.isDigit = true) (cs : List Char) :
    (∃ n, numberExtent (c :: cs) = (numberLiteral, n) ∧ NumberText ((c :: cs).take n)) ∨
      ∃ n, numberExtent (c :: cs) = (bigIntLiteral, n) ∧ BigText ((c :: cs).take n) := by
  obtain hnone | ⟨mark, p, rest, heq, hmark, hrun⟩ := radixLength_cases (c :: cs)
  · have hrun := runLength_cons (isDigitPart_of_isDigit hc) cs
    have hds := forall_take_runLength isDigitPart cs
    have hwhole : (c :: cs).take (runLength isDigitPart (c :: cs)) =
        c :: cs.take (runLength isDigitPart cs) := by
      rw [hrun, List.take_succ_cons]
    rw [numberExtent_decimal (by rw [hnone])]
    split
    · rename_i hbig
      refine .inr ⟨_, rfl, ?_⟩
      rw [take_succ_of_head? hbig, hwhole]
      exact .whole hc hds
    · refine .inl ⟨_, rfl, ?_⟩
      by_cases hpoint : ((c :: cs).drop (runLength isDigitPart (c :: cs))).head? = some '.'
      · obtain ⟨more, hmore⟩ := List.head?_eq_some_iff.1 hpoint
        rw [decimalLength_fraction hmore, List.take_add, take_succ_of_head? hpoint, hwhole,
          ← List.drop_drop, hmore, List.drop_one, List.tail_cons, List.take_add]
        have hall := NumberText.fraction hc hds (forall_take_runLength isDigitPart more)
          (exponentText_take (more.drop (runLength isDigitPart more)))
        simpa using hall
      · rw [decimalLength_whole hpoint, List.take_add, hwhole]
        exact .whole hc hds (exponentText_take _)
  · rw [heq]
    have hlength := radixLength_mark hmark rest
    rw [if_neg hrun] at hlength
    have hne : rest.take (runLength p rest) ≠ [] := by
      intro hnil
      rw [take_runLength] at hnil
      exact hrun (congrArg List.length hnil)
    have hds := forall_take_runLength p rest
    rw [numberExtent_radix (by rw [hlength]; exact Nat.succ_ne_zero _), hlength]
    split
    · rename_i hbig
      refine .inr ⟨_, rfl, ?_⟩
      obtain ⟨hhex, hn⟩ := Bool.and_eq_true_iff.1 hbig
      obtain rfl := Option.some.inj (hmark.symm.trans (radixDigit?_of_isHexMark hhex))
      rw [List.drop_succ_cons, List.drop_succ_cons, beq_iff_eq] at hn
      rw [List.take_succ_cons, List.take_succ_cons, take_succ_of_head? hn]
      exact .radix hhex hne hds
    · exact .inl ⟨_, rfl, .radix hmark hne hds⟩

/-- A big integer is a number; nothing else is cut off as one. -/
theorem extent_ne_bigIntLiteral (hc : c.isDigit = false) : (extent c cs).1 ≠ bigIntLiteral := by
  have hword (s : String) : (Kind.keyword? s).getD ident ≠ bigIntLiteral := by
    unfold Kind.keyword?
    split <;> exact Kind.noConfusion
  have hmark : (punctuation? c).getD garbage ≠ bigIntLiteral := by
    unfold punctuation?
    split <;> exact Kind.noConfusion
  unfold extent
  split
  · exact hword _
  split
  · exact Kind.noConfusion
  rw [hc, if_neg Bool.false_ne_true]
  split
  · dsimp only
    split <;> exact Kind.noConfusion
  split
  case h_5 => split <;> exact Kind.noConfusion
  case h_9 => split <;> exact Kind.noConfusion
  case h_10 => exact hmark
  all_goals exact Kind.noConfusion

/-- Every big integer of a text has the characters of one. -/
theorem everywhere_bigText : Everywhere fun l => l.kind = bigIntLiteral → BigText l.chars where
  other k cs hk hbig := by
    obtain rfl | rfl | rfl | rfl := hk <;> cases hbig
  template _ _ _ _ hbig := by cases hbig
  front c cs _ hbig := by
    cases hc : c.isDigit with
    | false => exact absurd hbig (extent_ne_bigIntLiteral hc)
    | true =>
      have hpos := numberExtent_pos hc cs
      rw [extent_digit hc] at hbig ⊢
      obtain ⟨n, hnumber, -⟩ | ⟨n, hnumber, htext⟩ := numberText_take hc cs
      · rw [hnumber] at hbig
        cases hbig
      · rw [hnumber] at hpos ⊢
        rwa [List.take_cons hpos] at htext
  mark hbig := by cases hbig

/-- A big integer is cut off whatever stands behind it. -/
theorem BigText.extent_eq (h : BigText (c :: cs)) (rest : List Char) :
    extent c (cs ++ rest) = (bigIntLiteral, cs.length) := by
  have hfirst (hc : c.isDigit = true)
      (hnumber : numberExtent (c :: cs ++ rest) = (bigIntLiteral, cs.length + 1)) :
      extent c (cs ++ rest) = (bigIntLiteral, cs.length) := by
    rw [extent_digit hc, ← List.cons_append, hnumber]
    rfl
  cases h with
  | @radix mark ds hhex hne hds =>
    refine hfirst rfl ?_
    have hrun : runLength isHexPart (ds ++ ('n' :: rest)) = ds.length := runLength_behind hds _
    have hradix : radixLength ('0' :: mark :: (ds ++ ('n' :: rest))) = (ds.length + 2, true) := by
      rw [radixLength_mark (radixDigit?_of_isHexMark hhex), hrun, hhex,
        if_neg (mt List.length_eq_zero_iff.1 hne)]
    have hafter : ('0' :: mark :: (ds ++ 'n' :: rest)).drop (ds.length + 2) = 'n' :: rest :=
      @List.drop_left _ ('0' :: mark :: ds) _
    have hgroup : '0' :: mark :: (ds ++ ['n']) ++ rest = '0' :: mark :: (ds ++ 'n' :: rest) := by simp
    rw [hgroup, numberExtent_radix (by rw [hradix]; exact Nat.succ_ne_zero _), hradix, hafter]
    simp
  | @whole d ds hd hds =>
    refine hfirst hd ?_
    have hrun : runLength isDigitPart (c :: ds ++ 'n' :: rest) = (c :: ds).length :=
      runLength_behind (digitParts_cons hd hds) _
    have hradix : (radixLength (c :: ds ++ 'n' :: rest)).1 = 0 := by
      rw [radixLength_none]
      exact radix_second hds fun e he => .inr (.inr (.inr (Option.mem_some.1 he).symm))
    have hgroup : c :: (ds ++ ['n']) ++ rest = c :: ds ++ 'n' :: rest := by simp
    rw [hgroup, numberExtent_decimal hradix, hrun, List.drop_left]
    simp

end DeclKit.Token

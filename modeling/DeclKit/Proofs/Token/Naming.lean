/-
Property names as words.

A number that is not negative is written as digits, which a point and an exponent may follow, so it is
cut off as one number. A property name is written as an identifier or reserved word, as a number or in
quotes, and each of these is a single word that tells the name. Only a negative number is two words: a
minus sign and what follows it.
-/
import DeclKit.Proofs.Grammar.Printing
import DeclKit.Text.PropertyName

set_option autoImplicit false

namespace DeclKit

/-! ## Numbers as text -/

/-- All characters are decimal digits. -/
def Digits (cs : List Char) : Prop := ∀ c ∈ cs, c.isDigit = true

/-- A point with digits behind it, or nothing. -/
inductive IsFraction : List Char → Prop where
  | none : IsFraction []
  | some {ds : List Char} : Digits ds → IsFraction ('.' :: ds)

/-- An exponent with its sign, or nothing. -/
inductive IsExponent : List Char → Prop where
  | none : IsExponent []
  | some {sign d : Char} {ds : List Char} : sign = '+' ∨ sign = '-' → Digits (d :: ds) →
      IsExponent ('e' :: sign :: d :: ds)

/-- Digits with a fraction and an exponent, which may be missing. -/
inductive IsNumeral : List Char → Prop where
  | mk {d : Char} {ds places exponent : List Char} : Digits (d :: ds) → IsFraction places →
      IsExponent exponent → IsNumeral (d :: ds ++ places ++ exponent)

theorem Digits.append {cs ds : List Char} (h : Digits cs) (h' : Digits ds) : Digits (cs ++ ds) :=
  List.forall_mem_append.2 ⟨h, h'⟩

theorem digits_toDigits (n : Nat) : Digits (Nat.toDigits 10 n) := fun _ hc =>
  Nat.isDigit_of_mem_toDigits (by decide) (by decide) hc

theorem digits_zeros (n : Nat) : Digits (List.replicate n '0') := fun _ hc =>
  List.eq_of_mem_replicate hc ▸ rfl

theorem IsNumeral.whole {ds : List Char} (h : Digits ds) (hne : ds ≠ []) : IsNumeral ds := by
  obtain ⟨d, ds, rfl⟩ := List.exists_cons_of_ne_nil hne
  have hall := IsNumeral.mk h .none .none
  rwa [List.append_nil, List.append_nil] at hall

theorem IsNumeral.fraction {ds places : List Char} (h : Digits ds) (hne : ds ≠ [])
    (hplaces : Digits places) : IsNumeral (ds ++ '.' :: places) := by
  obtain ⟨d, ds, rfl⟩ := List.exists_cons_of_ne_nil hne
  have hall := IsNumeral.mk h (.some hplaces) .none
  rwa [List.append_nil] at hall

/-- A number starts with a digit. -/
theorem IsNumeral.exists_digit {cs : List Char} (h : IsNumeral cs) :
    ∃ d ds, cs = d :: ds ∧ d.isDigit = true := by
  obtain ⟨hds, -, -⟩ := h
  exact ⟨_, _, rfl, hds _ List.mem_cons_self⟩

/-- The characters of a number. -/
theorem IsNumeral.isDigit_or_mem {cs : List Char} (h : IsNumeral cs) :
    ∀ c ∈ cs, c.isDigit = true ∨ c ∈ ['.', 'e', '+', '-'] := by
  obtain ⟨hds, hplaces, hexponent⟩ := h
  intro c hc
  obtain hc | hc := List.mem_append.1 hc
  · obtain hc | hc := List.mem_append.1 hc
    · exact .inl (hds c hc)
    · cases hplaces with
      | none => cases hc
      | some hds =>
        obtain rfl | hc := List.mem_cons.1 hc
        · exact .inr (by decide)
        · exact .inl (hds c hc)
  · cases hexponent with
    | none => cases hc
    | some hsign hds =>
      obtain rfl | hc := List.mem_cons.1 hc
      · exact .inr (by decide)
      obtain rfl | hc := List.mem_cons.1 hc
      · exact .inr (by obtain rfl | rfl := hsign <;> decide)
      · exact .inl (hds c hc)

namespace Double

variable {digits : List Char}

/-- Digits with a point among, before or behind them are a numeral. -/
theorem isNumeral_positional (hdigits : Digits digits) (hne : digits ≠ []) (point : Int) :
    IsNumeral (positional digits point).toList := by
  unfold positional
  split
  · simp only [String.toList_append, String.toList_ofList]
    have hall := (digits_zeros (-point).toNat).append hdigits
    exact IsNumeral.fraction (digits_zeros 1) (List.cons_ne_nil _ _) hall
  · rename_i hpoint
    split
    · rw [String.toList_ofList]
      exact .whole (hdigits.append (digits_zeros _)) (List.append_ne_nil_of_left_ne_nil hne _)
    · simp only [String.toList_append, String.toList_ofList, List.append_assoc]
      have htake : digits.take point.toNat ≠ [] := by
        rw [Ne, List.take_eq_nil_iff, not_or]
        exact ⟨by omega, hne⟩
      have hdrop : Digits (digits.drop point.toNat) := fun c hc =>
        hdigits c (List.mem_of_mem_drop hc)
      exact .fraction (fun c hc => hdigits c (List.mem_of_mem_take hc)) htake hdrop

/-- Digits with an exponent are a numeral. -/
theorem isNumeral_scientific (hdigits : Digits digits) (hne : digits ≠ []) (exponent : Int) :
    IsNumeral (scientific digits exponent).toList := by
  obtain ⟨d, ds, rfl⟩ := List.exists_cons_of_ne_nil hne
  obtain ⟨hd, hds⟩ := List.forall_mem_cons.1 hdigits
  have hplaces : IsFraction (if ds.length + 1 ≤ 1 then [] else '.' :: ds) := by
    split
    · exact .none
    · exact .some hds
  obtain ⟨e, es, he⟩ := List.exists_cons_of_ne_nil (Nat.toDigits_ne_nil (b := 10)
    (n := exponent.natAbs))
  have hexponent : IsExponent ('e' :: (if exponent < 0 then '-' else '+') :: e :: es) := by
    refine .some ?_ (he ▸ digits_toDigits exponent.natAbs)
    split
    · exact .inr rfl
    · exact .inl rfl
  have hall := IsNumeral.mk (List.forall_mem_singleton.2 hd) hplaces hexponent
  have htext : (scientific (d :: ds) exponent).toList =
      [d] ++ (if ds.length + 1 ≤ 1 then [] else '.' :: ds) ++
        'e' :: (if exponent < 0 then '-' else '+') :: e :: es := by
    rw [scientific, Nat.toString_eq_ofList_toDigits, he, List.length_cons]
    split_ifs <;> simp
  rwa [htext]

/-- How a number is written: as a numeral or by one of two names, with a minus sign in front when it
is negative. -/
theorem text_cases (d : Double) : ∃ body : String,
    (IsNumeral body.toList ∨ body = "NaN" ∨ body = "Infinity") ∧
      (d.text = body ∨ d.text = "-" ++ body) := by
  unfold text
  split
  · exact ⟨"NaN", .inr (.inl rfl), .inl rfl⟩
  split
  · refine ⟨"Infinity", .inr (.inr rfl), ?_⟩
    split
    · exact .inr rfl
    · exact .inl rfl
  split
  · exact ⟨"0", .inl (.whole (digits_zeros 1) (List.cons_ne_nil _ _)), .inl rfl⟩
  dsimp only
  generalize (d.withSign d.isNegative).shortest = shortest
  have hdigits := digits_toDigits shortest.digits
  have hne : Nat.toDigits 10 shortest.digits ≠ [] := Nat.toDigits_ne_nil
  generalize Nat.toDigits 10 shortest.digits = digits at hdigits hne ⊢
  refine ⟨_, .inl ?_, (ite_eq_or_eq _ _ _).symm⟩
  split
  · exact isNumeral_positional hdigits hne _
  · exact isNumeral_scientific hdigits hne _

end Double

/-! ## Numbers as words -/

namespace Token

open Kind

variable {c : Char} {cs ds rest : List Char} {ws : List Lexeme}

/-- A character that goes on with no number and no word. -/
def bounds (c : Char) : Bool := !continuesIdent c && c != '.'

/-- What stands here goes on with no number and no word before it. -/
def Bounded (cs : List Char) : Prop := ∀ c ∈ cs.head?, bounds c = true

theorem Bounded.delimits (h : Bounded rest) : ∀ c ∈ rest.head?, continuesIdent c = false := by
  intro c hc
  have hbounds := h c hc
  rw [bounds, Bool.and_eq_true, Bool.not_eq_true'] at hbounds
  exact hbounds.1

theorem ne_of_bounds {d : Char} (hc : bounds c = true) (hd : continuesIdent d = true ∨ d = '.') :
    c ≠ d := by
  rintro rfl
  obtain hd | rfl := hd
  · simp [bounds, hd] at hc
  · exact absurd hc (by decide)

theorem continuesIdent_of_isDigitPart (h : isDigitPart c = true) : continuesIdent c = true := by
  simp only [isDigitPart, Bool.or_eq_true, beq_iff_eq] at h
  simp only [continuesIdent, startsIdent, Bool.or_eq_true, beq_iff_eq]
  tauto

theorem isDigitPart_of_bounds (hc : bounds c = true) : isDigitPart c = false := by
  by_contra h
  rw [Bool.not_eq_false] at h
  exact ne_of_bounds hc (.inl (continuesIdent_of_isDigitPart h)) rfl

/-- A run of digits ends where no digit follows. -/
theorem runLength_digits (hds : Digits ds) (hrest : ∀ c ∈ rest.head?, isDigitPart c = false) :
    runLength isDigitPart (ds ++ rest) = ds.length := by
  refine runLength_append (fun c hc => ?_) hrest
  rw [isDigitPart, hds c hc, Bool.true_or]

theorem exponentLength_eq (hcs : IsExponent cs) (hrest : Bounded rest) :
    exponentLength (cs ++ rest) = cs.length := by
  cases hcs with
  | none =>
    rw [List.nil_append]
    unfold exponentLength
    split
    · rename_i e s more
      have he : e ≠ 'e' := ne_of_bounds (hrest e rfl) (.inl (by decide))
      have hE : e ≠ 'E' := ne_of_bounds (hrest e rfl) (.inl (by decide))
      rw [if_neg (by simp [he, hE])]
      rfl
    · rfl
  | @some sign d ds hsign hds =>
    obtain ⟨hd, hds⟩ := List.forall_mem_cons.1 hds
    have hrun : runLength isDigitPart (ds ++ rest) = ds.length :=
      runLength_digits hds fun c hc => isDigitPart_of_bounds (hrest c hc)
    have hnot : sign.isDigit = false := by obtain rfl | rfl := hsign <;> rfl
    have hmark : (sign == '+' || sign == '-') = true := by obtain rfl | rfl := hsign <;> rfl
    show exponentLength ('e' :: sign :: d :: (ds ++ rest)) = _
    simp [exponentLength, hnot, hmark, hd, hrun]
    omega

/-- Behind the fraction of a number stands its exponent, or something that goes on with no number. -/
theorem behind_fraction {exponent : List Char} (hexponent : IsExponent exponent)
    (hrest : Bounded rest) : ∀ c ∈ (exponent ++ rest).head?, c = 'e' ∨ bounds c = true := by
  intro c hc
  cases hexponent with
  | some => exact .inl (Option.mem_some.1 hc).symm
  | none => exact .inr (hrest c hc)

theorem behind_digits {places exponent : List Char} (hplaces : IsFraction places)
    (hexponent : IsExponent exponent) (hrest : Bounded rest) :
    ∀ c ∈ (places ++ (exponent ++ rest)).head?, c = '.' ∨ c = 'e' ∨ bounds c = true := by
  intro c hc
  cases hplaces with
  | some => exact .inl (Option.mem_some.1 hc).symm
  | none => exact .inr (behind_fraction hexponent hrest c hc)

theorem isDigitPart_eq_false (hc : c = '.' ∨ c = 'e' ∨ bounds c = true) : isDigitPart c = false := by
  obtain rfl | rfl | hc := hc
  · rfl
  · rfl
  · exact isDigitPart_of_bounds hc

theorem decimalLength_eq {places exponent : List Char} (hds : Digits ds) (hplaces : IsFraction places)
    (hexponent : IsExponent exponent) (hrest : Bounded rest) :
    decimalLength (ds ++ (places ++ (exponent ++ rest))) =
      ds.length + places.length + exponent.length := by
  have hwhole : runLength isDigitPart (ds ++ (places ++ (exponent ++ rest))) = ds.length :=
    runLength_digits hds fun c hc =>
      isDigitPart_eq_false (behind_digits hplaces hexponent hrest c hc)
  have hlast := exponentLength_eq hexponent hrest
  have hbehind := behind_fraction hexponent hrest
  generalize exponent ++ rest = tail at *
  simp only [decimalLength, hwhole, List.drop_left]
  cases hplaces with
  | none =>
    have hpoint : ∀ more, [] ++ tail ≠ '.' :: more := by
      rintro more heq
      rw [List.nil_append] at heq
      rw [heq] at hbehind
      exact absurd (hbehind '.' rfl) (by decide)
    rw [List.nil_append] at hpoint ⊢
    split
    · exact absurd rfl (hpoint _)
    · rw [Nat.add_zero, List.drop_left, hlast]
      rfl
  | @some more hmore =>
    have hrun : runLength isDigitPart (more ++ tail) = more.length :=
      runLength_digits hmore fun c hc => isDigitPart_eq_false (.inr (hbehind c hc))
    have hdrop : (ds ++ ('.' :: more ++ tail)).drop (ds.length + (1 + more.length)) = tail := by
      rw [← List.append_assoc]
      exact List.drop_left' (by rw [List.length_append, List.length_cons, Nat.add_comm 1])
    rw [List.cons_append] at hdrop ⊢
    show ds.length + (1 + runLength isDigitPart (more ++ tail)) + exponentLength (List.drop
      (ds.length + (1 + runLength isDigitPart (more ++ tail))) (ds ++ '.' :: (more ++ tail))) = _
    rw [hrun, hdrop, hlast, List.length_cons, Nat.add_comm 1]

/-- A number starts with no radix mark. -/
theorem radixLength_eq (h : ∀ c ∈ (cs.drop 1).head?, c ∉ ['x', 'X', 'o', 'O', 'b', 'B']) :
    radixLength cs = (0, false) := by
  unfold radixLength
  split
  · rename_i mark rest
    have hmark := h mark rfl
    simp only [List.mem_cons, List.not_mem_nil, or_false, not_or] at hmark
    simp [hmark]
  · rfl

theorem numberExtent_eq (hcs : IsNumeral cs) (hrest : Bounded rest) :
    numberExtent (cs ++ rest) = (numberLiteral, cs.length) := by
  obtain @⟨d, ds, places, exponent, hds, hplaces, hexponent⟩ := hcs
  have hbehind := behind_digits hplaces hexponent hrest
  have hdecimal := decimalLength_eq hds hplaces hexponent hrest
  have hwhole : runLength isDigitPart (d :: ds ++ (places ++ (exponent ++ rest))) =
      (d :: ds).length :=
    runLength_digits hds fun c hc => isDigitPart_eq_false (hbehind c hc)
  have hradix : radixLength (d :: ds ++ (places ++ (exponent ++ rest))) = (0, false) := by
    refine radixLength_eq fun c hc => ?_
    have hletter : c.isDigit = true ∨ c = '.' ∨ c = 'e' ∨ bounds c = true := by
      rw [List.cons_append, List.drop_one, List.tail_cons] at hc
      cases ds with
      | nil => exact .inr (hbehind c hc)
      | cons e ds =>
        obtain rfl := Option.mem_some.1 hc
        exact .inl (hds _ (List.mem_cons_of_mem d List.mem_cons_self))
    intro hmem
    simp only [List.mem_cons, List.not_mem_nil, or_false] at hmem
    obtain rfl | rfl | rfl | rfl | rfl | rfl := hmem <;> exact absurd hletter (by decide)
  have hbig : (places ++ (exponent ++ rest)).head? ≠ some 'n' := fun hn =>
    absurd (hbehind 'n' hn) (by decide)
  rw [List.append_assoc, List.append_assoc, numberExtent, hradix]
  simp only [beq_self_eq_true, if_true, Bool.true_or, Bool.true_and]
  rw [hwhole, List.drop_left, beq_false_of_ne hbig, if_neg Bool.false_ne_true, hdecimal,
    List.length_append, List.length_append]

/-- A digit starts no word and is no blank. -/
theorem not_startsIdent_of_isDigit (hc : c.isDigit = true) :
    startsIdent c = false ∧ isInlineBlank c = false := by
  have hall : ∀ n < 58, 48 ≤ n →
      startsIdent (Char.ofNat n) = false ∧ isInlineBlank (Char.ofNat n) = false := by decide
  obtain ⟨hlow, hhigh⟩ : 48 ≤ c.toNat ∧ c.toNat ≤ 57 := Char.isDigit_iff_toNat.1 hc
  have h := hall c.toNat (Nat.lt_succ_of_le hhigh) hlow
  rwa [Char.ofNat_toNat] at h

theorem extent_numeral (hcs : IsNumeral (c :: cs)) (hrest : Bounded rest) :
    extent c (cs ++ rest) = (numberLiteral, cs.length) := by
  have hnumber := numberExtent_eq hcs hrest
  have hdigit : c.isDigit = true := by
    obtain ⟨d, ds, hchars, hd⟩ := hcs.exists_digit
    rwa [(List.cons.inj hchars).1]
  have hstart := not_startsIdent_of_isDigit hdigit
  unfold extent
  rw [hstart.1, if_neg Bool.false_ne_true, hstart.2, if_neg Bool.false_ne_true, if_pos hdigit,
    ← List.cons_append, hnumber]
  rfl

/-- A number is one word when what stands behind it does not go on with it. -/
theorem Spells.numeral (hcs : IsNumeral cs) (hrest : Bounded rest) (h : Spells rest ws) :
    Spells (cs ++ rest) (⟨numberLiteral, cs⟩ :: ws) := by
  obtain ⟨c, cs, rfl, hdigit⟩ := hcs.exists_digit
  have hc : c ≠ '`' := by
    rintro rfl
    cases hdigit
  have hword := Spells.word hc (extent_numeral hcs hrest) (by decide) (by rwa [List.drop_left])
  rwa [List.take_left] at hword

/-! ## Names as words -/

variable {s t : String} {vs : List Lexeme}

/-- The name is that of a negative number, which is written with its minus sign in front. -/
def isNegativeName (s : String) : Bool := Text.isNumericName s && s.toList.head? == some '-'

/-- The word that a property name is written as. -/
def nameWord (s : String) : Lexeme :=
  if Text.isIdentifierName s then .named s
  else if Text.isNumericName s then ⟨numberLiteral, s.toList⟩
  else ⟨stringLiteral, (Text.quote s).toList⟩

/-- A numeric name is the text of a number. -/
theorem exists_body_of_isNumericName (hs : Text.isNumericName s = true) : ∃ body : String,
    (IsNumeral body.toList ∨ body = "NaN" ∨ body = "Infinity") ∧ (s = body ∨ s = "-" ++ body) := by
  unfold Text.isNumericName at hs
  split at hs
  · rename_i d _
    rw [← eq_of_beq hs]
    exact d.text_cases
  · cases hs

theorem startsIdent_of_isIdentifierStart (hc : Text.isIdentifierStart c = true) :
    startsIdent c = true := by
  simp only [Text.isIdentifierStart, Text.isAlphabetic, Bool.or_eq_true, beq_iff_eq] at hc
  simp only [startsIdent, Bool.or_eq_true, beq_iff_eq, decide_eq_true_iff]
  split at hc
  · tauto
  · exact .inr (by omega)

theorem continuesIdent_of_isIdentifierPart (hc : Text.isIdentifierPart c = true) :
    continuesIdent c = true := by
  rw [Text.isIdentifierPart, Bool.or_eq_true, Text.isNumeral] at hc
  rw [continuesIdent, Bool.or_eq_true]
  obtain hc | hc := hc
  · exact .inl (startsIdent_of_isIdentifierStart hc)
  split at hc
  · exact .inr hc
  · rename_i hc
    exact .inl (by simp only [startsIdent, Bool.or_eq_true, decide_eq_true_iff]; omega)

/-- A bare name is a name or a reserved word. -/
theorem isWord_of_isIdentifierName (hs : Text.isIdentifierName s = true) : isWord s = true := by
  unfold Text.isIdentifierName at hs
  unfold isWord
  cases hchars : s.toList with
  | nil =>
    rw [hchars] at hs
    cases hs
  | cons c cs =>
    rw [hchars] at hs
    obtain ⟨hc, hcs⟩ := Bool.and_eq_true_iff.1 hs
    exact Bool.and_eq_true_iff.2 ⟨startsIdent_of_isIdentifierStart hc, List.all_eq_true.2 fun d hd =>
      continuesIdent_of_isIdentifierPart (List.all_eq_true.1 hcs d hd)⟩

/-- A text is cut into given words when what stands behind it goes on with no word and no number. -/
def Names (s : String) (ws : List Lexeme) : Prop :=
  ∀ rest vs, Bounded rest → Spells rest vs → Spells (s.toList ++ rest) (ws ++ vs)

/-- The text starts with a character that goes on with no word and no number. -/
def Bounds (s : String) : Prop := ∃ c cs, s.toList = c :: cs ∧ bounds c = true

theorem Names.before (h : Names s ws) (h' : Closed t vs) (ht : Bounds t) :
    Closed (s ++ t) (ws ++ vs) := by
  intro rest us hrest
  obtain ⟨c, cs, hchars, hc⟩ := ht
  rw [String.toList_append, List.append_assoc, List.append_assoc]
  refine h _ _ (fun d hd => ?_) (h' rest us hrest)
  rw [hchars] at hd
  exact Option.mem_some.1 hd ▸ hc

theorem names_word (hs : isWord s = true) : Names s [.named s] := fun _ _ hrest h =>
  h.named hs hrest.delimits

theorem names_numeral (hs : IsNumeral s.toList) : Names s [⟨numberLiteral, s.toList⟩] :=
  fun _ _ hrest h => h.numeral hs hrest

/-- A property name is one word, unless it is that of a negative number. -/
theorem names_propertyName (hs : isNegativeName s = false) :
    Names (Text.propertyName s) [nameWord s] := by
  unfold Text.propertyName nameWord
  by_cases hname : Text.isIdentifierName s = true
  · rw [hname, Bool.true_or, if_pos rfl, if_pos rfl]
    exact names_word (isWord_of_isIdentifierName hname)
  rw [Bool.not_eq_true] at hname
  rw [hname, Bool.false_or, if_neg Bool.false_ne_true]
  split
  · rename_i hnumeric
    obtain ⟨body, hbody, rfl | rfl⟩ := exists_body_of_isNumericName hnumeric
    · -- the two names of numbers are identifiers
      obtain hbody | rfl | rfl := hbody
      · exact names_numeral hbody
      · exact absurd hname (by decide)
      · exact absurd hname (by decide)
    · rw [isNegativeName, hnumeric, String.toList_append] at hs
      cases hs
  · exact fun _ _ _ h => h.quote s

/-- A negative number is a minus sign and another word, and neither is quoted or in brackets. -/
theorem exists_names_negative (hs : isNegativeName s = true) :
    ∃ w : Lexeme, Names (Text.propertyName s) [⟨minus, ['-']⟩, w] ∧ w.kind ∈ [ident, numberLiteral] ∧
      '-' :: w.chars = s.toList ∧ w.chars ≠ [] ∧ '\x7b' ∉ w.chars := by
  obtain ⟨hnumeric, hminus⟩ := Bool.and_eq_true_iff.1 hs
  have hbare : Text.propertyName s = s := by
    rw [Text.propertyName, hnumeric, Bool.or_true, if_pos rfl]
  obtain ⟨body, hbody, rfl | rfl⟩ := exists_body_of_isNumericName hnumeric
  · -- what is written without a sign does not start with one
    obtain hbody | rfl | rfl := hbody
    · obtain ⟨d, ds, hchars, hd⟩ := hbody.exists_digit
      obtain rfl : d = '-' := by simpa [hchars] using hminus
      cases hd
    · cases hminus
    · cases hminus
  · obtain ⟨w, hnames, hkind, hchars, hne, hbrace⟩ : ∃ w : Lexeme, Names body [w] ∧
        w.kind ∈ [ident, numberLiteral] ∧ w.chars = body.toList ∧ w.chars ≠ [] ∧ '\x7b' ∉ w.chars := by
      obtain hbody | rfl | rfl := hbody
      · refine ⟨⟨numberLiteral, body.toList⟩, names_numeral hbody, List.mem_cons_of_mem _
          List.mem_cons_self, rfl, ?_, fun hmem => ?_⟩
        · obtain ⟨d, ds, hchars, -⟩ := hbody.exists_digit
          exact fun hnil => List.cons_ne_nil d ds (hchars.symm.trans hnil)
        · exact absurd (hbody.isDigit_or_mem _ hmem) (by decide)
      · exact ⟨_, names_word (by decide), by decide, rfl, by decide, by decide⟩
      · exact ⟨_, names_word (by decide), by decide, rfl, by decide, by decide⟩
    refine ⟨w, fun rest vs hrest h => ?_, hkind, ?_, hne, hbrace⟩
    · rw [hbare, String.toList_append, List.append_assoc]
      exact Spells.word (n := 0) (by decide) rfl (by decide) (hnames rest vs hrest h)
    · rw [hchars, String.toList_append]
      rfl

end Token

end DeclKit

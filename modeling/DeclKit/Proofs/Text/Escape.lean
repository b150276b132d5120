/-
Reading escapes back.

A character can be written by its code, in hexadecimal digits between braces, or by its code units, in
four digits each. What is written by codes is read back. Code units are read one by one, so that is
read back as long as each character has one of them; a character beyond the basic plane has two, which
are surrogates, and for a surrogate nothing is read. String literals write characters as they are where
they can, and else by escapes that are read back whatever stands behind them.
-/
import DeclKit.Text.Offset
import DeclKit.Text.Quoted
import Mathlib.Data.List.Forall2

set_option autoImplicit false

namespace DeclKit.Text

variable {c d : Char} {cs ds rest w : List Char} {ws : List (List Char)} {n v : Nat}

/-! ## Hexadecimal digits -/

/-- The digit of a value in hexadecimal, in lower or in upper case. -/
def IsHexDigit (v : Nat) (d : Char) : Prop :=
  v < 16 ∧ (d = v.digitChar ∨ d = v.digitChar.toUpper)

/-- The digits write the number in hexadecimal, with any zeros in front. -/
inductive Hex : List Char → Nat → Prop
  | nil : Hex [] 0
  | concat {ds : List Char} {n v : Nat} {d : Char} (front : Hex ds n) (digit : IsHexDigit v d) :
    Hex (ds ++ [d]) (16 * n + v)

theorem digitValue?_of_isHexDigit (h : IsHexDigit v d) : digitValue? 16 d = some v := by
  have hall : ∀ v < 16, digitValue? 16 v.digitChar = some v ∧
      digitValue? 16 v.digitChar.toUpper = some v := by decide
  obtain ⟨hv, rfl | rfl⟩ := h
  · exact (hall v hv).1
  · exact (hall v hv).2

theorem isAlphanum_of_isHexDigit (h : IsHexDigit v d) : d.isAlphanum = true := by
  have hall : ∀ v < 16, v.digitChar.isAlphanum = true ∧ v.digitChar.toUpper.isAlphanum = true := by
    decide
  obtain ⟨hv, rfl | rfl⟩ := h
  · exact (hall v hv).1
  · exact (hall v hv).2

namespace Hex

/-- No digit is a mark. -/
theorem ne_of_mem {mark : Char} (h : Hex ds n) (hd : d ∈ ds) (hmark : mark.isAlphanum = false) :
    d ≠ mark := by
  have hall : d.isAlphanum = true := by
    induction h with
    | nil => cases hd
    | concat _ digit ih =>
      rcases List.mem_append.1 hd with hd | hd
      · exact ih hd
      · rw [List.mem_singleton.1 hd]
        exact isAlphanum_of_isHexDigit digit
  rintro rfl
  rw [hmark] at hall
  cases hall

/-- Digits are read from the front, each with those before it as what it continues. -/
theorem digits?_concat (radix acc : Nat) (ds : List Char) (d : Char) :
    digits? radix acc (ds ++ [d]) =
      (digits? radix acc ds).bind fun n => (digitValue? radix d).map (n * radix + ·) := by
  induction ds generalizing acc with
  | nil =>
    cases hd : digitValue? radix d <;> simp [digits?, hd]
  | cons e ds ih =>
    rw [List.cons_append, digits?, digits?]
    cases digitValue? radix e with
    | none => rfl
    | some v => exact ih _

theorem digits?_eq (h : Hex ds n) : digits? 16 0 ds = some n := by
  induction h with
  | nil => rfl
  | concat _ digit ih =>
    rw [digits?_concat, ih, Option.bind_some, digitValue?_of_isHexDigit digit, Nat.mul_comm]
    rfl

/-- Digits name the character of their number, if there is one. -/
theorem charOfHex?_eq (h : Hex ds n) (hne : ds ≠ []) :
    charOfHex? ds = if n.isValidChar then some (Char.ofNat n) else none := by
  have hread : unsigned? 16 (Nat.pow 2 32) ds = if n < Nat.pow 2 32 then some n else none := by
    have hempty : ds.isEmpty = false := List.isEmpty_eq_false_iff.2 hne
    unfold unsigned?
    split
    · rename_i more
      exact absurd rfl (h.ne_of_mem List.mem_cons_self rfl)
    · simp only [hempty, h.digits?_eq, Bool.false_eq_true, if_false]
  have hbound : n.isValidChar → n < Nat.pow 2 32 := by
    intro hvalid
    have : Nat.pow 2 32 = 4294967296 := by decide
    rcases hvalid with hlow | ⟨-, hhigh⟩ <;> omega
  rw [charOfHex?, hread]
  by_cases hvalid : n.isValidChar
  · simp only [hvalid, hbound hvalid, if_true]
  · by_cases hn : n < Nat.pow 2 32 <;> simp [hn, hvalid]

theorem charOfHex?_toNat (h : Hex ds c.toNat) (hne : ds ≠ []) : charOfHex? ds = some c := by
  have hvalid : c.toNat.isValidChar := c.valid
  rw [h.charOfHex?_eq hne, if_pos hvalid, Char.ofNat_toNat]

/-! Numbers as they are written. -/

theorem toUpper (h : Hex ds n) : Hex (ds.map Char.toUpper) n := by
  induction h with
  | nil => exact .nil
  | concat _ digit ih =>
    rw [List.map_append, List.map_singleton]
    refine ih.concat ⟨digit.1, .inr ?_⟩
    have htwice : ∀ v < 16, (Nat.digitChar v).toUpper.toUpper = (Nat.digitChar v).toUpper := by decide
    obtain ⟨hv, rfl | rfl⟩ := digit
    · rfl
    · exact htwice _ hv

theorem toDigits (n : Nat) : Hex (Nat.toDigits 16 n) n := by
  induction n using Nat.strongRecOn with
  | _ n ih =>
    by_cases hn : n < 16
    · rw [Nat.toDigits_of_lt_base hn]
      have hone := Hex.nil.concat ⟨hn, .inl rfl⟩
      rwa [List.nil_append, Nat.mul_zero, Nat.zero_add] at hone
    · rw [Nat.toDigits_of_base_le (by decide) (Nat.le_of_not_lt hn)]
      have hfront := ih (n / 16) (by omega)
      have hall := hfront.concat ⟨Nat.mod_lt n (by decide), .inl rfl⟩
      rwa [Nat.div_add_mod] at hall

theorem zeros (h : Hex ds n) (k : Nat) : Hex (List.replicate k '0' ++ ds) n := by
  induction h with
  | nil =>
    rw [List.append_nil]
    induction k with
    | zero => exact .nil
    | succ k ih =>
      rw [List.replicate_succ']
      exact ih.concat (v := 0) ⟨by decide, .inl rfl⟩
  | concat _ digit ih =>
    rw [← List.append_assoc]
    exact ih.concat digit

end Hex

/-- The digits of an escape of four. -/
theorem hex4_toList (n : Nat) : (hex4 n).toList =
    (List.replicate (4 - (Nat.toDigits 16 n).length) '0' ++ Nat.toDigits 16 n).map Char.toUpper := by
  rw [hex4, String.toList_map, padZeros, String.toList_append, radixDigits, String.toList_ofList,
    String.toList_ofList, String.length_ofList]

theorem hex_hex4 (n : Nat) : Hex (hex4 n).toList n := by
  rw [hex4_toList]
  exact ((Hex.toDigits n).zeros _).toUpper

theorem length_hex4 (hn : n < 0x10000) : (hex4 n).toList.length = 4 := by
  have hle : (Nat.toDigits 16 n).length ≤ 4 :=
    (Nat.length_toDigits_le_iff (by decide) (by decide)).2 hn
  rw [hex4_toList, List.length_map, List.length_append, List.length_replicate]
  omega

/-! ## Reading -/

/-- A character stands for itself unless it opens an escape. -/
theorem unescapeChars_cons (hc : c ≠ '\\') (rest : List Char) :
    unescapeChars (c :: rest) = c :: unescapeChars rest := by
  rw [unescapeChars] <;> intros <;> simp_all

/-- A backslash and a character that stands for itself or for some other one. -/
theorem unescapeChars_simple (hr : c ≠ '\r') (hx : c ≠ 'x') (hu : c ≠ 'u') (rest : List Char) :
    unescapeChars ('\\' :: c :: rest) = simpleEscape c ++ unescapeChars rest := by
  rw [unescapeChars] <;> intros <;> simp_all

/-- A backslash, the letter of unicode escapes and four digits. -/
theorem unescapeChars_digits (hds : Hex ds n) (hlen : ds.length = 4) (rest : List Char) :
    unescapeChars ('\\' :: 'u' :: (ds ++ rest)) = (charOfHex? ds).toList ++ unescapeChars rest := by
  rw [unescapeChars]
  · rw [List.take_left' hlen, List.drop_left' hlen]
  · -- no digit is a brace
    intro more hmore
    cases ds with
    | nil => cases hlen
    | cons d ds =>
      rw [List.cons_append] at hmore
      exact hds.ne_of_mem List.mem_cons_self rfl (List.cons.inj hmore).1

/-- The same with any number of digits between braces. -/
theorem unescapeChars_braces (hds : Hex ds n) (rest : List Char) :
    unescapeChars ('\\' :: 'u' :: '{' :: (ds ++ '}' :: rest)) =
      (charOfHex? ds).toList ++ unescapeChars rest := by
  have hcode : (ds ++ '}' :: rest).takeWhile (· != '}') = ds := by
    rw [List.takeWhile_append_of_pos fun d hd => by simpa using hds.ne_of_mem hd rfl]
    simp
  rw [unescapeChars]
  simp only [hcode]
  rw [← List.singleton_append, ← List.append_assoc, List.drop_left' (by simp)]

/-! ## Escapes by code -/

/-- The character is written as an escape by its code, between braces. -/
def EscapesCode (c : Char) (w : List Char) : Prop :=
  ∃ ds, Hex ds c.toNat ∧ ds ≠ [] ∧ w = '\\' :: 'u' :: '{' :: (ds ++ ['}'])

/-- The code units of a character in UTF-16: one, or beyond the basic plane a pair of surrogates. -/
def codeUnits (c : Char) : List Nat :=
  if c.toNat < 0x10000 then [c.toNat]
  else [0xd800 + (c.toNat - 0x10000) / 0x400, 0xdc00 + (c.toNat - 0x10000) % 0x400]

/-- The code unit is written as an escape of four digits. -/
def EscapesUnit (n : Nat) (w : List Char) : Prop :=
  ∃ ds, Hex ds n ∧ ds.length = 4 ∧ w = '\\' :: 'u' :: ds

/-- The character is written as an escape for each of its code units. -/
def EscapesUnits (c : Char) (w : List Char) : Prop :=
  ∃ us, List.Forall₂ EscapesUnit (codeUnits c) us ∧ w = us.flatten

theorem EscapesCode.read (h : EscapesCode c w) (rest : List Char) :
    unescapeChars (w ++ rest) = c :: unescapeChars rest := by
  obtain ⟨ds, hds, hne, rfl⟩ := h
  have hread := unescapeChars_braces hds rest
  rw [hds.charOfHex?_toNat hne] at hread
  simpa using hread

theorem EscapesUnit.read (h : EscapesUnit n w) (rest : List Char) :
    unescapeChars (w ++ rest) =
      (if n.isValidChar then [Char.ofNat n] else []) ++ unescapeChars rest := by
  obtain ⟨ds, hds, hlen, rfl⟩ := h
  have hne : ds ≠ [] := List.ne_nil_of_length_pos (by omega)
  rw [List.cons_append, List.cons_append, unescapeChars_digits hds hlen, hds.charOfHex?_eq hne]
  split <;> rfl

/-- No code unit is a character by itself if there are two of them. -/
theorem EscapesUnits.read (h : EscapesUnits c w) (rest : List Char) :
    unescapeChars (w ++ rest) = [c].filter (·.toNat < 0x10000) ++ unescapeChars rest := by
  obtain ⟨us, hus, rfl⟩ := h
  by_cases hbasic : c.toNat < 0x10000
  · rw [codeUnits, if_pos hbasic] at hus
    obtain ⟨u, _, hu, hnil, rfl⟩ := List.forall₂_cons_left_iff.1 hus
    obtain rfl := List.forall₂_nil_left_iff.1 hnil
    have hvalid : c.toNat.isValidChar := c.valid
    rw [List.flatten_cons, List.flatten_nil, List.append_nil, hu.read, if_pos hvalid,
      Char.ofNat_toNat, List.filter_cons_of_pos (by simpa using hbasic), List.filter_nil]
  · rw [codeUnits, if_neg hbasic] at hus
    obtain ⟨high, _, hhigh, hmore, rfl⟩ := List.forall₂_cons_left_iff.1 hus
    obtain ⟨low, _, hlow, hnil, rfl⟩ := List.forall₂_cons_left_iff.1 hmore
    obtain rfl := List.forall₂_nil_left_iff.1 hnil
    have hcode : c.toNat < 0x110000 := by
      have hvalid : c.toNat.isValidChar := c.valid
      rcases hvalid with hlow | ⟨-, hhigh⟩ <;> omega
    have hsurrogate (n : Nat) (hn : 0xd800 ≤ n ∧ n < 0xe000) : ¬n.isValidChar := by
      rintro (hlow | ⟨hhigh, -⟩) <;> omega
    rw [List.flatten_cons, List.flatten_cons, List.flatten_nil, List.append_nil, List.append_assoc,
      hhigh.read, hlow.read, if_neg (hsurrogate _ (by omega)), if_neg (hsurrogate _ (by omega)),
      List.filter_cons_of_neg (by simpa using hbasic)]
    rfl

theorem unescapeChars_codes (h : List.Forall₂ EscapesCode cs ws) (rest : List Char) :
    unescapeChars (ws.flatten ++ rest) = cs ++ unescapeChars rest := by
  induction h with
  | nil => rfl
  | cons hc _ ih => rw [List.flatten_cons, List.append_assoc, hc.read, ih, List.cons_append]

theorem unescapeChars_units (h : List.Forall₂ EscapesUnits cs ws) (rest : List Char) :
    unescapeChars (ws.flatten ++ rest) =
      cs.filter (·.toNat < 0x10000) ++ unescapeChars rest := by
  induction h with
  | nil => rfl
  | @cons c _ cs _ hc _ ih =>
    rw [List.flatten_cons, List.append_assoc, hc.read, ih, ← List.append_assoc,
      ← List.filter_append, List.singleton_append]

/-- What the front of a text is read as, if the same is read of what stands behind it anyway. -/
theorem unescape_front {back : List Char} (rest : String)
    (h : unescapeChars (w ++ rest.toList) = back ++ unescapeChars rest.toList) :
    unescape (String.ofList w ++ rest) = String.ofList back ++ unescape rest := by
  rw [unescape, unescape, String.toList_append, String.toList_ofList, h, String.ofList_append]

/-- A text whose characters are written by their codes is read back. So is a text whose characters are
written by their code units, if each of them has a single one; otherwise all of it is read but the
characters that have two. What stands behind, digits or not, makes no difference. -/
theorem unescape_unicode (s : String) (ws : List (List Char)) (rest : String) :
    (List.Forall₂ EscapesCode s.toList ws →
      unescape (String.ofList ws.flatten ++ rest) = s ++ unescape rest) ∧
    (List.Forall₂ EscapesUnits s.toList ws →
      unescape (String.ofList ws.flatten ++ rest) =
        String.ofList (s.toList.filter (·.toNat < 0x10000)) ++ unescape rest ∧
      (unescape (String.ofList ws.flatten ++ rest) = s ++ unescape rest ↔
        ∀ c ∈ s.toList, c.toNat < 0x10000)) := by
  refine ⟨?_, ?_⟩
  · intro hcodes
    have hread := unescape_front rest (unescapeChars_codes hcodes rest.toList)
    rwa [String.ofList_toList] at hread
  · intro hunits
    have hread := unescape_front rest (unescapeChars_units hunits rest.toList)
    refine ⟨hread, ?_⟩
    rw [hread, String.append_left_inj, ← String.toList_inj, String.toList_ofList,
      List.filter_eq_self]
    simp

/-- The digits of what is written end where they should, although more digits stand behind them. -/
theorem unescape_unicode_before_digits :
    unescape (String.ofList ['\\', 'u', '{', '0', 'e', '9', '}'] ++ "12") = "é" ++ unescape "12" ∧
      unescape (String.ofList ['\\', 'u', '2', '0', 'a', 'C'] ++ "Fee") = "€" ++ unescape "Fee" := by
  have hcode : Hex ['0', 'e', '9'] 'é'.toNat :=
    ((Hex.nil.concat (v := 0) ⟨by decide, .inl rfl⟩).concat (v := 14) ⟨by decide, .inl rfl⟩).concat
      (v := 9) ⟨by decide, .inl rfl⟩
  have hunit : Hex ['2', '0', 'a', 'C'] '€'.toNat :=
    (((Hex.nil.concat (v := 2) ⟨by decide, .inl rfl⟩).concat (v := 0) ⟨by decide, .inl rfl⟩).concat
      (v := 10) ⟨by decide, .inl rfl⟩).concat (v := 12) ⟨by decide, .inr rfl⟩
  have hcodes : List.Forall₂ EscapesCode "é".toList [['\\', 'u', '{', '0', 'e', '9', '}']] :=
    .cons ⟨_, hcode, by decide, rfl⟩ .nil
  have hunits : List.Forall₂ EscapesUnits "€".toList [['\\', 'u', '2', '0', 'a', 'C']] :=
    .cons ⟨[['\\', 'u', '2', '0', 'a', 'C']], .cons ⟨_, hunit, rfl, rfl⟩ .nil, rfl⟩ .nil
  have hbasic : ∀ c ∈ "€".toList, c.toNat < 0x10000 := by simp
  have hread := (unescape_unicode "é" _ "12").1 hcodes
  have hread' := ((unescape_unicode "€" _ "Fee").2 hunits).2.2 hbasic
  rw [List.flatten_singleton] at hread hread'
  exact ⟨hread, hread'⟩

/-! ## Characters as literals write them -/

/-- A character is written as itself, with a backslash and a letter, or as an escape of four digits. -/
inductive IsWritten (c : Char) : List Char → Prop
  | plain (unslashed : c ≠ '\\') : IsWritten c [c]
  | letter {e : Char} (stands : simpleEscape e = [c]) (hr : e ≠ '\r') (hx : e ≠ 'x') (hu : e ≠ 'u') :
    IsWritten c ['\\', e]
  | digits {ds : List Char} (hex : Hex ds c.toNat) (four : ds.length = 4) :
    IsWritten c ('\\' :: 'u' :: ds)

theorem IsWritten.read (h : IsWritten c w) (rest : List Char) :
    unescapeChars (w ++ rest) = c :: unescapeChars rest := by
  cases h with
  | plain hc => exact unescapeChars_cons hc rest
  | letter stands hr hx hu =>
    rw [List.cons_append, List.singleton_append, unescapeChars_simple hr hx hu, stands]
    rfl
  | @digits ds hex four =>
    have hne : ds ≠ [] := List.ne_nil_of_length_pos (by omega)
    rw [List.cons_append, List.cons_append, unescapeChars_digits hex four, hex.charOfHex?_toNat hne]
    rfl

theorem isWritten_hex4 (hc : c.toNat < 0x10000) :
    IsWritten c ('\\' :: 'u' :: (hex4 c.toNat).toList) :=
  .digits (hex_hex4 c.toNat) (length_hex4 hc)

theorem isWritten_quoteChar (c : Char) : IsWritten c (quoteChar c) := by
  unfold quoteChar
  by_cases hquote : c = '"'
  · subst hquote
    exact .letter rfl (by decide) (by decide) (by decide)
  by_cases hslash : c = '\\'
  · subst hslash
    exact .letter rfl (by decide) (by decide) (by decide)
  by_cases hfeed : c = '\n'
  · subst hfeed
    exact .letter rfl (by decide) (by decide) (by decide)
  by_cases hreturn : c = '\r'
  · subst hreturn
    exact .letter rfl (by decide) (by decide) (by decide)
  by_cases htab : c = '\t'
  · subst htab
    exact .letter rfl (by decide) (by decide) (by decide)
  simp only [beq_iff_eq, hquote, hslash, hfeed, hreturn, htab, if_false]
  split
  · rename_i hcode
    simp only [Bool.or_eq_true, beq_iff_eq, decide_eq_true_eq] at hcode
    exact isWritten_hex4 (by omega)
  · exact .plain hslash

/-- What stands between the quotes of a string literal is read back. -/
theorem unescapeChars_quote (cs rest : List Char) :
    unescapeChars (cs.flatMap quoteChar ++ rest) = cs ++ unescapeChars rest := by
  induction cs with
  | nil => rfl
  | cons c cs ih =>
    rw [List.flatMap_cons, List.append_assoc, (isWritten_quoteChar c).read, ih, List.cons_append]

end DeclKit.Text

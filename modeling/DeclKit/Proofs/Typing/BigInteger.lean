/-
Big integers.

One number is written in many ways: in decimal or in hexadecimal digits of either case, with separators
between them and zeros in front. The type of a literal holds one spelling of it, the decimal digits, so that
literals of one number have one type. Decimal digits are only rid of what does not count, however many there
are. Hexadecimal digits have to be converted, and that is done below `2 ^ 128` only: from there on they
stay as they are written.
-/
import DeclKit.Proofs.Text.Escape
import DeclKit.Proofs.Token.Number
import DeclKit.Proofs.Types.Normal
import DeclKit.Typing.Denote
import Mathlib

set_option autoImplicit false

namespace DeclKit

namespace Literal

/-! ## What a literal denotes -/

/-- The value of a digit, letters of either case counting from ten. -/
def digit (c : Char) : Nat := "0123456789abcdef".toList.idxOf c.toLower

/-- The number that digits denote, each by its place. -/
def positional (radix : Nat) : List Char → Nat
  | [] => 0
  | c :: cs => digit c * radix ^ cs.length + positional radix cs

/-- The radix of a big integer literal. -/
def bigintRadix (s : String) : Nat :=
  match s.toList with
  | '0' :: mark :: _ => if Token.isHexMark mark then 16 else 10
  | _ => 10

/-- The digits of a big integer literal, without its radix mark, its separators and the `n`. -/
def writtenDigits (s : String) : List Char :=
  (if bigintRadix s = 16 then s.toList.drop 2 else s.toList).filter fun c => c != '_' && c != 'n'

/-- The number that a big integer literal denotes. -/
def bigintValue (s : String) : Nat := positional (bigintRadix s) (writtenDigits s)

/-- The number of a big integer literal behind a sign. -/
def signedValue (negative : Bool) (s : String) : Int :=
  if negative then -(bigintValue s : Int) else bigintValue s

/-! ## Digits that are read -/

variable {radix bound acc : Nat} {c : Char} {cs ds : List Char}

/-- Every character is a digit in the radix. -/
def Digits (radix : Nat) (ds : List Char) : Prop :=
  ∀ c ∈ ds, Text.digitValue? radix c = some (digit c)

theorem digits?_positional (h : Digits radix ds) (acc : Nat) :
    Text.digits? radix acc ds = some (acc * radix ^ ds.length + positional radix ds) := by
  induction ds generalizing acc with
  | nil => simp [Text.digits?, positional]
  | cons c ds ih =>
    obtain ⟨hc, hds⟩ := List.forall_mem_cons.1 h
    rw [Text.digits?, hc]
    dsimp only
    rw [ih hds, positional, List.length_cons, Nat.pow_succ', Nat.add_mul, Nat.mul_assoc, Nat.add_assoc]

theorem unsigned?_positional (h : Digits radix ds) (hne : ds ≠ []) :
    Text.unsigned? radix bound ds =
      if positional radix ds < bound then some (positional radix ds) else none := by
  have hplus : ∀ rest, ds ≠ '+' :: rest := by
    rintro rest rfl
    have hsign := h '+' List.mem_cons_self
    unfold Text.digitValue? at hsign
    simp at hsign
  unfold Text.unsigned?
  split
  · rename_i rest
    exact absurd rfl (hplus rest)
  · dsimp only
    rw [List.isEmpty_eq_false_iff.2 hne, digits?_positional h, Nat.zero_mul, Nat.zero_add]
    rfl

/-! ## Characters of digits -/

theorem exists_digitChar (hc : c.isDigit = true) : ∃ v < 10, c = v.digitChar := by
  simp only [Char.isDigit, Bool.and_eq_true, decide_eq_true_eq] at hc
  have hlow : 48 ≤ c.toNat := hc.1
  have hhigh : c.toNat ≤ 57 := hc.2
  refine ⟨c.toNat - 48, by omega, Char.toNat_inj.1 ?_⟩
  rw [Nat.toNat_digitChar_of_lt_ten (by omega)]
  omega

/-- A decimal digit has its value in the decimal radix, and is the digit of its value. -/
theorem of_isDigit (hc : c.isDigit = true) :
    Text.digitValue? 10 c = some (digit c) ∧ digit c < 10 ∧ (digit c).digitChar = c ∧
      c.toLower = c ∧ c ≠ 'n' := by
  have hall : ∀ v < 10, Text.digitValue? 10 v.digitChar = some (digit v.digitChar) ∧
      digit v.digitChar < 10 ∧ (digit v.digitChar).digitChar = v.digitChar ∧
      v.digitChar.toLower = v.digitChar ∧ v.digitChar ≠ 'n' := by decide
  obtain ⟨v, hv, rfl⟩ := exists_digitChar hc
  exact hall v hv

theorem isDigit_of_isDigitPart (hc : Token.isDigitPart c = true) (hsep : c ≠ '_') :
    c.isDigit = true := by
  rw [Token.isDigitPart, Bool.or_eq_true, beq_iff_eq] at hc
  exact hc.resolve_right hsep

/-- A character that is no separator is a hexadecimal digit of some value. -/
theorem exists_isHexDigit (hc : Token.isHexPart c = true) (hsep : c ≠ '_') :
    ∃ v, Text.IsHexDigit v c := by
  have hletter : ∀ v < 16, 10 ≤ v →
      v.digitChar.toNat = v + 87 ∧ v.digitChar.toUpper.toNat = v + 55 := by decide
  simp only [Token.isHexPart, Bool.or_eq_true, Bool.and_eq_true, decide_eq_true_eq] at hc
  obtain (hc | ⟨hlow, hhigh⟩) | ⟨hlow, hhigh⟩ := hc
  · obtain ⟨v, hv, rfl⟩ := exists_digitChar (isDigit_of_isDigitPart hc hsep)
    exact ⟨v, by omega, .inl rfl⟩
  · have h1 : 97 ≤ c.toNat := hlow
    have h2 : c.toNat ≤ 102 := hhigh
    refine ⟨c.toNat - 87, by omega, .inl (Char.toNat_inj.1 ?_)⟩
    rw [(hletter _ (by omega) (by omega)).1]
    omega
  · have h1 : 65 ≤ c.toNat := hlow
    have h2 : c.toNat ≤ 70 := hhigh
    refine ⟨c.toNat - 55, by omega, .inr (Char.toNat_inj.1 ?_)⟩
    rw [(hletter _ (by omega) (by omega)).2]
    omega

/-- A hexadecimal digit has its value in either case. -/
theorem of_isHexPart (hc : Token.isHexPart c = true) (hsep : c ≠ '_') :
    Text.digitValue? 16 c.toLower = some (digit c.toLower) ∧ digit c.toLower = digit c ∧
      c ≠ 'n' := by
  -- a test of the two characters of a digit, so that it is not asked of all characters there are
  have hall : ∀ v < 16, [v.digitChar, v.digitChar.toUpper].all (fun c =>
      decide (Text.digitValue? 16 c.toLower = some (digit c.toLower) ∧ digit c.toLower = digit c ∧
        c ≠ 'n')) = true := by decide
  obtain ⟨v, hv, hdigit⟩ := exists_isHexDigit hc hsep
  exact of_decide_eq_true (List.all_eq_true.1 (hall v hv) c (by simpa using hdigit))

/-- Letters count the same in either case. -/
theorem positional_toLower (h : ∀ c ∈ ds, digit c.toLower = digit c) :
    positional radix (ds.map Char.toLower) = positional radix ds := by
  induction ds with
  | nil => rfl
  | cons c ds ih =>
    obtain ⟨hc, hds⟩ := List.forall_mem_cons.1 h
    rw [List.map_cons, positional, positional, hc, List.length_map, ih hds]

/-! ## Digits that are written -/

theorem toDigits_append (h : ∀ c ∈ ds, c.isDigit = true) (hacc : 0 < acc) :
    Nat.toDigits 10 acc ++ ds = Nat.toDigits 10 (acc * 10 ^ ds.length + positional 10 ds) := by
  induction ds generalizing acc with
  | nil => simp [positional]
  | cons c ds ih =>
    obtain ⟨hc, hds⟩ := List.forall_mem_cons.1 h
    obtain ⟨-, hlt, hchar, -⟩ := of_isDigit hc
    have hone : Nat.toDigits 10 acc ++ [c] = Nat.toDigits 10 (10 * acc + digit c) := by
      rw [← Nat.toDigits_append_toDigits (by decide) hacc hlt, Nat.toDigits_of_lt_base hlt, hchar]
    calc Nat.toDigits 10 acc ++ c :: ds
        = Nat.toDigits 10 acc ++ [c] ++ ds := List.append_cons _ _ _
      _ = Nat.toDigits 10 ((10 * acc + digit c) * 10 ^ ds.length + positional 10 ds) := by
          rw [hone, ih hds (by omega)]
      _ = Nat.toDigits 10 (acc * 10 ^ (c :: ds).length + positional 10 (c :: ds)) := by
          rw [positional, List.length_cons, Nat.pow_succ', ← Nat.add_assoc, Nat.add_mul,
            Nat.mul_comm 10 acc, Nat.mul_assoc]

/-- Decimal digits without the zeros in front are those of the number, unless it is zero. -/
theorem toDigits_positional (h : ∀ c ∈ ds, c.isDigit = true) (hpos : 0 < positional 10 ds) :
    Nat.toDigits 10 (positional 10 ds) = ds.dropWhile (· == '0') := by
  induction ds with
  | nil => exact absurd hpos (Nat.lt_irrefl 0)
  | cons c ds ih =>
    obtain ⟨hc, hds⟩ := List.forall_mem_cons.1 h
    obtain ⟨-, hlt, hchar, -⟩ := of_isDigit hc
    by_cases hzero : c = '0'
    · subst hzero
      have hskip : positional 10 ('0' :: ds) = positional 10 ds := by
        rw [positional, show digit '0' = 0 from rfl, Nat.zero_mul, Nat.zero_add]
      rw [hskip] at hpos ⊢
      rw [List.dropWhile_cons_of_pos rfl]
      exact ih hds hpos
    · have hdigit : 0 < digit c := by
        refine Nat.pos_of_ne_zero fun hval => hzero ?_
        rw [← hchar, hval]
        rfl
      rw [List.dropWhile_cons_of_neg (by simpa using hzero), positional, ← toDigits_append hds hdigit,
        Nat.toDigits_of_lt_base hlt, hchar]
      rfl

/-! ## The two forms of literals -/

/-- The `n` behind a literal is left out. -/
theorem dropRightWhile_n (hcs : ∀ c ∈ cs, c ≠ 'n') :
    dropRightWhile (· == 'n') (cs ++ ['n']) = cs := by
  rw [dropRightWhile, List.reverse_append, List.reverse_singleton, List.singleton_append,
    List.dropWhile_cons_of_pos rfl]
  cases hrev : cs.reverse with
  | nil => rw [List.reverse_eq_nil_iff.1 hrev]; rfl
  | cons c rest =>
    have hc : c ≠ 'n' := hcs c (List.mem_reverse.1 (hrev ▸ List.mem_cons_self))
    rw [List.dropWhile_cons_of_neg (by simpa using hc), ← hrev, List.reverse_reverse]

theorem filter_digits (hcs : ∀ c ∈ cs, c ≠ 'n') :
    (cs ++ ['n']).filter (fun c => c != '_' && c != 'n') = cs.filter (· != '_') := by
  have hsame : cs.filter (fun c => c != '_' && c != 'n') = cs.filter (· != '_') :=
    List.filter_congr fun c hc => by simp [hcs c hc]
  rw [List.filter_append, hsame]
  exact List.append_nil _

/-- What the digits are made of: the characters without separators and the `n`. -/
def bigintBody (s : String) : List Char := (dropRightWhile (· == 'n') s.toList).filter (· != '_')

theorem bigintBody_eq {s : String} (hs : s.toList = cs ++ ['n']) (hcs : ∀ c ∈ cs, c ≠ 'n') :
    bigintBody s = cs.filter (· != '_') := by
  rw [bigintBody, hs, dropRightWhile_n hcs]

/-- Without a radix mark the digits are read in the decimal radix. -/
theorem bigintDigits_decimal {s : String} (h : ∀ c ∈ bigintBody s, c.isDigit = true)
    (hne : bigintBody s ≠ []) : bigintDigits s = toString (positional 10 (bigintBody s)) := by
  have hlower : (bigintBody s).map Char.toLower = bigintBody s :=
    (List.map_congr_left fun c hc => (of_isDigit (h c hc)).2.2.2.1).trans (List.map_id _)
  have hread : Digits 10 (bigintBody s) := fun c hc => (of_isDigit (h c hc)).1
  unfold bigintDigits
  extract_lets body value
  have hvalue : value = if positional 10 (bigintBody s) < 2 ^ 128 then
      some (positional 10 (bigintBody s)) else none := by
    unfold value
    rw [show body.map Char.toLower = bigintBody s from hlower]
    -- no decimal digit is a radix mark
    split
    · rename_i heq
      exact absurd (h 'x' (heq ▸ by simp)) (by decide)
    · rename_i heq
      exact absurd (h 'o' (heq ▸ by simp)) (by decide)
    · rename_i heq
      exact absurd (h 'b' (heq ▸ by simp)) (by decide)
    · exact unsigned?_positional hread hne
  rw [hvalue]
  split_ifs with hlt
  · rfl
  · -- there is no bound on the digits that are written
    have hpos : 0 < positional 10 (bigintBody s) :=
      Nat.lt_of_lt_of_le (by decide) (Nat.not_lt.1 hlt)
    show String.ofList ((bigintBody s).dropWhile (· == '0')) = _
    rw [← toDigits_positional h hpos]
    rfl

/-- Behind a radix mark the digits are converted, if their number is below the bound; otherwise only the
zero of the mark is left out. -/
theorem bigintDigits_marked {s : String} {mark : Char} (hmark : mark = 'x' ∨ mark = 'X')
    (hbody : bigintBody s = '0' :: mark :: ds) (h : Digits 16 (ds.map Char.toLower)) (hne : ds ≠ []) :
    bigintDigits s = if positional 16 (ds.map Char.toLower) < 2 ^ 128 then
        toString (positional 16 (ds.map Char.toLower))
      else String.ofList (mark :: ds) := by
  have hlower : (bigintBody s).map Char.toLower = '0' :: 'x' :: ds.map Char.toLower := by
    rw [hbody]
    obtain rfl | rfl := hmark <;> rfl
  unfold bigintDigits
  extract_lets body value
  have hvalue : value = if positional 16 (ds.map Char.toLower) < 2 ^ 128 then
      some (positional 16 (ds.map Char.toLower)) else none := by
    unfold value
    rw [show body.map Char.toLower = _ from hlower]
    exact unsigned?_positional h (by simpa using hne)
  rw [hvalue]
  split_ifs
  · rfl
  · show String.ofList ((bigintBody s).dropWhile (· == '0')) = _
    rw [hbody]
    obtain rfl | rfl := hmark <;> rfl

/-- A decimal literal: its digits, and what is made of them. -/
theorem whole_digits {s : String} {d : Char} (hs : s.toList = d :: (ds ++ ['n']))
    (hd : d.isDigit = true) (hds : Token.DigitParts ds) :
    bigintRadix s = 10 ∧ bigintDigits s = toString (bigintValue s) := by
  have hradix : bigintRadix s = 10 := by
    have hsecond : (d :: (ds ++ ['n']))[1]?.bind Token.radixDigit? = none :=
      Token.radix_second hds fun e he => .inr (.inr (.inr (Option.mem_some.1 he).symm))
    unfold bigintRadix
    rw [hs]
    split
    · rename_i mark rest heq
      rw [heq] at hsecond
      refine if_neg fun hmark => ?_
      rw [List.getElem?_cons_succ, List.getElem?_cons_zero, Option.bind_some,
        Token.radixDigit?_of_isHexMark hmark] at hsecond
      cases hsecond
    · rfl
  have hparts : ∀ c ∈ d :: ds, Token.isDigitPart c = true := Token.digitParts_cons hd hds
  have hn : ∀ c ∈ d :: ds, c ≠ 'n' := by
    rintro c hc rfl
    exact absurd (hparts _ hc) (by decide)
  have hbody : bigintBody s = (d :: ds).filter (· != '_') := bigintBody_eq hs hn
  have hwritten : writtenDigits s = bigintBody s := by
    rw [writtenDigits, hradix, if_neg (by decide), hs, hbody, ← List.cons_append]
    exact filter_digits hn
  refine ⟨hradix, ?_⟩
  rw [bigintValue, hradix, hwritten]
  refine bigintDigits_decimal (fun c hc => ?_) ?_
  · obtain ⟨hmem, hsep⟩ := List.mem_filter.1 (hbody ▸ hc)
    exact isDigit_of_isDigitPart (hparts c hmem) (by simpa using hsep)
  · have hsep : d ≠ '_' := by
      rintro rfl
      cases hd
    rw [hbody]
    exact List.ne_nil_of_mem (List.mem_filter.2 ⟨List.mem_cons_self, by simpa using hsep⟩)

/-- A hexadecimal literal: its digits, and what is made of them. -/
theorem marked_digits {s : String} {mark : Char} (hs : s.toList = '0' :: mark :: (ds ++ ['n']))
    (hmark : Token.isHexMark mark = true) (hds : ∀ c ∈ ds, Token.isHexPart c = true)
    (hne : writtenDigits s ≠ []) :
    bigintRadix s = 16 ∧ bigintDigits s = if bigintValue s < 2 ^ 128 then toString (bigintValue s)
      else String.ofList (mark :: writtenDigits s) := by
  have hradix : bigintRadix s = 16 := by
    unfold bigintRadix
    rw [hs]
    exact if_pos hmark
  have hcase : mark = 'x' ∨ mark = 'X' := by simpa [Token.isHexMark] using hmark
  have hn : ∀ c ∈ ds, c ≠ 'n' := by
    rintro c hc rfl
    exact absurd (hds _ hc) (by decide)
  have hwritten : writtenDigits s = ds.filter (· != '_') := by
    rw [writtenDigits, hradix, if_pos rfl, hs]
    exact filter_digits hn
  have hbody : bigintBody s = '0' :: mark :: writtenDigits s := by
    have hfront : ∀ c ∈ '0' :: mark :: ds, c ≠ 'n' := by
      obtain rfl | rfl := hcase
      all_goals simpa using hn
    have hbefore : s.toList = ('0' :: mark :: ds) ++ ['n'] := hs
    rw [bigintBody_eq hbefore hfront, hwritten]
    obtain rfl | rfl := hcase <;> rfl
  have hdigit (c : Char) (hc : c ∈ writtenDigits s) :
      Text.digitValue? 16 c.toLower = some (digit c.toLower) ∧ digit c.toLower = digit c := by
    obtain ⟨hmem, hsep⟩ := List.mem_filter.1 (hwritten ▸ hc)
    obtain ⟨hvalue, hlower, -⟩ := of_isHexPart (hds c hmem) (by simpa using hsep)
    exact ⟨hvalue, hlower⟩
  have hread : Digits 16 ((writtenDigits s).map Char.toLower) := by
    intro c hc
    obtain ⟨e, he, rfl⟩ := List.mem_map.1 hc
    exact (hdigit e he).1
  have hvalue : positional 16 ((writtenDigits s).map Char.toLower) = bigintValue s := by
    rw [positional_toLower fun c hc => (hdigit c hc).2, bigintValue, hradix]
  refine ⟨hradix, ?_⟩
  rw [bigintDigits_marked hcase hbody hread hne, hvalue]

/-! ## Signs -/

/-- Only zero is written with the digit zero alone. -/
theorem toString_ne_zero {n : Nat} (h : n ≠ 0) : toString n ≠ "0" := by
  intro heq
  have hdigits : Nat.toDigits 10 n = Nat.toDigits 10 0 :=
    String.ofList_injective (heq.trans (show "0" = String.ofList (Nat.toDigits 10 0) from rfl))
  have hvalue : Nat.ofDigitChars 10 (Nat.toDigits 10 n) 0 = Nat.ofDigitChars 10 (Nat.toDigits 10 0) 0 := by
    rw [hdigits]
  rw [Nat.ofDigitChars_toDigits (by decide) (by decide),
    Nat.ofDigitChars_toDigits (by decide) (by decide)] at hvalue
  exact h hvalue

/-- The digits behind a sign are those of the number behind the sign. -/
theorem signedBigint_eq {s : String} (h : bigintDigits s = toString (bigintValue s)) (negative : Bool) :
    signedBigint negative s = toString (signedValue negative s) := by
  unfold signedBigint signedValue
  rw [h]
  cases negative with
  | false => rfl
  | true =>
    cases bigintValue s with
    | zero => rfl
    | succ n =>
      have hne : (true && toString (n + 1) != "0") = true := by
        simpa using toString_ne_zero (Nat.succ_ne_zero n)
      dsimp only
      rw [if_pos hne]
      rfl

end Literal

/-! ## Types of literals -/

namespace Typing

open Literal

variable {text other : String} {t u : Token}

/-- The digits of a literal can be converted: they are decimal, or their number is below the bound. -/
def Converts (s : String) : Prop := bigintRadix s = 10 ∨ bigintValue s < 2 ^ 128

/-- A token that is a whole text is written as that text. -/
theorem text_of_lex (h : Token.lex text = [t]) : t.text = text := by
  have hjoin := Token.join_text_lex text
  rw [h] at hjoin
  simpa using hjoin

/-- A literal that cannot be converted keeps its digits, behind its radix mark. -/
theorem bigintDigits_cases (hlex : Token.lex text = [t]) (hkind : t.kind = .bigIntLiteral)
    (hdigits : writtenDigits text ≠ []) :
    Converts text ∧ bigintDigits text = toString (bigintValue text) ∨
      ¬ Converts text ∧ ∃ mark, Token.isHexMark mark = true ∧
        bigintDigits text = String.ofList (mark :: writtenDigits text) := by
  have hbig := Token.everywhere_bigText.lex (hlex ▸ List.mem_singleton_self t) hkind
  dsimp only at hbig
  rw [text_of_lex hlex] at hbig
  generalize hs : text.toList = cs at hbig
  cases hbig with
  | @radix mark ds hmark hne hds =>
    obtain ⟨hradix, heq⟩ := marked_digits hs hmark hds hdigits
    split_ifs at heq with hlt
    · exact .inl ⟨.inr hlt, heq⟩
    · refine .inr ⟨fun h => h.elim (fun hten => ?_) hlt, mark, hmark, heq⟩
      rw [hradix] at hten
      cases hten
  | whole hd hds =>
    obtain ⟨hradix, heq⟩ := whole_digits hs hd hds
    exact .inl ⟨.inl hradix, heq⟩

/-- A radix mark is no digit of a number. -/
theorem marked_ne_toString {mark : Char} (hmark : Token.isHexMark mark = true) (ds : List Char) (n : Nat) :
    String.ofList (mark :: ds) ≠ toString n := by
  intro heq
  have hdigits : mark :: ds = Nat.toDigits 10 n := String.ofList_injective heq
  have hdigit : mark.isDigit = true :=
    Nat.isDigit_of_mem_toDigits (by decide) (by decide) (hdigits ▸ List.mem_cons_self)
  have hcase : mark = 'x' ∨ mark = 'X' := by simpa [Token.isHexMark] using hmark
  obtain rfl | rfl := hcase <;> cases hdigit

/-- The type of a literal is stored with its digits behind its sign. -/
theorem literalType?_bigint (hkind : t.kind = .bigIntLiteral) (negative : Bool) (st : Setting)
    (c : Checker) :
    let stored := (TypeTable.intern (.bigintLiteral (signedBigint negative t.text))).run c.table
    (((literalType? negative t).run st).run c).1 = some stored.1 ∧
      (((literalType? negative t).run st).run c).2.table = stored.2 := by
  unfold literalType?
  rw [hkind]
  exact ⟨rfl, rfl⟩

/-- Big integer literals have canonical digits, up to a bound. Of a text that is one big integer literal,
with a digit in it, the digits are those of its number, in decimal and without zeros in front, exactly if
it is written in decimal or its number is below `2 ^ 128`; otherwise they are the digits as written, behind
the radix mark. So two literals below the bound that denote one number have one type, whatever has been
stored between them. -/
theorem bigint_canonical (hlex : Token.lex text = [t]) (hkind : t.kind = .bigIntLiteral)
    (hdigits : writtenDigits text ≠ []) :
    (bigintDigits text = toString (bigintValue text) ↔ Converts text) ∧
    (¬ Converts text → ∃ mark, Token.isHexMark mark = true ∧
      bigintDigits text = String.ofList (mark :: writtenDigits text)) ∧
    ∀ {other : String} {u : Token}, Token.lex other = [u] → u.kind = .bigIntLiteral →
      writtenDigits other ≠ [] → Converts text → Converts other →
      ∀ negative negative', signedValue negative text = signedValue negative' other →
      ∀ (st st' : Setting) (c c' : Checker),
        (((literalType? negative t).run st).run c).2.table.Grows c'.table →
        (((literalType? negative' u).run st').run c').1 =
          (((literalType? negative t).run st).run c).1 := by
  have hcases := bigintDigits_cases hlex hkind hdigits
  refine ⟨⟨fun heq => ?_, fun h => ?_⟩, fun h => ?_, ?_⟩
  · obtain ⟨h, -⟩ | ⟨-, mark, hmark, hwritten⟩ := hcases
    · exact h
    · exact absurd (hwritten.symm.trans heq) (marked_ne_toString hmark _ _)
  · obtain ⟨-, heq⟩ | ⟨hnot, -⟩ := hcases
    · exact heq
    · exact absurd h hnot
  · obtain ⟨hconverts, -⟩ | ⟨-, hwritten⟩ := hcases
    · exact absurd hconverts h
    · exact hwritten
  · intro other u hlex' hkind' hdigits' h h' negative negative' hvalue st st' c c' hgrows
    have heq := (hcases.resolve_right fun hnot => hnot.1 h).2
    have heq' := ((bigintDigits_cases hlex' hkind' hdigits').resolve_right fun hnot => hnot.1 h').2
    have hsigned : signedBigint negative' u.text = signedBigint negative t.text := by
      rw [text_of_lex hlex, text_of_lex hlex', signedBigint_eq heq, signedBigint_eq heq', hvalue]
    obtain ⟨hid, htable⟩ := literalType?_bigint hkind negative st c
    rw [htable] at hgrows
    rw [(literalType?_bigint hkind' negative' st' c').1, hid, hsigned]
    exact congrArg some (TypeTable.store_again hgrows)

/-- Fifteen in hexadecimal and in decimal digits. -/
theorem bigint_canonical_fifteen :
    bigintDigits "0x0_Fn" = "15" ∧ bigintDigits "01_5n" = "15" ∧
      ∀ (st : Setting) (c : Checker),
        let first := ((literalType? true ⟨.bigIntLiteral, 0, "0x0_Fn"⟩).run st).run c
        (((literalType? true ⟨.bigIntLiteral, 0, "01_5n"⟩).run st).run first.2).1 = first.1 := by
  have hlex : Token.lex "0x0_Fn" = [⟨.bigIntLiteral, 0, "0x0_Fn"⟩] := by cbv
  have hlex' : Token.lex "01_5n" = [⟨.bigIntLiteral, 0, "01_5n"⟩] := by cbv
  have hvalue : bigintValue "0x0_Fn" = 15 := by decide
  have hvalue' : bigintValue "01_5n" = 15 := by decide
  have h : Converts "0x0_Fn" := .inr (by rw [hvalue]; decide)
  have h' : Converts "01_5n" := .inl (by decide)
  obtain ⟨hdigits, -, hsame⟩ := bigint_canonical hlex rfl (by decide)
  obtain ⟨hdigits', -, -⟩ := bigint_canonical hlex' rfl (by decide)
  refine ⟨(hdigits.2 h).trans (by rw [hvalue]; rfl), (hdigits'.2 h').trans (by rw [hvalue']; rfl), ?_⟩
  intro st c
  exact hsame hlex' rfl (by decide) h h' true true
    (by rw [signedValue, signedValue, hvalue, hvalue']) st st c _ (.refl _)

end Typing

end DeclKit

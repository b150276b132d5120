/-
Numbers as text: how a number is written in a type, and how a numeric literal is read.

Writing takes the digits of the shortest decimal that reads back as the number. A double stands for all
reals that round to it: an interval around its value, its ends included when the mantissa is even. For one
digit, two digits, and so on, the two neighbours of the value on the grid of decimals with that many
digits are tried; the first grid with a neighbour inside the interval gives the digits, of two the
nearer, and of two equally near the larger.

Magnitudes from `1e-6` up to but excluding `1e21` are written positionally, without a point when the
value is whole; others with an exponent that always has its sign. Both zeros are written `0`.
-/
import DeclKit.Number.Double
import DeclKit.Text.Radix
import DeclKit.Text.RangeTable

set_option autoImplicit false

namespace DeclKit

/-! ## The shortest decimal -/

/-- The number `digits * 10 ^ exponent`. -/
structure Decimal where
  digits : Nat
  exponent : Int
deriving DecidableEq, Repr

namespace Double

/-- A value and the interval around it, as naturals over one denominator. -/
structure Neighbourhood where
  low : Nat
  value : Nat
  high : Nat
  den : Nat
  closed : Bool

/-- The reals that round to a positive finite double. -/
def neighbourhood (d : Double) : Neighbourhood :=
  let m := d.mantissa
  let e := d.exponent
  -- below a power of two the neighbours are twice as dense
  let lowGap := if d.fraction == 0 && 1 < d.biased then 1 else 2
  let scale := if 0 ≤ e then Nat.pow 2 e.toNat else 1
  let den := if 0 ≤ e then 4 else 4 * Nat.pow 2 (-e).toNat
  { low := (4 * m - lowGap) * scale
    value := 4 * m * scale
    high := (4 * m + 2) * scale
    den := den
    closed := m % 2 == 0 }

/-- The decimal `c * 10 ^ e` lies in the interval. -/
def Neighbourhood.holds (n : Neighbourhood) (c : Nat) (e : Int) : Bool :=
  let (num, den) := if 0 ≤ e then (c * Nat.pow 10 e.toNat, 1) else (c, Nat.pow 10 (-e).toNat)
  let x := num * n.den
  let below := n.low * den
  let above := n.high * den
  if n.closed then below ≤ x && x ≤ above else below < x && x < above

/-- The value divided by `10 ^ e`: the whole part, and twice the remainder against the divisor. -/
def Neighbourhood.divide (n : Neighbourhood) (e : Int) : Nat × Ordering :=
  let (num, den) :=
    if 0 ≤ e then (n.value, n.den * Nat.pow 10 e.toNat)
    else (n.value * Nat.pow 10 (-e).toNat, n.den)
  (num / den, compare (2 * (num % den)) den)

/-- The decimal in the interval with steps of `10 ^ e`, if one of the value's two neighbours is. -/
def Neighbourhood.onGrid? (n : Neighbourhood) (e : Int) : Option Decimal :=
  let (c, half) := n.divide e
  let down := n.holds c e
  let up := n.holds (c + 1) e
  if down && (!up || half == .lt) then some ⟨c, e⟩
  else if up then some ⟨c + 1, e⟩
  else none

/-- How many digits the value has before the decimal point, or, if negative, how many zeros stand
after it. The estimate from the binary length is corrected by at most a few steps. -/
def Neighbourhood.magnitude (n : Neighbourhood) : Int :=
  let estimate : Int := ((Nat.log2 n.value : Int) - Nat.log2 n.den) * 30103 / 100000 - 1
  let above (k : Int) : Bool :=
    if 0 ≤ k then n.den * Nat.pow 10 k.toNat ≤ n.value
    else n.den ≤ n.value * Nat.pow 10 (-k).toNat
  estimate + ((List.range 4).takeWhile fun (i : Nat) => above (estimate + i)).length

/-- A decimal with the zeros at the end of its digits moved into the exponent. -/
def stripZeros : Nat → Decimal → Decimal
  | 0, d => d
  | n + 1, d =>
    if d.digits % 10 == 0 && d.digits != 0 then stripZeros n ⟨d.digits / 10, d.exponent + 1⟩ else d

/-- The shortest decimal that reads back as a positive finite double. Seventeen digits always do. -/
def shortest (d : Double) : Decimal :=
  let n := d.neighbourhood
  let k := n.magnitude
  let found := (List.range 17).findSome? fun (i : Nat) => n.onGrid? (k - 1 - i)
  stripZeros 20 (found.getD ⟨n.value / n.den, 0⟩)

end Double

end DeclKit

namespace DeclKit.Double

open DeclKit.Text

/-! ## Writing -/

/-- Digits with a decimal point after the first `point` of them, padded with zeros as needed. -/
def positional (digits : List Char) (point : Int) : String :=
  if point ≤ 0 then
    "0." ++ String.ofList (List.replicate (-point).toNat '0' ++ digits)
  else if digits.length ≤ point.toNat then
    String.ofList (digits ++ List.replicate (point.toNat - digits.length) '0')
  else
    String.ofList (digits.take point.toNat) ++ "." ++ String.ofList (digits.drop point.toNat)

/-- One digit, the rest after a point, and the exponent with its sign. -/
def scientific (digits : List Char) (exponent : Int) : String :=
  let tail := if digits.length ≤ 1 then "" else "." ++ String.ofList (digits.drop 1)
  let sign := if exponent < 0 then "-" else "+"
  String.ofList (digits.take 1) ++ tail ++ "e" ++ sign ++ toString exponent.natAbs

/-- The text of a number. -/
def text (d : Double) : String :=
  if d.isNaN then "NaN"
  else if !d.isFinite then (if d.isNegative then "-Infinity" else "Infinity")
  else if d.isZero then "0"
  else
    let shortest := (d.withSign d.isNegative).shortest
    let digits := Nat.toDigits 10 shortest.digits
    let point : Int := digits.length + shortest.exponent
    let body := if -6 < point && point ≤ 21 then positional digits point
      else scientific digits (point - 1)
    if d.isNegative then "-" ++ body else body

/-! ## Reading -/

/-- Decimal digits at the front, their value continued from `acc` and their number. -/
def takeDigits (acc count : Nat) : List Char → Nat × Nat × List Char
  | [] => (acc, count, [])
  | c :: cs =>
    if c.isDigit then takeDigits (acc * 10 + (c.toNat - '0'.toNat)) (count + 1) cs
    else (acc, count, c :: cs)

/-- The exponent part of a decimal: nothing, or an `e`, an optional sign and at least one digit. -/
def exponentPart? : List Char → Option Int
  | [] => some 0
  | c :: cs =>
    if c == 'e' || c == 'E' then
      let (negative, body) := match cs with
        | '-' :: rest => (true, rest)
        | '+' :: rest => (false, rest)
        | _ => (false, cs)
      match takeDigits 0 0 body with
      | (value, count, []) =>
        if count == 0 then none else some (if negative then -(value : Int) else value)
      | _ => none
    else none

/-- Reads an unsigned decimal: digits with an optional point among, before or after them, and an
optional exponent. -/
def unsignedDecimal? (cs : List Char) : Option Double :=
  let (whole, n, rest) := takeDigits 0 0 cs
  let (all, places, rest) := match rest with
    | '.' :: more =>
      let (value, count, rest) := takeDigits whole 0 more
      (value, count, rest)
    | _ => (whole, 0, rest)
  if n + places == 0 then none
  else (exponentPart? rest).map fun e => ofDecimal all (e - places)

/-- Reads a decimal with an optional sign, or one of the names of infinity and NaN in any case. -/
def ofText? (s : String) : Option Double :=
  let (negative, body) := match s.toList with
    | '-' :: rest => (true, rest)
    | '+' :: rest => (false, rest)
    | cs => (false, cs)
  let name := String.ofList (body.map Char.toLower)
  let magnitude :=
    if name == "inf" || name == "infinity" then some infinity
    else if name == "nan" then some nan
    else unsignedDecimal? body
  magnitude.map (withSign negative)

/-- Reads a numeric literal as written in source: separators are skipped, and the radix marks `0x`,
`0o` and `0b` take an integer below `2 ^ 64`. -/
def ofLiteral? (s : String) : Option Double :=
  let cs := (s.toList.filter (· != '_')).map Char.toLower
  let radix (base : Nat) (body : List Char) := (unsigned? base (Nat.pow 2 64) body).map ofNat
  match cs with
  | '0' :: 'x' :: body => radix 16 body
  | '0' :: 'o' :: body => radix 8 body
  | '0' :: 'b' :: body => radix 2 body
  | _ => ofText? (String.ofList cs)

end DeclKit.Double

namespace DeclKit

/-! ## Texts that stand for numbers -/

namespace Text

/-- The text reads as a finite number, as the language converts strings: blanks around it do not
count, and blanks alone are zero. -/
def isNumber (s : String) : Bool :=
  if s.isEmpty then false
  else
    let trimmed := (trim s).toList
    let (signed, body) := match trimmed with
      | '+' :: rest => (true, rest)
      | '-' :: rest => (true, rest)
      | cs => (false, cs)
    let radixMark := match body with
      | '0' :: c :: _ => c.toLower == 'x' || c.toLower == 'o' || c.toLower == 'b'
      | _ => false
    if trimmed.isEmpty then true
    else if radixMark then
      !signed && !body.contains '_' && (Double.ofLiteral? (String.ofList body)).isSome
    else if body.head? == some '+' || body.head? == some '-' then false
    else
      body.all (fun c => c.isDigit || ['.', 'e', 'E', '+', '-'].contains c) &&
        (Double.ofText? (String.ofList body)).any Double.isFinite

/-- The text is a big integer literal once an `n` is put behind it. -/
def isBigint (s : String) : Bool :=
  let body := match s.toList with
    | '-' :: rest => rest
    | cs => cs
  let (digits, radix) := match body.map Char.toLower with
    | '0' :: 'x' :: cs => (cs, 16)
    | '0' :: 'o' :: cs => (cs, 8)
    | '0' :: 'b' :: cs => (cs, 2)
    | cs => (cs, 10)
  !digits.isEmpty && digits.all (fun c => (digitValue? radix c).isSome) &&
    (radix != 10 || digits == ['0'] || digits.head? != some '0')

end Text

end DeclKit

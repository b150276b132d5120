/-
Numbers of the language: IEEE doubles, kept as their bits.

Two number types are the same type exactly when their bits agree, so the bits are the value here and
all arithmetic on them is exact arithmetic on naturals. A finite double is `mantissa * 2 ^ exponent`
with a sign; a ratio of naturals is rounded to the nearest double, ties to the even mantissa.
-/

set_option autoImplicit false

namespace DeclKit

/-- A double, by its bits. -/
structure Double where
  bits : UInt64
deriving DecidableEq, Hashable, Repr, Inhabited

namespace Double

/-- Positive zero. -/
def zero : Double := ⟨0⟩

/-- Positive infinity. -/
def infinity : Double := ⟨0x7ff0000000000000⟩

/-- The quiet NaN with an empty payload. -/
def nan : Double := ⟨0x7ff8000000000000⟩

/-- The sign bit is set. -/
def isNegative (d : Double) : Bool := d.bits >>> 63 == 1

/-- The eleven bits of the biased exponent. -/
def biased (d : Double) : Nat := ((d.bits >>> 52) &&& 0x7ff).toNat

/-- The fifty-two bits below the exponent. -/
def fraction (d : Double) : Nat := (d.bits &&& 0xfffffffffffff).toNat

/-- Neither infinite nor a NaN. -/
def isFinite (d : Double) : Bool := d.biased != 0x7ff

/-- One of the NaNs. -/
def isNaN (d : Double) : Bool := d.biased == 0x7ff && d.fraction != 0

/-- Zero of either sign. -/
def isZero (d : Double) : Bool := d.biased == 0 && d.fraction == 0

/-- The same number with the sign bit flipped. -/
def negate (d : Double) : Double := ⟨d.bits ^^^ 0x8000000000000000⟩

/-- The magnitude with a sign. -/
def withSign (negative : Bool) (d : Double) : Double := if negative then d.negate else d

/-- Both zeros as the positive one; any other double as it is. -/
def unsignedZero (d : Double) : Double := if d.isZero then zero else d

/-- The integer factor of a finite double. -/
def mantissa (d : Double) : Nat := if d.biased == 0 then d.fraction else d.fraction + Nat.pow 2 52

/-- The power of two of a finite double. -/
def exponent (d : Double) : Int := (max d.biased 1 : Nat) - 1075

/-! ## Rounding a ratio -/

/-- `num / den`, rounded to the nearest natural, a half to the even neighbour. -/
def roundHalfEven (num den : Nat) : Nat :=
  let q := num / den
  let twice := 2 * (num % den)
  if den < twice || (twice == den && q % 2 == 1) then q + 1 else q

/-- The ratio `num / den` in units of `2 ^ e`, rounded to the nearest natural. -/
def mantissaAt (num den : Nat) (e : Int) : Nat :=
  if 0 ≤ e then roundHalfEven num (den * Nat.pow 2 e.toNat)
  else roundHalfEven (num * Nat.pow 2 (-e).toNat) den

/-- `num / den` is at least `2 ^ e`. -/
def atLeastPow2 (num den : Nat) (e : Int) : Bool :=
  if 0 ≤ e then den * Nat.pow 2 e.toNat ≤ num else den ≤ num * Nat.pow 2 (-e).toNat

/-- The double of a mantissa of at most 53 bits, or `2 ^ 53` itself, and a power of two. -/
def assemble (m : Nat) (e : Int) : Double :=
  if m < Nat.pow 2 52 then ⟨m.toUInt64⟩
  else
    let bits := (e + 1075).toNat * Nat.pow 2 52 + (m - Nat.pow 2 52)
    if 0x7ff * Nat.pow 2 52 ≤ bits then infinity else ⟨bits.toUInt64⟩

/-- The double nearest to `num / den`, for a positive `den`. -/
def ofRatio (num den : Nat) : Double :=
  if num == 0 then zero
  else
    -- the ratio lies in `[2 ^ guess, 2 ^ (guess + 2))`
    let guess : Int := (Nat.log2 num : Int) - Nat.log2 den - 1
    let top := if atLeastPow2 num den (guess + 1) then guess + 1 else guess
    let e := max (top - 52) (-1074)
    assemble (mantissaAt num den e) e

/-- The double nearest to a natural number. -/
def ofNat (n : Nat) : Double := ofRatio n 1

/-- The double nearest to `digits * 10 ^ e`. Powers far outside the range are not computed. -/
def ofDecimal (digits : Nat) (e : Int) : Double :=
  let magnitude : Int := (Nat.log2 digits : Int) * 30103 / 100000 + e
  if digits == 0 then zero
  else if 320 < magnitude then infinity
  else if magnitude < -350 then zero
  else if 0 ≤ e then ofRatio (digits * Nat.pow 10 e.toNat) 1
  else ofRatio digits (Nat.pow 10 (-e).toNat)

/-! ## Products and quotients -/

/-- The value of a finite double that is not negative, as a ratio. -/
def ratio (d : Double) : Nat × Nat :=
  if 0 ≤ d.exponent then (d.mantissa * Nat.pow 2 d.exponent.toNat, 1)
  else (d.mantissa, Nat.pow 2 (-d.exponent).toNat)

/-- The double nearest to a product of finite doubles that are not negative. -/
def times (a b : Double) : Double := ofRatio (a.ratio.1 * b.ratio.1) (a.ratio.2 * b.ratio.2)

/-- The double nearest to a quotient of finite doubles, the divisor positive and neither of them
negative. -/
def dividedBy (a b : Double) : Double := ofRatio (a.ratio.1 * b.ratio.2) (a.ratio.2 * b.ratio.1)

end Double

end DeclKit

/-
Unsigned numbers written in a radix.

One optional plus sign, then at least one digit, and a value below a given bound: the readers of
numeric literals and of character escapes share this form and differ only in radix and bound.
-/

set_option autoImplicit false

namespace DeclKit.Text

/-- The value of a digit in a radix up to 36, letters of either case counting from ten. -/
def digitValue? (radix : Nat) (c : Char) : Option Nat :=
  let value :=
    if c.isDigit then c.toNat - '0'.toNat
    else if c.isLower then c.toNat - 'a'.toNat + 10
    else if c.isUpper then c.toNat - 'A'.toNat + 10
    else radix
  if value < radix then some value else none

/-- The number that a run of digits denotes, continuing from `acc`; `none` when some character is
no digit. -/
def digits? (radix : Nat) (acc : Nat) : List Char → Option Nat
  | [] => some acc
  | c :: cs =>
    match digitValue? radix c with
    | some d => digits? radix (acc * radix + d) cs
    | none => none

/-- Reads an unsigned number below `bound`, after an optional plus sign. -/
def unsigned? (radix bound : Nat) (cs : List Char) : Option Nat :=
  let body := match cs with
    | '+' :: rest => rest
    | _ => cs
  if body.isEmpty then none
  else match digits? radix 0 body with
    | some n => if n < bound then some n else none
    | none => none

/-- The digits of a number in a radix up to sixteen, lower case. -/
def radixDigits (radix n : Nat) : String :=
  String.ofList (Nat.toDigits radix n)

/-- Pads a text with zeros on the left to a width. -/
def padZeros (width : Nat) (s : String) : String :=
  String.ofList (List.replicate (width - s.length) '0') ++ s

end DeclKit.Text

/-
Sets of characters given by ranges of code points, and the blank characters as one of them.

The Unicode properties that identifiers, case mapping and dumps depend on are kept as sorted,
disjoint ranges; membership is a scan, because only characters beyond ASCII are ever looked up.

Blank means the Unicode property White_Space, which beside the ASCII blanks holds the next-line
control, the no-break space, the various typographic spaces and the two separators U+2028 and U+2029.
-/

set_option autoImplicit false

namespace DeclKit.Text

/-- Inclusive ranges of code points, in increasing order. -/
structure RangeTable where
  ranges : Array (Nat × Nat)

/-- The character lies in one of the ranges. -/
def RangeTable.contains (t : RangeTable) (c : Char) : Bool :=
  t.ranges.any fun (lo, hi) => lo ≤ c.toNat && c.toNat ≤ hi

/-! ## Blanks -/

/-- Code points with the property White_Space. -/
def blankRanges : RangeTable := ⟨#[
  (0x9, 0xd), (0x20, 0x20), (0x85, 0x85), (0xa0, 0xa0), (0x1680, 0x1680), (0x2000, 0x200a),
  (0x2028, 0x2029), (0x202f, 0x202f), (0x205f, 0x205f), (0x3000, 0x3000)]⟩

/-- A character with the property White_Space. -/
def isBlank (c : Char) : Bool := blankRanges.contains c

/-- The characters without the blanks at either end. -/
def trimChars (cs : List Char) : List Char :=
  ((cs.dropWhile isBlank).reverse.dropWhile isBlank).reverse

/-- The text without the blanks at either end. -/
def trim (s : String) : String :=
  String.ofList (trimChars s.toList)

end DeclKit.Text

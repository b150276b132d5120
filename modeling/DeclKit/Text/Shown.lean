/-
Text as a terminal is given it.

Characters on which a terminal would act are not passed on: a tab becomes four blanks, a control its
picture, a mark that turns the direction of writing the replacement character, and the joiner of
graphemes is dropped. What is left has a width, by which lines are cut and places underlined.

A character takes one column; ideographs and emoji take two, and what joins the character before it or
is not to be shown takes none. A code point that is not assigned yet counts as what it is kept for, where
that is known.
-/
import DeclKit.Text.Glyph

set_option autoImplicit false

namespace DeclKit.Text

/-! ## Widths -/

/-- Code points whose East Asian Width is wide or full. -/
def wideRanges : RangeTable := ⟨#[
  (0x1100, 0x115f), (0x231a, 0x231b), (0x2329, 0x232a), (0x23e9, 0x23ec), (0x23f0, 0x23f0),
  (0x23f3, 0x23f3), (0x25fd, 0x25fe), (0x2614, 0x2615), (0x2630, 0x2637), (0x2648, 0x2653),
  (0x267f, 0x267f), (0x268a, 0x268f), (0x2693, 0x2693), (0x26a1, 0x26a1), (0x26aa, 0x26ab),
  (0x26bd, 0x26be), (0x26c4, 0x26c5), (0x26ce, 0x26ce), (0x26d4, 0x26d4), (0x26ea, 0x26ea),
  (0x26f2, 0x26f3), (0x26f5, 0x26f5), (0x26fa, 0x26fa), (0x26fd, 0x26fd), (0x2705, 0x2705),
  (0x270a, 0x270b), (0x2728, 0x2728), (0x274c, 0x274c), (0x274e, 0x274e), (0x2753, 0x2755),
  (0x2757, 0x2757), (0x2795, 0x2797), (0x27b0, 0x27b0), (0x27bf, 0x27bf), (0x2b1b, 0x2b1c),
  (0x2b50, 0x2b50), (0x2b55, 0x2b55), (0x2e80, 0x2e99), (0x2e9b, 0x2ef3), (0x2f00, 0x2fd5),
  (0x2ff0, 0x303e), (0x3041, 0x3096), (0x3099, 0x30ff), (0x3105, 0x312f), (0x3131, 0x318e),
  (0x3190, 0x31e5), (0x31ef, 0x321e), (0x3220, 0x3247), (0x3250, 0xa48c), (0xa490, 0xa4c6),
  (0xa960, 0xa97c), (0xac00, 0xd7a3), (0xf900, 0xfaff), (0xfe10, 0xfe19), (0xfe30, 0xfe52),
  (0xfe54, 0xfe66), (0xfe68, 0xfe6b), (0xff01, 0xff60), (0xffe0, 0xffe6), (0x16fe0, 0x16fe4),
  (0x16ff0, 0x16ff6), (0x17000, 0x18cd5), (0x18cff, 0x18d1e), (0x18d80, 0x18df2),
  (0x1aff0, 0x1aff3), (0x1aff5, 0x1affb), (0x1affd, 0x1affe), (0x1b000, 0x1b122),
  (0x1b132, 0x1b132), (0x1b150, 0x1b152), (0x1b155, 0x1b155), (0x1b164, 0x1b167),
  (0x1b170, 0x1b2fb), (0x1d300, 0x1d356), (0x1d360, 0x1d376), (0x1f004, 0x1f004),
  (0x1f0cf, 0x1f0cf), (0x1f18e, 0x1f18e), (0x1f191, 0x1f19a), (0x1f200, 0x1f202),
  (0x1f210, 0x1f23b), (0x1f240, 0x1f248), (0x1f250, 0x1f251), (0x1f260, 0x1f265),
  (0x1f300, 0x1f320), (0x1f32d, 0x1f335), (0x1f337, 0x1f37c), (0x1f37e, 0x1f393),
  (0x1f3a0, 0x1f3ca), (0x1f3cf, 0x1f3d3), (0x1f3e0, 0x1f3f0), (0x1f3f4, 0x1f3f4),
  (0x1f3f8, 0x1f43e), (0x1f440, 0x1f440), (0x1f442, 0x1f4fc), (0x1f4ff, 0x1f53d),
  (0x1f54b, 0x1f54e), (0x1f550, 0x1f567), (0x1f57a, 0x1f57a), (0x1f595, 0x1f596),
  (0x1f5a4, 0x1f5a4), (0x1f5fb, 0x1f64f), (0x1f680, 0x1f6c5), (0x1f6cc, 0x1f6cc),
  (0x1f6d0, 0x1f6d2), (0x1f6d5, 0x1f6d8), (0x1f6dc, 0x1f6df), (0x1f6eb, 0x1f6ec),
  (0x1f6f4, 0x1f6fc), (0x1f7e0, 0x1f7eb), (0x1f7f0, 0x1f7f0), (0x1f90c, 0x1f93a),
  (0x1f93c, 0x1f945), (0x1f947, 0x1f9ff), (0x1fa70, 0x1fa7c), (0x1fa80, 0x1fa8a),
  (0x1fa8e, 0x1fac6), (0x1fac8, 0x1fac8), (0x1facd, 0x1fadc), (0x1fadf, 0x1faea),
  (0x1faef, 0x1faf8), (0x20000, 0x2fffd), (0x30000, 0x3fffd)]⟩

/-- Code points that are unassigned and kept for pictographs: Extended_Pictographic and Cn. -/
def reservedPictographRanges : RangeTable := ⟨#[
  (0x1f02c, 0x1f02f), (0x1f094, 0x1f09f), (0x1f0af, 0x1f0b0), (0x1f0c0, 0x1f0c0),
  (0x1f0d0, 0x1f0d0), (0x1f0f6, 0x1f0ff), (0x1f1ae, 0x1f1e5), (0x1f203, 0x1f20f),
  (0x1f23c, 0x1f23f), (0x1f249, 0x1f24f), (0x1f252, 0x1f25f), (0x1f266, 0x1f2ff),
  (0x1f6d9, 0x1f6db), (0x1f6ed, 0x1f6ef), (0x1f6fd, 0x1f6ff), (0x1f7da, 0x1f7df),
  (0x1f7ec, 0x1f7ef), (0x1f7f1, 0x1f7ff), (0x1f80c, 0x1f80f), (0x1f848, 0x1f84f),
  (0x1f85a, 0x1f85f), (0x1f888, 0x1f88f), (0x1f8ae, 0x1f8af), (0x1f8bc, 0x1f8bf),
  (0x1f8c2, 0x1f8cf), (0x1f8d9, 0x1f8ff), (0x1fa58, 0x1fa5f), (0x1fa6e, 0x1fa6f),
  (0x1fa7d, 0x1fa7f), (0x1fa8b, 0x1fa8d), (0x1fac7, 0x1fac7), (0x1fac9, 0x1facc),
  (0x1fadd, 0x1fade), (0x1faeb, 0x1faee), (0x1faf9, 0x1faff), (0x1fc00, 0x1fffd)]⟩

/-- Code points that are unassigned and kept for marks: what is left of the rows of Hebrew points. -/
def reservedMarkRanges : RangeTable := ⟨#[(0x5c8, 0x5cf)]⟩

/-- Code points of vowels and trailing consonants that join the leading consonant of a Hangul
syllable. -/
def jamoRanges : RangeTable := ⟨#[(0x1160, 0x11ff), (0xd7b0, 0xd7c6), (0xd7cb, 0xd7fb)]⟩

/-- Signs that are written over or under what follows or precedes them although they are no marks:
Arabic and Syriac signs of abbreviation and number, and a caret of Devanagari. -/
def isOverwritten (c : Char) : Bool :=
  ['\u0605', '\u070f', '\u0890', '\u0891', '\u08e2', '\ua8fa'].contains c

/-- A character that takes no column. -/
def isColumnless (c : Char) : Bool :=
  ignorableRanges.contains c || joiningRanges.contains c || reservedMarkRanges.contains c ||
    jamoRanges.contains c || isOverwritten c

/-- Columns of a character. The filler of a leading consonant stands for a whole syllable, two signs of
Khmer are written as two and three letters, and the joiner of Tifinagh consonants shows where it does
not join. -/
def charColumns (c : Char) : Nat :=
  if c.toNat < 0xad || c == '\u2d7f' then 1
  else if c == '\u115f' || c == '\u17a4' then 2
  else if c == '\u17d8' then 3
  else if isColumnless c then 0
  else if wideRanges.contains c || reservedPictographRanges.contains c then 2
  else 1

/-! ## Shown text -/

/-- A mark that turns the direction of the text behind it. -/
def isDirectionMark (c : Char) : Bool :=
  (0x202a ≤ c.toNat && c.toNat ≤ 0x202e) || (0x2066 ≤ c.toNat && c.toNat ≤ 0x2069)

/-- What is shown for a character. -/
def shownChar (c : Char) : List Char :=
  if c == '\t' then [' ', ' ', ' ', ' ']
  else if c.toNat < 0x20 then [Char.ofNat (0x2400 + c.toNat)]
  else if c.toNat == 0x7f then ['\u2421']
  else if c.toNat == 0x200d then []
  else if isDirectionMark c then ['\ufffd']
  else [c]

/-- What is shown for characters. -/
def shown (cs : List Char) : List Char := cs.flatMap shownChar

/-- Columns that shown characters take. -/
def columns (cs : List Char) : Nat := cs.foldr (fun c n => charColumns c + n) 0

/-- The columns of a text are those of its first character and of the rest. -/
theorem columns_cons (c : Char) (cs : List Char) : columns (c :: cs) = charColumns c + columns cs :=
  rfl

/-- Takes characters as long as they fit into `n` columns. -/
def takeColumns (n : Nat) : List Char → List Char
  | [] => []
  | c :: cs => if charColumns c ≤ n then c :: takeColumns (n - charColumns c) cs else []

/-- Drops characters until `n` columns are gone. The last of them may take more columns than were left;
how many are gone is given too. -/
def dropColumns (n : Nat) : List Char → Nat × List Char
  | [] => (0, [])
  | c :: cs =>
    if n = 0 then (0, c :: cs)
    else
      let rest := dropColumns (n - charColumns c) cs
      (charColumns c + rest.1, rest.2)

/-- What is taken fits. -/
theorem columns_takeColumns_le (n : Nat) (cs : List Char) : columns (takeColumns n cs) ≤ n := by
  induction cs generalizing n with
  | nil => exact Nat.zero_le n
  | cons c cs ih =>
    rw [takeColumns]
    split
    · have := ih (n - charColumns c)
      rw [columns_cons]
      omega
    · exact Nat.zero_le n

/-- The columns that are gone and those that are left are all there were. -/
theorem columns_dropColumns (n : Nat) (cs : List Char) :
    (dropColumns n cs).1 + columns (dropColumns n cs).2 = columns cs := by
  induction cs generalizing n with
  | nil => rfl
  | cons c cs ih =>
    rw [dropColumns]
    split
    · exact Nat.zero_add _
    · rw [columns_cons, ← ih (n - charColumns c), ← Nat.add_assoc]

end DeclKit.Text

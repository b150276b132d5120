/-
Lines and columns of a text.

A line ends at a line feed, at a carriage return, or at the two together. A column counts UTF-16 code
units from the start of its line, which is what editors show.
-/
import DeclKit.Text.Offset

set_option autoImplicit false

namespace DeclKit.Text

/-- Byte offsets at which lines after the first start, for characters that begin at `pos`. -/
def lineBreaks (pos : Nat) : List Char → List Nat
  | [] => []
  | '\r' :: '\n' :: cs => (pos + 2) :: lineBreaks (pos + 2) cs
  | c :: cs =>
    let next := pos + c.utf8Size
    if c == '\r' || c == '\n' then next :: lineBreaks next cs else lineBreaks next cs

/-- The lines of characters, the current one held in reverse: a line feed ends a line, together with
one carriage return before it, and a last line without characters is none. -/
def splitLinesFrom (line : List Char) : List Char → List (List Char)
  | [] => if line.isEmpty then [] else [line.reverse]
  | c :: cs =>
    if c == '\n' then
      (match line with
        | '\r' :: before => before.reverse
        | _ => line.reverse) :: splitLinesFrom [] cs
    else splitLinesFrom (c :: line) cs

/-- The lines of a text without their line ends. -/
def splitLines (s : String) : List String := (splitLinesFrom [] s.toList).map String.ofList

/-- A zero-based line and column. -/
structure Position where
  line : Nat
  column : Nat
deriving DecidableEq, Repr

/-- The line and column as counted from one. -/
def Position.oneBased (p : Position) : Nat × Nat := (p.line + 1, p.column + 1)

/-- The line starts of a text, in increasing order and beginning with zero. -/
structure LineIndex where
  starts : Array Nat
deriving DecidableEq, Repr, Inhabited

namespace LineIndex

/-- Finds the lines of a text. -/
def ofText (s : String) : LineIndex := ⟨(0 :: lineBreaks 0 s.toList).toArray⟩

/-- How many lines there are; a text that ends in a line break has an empty last line. -/
def count (ix : LineIndex) : Nat := ix.starts.size

/-- The byte offset at which a line starts. -/
def start? (ix : LineIndex) (line : Nat) : Option Nat := ix.starts[line]?

/-- The number of lines that start after the first and at or before the offset. -/
def lineOf (ix : LineIndex) (offset : Nat) : Nat :=
  (ix.starts.toList.takeWhile (· ≤ offset)).length - 1

/-- The position of a byte offset; one past the end counts as the end, and one inside a character
as the character's start. -/
def position (ix : LineIndex) (text : String) (offset : Nat) : Position :=
  let offset := min offset text.utf8ByteSize
  let line := ix.lineOf offset
  let start := (ix.start? line).getD 0
  let before := takeBytes (offset - start) (slice text start text.utf8ByteSize).toList
  ⟨line, units before⟩

/-- Some line starts after `start` and at or before `stop`. -/
def spansLines (ix : LineIndex) (start stop : Nat) : Bool :=
  ix.starts.any fun s => start < s && s ≤ stop

end LineIndex

end DeclKit.Text

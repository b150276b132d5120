/-
Places marked in source lines, and the part of long lines that is shown.

A mark underlines columns of one line and may have a label. The label of the rightmost mark stands
beside its underline if nothing is in the way; the others hang below, each from a bar at the column
where its mark starts, those further to the right higher up. Everything below a line is painted stroke
by stroke, later strokes over earlier ones: bars, labels, and underlines from the longest to the
shortest.

Lines of a snippet are cut alike, at a left and a right column, so that what stands one below the other
stays there. The window is chosen once for all marked lines: a deep indentation is always cut; when the
lines are still too long, the window is moved to the marks and their labels, as much of what surrounds
them being kept as there is room for.
-/
import DeclKit.Text.Offset
import DeclKit.Text.RangeTable
import DeclKit.Text.Shown

set_option autoImplicit false

namespace DeclKit.Diagnostic

/-! ## The window -/

/-- Writes a text over a row of characters from a column on. -/
def overlay (row : List Char) (column : Nat) (text : List Char) : List Char :=
  if text.isEmpty then row
  else
    let padded := row ++ List.replicate (column - row.length) ' '
    padded.take column ++ text ++ padded.drop (column + text.length)

/-- What stands for text that is left out. -/
def dots : List Char := ['.', '.', '.']

/-- Columns of source lines that are shown. -/
structure Window where
  /-- The first column that is shown. -/
  first : Nat
  /-- The column before which a long line ends. -/
  last : Nat
  /-- How many columns there are. -/
  room : Nat
deriving DecidableEq, Repr

namespace Window

/-- Columns that are kept free on either side of what is marked. -/
def spare : Nat := 6

/-- The window for lines that are indented by `indent` columns and at most `longest` columns long, with
marks from column `start` to `stop` and labels up to column `labels`. -/
def choose (room indent start stop labels longest : Nat) : Window :=
  let indent := indent - spare
  let start := start - spare
  let stop := stop + spare
  let labels := labels + spare
  -- Of an indentation that is cut, sixteen columns stay.
  let first := if 20 < indent then indent - 16 else 0
  let last := max longest first
  let from_ (first : Nat) : Window := ⟨first, first + room, room⟩
  if last - first ≤ room then ⟨first, last, room⟩
  else if indent ≤ labels && labels ≤ indent + room then from_ indent
  else if labels ≤ start + room then from_ (start - (start + room - labels) / 2)
  else if stop ≤ start + room then from_ (start - (start + room - stop) / 5 * 2)
  else ⟨start, stop, room⟩

/-- The column before which a line of a width ends. -/
def stopFor (w : Window) (width : Nat) : Nat :=
  if width - w.first ≤ w.room then width else min width w.last

/-- A source line behind `offset` free columns, dots standing for what is cut off, and the number of
columns by which the line has moved to the left. Dots take the place of whole characters, so beside a
wide one they leave a column free. -/
def codeRow (w : Window) (offset : Nat) (line : List Char) : Nat × List Char :=
  let width := Text.columns line
  let start := min w.first width
  let stop := w.stopFor width
  let (skipped, rest) := Text.dropColumns start line
  let code := Text.takeColumns (stop - start) rest
  let (covered, open_) := if w.first == 0 then (0, code) else Text.dropColumns dots.length code
  let row := if w.first == 0 then [] else overlay [] offset dots
  let row := overlay row (offset + covered) open_
  let atEnd := code.length - (Text.dropColumns dots.length code.reverse).2.length
  let row := if stop < width then overlay row (offset + covered + open_.length - atEnd) dots else row
  (max start skipped, row)

end Window

/-- The columns of the blanks that a line starts with; none for a line of blanks. -/
def indentOf (line : List Char) : Option Nat :=
  if line.all Text.isBlank then none
  else some ((line.takeWhile Text.isBlank).foldl (fun n c => n + if c == '\t' then 4 else 1) 0)

/-- The least of numbers, zero when there are none. -/
def least (ns : List Nat) : Nat := ns.min?.getD 0

/-! ## Lines -/

/-- A line of a text as the annotated layout counts them: only line feeds end lines. -/
structure ShownLine where
  number : Nat
  start : Nat
  /-- The first byte of the next line. -/
  stop : Nat
  chars : List Char
deriving Inhabited

/-- Splits characters into lines. -/
def shownLines (number start : Nat) (line : List Char) : List Char → List ShownLine
  | [] => if line.isEmpty then [] else [⟨number, start, start + Text.bytes line, line.reverse⟩]
  | '\r' :: '\n' :: cs =>
    let stop := start + Text.bytes line + 2
    ⟨number, start, stop, line.reverse⟩ :: shownLines (number + 1) stop [] cs
  | c :: cs =>
    if c == '\n' then
      let stop := start + Text.bytes line + 1
      ⟨number, start, stop, line.reverse⟩ :: shownLines (number + 1) stop [] cs
    else shownLines number start (c :: line) cs

/-- The lines of a text; an empty text has one. -/
def linesOf (text : String) : List ShownLine :=
  match shownLines 1 0 [] text.toList with
  | [] => [⟨1, 0, 0, []⟩]
  | lines => lines

/-- The line that holds a byte, the last one for a byte past the end. -/
def lineAt (lines : List ShownLine) (offset : Nat) : ShownLine :=
  (lines.find? fun l => l.start ≤ offset && offset < l.stop).getD (lines.getLast?.getD default)

/-! ## Marks -/

/-- A place underlined in one line. -/
structure Mark where
  line : Nat
  /-- The column as counted in characters from one, for the heading. -/
  column : Nat
  /-- The first column that is underlined. -/
  start : Nat
  /-- The first column that is not underlined any more. -/
  stop : Nat
  primary : Bool
  label : String

namespace Mark

/-- Finds the place of a range within its line. A range that takes no column is shown one column
wide. -/
def ofRange (lines : List ShownLine) (start stop : Nat) (primary : Bool) (label : String) : Mark :=
  let l := lineAt lines start
  let before := Text.takeBytes (start - l.start) l.chars
  let through := Text.takeBytes (stop - l.start) l.chars
  let past := if Text.bytes l.chars < start - l.start then 1 else 0
  let first := Text.columns (Text.shown before)
  { line := l.number, column := before.length + past + 1, primary, label
    start := first, stop := max (Text.columns (Text.shown through)) (first + 1) }

/-- The mark has a label. -/
def isLabelled (m : Mark) : Bool := !m.label.isEmpty

/-- The number of columns that are underlined. -/
def width (m : Mark) : Nat := m.stop - m.start

/-- The columns behind the label, as if it stood beside the underline. -/
def labelStop (m : Mark) : Nat := m.stop + Text.columns (Text.shown m.label.toList) + 1

/-- Two marks share a column, the first being taken `more` columns wider. -/
def meets (a b : Mark) (more : Nat) : Bool :=
  (b.start ≤ a.start && a.start < b.stop) || (a.start ≤ b.start && b.start < a.stop + more)

/-- A mark further left keeps the label of a mark from standing beside its underline: it overlaps, and
is more than the same place without a label. -/
def displaces (other m : Mark) : Bool :=
  other.meets m 0 && (other.column != m.column || other.stop != m.stop || other.isLabelled)

/-- A mark further left cannot have its label in the row of another one's label, which hangs at a
level. -/
def crowds (level : Nat) (m other : Mark) : Bool :=
  other.isLabelled && other.meets m (other.label.utf8ByteSize + 2) &&
    (m.isLabelled || (level == 0 && other.stop ≤ m.stop))

/-- The levels of labels, for marks from right to left: beside the underline at level zero, below it at
others. Levels only ever grow. -/
def place (level : Nat) : List Mark → List (Nat × Mark)
  | [] => []
  | m :: rest =>
    let level := if level == 0 && m.isLabelled && rest.any (·.displaces m) then 1 else level
    (level, m) :: place (if rest.any (crowds level m) then level + 1 else level) rest

/-- Marks from right to left. -/
def fromRight (ms : List Mark) : List Mark := ms.mergeSort fun a b => b.column ≤ a.column

/-- Marks from the longest to the shortest, of equally long ones the primary last. -/
def fromLongest (ms : List Mark) : List Mark :=
  ms.mergeSort fun a b => b.width < a.width || (b.width == a.width && (!a.primary || b.primary))

end Mark

/-! ## Painting -/

/-- A text painted into one of the rows below a source line. -/
structure Stroke where
  row : Nat
  column : Nat
  text : List Char
deriving DecidableEq, Repr

namespace Stroke

/-- Bars from the underlines down to the labels. `offset` columns stand before the source line, which
has moved `shift` columns to the left. -/
def bars (offset shift : Nat) (placed : List (Nat × Mark)) : List Stroke :=
  placed.flatMap fun (level, m) =>
    if level == 0 || !m.isLabelled then []
    else (List.range (level + 1)).map fun row => ⟨row, offset + m.start - shift, ['|']⟩

/-- The labels. -/
def labels (offset shift : Nat) (placed : List (Nat × Mark)) : List Stroke :=
  placed.map fun (level, m) =>
    if level == 0 then ⟨0, offset + (m.stop + 1 - shift), m.label.toList⟩
    else ⟨level + 1, offset + (m.start - shift), m.label.toList⟩

/-- The underlines. -/
def underlines (offset shift : Nat) (ms : List Mark) : List Stroke :=
  (Mark.fromLongest ms).flatMap fun m =>
    (List.range m.width).map fun i =>
      ⟨0, offset + (m.start + i) - shift, [if m.primary then '^' else '-']⟩

/-- Paints one stroke over rows. -/
def paint (rows : List (List Char)) (s : Stroke) : List (List Char) :=
  rows.modify s.row (overlay · s.column s.text)

end Stroke

/-- The rows below a source line that has marks; `margin` is what every row starts with. -/
def markRows (margin : List Char) (offset shift : Nat) (marks : List Mark) : List (List Char) :=
  let marks := Mark.fromRight marks
  let placed := Mark.place 0 marks
  let depth := ((placed.getLast?).map (·.1)).getD 0
  let blank := List.replicate (if depth == 0 then 1 else depth + 2) margin
  (Stroke.bars offset shift placed ++ Stroke.labels offset shift placed ++
    Stroke.underlines offset shift marks).foldl Stroke.paint blank

/-! ## Very long marks -/

/-- Puts dots in the place of the columns from `first` on and before `last`, if the row is that long. -/
def elide (row : List Char) (first last : Nat) : List Char :=
  if first == last || row.length < first || row.length < last then row
  else row.take first ++ dots ++ row.drop last

/-- The columns that are left out of a mark more than twice as wide as the room there is. -/
def elision? (room : Nat) (m : Mark) : Option (Nat × Nat) :=
  if 2 * room < m.width && 10 < m.width then
    some (m.start + max (room / 3) 5, m.stop - max (room / 3) 5)
  else none

/-- What is left out of a line's very long marks. Marks are taken from the longest to the shortest, and
one is passed over when at its rank from the right there is a mark that overlaps others. -/
def elisions (room : Nat) (marks : List Mark) : List (Nat × Nat) :=
  let marks := Mark.fromRight marks
  let lone := marks.mapIdx fun i m => !(marks.eraseIdx i).any (·.meets m 0)
  ((Mark.fromLongest marks).zip lone).filterMap fun (m, lone) =>
    if lone then elision? room m else none

end DeclKit.Diagnostic

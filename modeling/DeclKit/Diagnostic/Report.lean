/-
Diagnostics as text.

There are two layouts. The plain one gives every diagnostic one line: severity, file, line and column,
message. The annotated one shows the source line below the message, with the place underlined and
labelled; further places in the same file are underlined with dashes.
-/
import DeclKit.Diagnostic.Basic
import DeclKit.Diagnostic.Mark

set_option autoImplicit false

namespace DeclKit

/-! ## Colours -/

/-- Terminal codes around parts of a report; empty ones for no colour. -/
structure Palette where
  red : String := ""
  yellow : String := ""
  cyan : String := ""
  dim : String := ""
  reset : String := ""

namespace Palette

/-- No colours. -/
def plain : Palette := {}

/-- The colours of a terminal. -/
def colored : Palette :=
  { red := "\x1b[91m", yellow := "\x1b[93m", cyan := "\x1b[96m", dim := "\x1b[90m",
    reset := "\x1b[0m" }

/-- The colour of a severity. -/
def severity (p : Palette) : Severity → String
  | .error => p.red
  | .warning => p.yellow

end Palette

namespace Diagnostic

/-- A diagnostic on one line. -/
def line (p : Palette) (sources : Sources) (d : Diagnostic) : String :=
  let place := match d.span with
    | none => ""
    | some s =>
      let file := sources.get s.source
      let (line, column) := (file.position s.start).oneBased
      " " ++ p.cyan ++ file.displayName ++ p.reset ++ " " ++ p.yellow ++
        "(" ++ toString line ++ "," ++ toString column ++ ")" ++ p.reset
  p.severity d.severity ++ d.severity.heading ++ p.reset ++ place ++ ": " ++ d.flattened

/-! ## The annotated layout -/

/-- The range that is shown: an empty one is widened by a byte where there is one. -/
def shownRange (s : Span) (size : Nat) : Nat × Nat :=
  if s.start == s.stop then (s.start, min (s.start + 1) size) else (s.start, s.stop)

/-- Columns of a terminal. -/
def terminalWidth : Nat := 140

/-- How the lines of a snippet are set: the digits of the largest line number, and the columns of
source lines that are shown. -/
structure Frame where
  digits : Nat
  window : Window

namespace Frame

/-- The columns before a source line: its number, a blank, a bar and a blank. -/
def offset (f : Frame) : Nat := f.digits + 3

/-- The start of a row without a number. -/
def margin (f : Frame) : List Char := overlay [] (f.digits + 1) ['|']

/-- The frame for marks in lines of a text. -/
def ofMarks (lines : List ShownLine) (marks : List Mark) : Frame :=
  let digits := (toString ((marks.map (·.line)).foldl max 1)).length
  let marked := (lines.filter fun l => marks.any (·.line == l.number)).map (·.chars)
  { digits
    window := .choose (terminalWidth - (digits + 3)) (least (marked.filterMap indentOf))
      (least (marks.map (·.start))) ((marks.map (·.stop)).foldl max 0)
      ((marks.map (·.labelStop)).foldl max 0)
      ((marked.map fun cs => Text.columns (Text.shown cs)).foldl max 0) }

/-- A source line behind its number, and by how many columns it has moved to the left. -/
def sourceRow (f : Frame) (l : ShownLine) : Nat × List Char :=
  let (shift, row) := f.window.codeRow f.offset (Text.shown l.chars)
  let number := (toString l.number).toList
  (shift, overlay (overlay row (f.digits - number.length) number) (f.digits + 1) ['|'])

/-- A source line and the rows below it. -/
def block (f : Frame) (marks : List Mark) (l : ShownLine) : List (List Char) :=
  let marks := marks.filter (·.line == l.number)
  let (shift, row) := f.sourceRow l
  let cut (row : List Char) :=
    (elisions f.window.room marks).foldl (fun row (first, last) => elide row first last) row
  match markRows f.margin f.offset shift marks with
  | [] => [cut row]
  | underlined :: below => cut row :: cut underlined :: below

/-- The rows from one marked line on to the next: a line between them is shown, more are left out. -/
def between (f : Frame) (lines : List ShownLine) (here next : Nat) : List (List Char) :=
  if next == here + 2 then [(f.sourceRow (lines.getD here default)).2]
  else if here + 2 < next then [dots]
  else []

/-- The rows of marked lines and of what is between them. -/
def blocks (f : Frame) (lines : List ShownLine) (marks : List Mark) : List Nat → List (List Char)
  | [] => []
  | [n] => f.block marks (lines.getD (n - 1) default)
  | n :: m :: rest =>
    f.block marks (lines.getD (n - 1) default) ++ f.between lines n m ++
      f.blocks lines marks (m :: rest)

/-- The part of an annotated report below its heading. -/
def snippet (f : Frame) (lines : List ShownLine) (marks : List Mark) : List String :=
  let numbers := (marks.map (·.line)).mergeSort.eraseDups
  (f.margin :: f.blocks lines marks numbers).map String.ofList

end Frame

/-- A diagnostic in the annotated layout. -/
def annotated (p : Palette) (sources : Sources) (d : Diagnostic) : String :=
  let code := "TS" ++ toString d.kind.code
  match d.span with
  | none =>
    p.severity d.severity ++ d.severity.word ++ p.reset ++ " " ++ p.dim ++ code ++ p.reset ++ ": " ++
      d.flattened
  | some s =>
    let file := sources.get s.source
    let lines := linesOf file.text
    let mark (span : Span) := Mark.ofRange lines (shownRange span file.text.utf8ByteSize).1
      (shownRange span file.text.utf8ByteSize).2
    let main := mark s true d.message
    let others := (d.related.filter (·.span.source == s.source)).map fun r =>
      mark r.span false r.message
    let marks := main :: others
    let frame := Frame.ofMarks lines marks
    let heading := d.severity.word ++ "[" ++ code ++ "]: "
    let titleLines := (d.flattened.splitOn "\n").map fun l => String.ofList (Text.shown l.toList)
    let title := ("\n" ++ Text.repeated heading.length " ").intercalate titleLines
    let place := Text.repeated frame.digits " " ++ "--> " ++ file.displayName ++ ":" ++
      toString main.line ++ ":" ++ toString main.column
    "\n".intercalate ((heading ++ title) :: place :: frame.snippet lines marks)

/-! ## Whole reports -/

/-- All diagnostics, one line each. -/
def lineReport (p : Palette) (sources : Sources) (ds : List Diagnostic) : String :=
  String.join (ds.map fun d => d.line p sources ++ "\n")

/-- All diagnostics in the annotated layout, with an empty line between them. -/
def annotatedReport (p : Palette) (sources : Sources) (ds : List Diagnostic) : String :=
  "\n".intercalate (ds.map fun d => d.annotated p sources ++ "\n")

/-- A report in one of the layouts. -/
def report (p : Palette) (pretty : Bool) (sources : Sources) (ds : List Diagnostic) : String :=
  if pretty then annotatedReport p sources ds else lineReport p sources ds

end Diagnostic

end DeclKit

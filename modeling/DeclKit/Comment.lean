/-
Comments that lead a declaration.

Comments are found in the text between the end of the token before a declaration and the declaration
itself. A comment on the same line as that token trails it; what comes after the first line break leads
the declaration. At the start of a file every comment leads.
-/
import DeclKit.Text.Offset
import DeclKit.Text.RangeTable

set_option autoImplicit false

namespace DeclKit

/-- The two forms of comments. -/
inductive CommentKind where
  | line
  | block
deriving DecidableEq, Repr

/-- A comment in a text, and whether a line break follows it. -/
structure Comment where
  kind : CommentKind
  start : Nat
  stop : Nat
  breaksLine : Bool := false
deriving DecidableEq, Repr

namespace Comment

/-- One of the two separators that end a line beside the ASCII line ends. -/
def isSeparator (c : Char) : Bool := c.toNat == 0x2028 || c.toNat == 0x2029

/-- A character at which a line comment ends. -/
def endsLine (c : Char) : Bool := c == '\n' || c == '\r' || isSeparator c

/-- The number of characters of a block comment after its opening mark; all of them when it is not
closed. -/
def blockLength : List Char → Nat
  | [] => 0
  | '*' :: '/' :: _ => 2
  | _ :: cs => blockLength cs + 1

/-- Notes a line break after the last comment found; the list is in reverse. -/
def noteBreak : List Comment → List Comment
  | [] => []
  | c :: cs => { c with breaksLine := true } :: cs

/-- The comments from byte `pos` up to the first character that is neither blank nor in a comment.
Comments are kept from the moment `leading` is set; `found` holds them in reverse. -/
def scan (pos : Nat) (leading : Bool) (found : List Comment) (cs : List Char) : List Comment :=
  match cs with
  | [] => found
  | '/' :: '/' :: rest =>
    let n := (rest.takeWhile (!endsLine ·)).length
    let stop := pos + 2 + Text.bytes (rest.take n)
    scan stop leading (if leading then ⟨.line, pos, stop, false⟩ :: found else found) (rest.drop n)
  | '/' :: '*' :: rest =>
    let n := blockLength rest
    let stop := pos + 2 + Text.bytes (rest.take n)
    scan stop leading (if leading then ⟨.block, pos, stop, false⟩ :: found else found) (rest.drop n)
  | c :: rest =>
    let next := pos + c.utf8Size
    if endsLine c then scan next true (noteBreak found) rest
    else if c == ' ' || c == '\t' || c.toNat == 0xb || c.toNat == 0xc then
      scan next leading found rest
    else if 0x80 ≤ c.toNat && Text.isBlank c then scan next leading found rest
    else found
termination_by cs.length

/-- The comments that lead what follows byte `start` of a text. A line that starts a file with `#!` is
passed over. -/
def leading (text : String) (start : Nat) : List Comment :=
  let start := min start text.utf8ByteSize
  let cs := (Text.slice text start text.utf8ByteSize).toList
  let passed := match start, cs with
    | 0, '#' :: '!' :: _ => (cs.takeWhile (!endsLine ·)).length
    | _, _ => 0
  (scan (start + Text.bytes (cs.take passed)) (start == 0) [] (cs.drop passed)).reverse

/-- The texts of the leading comments, without blanks at their ends. -/
def leadingTexts (text : String) (start : Nat) : List String :=
  (leading text start).map fun c => Text.trim (Text.slice text c.start c.stop)

end Comment

end DeclKit

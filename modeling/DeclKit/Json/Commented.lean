/-
JSON with comments, the form of configuration files.

Comments, commas before a closing bracket and a byte order mark at the start are blanked out rather
than removed: each byte of them becomes a space, and line ends stay. So an offset into the cleaned text
is an offset into the file, and faults of reading the one are reported in the other.

The text is scanned byte by byte for the stretches of it that have to go. Whether a comma is one of
them shows only at the next byte that is no blank and in no comment, so the scan keeps it in mind until
then. The stretches are blanked out one after another, and the bytes are read as text again: those that
are the UTF-8 encoding of characters stand for these, and where others are no encoding of a character,
the replacement character stands for as many of them as could have been the start of one, and for one
byte at least.
-/
import DeclKit.Json.Read
import DeclKit.Text.RangeTable

set_option autoImplicit false

namespace DeclKit.Text

/-! ## Bytes as text -/

/-- A byte goes on with a character. -/
def isContinuation (b : UInt8) : Bool := b &&& 0xc0 == 0x80

/-- The second byte goes on with an encoding of three or four bytes that starts with the first one. -/
def continuesWith (first second : UInt8) : Bool :=
  let low : UInt8 := if first == 0xe0 then 0xa0 else if first == 0xf0 then 0x90 else 0x80
  let high : UInt8 := if first == 0xed then 0x9f else if first == 0xf4 then 0x8f else 0xbf
  0xe0 ≤ first && first ≤ 0xf4 && low ≤ second && second ≤ high

/-- How many bytes at the front could have been the start of a character, or one. -/
def brokenLength : List UInt8 → Nat
  | first :: second :: rest =>
    if !continuesWith first second then 1
    else if 0xf0 ≤ first && rest.head?.any isContinuation then 3
    else 2
  | _ => 1

/-- The characters of bytes, with a replacement for what is no character. -/
def decodeLossy (bs : List UInt8) : List Char :=
  match bs with
  | [] => []
  | b :: rest =>
    match (b :: rest).toByteArray.utf8DecodeChar? 0 with
    | some c => c :: decodeLossy (rest.drop (c.utf8Size - 1))
    | none => '\ufffd' :: decodeLossy (rest.drop (brokenLength (b :: rest) - 1))
termination_by bs.length
decreasing_by
  · simp only [List.length_drop, List.length_cons]; omega
  · simp only [List.length_drop, List.length_cons]; omega

/-- The text of bytes. -/
def decode (bs : List UInt8) : String :=
  (String.fromUTF8? bs.toByteArray).getD (String.ofList (decodeLossy bs))

end DeclKit.Text

namespace DeclKit.Json

/-! ## Stretches to blank out -/

/-- The bytes from one offset up to another one. -/
structure Stretch where
  start : Nat
  stop : Nat
deriving DecidableEq, Repr

/-- What a place in a text is inside of. A comment is known by its start. -/
inductive Inside where
  | values
  | string
  | line (start : Nat)
  | block (start : Nat)
deriving DecidableEq, Repr

/-- The blanks that may stand between a comma and a bracket. -/
def isAsciiBlank (b : UInt8) : Bool :=
  b == ' '.toUInt8 || b == '\t'.toUInt8 || b == '\n'.toUInt8 || b == '\x0c'.toUInt8 || b == '\r'.toUInt8

/-- The stretch of a comma that is kept in mind. -/
def commaStretch : Option Nat → List Stretch
  | some k => [⟨k, k + 1⟩]
  | none => []

/-- The stretches to blank out in the bytes from offset `i` on; `comma` is the offset of the last
comma, if only blanks and comments have come since. A string ends with a quote that no backslash
precedes, or with its line. -/
def stretches (inside : Inside) (comma : Option Nat) (i : Nat) : List UInt8 → List Stretch
  | [] =>
    match inside with
    | .line start | .block start => [⟨start, i⟩]
    | _ => []
  | b :: bs =>
    match inside with
    | .values =>
      if b == '"'.toUInt8 then stretches .string none (i + 1) bs
      else if b == '/'.toUInt8 && bs.head? == some '/'.toUInt8 then
        stretches (.line i) comma (i + 2) (bs.drop 1)
      else if b == '/'.toUInt8 && bs.head? == some '*'.toUInt8 then
        stretches (.block i) comma (i + 2) (bs.drop 1)
      else if b == ','.toUInt8 then stretches .values (some i) (i + 1) bs
      else if b == '}'.toUInt8 || b == ']'.toUInt8 then
        commaStretch comma ++ stretches .values none (i + 1) bs
      else if isAsciiBlank b then stretches .values comma (i + 1) bs
      else stretches .values none (i + 1) bs
    | .string =>
      if b == '\\'.toUInt8 then stretches inside comma (i + 2) (bs.drop 1)
      else if b == '"'.toUInt8 || b == '\n'.toUInt8 then stretches .values comma (i + 1) bs
      else stretches inside comma (i + 1) bs
    | .line start =>
      if b == '\n'.toUInt8 then ⟨start, i⟩ :: stretches .values comma (i + 1) bs
      else stretches inside comma (i + 1) bs
    | .block start =>
      if b == '*'.toUInt8 && bs.head? == some '/'.toUInt8 then
        ⟨start, i + 2⟩ :: stretches .values comma (i + 2) (bs.drop 1)
      else stretches inside comma (i + 1) bs
termination_by bs => bs.length

/-! ## Cleaning -/

/-- A byte that ends a line, or a part of such an end. -/
def isLineEnd (b : UInt8) : Bool := b == '\n'.toUInt8 || b == '\r'.toUInt8

/-- Bytes with a stretch of them blanked out. Line ends stay. -/
def blankOut (bs : List UInt8) (r : Stretch) : List UInt8 :=
  bs.mapIdx fun n b =>
    if r.start ≤ n && n < r.stop && !isLineEnd b then ' '.toUInt8 else b

/-- How many bytes the byte order mark at the start of a text takes, if there is one. -/
def markLength (text : String) : Nat := if text.toList.head? == some '\ufeff' then 3 else 0

/-- The cleaned bytes of a text. -/
def cleanBytes (text : String) : List UInt8 :=
  let bs := Text.encode text.toList
  let mark := markLength text
  (⟨0, mark⟩ :: stretches .values none mark (bs.drop mark)).foldl blankOut bs

/-- The cleaned text. -/
def clean (text : String) : String := Text.decode (cleanBytes text)

/-! ## Places -/

/-- The line, counted from one, and the bytes before a place within it. -/
def lineAndColumn (line column : Nat) : Nat → List Char → Nat × Nat
  | _, [] => (line, column)
  | n, c :: cs =>
    if n < c.utf8Size then (line, column + n)
    else if c == '\n' then lineAndColumn (line + 1) 0 (n - 1) cs
    else lineAndColumn line (column + c.utf8Size) (n - c.utf8Size) cs

/-- The line and column of a fault. -/
def Fault.position (f : Fault) (text : String) : Nat × Nat :=
  lineAndColumn 1 0 (text.utf8ByteSize - f.left) text.toList

/-- The bytes of so many lines. -/
def lineBytes : Nat → List Char → Nat
  | 0, _ => 0
  | _, [] => 0
  | n + 1, c :: cs =>
    c.utf8Size + if c == '\n' then lineBytes n cs else lineBytes (n + 1) cs

/-- The byte that a line and a column, both counted from one, stand for. Within a character it is the
character's first byte, and past the end the end. -/
def offsetAt (text : String) (line column : Nat) : Nat :=
  let cs := text.toList
  Text.bytes (Text.takeBytes (lineBytes (line - 1) cs + (column - 1)) cs)

/-- The byte at which a fault is shown. -/
def Fault.offset (f : Fault) (text : String) : Nat :=
  let (line, column) := f.position text
  offsetAt text line column

/-- The offset of a quoted name that a colon follows, and that is thus the name of a member. -/
def findQuoted (quotedName : List Char) (offset : Nat) (cs : List Char) : Option Nat :=
  match cs with
  | [] => none
  | c :: rest =>
    if quotedName.isPrefixOf (c :: rest) then
      let after := rest.drop (quotedName.length - 1)
      if (after.dropWhile Text.isBlank).head? == some ':' then some offset
      else findQuoted quotedName (offset + Text.bytes quotedName) after
    else findQuoted quotedName (offset + c.utf8Size) rest
termination_by cs.length
decreasing_by
  · simp only [List.length_drop, List.length_cons]; omega
  · simp

/-- Where the name of a member stands, quotes included: its first place from an offset on, at whatever
depth. -/
def findName (text name : String) (start : Nat) : Option (Nat × Nat) :=
  let quotedName := '"' :: (name.toList ++ ['"'])
  let before := Text.bytes (Text.takeBytes start text.toList)
  (findQuoted quotedName before (Text.dropBytes start text.toList)).map fun offset =>
    (offset, offset + Text.bytes quotedName)

end DeclKit.Json

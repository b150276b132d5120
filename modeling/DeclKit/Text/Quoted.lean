/-
String literals: writing a text between double quotes, and reading the body of a quoted literal.

Writing escapes the quote, the backslash, the line separators and the controls below the space.
Reading accepts every escape of the source language; an escape that names no character vanishes,
and a backslash before a line break joins the lines.

A dump of the tree shows texts in double quotes as well, with every character that does not show as
itself written as an escape.
-/
import DeclKit.Text.Glyph
import DeclKit.Text.Radix

set_option autoImplicit false

namespace DeclKit.Text

/-! ## Writing -/

/-- A code unit as four upper-case hexadecimal digits. -/
def hex4 (n : Nat) : String :=
  (padZeros 4 (radixDigits 16 n)).map Char.toUpper

/-- One character of a double-quoted literal. -/
def quoteChar (c : Char) : List Char :=
  if c == '"' then ['\\', '"']
  else if c == '\\' then ['\\', '\\']
  else if c == '\n' then ['\\', 'n']
  else if c == '\r' then ['\\', 'r']
  else if c == '\t' then ['\\', 't']
  else if c.toNat == 0x2028 || c.toNat == 0x2029 || c.toNat < 0x20 then
    '\\' :: 'u' :: (hex4 c.toNat).toList
  else [c]

/-- The text as a double-quoted literal. -/
def quote (s : String) : String :=
  String.ofList ('"' :: s.toList.flatMap quoteChar ++ ['"'])

/-! ## Reading -/

/-- The character of a hexadecimal code, if there is one: surrogates and codes past U+10FFFF name
none. -/
def charOfHex? (cs : List Char) : Option Char :=
  match unsigned? 16 (Nat.pow 2 32) cs with
  | some n => if n.isValidChar then some (Char.ofNat n) else none
  | none => none

/-- The characters that a backslash and one more character stand for. -/
def simpleEscape (c : Char) : List Char :=
  match c with
  | 'n' => ['\n']
  | 'r' => ['\r']
  | 't' => ['\t']
  | 'b' => [Char.ofNat 0x8]
  | 'f' => [Char.ofNat 0xc]
  | 'v' => [Char.ofNat 0xb]
  | '0' => [Char.ofNat 0]
  | c => if c == '\n' || c.toNat == 0x2028 || c.toNat == 0x2029 then [] else [c]

/-- Decodes the body of a string literal, its quotes already removed. -/
def unescapeChars (cs : List Char) : List Char :=
  match cs with
  | [] => []
  | ['\\'] => ['\\']
  | '\\' :: '\r' :: '\n' :: rest => unescapeChars rest
  | '\\' :: '\r' :: rest => unescapeChars rest
  | '\\' :: 'x' :: rest => (charOfHex? (rest.take 2)).toList ++ unescapeChars (rest.drop 2)
  | '\\' :: 'u' :: '{' :: rest =>
    let code := rest.takeWhile (· != '}')
    (charOfHex? code).toList ++ unescapeChars (rest.drop (code.length + 1))
  | '\\' :: 'u' :: rest => (charOfHex? (rest.take 4)).toList ++ unescapeChars (rest.drop 4)
  | '\\' :: c :: rest => simpleEscape c ++ unescapeChars rest
  | c :: rest => c :: unescapeChars rest
termination_by cs.length

/-- Decodes the body of a string literal, its quotes already removed. -/
def unescape (s : String) : String :=
  String.ofList (unescapeChars s.toList)

/-! ## Dumping -/

/-- One character of a dumped text. -/
def escapeChar (c : Char) : String :=
  if c == '\x00' then "\\0"
  else if c == '\t' then "\\t"
  else if c == '\r' then "\\r"
  else if c == '\n' then "\\n"
  else if c == '"' then "\\\""
  else if c == '\\' then "\\\\"
  else if isGlyph c then c.toString
  else "\\u\x7b" ++ radixDigits 16 c.toNat ++ "\x7d"

/-- A text as a dump shows it. -/
def escaped (s : String) : String :=
  "\"" ++ String.join (s.toList.map escapeChar) ++ "\""

end DeclKit.Text

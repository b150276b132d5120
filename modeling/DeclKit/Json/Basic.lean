/-
JSON values, and the ways in which reading one can fail.

Numbers are kept apart by how they read: naturals below `2 ^ 64`, negative integers down to
`-2 ^ 63`, and doubles for all others. The members of an object are held in the order of their names,
each name once; of two members with one name the later counts.
-/
import DeclKit.Number.Text
import DeclKit.Text.Offset
import DeclKit.Text.Quoted

set_option autoImplicit false

namespace DeclKit

namespace Json

/-- A number, by how it reads. -/
inductive Number where
  | natural (n : Nat)
  /-- The integer `-n`. -/
  | negative (n : Nat)
  | double (d : Double)
deriving DecidableEq, Repr

end Json

/-- A JSON value. -/
inductive Json where
  | null
  | bool (b : Bool)
  | number (n : Json.Number)
  | string (s : String)
  | array (items : List Json)
  | object (members : List (String × Json))
deriving Repr, Inhabited

namespace Json

/-- Puts a member in its place among members in the order of their names; one of the same name is
replaced. -/
def insertMember (name : String) (value : Json) : List (String × Json) → List (String × Json)
  | [] => [(name, value)]
  | m :: rest =>
    match Text.compareText name m.1 with
    | .lt => (name, value) :: m :: rest
    | .eq => (name, value) :: rest
    | .gt => m :: insertMember name value rest

/-! ## Numbers as text -/

/-- A double that is written with digits: always with a point or an exponent, positionally from
`1e-5` up to but excluding `1e16`. -/
def doubleText (d : Double) : String :=
  let sign := if d.isNegative then "-" else ""
  if d.isZero then sign ++ "0.0"
  else
    let shortest := (d.withSign d.isNegative).shortest
    let digits := Nat.toDigits 10 shortest.digits
    let point : Int := digits.length + shortest.exponent
    let zeros (n : Int) := List.replicate n.toNat '0'
    sign ++ String.ofList (
      if 0 ≤ shortest.exponent && point ≤ 16 then digits ++ zeros shortest.exponent ++ ['.', '0']
      else if 0 < point && point ≤ 16 then
        digits.take point.toNat ++ ['.'] ++ digits.drop point.toNat
      else if -5 < point && point ≤ 0 then ['0', '.'] ++ zeros (-point) ++ digits
      else
        digits.take 1 ++ (if digits.length == 1 then [] else '.' :: digits.drop 1) ++
          ('e' :: (toString (point - 1)).toList))

/-! ## Strings as text -/

/-- One character of a quoted string. -/
def quotedChar (c : Char) : String :=
  if c == '"' then "\\\""
  else if c == '\\' then "\\\\"
  else if c == '\x08' then "\\b"
  else if c == '\t' then "\\t"
  else if c == '\n' then "\\n"
  else if c == '\x0c' then "\\f"
  else if c == '\r' then "\\r"
  else if c.toNat < 0x20 then "\\u" ++ Text.padZeros 4 (Text.radixDigits 16 c.toNat)
  else c.toString

/-- A string in quotes. -/
def quoted (s : String) : String := "\"" ++ String.join (s.toList.map quotedChar) ++ "\""

/-- A list of strings as an array. -/
def quotedList (ss : List String) : String := "[" ++ ",".intercalate (ss.map quoted) ++ "]"

/-! ## Faults -/

/-- What was found where something else was expected. -/
inductive Found where
  | null
  | bool (b : Bool)
  | number (n : Number)
  | string (s : String)
  | list
  | map
deriving DecidableEq, Repr

/-- What a value is, for the report that it is of the wrong type. -/
def Found.of : Json → Found
  | .null => .null
  | .bool b => .bool b
  | .number n => .number n
  | .string s => .string s
  | .array _ => .list
  | .object _ => .map

/-- What was found, in words. -/
def Found.text : Found → String
  | null => "null"
  | bool b => "boolean `" ++ (if b then "true" else "false") ++ "`"
  | number (.natural n) => "integer `" ++ toString n ++ "`"
  | number (.negative n) => "integer `-" ++ toString n ++ "`"
  | number (.double d) => "floating point `" ++ doubleText d ++ "`"
  | string s => "string " ++ Text.escaped s
  | list => "sequence"
  | map => "map"

/-- Why a text cannot be read. -/
inductive Cause where
  | endInList
  | endInObject
  | endInString
  | endInValue
  | expectedColon
  | expectedListEnd
  | expectedObjectEnd
  | expectedWord
  | expectedValue
  | invalidEscape
  | invalidNumber
  | outOfRange
  | controlCharacter
  | keyNotString
  | loneSurrogate
  | trailingComma
  | trailingText
  | unfinishedEscape
  | tooDeep
  /-- The value is of the wrong type. -/
  | wrongType (found : Found) (expected : String)
  /-- A list ends too early. -/
  | wrongLength (length : Nat) (expected : String)
  /-- An object has a field twice. -/
  | repeatedField (name : String)
  /-- The value has none of the forms that a thing may have. -/
  | noForm (thing : String)
deriving DecidableEq, Repr

/-- The wording of a cause. -/
def Cause.message : Cause → String
  | endInList => "EOF while parsing a list"
  | endInObject => "EOF while parsing an object"
  | endInString => "EOF while parsing a string"
  | endInValue => "EOF while parsing a value"
  | expectedColon => "expected `:`"
  | expectedListEnd => "expected `,` or `]`"
  | expectedObjectEnd => "expected `,` or `\x7d`"
  | expectedWord => "expected ident"
  | expectedValue => "expected value"
  | invalidEscape => "invalid escape"
  | invalidNumber => "invalid number"
  | outOfRange => "number out of range"
  | controlCharacter => "control character (\\u0000-\\u001F) found while parsing a string"
  | keyNotString => "key must be a string"
  | loneSurrogate => "lone leading surrogate in hex escape"
  | trailingComma => "trailing comma"
  | trailingText => "trailing characters"
  | unfinishedEscape => "unexpected end of hex escape"
  | tooDeep => "recursion limit exceeded"
  | wrongType found expected => "invalid type: " ++ found.text ++ ", expected " ++ expected
  | wrongLength length expected => "invalid length " ++ toString length ++ ", expected " ++ expected
  | repeatedField name => "duplicate field `" ++ name ++ "`"
  | noForm thing => "data did not match any variant of " ++ thing

/-- A cause, and how many bytes of the text are left behind the place where it shows. -/
structure Fault where
  cause : Cause
  left : Nat
deriving DecidableEq, Repr

/-- A fault right before the rest of the text. -/
def Fault.before (cause : Cause) (rest : List Char) : Fault := ⟨cause, Text.bytes rest⟩

/-- A fault at the first byte of the rest of the text, or at its end. -/
def Fault.on (cause : Cause) (rest : List Char) : Fault := ⟨cause, Text.bytes rest - 1⟩

end Json

end DeclKit

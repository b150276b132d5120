/-
Names of properties, as they are written in a declaration file.

An identifier starts with a letter, `$` or `_`, and goes on with those and numerals. Letters and
numerals are those of Unicode. In a type literal a property name is bare when it is an identifier or a
number in its canonical text, and quoted otherwise.
-/
import DeclKit.Text.Letter
import DeclKit.Text.Quoted
import DeclKit.Number.Text

set_option autoImplicit false

namespace DeclKit.Text

/-! ## Identifiers -/

/-- The character may start an identifier. -/
def isIdentifierStart (c : Char) : Bool :=
  c == '$' || c == '_' || isAlphabetic c

/-- The character may continue an identifier. -/
def isIdentifierPart (c : Char) : Bool :=
  isIdentifierStart c || isNumeral c

/-- The text is a bare identifier name; the empty text is none. -/
def isIdentifierName (s : String) : Bool :=
  match s.toList with
  | [] => false
  | c :: cs => isIdentifierStart c && cs.all isIdentifierPart

/-! ## Property names -/

/-- The text is exactly how some number is written. -/
def isNumericName (s : String) : Bool :=
  match Double.ofText? s with
  | some d => d.text == s
  | none => false

/-- A property name as it is written in a type literal. -/
def propertyName (s : String) : String :=
  if isIdentifierName s || isNumericName s then s else quote s

end DeclKit.Text

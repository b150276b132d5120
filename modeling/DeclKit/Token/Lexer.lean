/-
Lexing: cutting a text into tokens.

At each position the longest lexeme that some rule matches is taken. A template literal is cut at its
substitutions, and each substitution is lexed in turn. Characters that no rule matches are garbage;
neighbouring garbage makes one token, so that malformed input stays manageable. Nothing is skipped:
blanks and comments are tokens too, and the tokens together are the text.
-/
import DeclKit.Token.Basic
import DeclKit.Text.Offset
import DeclKit.Token.Template

set_option autoImplicit false

namespace DeclKit.Token

/-! ## Lengths of lexemes -/

/-- How many characters at the front satisfy a test. -/
def runLength (p : Char → Bool) (cs : List Char) : Nat := (cs.takeWhile p).length

/-- A decimal digit or a digit separator. -/
def isDigitPart (c : Char) : Bool := c.isDigit || c == '_'

/-- A hexadecimal digit or a digit separator. -/
def isHexPart (c : Char) : Bool :=
  isDigitPart c || ('a' ≤ c && c ≤ 'f') || ('A' ≤ c && c ≤ 'F')

/-- A character that may start an identifier token. Beyond ASCII every character may. -/
def startsIdent (c : Char) : Bool := c.isAlpha || c == '_' || c == '$' || 0x80 ≤ c.toNat

/-- A character that may continue an identifier token. -/
def continuesIdent (c : Char) : Bool := startsIdent c || c.isDigit

/-- A blank within a line. -/
def isInlineBlank (c : Char) : Bool :=
  c == ' ' || c == '\t' || c.toNat == 0xb || c.toNat == 0xc

/-- Neither a line feed nor a carriage return. -/
def isInLine (c : Char) : Bool := c != '\n' && c != '\r'

/-- Length of an exponent part, zero when there is none. -/
def exponentLength : List Char → Nat
  | e :: s :: rest =>
    if e == 'e' || e == 'E' then
      if s.isDigit then 2 + runLength isDigitPart rest
      else if s == '+' || s == '-' then
        match rest with
        | d :: more => if d.isDigit then 3 + runLength isDigitPart more else 0
        | [] => 0
      else 0
    else 0
  | _ => 0

/-- Length of a decimal number that starts with a digit. -/
def decimalLength (cs : List Char) : Nat :=
  let whole := runLength isDigitPart cs
  let places := match cs.drop whole with
    | '.' :: more => 1 + runLength isDigitPart more
    | _ => 0
  whole + places + exponentLength (cs.drop (whole + places))

/-- Length of a number with a radix mark, and whether a big integer may have that mark; zero when
there is no such number. -/
def radixLength : List Char → Nat × Bool
  | '0' :: mark :: rest =>
    let (digits, big) :=
      if mark == 'x' || mark == 'X' then (runLength isHexPart rest, true)
      else if mark == 'o' || mark == 'O' then
        (runLength (fun c => ('0' ≤ c && c ≤ '7') || c == '_') rest, false)
      else if mark == 'b' || mark == 'B' then
        (runLength (fun c => c == '0' || c == '1' || c == '_') rest, false)
      else (0, false)
    if digits == 0 then (0, false) else (digits + 2, big)
  | _ => (0, false)

/-- The number, or big integer, at the front of characters that start with a digit. -/
def numberExtent (cs : List Char) : Kind × Nat :=
  let (marked, big) := radixLength cs
  let digits := if marked == 0 then runLength isDigitPart cs else marked
  let mayBeBig := marked == 0 || big
  if mayBeBig && (cs.drop digits).head? == some 'n' then (.bigIntLiteral, digits + 1)
  else if marked == 0 then (.numberLiteral, decimalLength cs)
  else (.numberLiteral, marked)

/-- Length of a string literal after its opening quote, and whether it is closed. A raw line end
stops it; a backslash takes the next character, or a whole line end, with it. -/
def stringExtent (quote : Char) : List Char → Nat × Bool
  | [] => (0, false)
  | '\\' :: '\r' :: '\n' :: rest =>
    let (n, closed) := stringExtent quote rest
    (n + 3, closed)
  | '\\' :: _ :: rest =>
    let (n, closed) := stringExtent quote rest
    (n + 2, closed)
  | c :: rest =>
    if c == quote then (1, true)
    else if isInLine c then
      let (n, closed) := stringExtent quote rest
      (n + 1, closed)
    else (0, false)

/-- Length of a block comment after its opening mark; `none` when it is not closed. -/
def blockExtent? : List Char → Option Nat
  | [] => none
  | '*' :: '/' :: _ => some 2
  | _ :: rest => (blockExtent? rest).map (· + 1)

/-- The punctuation mark of a character. -/
def punctuation? : Char → Option Kind
  | '(' => some .parenOpen
  | ')' => some .parenClose
  | '[' => some .bracketOpen
  | ']' => some .bracketClose
  | '{' => some .braceOpen
  | '}' => some .braceClose
  | '<' => some .lt
  | '>' => some .gt
  | ',' => some .comma
  | ';' => some .semicolon
  | ':' => some .colon
  | '?' => some .question
  | '.' => some .dot
  | '=' => some .equals
  | '|' => some .pipe
  | '&' => some .amp
  | '+' => some .plus
  | '-' => some .minus
  | '*' => some .star
  | '/' => some .slash
  | '!' => some .bang
  | '@' => some .atSign
  | '%' | '^' | '~' | '#' => some .operator
  | _ => none

/-- The kind of the lexeme that starts with `c`, templates aside, and how many characters it takes
of those after `c`. -/
def extent (c : Char) (cs : List Char) : Kind × Nat :=
  if startsIdent c then
    let n := runLength continuesIdent cs
    ((Kind.keyword? (String.ofList (c :: cs.take n))).getD .ident, n)
  else if isInlineBlank c then (.whitespace, runLength isInlineBlank cs)
  else if c.isDigit then
    let (kind, n) := numberExtent (c :: cs)
    (kind, n - 1)
  else if c == '"' || c == '\'' then
    let (n, closed) := stringExtent c cs
    (if closed then .stringLiteral else .garbage, n)
  else match c, cs with
    | '\n', _ => (.newline, 0)
    | '\r', '\n' :: _ => (.newline, 1)
    | '\r', _ => (.newline, 0)
    | '.', '.' :: '.' :: _ => (.dotDotDot, 2)
    | '.', d :: rest =>
      if d.isDigit then
        let digits := runLength isDigitPart rest
        (.numberLiteral, 1 + digits + exponentLength (rest.drop digits))
      else (.dot, 0)
    | '=', '>' :: _ => (.arrow, 1)
    | '#', '!' :: rest => (.shebang, 1 + runLength isInLine rest)
    | '/', '/' :: rest => (.lineComment, 1 + runLength isInLine rest)
    | '/', '*' :: rest =>
      match blockExtent? rest with
      | some n => (.blockComment, 1 + n)
      | none => (.slash, 0)
    | _, _ => ((punctuation? c).getD .garbage, 0)

/-! ## Cutting -/

/-- The lexemes of a text, garbage not yet joined. -/
def cut (cs : List Char) : List Lexeme :=
  match cs with
  | [] => []
  | c :: rest =>
    if _hc : c = '`' then
      match _h : Template.bodyEnd? 1 (Text.encode rest) with
      | none => [⟨.garbage, c :: rest⟩]
      | some stop =>
        let p := Template.split stop 0 1 ((Text.encode rest).take (stop - 1))
        let body := p.spans.attach.zipIdx.flatMap fun (⟨s, _⟩, i) =>
          ⟨if i == 0 then .templateHead else .templateMiddle,
            Text.between s.start s.stop (c :: rest)⟩ ::
            cut (Text.between s.stop (s.close stop) (c :: rest))
        let last := if p.spans.isEmpty then .noSubstitutionTemplate else .templateTail
        body ++ ⟨last, Text.between p.last stop (c :: rest)⟩ ::
          cut (Text.dropBytes stop (c :: rest))
    else
      let (kind, n) := extent c rest
      ⟨kind, c :: rest.take n⟩ :: cut (rest.drop n)
termination_by cs.length
decreasing_by
  · exact Text.length_between_lt (Template.Span.stop_pos ‹_›) (by rw [_hc]; rfl)
  · exact Text.length_dropBytes_lt (Template.bodyEnd?_pos _h) (by rw [_hc]; rfl)
  · simp only [List.length_drop, List.length_cons]; omega

/-- Joins neighbouring garbage. -/
def joinGarbage : List Lexeme → List Lexeme
  | [] => []
  | l :: ls =>
    match l.kind, joinGarbage ls with
    | .garbage, ⟨.garbage, more⟩ :: rest => ⟨.garbage, l.chars ++ more⟩ :: rest
    | _, joined => l :: joined

/-- The lexemes of a text. A byte-order mark at its very start counts as a blank. -/
def lexemes (cs : List Char) : List Lexeme :=
  match cs with
  | '\uFEFF' :: rest => ⟨.whitespace, ['\uFEFF']⟩ :: joinGarbage (cut rest)
  | _ => joinGarbage (cut cs)

/-- The tokens of a text. -/
def lex (text : String) : List Token := place 0 (lexemes text.toList)

end DeclKit.Token

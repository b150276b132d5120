/-
Reading JSON.

A reader takes the rest of the text and gives what it read with what is then left. Lists and objects
are read by loops that take the reader of their parts as an argument, so that a loop serves values of
any kind, and what the parts are decides what the whole is.
-/
import DeclKit.Json.Basic

set_option autoImplicit false

namespace DeclKit.Json.Read

/-- What was read, and the rest of the text. -/
abbrev Reading (α : Type) := α × List Char

/-- The blanks that may stand between the parts of a value. -/
def isSpace (c : Char) : Bool := c == ' ' || c == '\n' || c == '\t' || c == '\r'

/-- The text without the blanks at its front. -/
def skipSpace (cs : List Char) : List Char := cs.dropWhile isSpace

/-- Reads the rest of a word of which the first letter was enough to know it. -/
def word : List Char → List Char → Except Fault (List Char)
  | [], cs => .ok cs
  | _ :: _, [] => .error (.before .endInValue [])
  | w :: ws, c :: cs => if w == c then word ws cs else .error (.on .expectedWord (c :: cs))

/-! ## Numbers -/

/-- Digits at the front as long as the number they continue stays at most `bound`: the number, how
many digits were taken, and the rest. -/
def takeBounded (bound acc count : Nat) : List Char → Nat × Nat × List Char
  | [] => (acc, count, [])
  | c :: cs =>
    let next := acc * 10 + (c.toNat - '0'.toNat)
    if c.isDigit && next ≤ bound then takeBounded bound next (count + 1) cs
    else (acc, count, c :: cs)

/-- The text starts with a digit. -/
def startsWithDigit (cs : List Char) : Bool := cs.head?.any Char.isDigit

/-- Divides by `10 ^ n` in steps that each stay within the range of doubles. -/
def scaleDown (f : Double) (n : Nat) : Double :=
  if n ≤ 308 then f.dividedBy (.ofDecimal 1 n)
  else if f.isZero then f
  else scaleDown (f.dividedBy (.ofDecimal 1 308)) (n - 308)
termination_by n

/-- The double of a significand and a power of ten; none when it is too large. The significand is
rounded first and the result once more, so it may be off by one place. -/
def scaled? (significand : Nat) (exponent : Int) : Option Double :=
  let f := Double.ofNat significand
  if exponent < 0 then some (scaleDown f exponent.natAbs)
  else if exponent ≤ 308 then
    let product := f.times (.ofDecimal 1 exponent)
    if product.isFinite then some product else none
  else if f.isZero then some f
  else none

/-- The number of a sign, a significand and a power of ten. -/
def finishDouble (negative : Bool) (significand : Nat) (exponent : Int) (cs : List Char) :
    Except Fault (Reading Number) :=
  match scaled? significand exponent with
  | some d => .ok (.double (d.withSign negative), cs)
  | none => .error (.before .outOfRange cs)

/-- Reads the digits of an exponent. One that does not fit 31 bits is not computed: the number is
then zero or out of range. -/
def exponentDigits (negative : Bool) (significand : Nat) (start : Int) (down : Bool)
    (cs : List Char) : Except Fault (Reading Number) :=
  let (value, _, rest) := takeBounded (Nat.pow 2 31 - 1) 0 0 cs
  if startsWithDigit rest then
    if significand != 0 && !down then .error (.before .outOfRange (rest.drop 1))
    else .ok (.double (Double.zero.withSign negative), rest.dropWhile Char.isDigit)
  else
    finishDouble negative significand (if down then start - value else start + value) rest

/-- Reads an exponent, its mark being read. -/
def exponentPart (negative : Bool) (significand : Nat) (start : Int) (cs : List Char) :
    Except Fault (Reading Number) :=
  let (down, body) := match cs with
    | '+' :: rest => (false, rest)
    | '-' :: rest => (true, rest)
    | _ => (false, cs)
  if startsWithDigit body then exponentDigits negative significand start down body
  else .error (.on (if body.isEmpty then .endInValue else .invalidNumber) body)

/-- What follows the digits of a number that is to be a double. -/
def afterDigits (negative : Bool) (significand : Nat) (exponent : Int) (cs : List Char) :
    Except Fault (Reading Number) :=
  match cs with
  | 'e' :: rest | 'E' :: rest => exponentPart negative significand exponent rest
  | _ => finishDouble negative significand exponent cs

/-- Reads the places after a decimal point. Places that no longer fit 64 bits are dropped. -/
def fractionPart (negative : Bool) (significand : Nat) (exponent : Int) (cs : List Char) :
    Except Fault (Reading Number) :=
  let (value, count, rest) := takeBounded (Nat.pow 2 64 - 1) significand 0 cs
  if startsWithDigit rest then
    afterDigits negative value (exponent - count) (rest.dropWhile Char.isDigit)
  else if count == 0 then
    .error (.on (if rest.isEmpty then .endInValue else .invalidNumber) rest)
  else afterDigits negative value (exponent - count) rest

/-- An integer without fraction and exponent; a negative one that does not fit is a double, and so is
a negative zero. -/
def wholeNumber (negative : Bool) (n : Nat) : Number :=
  if !negative then .natural n
  else if 0 < n && n ≤ Nat.pow 2 63 then .negative n
  else .double (Double.ofNat n).negate

/-- Reads a number behind its sign. -/
def number (negative : Bool) (cs : List Char) : Except Fault (Reading Number) :=
  match cs with
  | [] => .error (.before .endInValue [])
  | c :: rest =>
    if !c.isDigit then .error (.on .invalidNumber cs)
    else if c == '0' && startsWithDigit rest then .error (.on .invalidNumber rest)
    else
      let (value, _, rest) := takeBounded (Nat.pow 2 64 - 1) 0 0 cs
      let dropped := rest.takeWhile Char.isDigit
      let rest := rest.dropWhile Char.isDigit
      match rest with
      | '.' :: more => fractionPart negative value dropped.length more
      | 'e' :: more | 'E' :: more => exponentPart negative value dropped.length more
      | _ =>
        if dropped.isEmpty then .ok (wholeNumber negative value, rest)
        else finishDouble negative value dropped.length rest

/-! ## Strings -/

/-- The character of an escape of one letter. -/
def simpleEscape? (c : Char) : Option Char :=
  if c == '"' || c == '\\' || c == '/' then some c
  else if c == 'b' then some '\x08'
  else if c == 'f' then some '\x0c'
  else if c == 'n' then some '\n'
  else if c == 'r' then some '\r'
  else if c == 't' then some '\t'
  else none

/-- Reads four hexadecimal digits. -/
def hexDigits (cs : List Char) : Except Fault (Reading Nat) :=
  if Text.bytes cs < 4 then .error (.before .endInString [])
  else match Text.digits? 16 0 (cs.take 4) with
    | some n => .ok (n, cs.drop 4)
    | none => .error ⟨.invalidEscape, Text.bytes cs - 4⟩

/-- The second half of a pair of surrogates. -/
def isLowSurrogate (n : Nat) : Bool := 0xdc00 ≤ n && n ≤ 0xdfff

/-- The first half of a pair of surrogates. -/
def isHighSurrogate (n : Nat) : Bool := 0xd800 ≤ n && n ≤ 0xdbff

/-- Reads the rest of a pair of surrogates. -/
def lowHalf (high : Nat) (cs : List Char) : Except Fault (Reading Char) :=
  match cs with
  | '\\' :: 'u' :: rest => do
    let (low, rest) ← hexDigits rest
    if !isLowSurrogate low then .error (.before .loneSurrogate rest)
    else .ok (Char.ofNat ((high - 0xd800) * 0x400 + (low - 0xdc00) + 0x10000), rest)
  | '\\' :: [] | [] => .error (.before .endInString [])
  | '\\' :: rest => .error (.on .unfinishedEscape rest)
  | _ => .error (.on .unfinishedEscape cs)

/-- Reads an escape behind its backslash. -/
def escape (cs : List Char) : Except Fault (Reading Char) :=
  match cs with
  | [] => .error (.before .endInString [])
  | c :: rest =>
    match simpleEscape? c with
    | some d => .ok (d, rest)
    | none =>
      if c != 'u' then .error (.on .invalidEscape cs)
      else do
        let (n, rest) ← hexDigits rest
        if isLowSurrogate n then .error (.before .loneSurrogate rest)
        else if isHighSurrogate n then lowHalf n rest
        else .ok (Char.ofNat n, rest)

/-- Reads a string behind its opening quote, what was read so far being given in reverse. Every
character of the text takes one step at most. -/
def stringBody : Nat → List Char → List Char → Except Fault (Reading String)
  | 0, _, _ => .error (.before .endInString [])
  | n + 1, acc, cs =>
    match cs with
    | [] => .error (.before .endInString [])
    | c :: rest =>
      if c == '"' then .ok (String.ofList acc.reverse, rest)
      else if c == '\\' then do
        let (d, rest) ← escape rest
        stringBody n (d :: acc) rest
      else if c.toNat < 0x20 then .error (.on .controlCharacter cs)
      else stringBody n (c :: acc) rest

/-- Reads a string behind its opening quote. -/
def string (cs : List Char) : Except Fault (Reading String) := stringBody (cs.length + 1) [] cs

/-! ## Lists and objects -/

section Loops

variable {α σ : Type}

/-- Reads the items of a list behind its opening bracket, what was read so far being given in
reverse. -/
def itemLoop (item : List Char → Except Fault (Reading α)) :
    Nat → List α → List Char → Except Fault (Reading (List α))
  | 0, _, _ => .error (.before .endInList [])
  | n + 1, acc, cs =>
    let cs := skipSpace cs
    match cs with
    | [] => .error (.before .endInList [])
    | ']' :: rest => .ok (acc.reverse, rest)
    | c :: rest => do
      if acc.isEmpty then
        let (x, rest) ← item cs
        itemLoop item n (x :: acc) rest
      else if c == ',' then
        match skipSpace rest with
        | [] => .error (.before .endInValue [])
        | ']' :: rest => .error (.on .trailingComma (']' :: rest))
        | cs =>
          let (x, rest) ← item cs
          itemLoop item n (x :: acc) rest
      else .error (.on .expectedListEnd cs)

/-- Reads the items of a list behind its opening bracket. -/
def items (item : List Char → Except Fault (Reading α)) (cs : List Char) :
    Except Fault (Reading (List α)) :=
  itemLoop item (cs.length + 1) [] cs

/-- Reads the members of an object behind its opening brace. A member is read from behind its name,
and folded into what came of those before it. -/
def memberLoop (member : String → σ → List Char → Except Fault (Reading σ)) :
    Nat → Bool → σ → List Char → Except Fault (Reading σ)
  | 0, _, _, _ => .error (.before .endInObject [])
  | n + 1, first, s, cs =>
    let cs := skipSpace cs
    let entry (cs : List Char) : Except Fault (Reading σ) := do
      let (name, rest) ← string cs
      let (s, rest) ← member name s rest
      memberLoop member n false s rest
    match cs with
    | [] => .error (.before .endInObject [])
    | '}' :: rest => .ok (s, rest)
    | c :: rest =>
      if first then
        if c == '"' then entry rest else .error (.on .keyNotString cs)
      else if c == ',' then
        match skipSpace rest with
        | [] => .error (.before .endInValue [])
        | '}' :: rest => .error (.on .trailingComma ('}' :: rest))
        | '"' :: rest => entry rest
        | cs => .error (.on .keyNotString cs)
      else .error (.on .expectedObjectEnd cs)

/-- Reads the members of an object behind its opening brace. -/
def members (member : String → σ → List Char → Except Fault (Reading σ)) (s : σ)
    (cs : List Char) : Except Fault (Reading σ) :=
  memberLoop member (cs.length + 1) true s cs

/-- Reads the colon behind a name. -/
def colon (cs : List Char) : Except Fault (List Char) :=
  match skipSpace cs with
  | ':' :: rest => .ok rest
  | [] => .error (.before .endInObject [])
  | cs => .error (.on .expectedColon cs)

end Loops

/-! ## Values -/

/-- Reads a value that is neither list nor object, by its first character. -/
def scalar (c : Char) (cs rest : List Char) : Except Fault (Reading Json) := do
  if c == 'n' then return (.null, ← word "ull".toList rest)
  else if c == 't' then return (.bool true, ← word "rue".toList rest)
  else if c == 'f' then return (.bool false, ← word "alse".toList rest)
  else if c == '-' then
    let (n, rest) ← number true rest
    return (.number n, rest)
  else if c.isDigit then
    let (n, rest) ← number false cs
    return (.number n, rest)
  else if c == '"' then
    let (s, rest) ← string rest
    return (.string s, rest)
  else .error (.on .expectedValue cs)

/-- Reads a value that nests lists and objects at most so deep. -/
def value (levels : Nat) (cs : List Char) : Except Fault (Reading Json) :=
  let cs := skipSpace cs
  match cs with
  | [] => .error (.before .endInValue [])
  | c :: rest =>
    if c == '[' || c == '{' then
      match levels with
      | 0 => .error (.on .tooDeep cs)
      | levels + 1 =>
        if c == '[' then do
          let (xs, rest) ← items (value levels) rest
          return (.array xs, rest)
        else do
          let member (name : String) (ms : List (String × Json)) (cs : List Char) :
              Except Fault (Reading (List (String × Json))) := do
            let (v, rest) ← value levels (← colon cs)
            return (insertMember name v ms, rest)
          let (ms, rest) ← members member [] rest
          return (.object ms, rest)
    else scalar c cs rest

/-- How deep a whole text may nest. -/
def maxLevels : Nat := 127

/-- Nothing but blanks may follow a whole value. -/
def finish {α : Type} (r : α × List Char) : Except Fault α :=
  match skipSpace r.2 with
  | [] => .ok r.1
  | cs => .error (.on .trailingText cs)

/-- Reads a text that is one value. -/
def whole (text : String) : Except Fault Json := do finish (← value maxLevels text.toList)

/-- The fault of a value that is not of the expected type. A list or an object is not read. -/
def wrongType (expected : String) (cs : List Char) : Fault :=
  match cs with
  | [] => .on .expectedValue []
  | c :: rest =>
    if c == '[' then .before (.wrongType .list expected) cs
    else if c == '{' then .before (.wrongType .map expected) cs
    else match scalar c cs rest with
      | .ok (v, rest) => .before (.wrongType (.of v) expected) rest
      | .error fault => fault

end DeclKit.Json.Read

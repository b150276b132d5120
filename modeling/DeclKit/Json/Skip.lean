/-
Passing over JSON whose value does not matter.

Only the form of the text is checked: there is no limit to how deep it nests, numbers may be of any
size, and surrogates need no partner. Where text is missing the faults are not always those of a
reader of values.
-/
import DeclKit.Json.Read

set_option autoImplicit false

namespace DeclKit.Json.Skip

open Read (skipSpace startsWithDigit simpleEscape? hexDigits colon word)

/-- Passes over a run of digits that must not be empty. -/
def someDigits (cs : List Char) : Except Fault (List Char) :=
  if startsWithDigit cs then .ok (cs.dropWhile Char.isDigit) else .error (.on .invalidNumber cs)

/-- Passes over an exponent, its mark being read. -/
def exponentPart (cs : List Char) : Except Fault (List Char) :=
  match cs with
  | '+' :: rest | '-' :: rest => someDigits rest
  | _ => someDigits cs

/-- Passes over a number behind its sign. -/
def number (cs : List Char) : Except Fault (List Char) := do
  let zero := cs.head? == some '0'
  if zero && startsWithDigit (cs.drop 1) then .error (.on .invalidNumber (cs.drop 1))
  else
    match ← someDigits cs with
    | '.' :: rest =>
      match ← someDigits rest with
      | 'e' :: rest | 'E' :: rest => exponentPart rest
      | rest => return rest
    | 'e' :: rest | 'E' :: rest => exponentPart rest
    | rest => return rest

/-- Passes over an escape behind its backslash. -/
def escape (cs : List Char) : Except Fault (List Char) :=
  match cs with
  | [] => .error (.before .endInString [])
  | c :: rest =>
    if (simpleEscape? c).isSome then .ok rest
    else if c == 'u' then (hexDigits rest).map (·.2)
    else .error (.on .invalidEscape cs)

/-- Passes over a string behind its opening quote. -/
def stringBody : Nat → List Char → Except Fault (List Char)
  | 0, _ => .error (.before .endInString [])
  | n + 1, cs =>
    match cs with
    | [] => .error (.before .endInString [])
    | c :: rest =>
      if c == '"' then .ok rest
      else if c == '\\' then do stringBody n (← escape rest)
      else if c.toNat < 0x20 then .error (.before .controlCharacter cs)
      else stringBody n rest

/-- Passes over a string behind its opening quote. -/
def string (cs : List Char) : Except Fault (List Char) := stringBody (cs.length + 1) cs

/-- What is open around a value. -/
inductive Frame where
  | list
  | object
deriving DecidableEq

namespace Frame

/-- The character that closes it. -/
def closer : Frame → Char
  | list => ']'
  | object => '}'

/-- The text ends within it. -/
def ended : Frame → Cause
  | list => .endInList
  | object => .endInObject

/-- Something else than a comma or the end follows a part. -/
def expectedEnd : Frame → Cause
  | list => .expectedListEnd
  | object => .expectedObjectEnd

end Frame

/-- Passes over the name of a member and its colon. -/
def memberName (cs : List Char) : Except Fault (List Char) :=
  match skipSpace cs with
  | [] => .error (.before .endInObject [])
  | '"' :: rest => do colon (← string rest)
  | cs => .error (.on .keyNotString cs)

/-- Passes over what a frame has before each of its values. -/
def opening (f : Frame) (cs : List Char) : Except Fault (List Char) :=
  match f with
  | .list => .ok cs
  | .object => memberName cs

/-- Passes over a value that is neither list nor object. -/
def scalar (c : Char) (cs rest : List Char) : Except Fault (List Char) :=
  if c == 'n' then word "ull".toList rest
  else if c == 't' then word "rue".toList rest
  else if c == 'f' then word "alse".toList rest
  else if c == '-' then number rest
  else if c.isDigit then number cs
  else if c == '"' then string rest
  else .error (.on .expectedValue cs)

mutual

/-- Passes over a value within frames, and over all that follows until they are closed. -/
def valueWithin : Nat → List Frame → List Char → Except Fault (List Char)
  | 0, _, _ => .error (.before .endInValue [])
  | n + 1, frames, cs =>
    let cs := skipSpace cs
    match cs with
    | [] => .error (.before .endInValue [])
    | c :: rest =>
      if c == '[' then within n false .list frames rest
      else if c == '{' then within n false .object frames rest
      else do
        let rest ← scalar c cs rest
        match frames with
        | [] => return rest
        | f :: fs => within n true f fs rest

/-- Passes over what may follow in a frame: after a part a comma and a part, at its start a part, and
its end at either place. -/
def within : Nat → Bool → Frame → List Frame → List Char → Except Fault (List Char)
  | 0, _, f, _, _ => .error (.before f.ended [])
  | n + 1, afterPart, f, fs, cs =>
    let cs := skipSpace cs
    match cs with
    | [] => .error (.before f.ended [])
    | c :: rest =>
      if c == f.closer then
        match fs with
        | [] => .ok rest
        | g :: gs => within n true g gs rest
      else if !afterPart then do valueWithin n (f :: fs) (← opening f cs)
      else if c == ',' then do valueWithin n (f :: fs) (← opening f rest)
      else .error (.on f.expectedEnd cs)

end

/-- Passes over a value. Every step takes a character at least, or opens a part. -/
def value (cs : List Char) : Except Fault (List Char) := valueWithin (2 * cs.length + 2) [] cs

end DeclKit.Json.Skip

/-
What a configuration file says.

A file is an object with five fields that matter, all optional, and any others, which are passed over.
It may also be a list of the five values in order. A field that is `null` counts as missing, but it may
not stand there twice either.
-/
import DeclKit.Json.Skip
import DeclKit.Text.RangeTable

set_option autoImplicit false

namespace DeclKit.Config

open Json (Fault)
open Json.Read (Reading skipSpace)

/-- The fields of a configuration file. -/
structure Document where
  /-- The files it extends, by the words that name them. -/
  bases : List String := []
  /-- Compiler options, in the order of their names. -/
  options : List (String × Json) := []
  files : Option (List String) := none
  included : Option (List String) := none
  excluded : Option (List String) := none
deriving Inhabited

namespace Document

/-! ## Values -/

/-- Reads a string. -/
def readString (cs : List Char) : Except Fault (Reading String) :=
  match skipSpace cs with
  | [] => .error (.before .endInValue [])
  | '"' :: rest => Json.Read.string rest
  | cs => .error (Json.Read.wrongType "a string" cs)

/-- Reads a list of strings. -/
def readStrings (cs : List Char) : Except Fault (Reading (List String)) :=
  match skipSpace cs with
  | [] => .error (.before .endInValue [])
  | '[' :: rest => Json.Read.items readString rest
  | cs => .error (Json.Read.wrongType "a sequence" cs)

/-- Reads the members of an object, two levels below the whole file. -/
def readOptions (cs : List Char) : Except Fault (Reading (List (String × Json))) :=
  let member (name : String) (ms : List (String × Json)) (cs : List Char) :
      Except Fault (Reading (List (String × Json))) := do
    let (v, rest) ← Json.Read.value (Json.Read.maxLevels - 2) (← Json.Read.colon cs)
    return (Json.insertMember name v ms, rest)
  match skipSpace cs with
  | [] => .error (.before .endInValue [])
  | '{' :: rest => Json.Read.members member [] rest
  | cs => .error (Json.Read.wrongType "a map" cs)

/-- The strings of values that are all strings. -/
def strings? : List Json → Option (List String)
  | [] => some []
  | .string s :: rest => (strings? rest).map (s :: ·)
  | _ :: _ => none

/-- A value that names one base or several. -/
def basesOf? : Json → Option (List String)
  | .string s => some [s]
  | .array xs => strings? xs
  | _ => none

/-- Reads the bases; none when the value is no way to name them. -/
def readBases (cs : List Char) : Except Fault (Reading (Option (List String))) := do
  let (v, rest) ← Json.Read.value (Json.Read.maxLevels - 1) cs
  return (basesOf? v, rest)

/-- Reads `null` or a value. -/
def orNull {α : Type} (read : List Char → Except Fault (Reading α)) (cs : List Char) :
    Except Fault (Reading (Option α)) :=
  match skipSpace cs with
  | 'n' :: rest => do return (none, ← Json.Read.word "ull".toList rest)
  | cs => do
    let (v, rest) ← read cs
    return (some v, rest)

/-! ## Fields -/

/-- A field that matters. -/
inductive Field where
  | bases
  | options
  | files
  | included
  | excluded
deriving DecidableEq, Repr

namespace Field

/-- The fields in order. -/
def all : List Field := [bases, options, files, included, excluded]

/-- The name of a field. -/
def name : Field → String
  | bases => "extends"
  | options => "compilerOptions"
  | files => "files"
  | included => "include"
  | excluded => "exclude"

/-- The field of a name. -/
def ofName? (s : String) : Option Field := all.find? (·.name == s)

end Field

/-- Reads the value of a field. `close` says how much text is left when the value turns out to be of
no use, once what stands around it has been looked at. -/
def readField (close : List Char → Nat) (f : Field) (d : Document) (cs : List Char) :
    Except Fault (Reading Document) := do
  match f with
  | .bases =>
    match ← orNull readBases cs with
    | (some none, rest) => .error ⟨.noForm "untagged enum Extends", close rest⟩
    | (some (some names), rest) => return ({ d with bases := names }, rest)
    | (none, rest) => return (d, rest)
  | .options =>
    let (v, rest) ← orNull readOptions cs
    return ({ d with options := v.getD [] }, rest)
  | .files =>
    let (v, rest) ← orNull readStrings cs
    return ({ d with files := v }, rest)
  | .included =>
    let (v, rest) ← orNull readStrings cs
    return ({ d with included := v }, rest)
  | .excluded =>
    let (v, rest) ← orNull readStrings cs
    return ({ d with excluded := v }, rest)

/-- The text left behind a part of an object, and behind the brace that may close it there. -/
def afterMember (cs : List Char) : Nat :=
  match skipSpace cs with
  | '}' :: rest => Text.bytes rest
  | cs => Text.bytes cs

/-- The text left behind a part of a list, and behind the bracket or comma there. -/
def afterItem (cs : List Char) : Nat :=
  match skipSpace cs with
  | ']' :: rest => Text.bytes rest
  | ',' :: rest => Text.bytes (skipSpace rest)
  | cs => Text.bytes cs

/-- Reads a member of the whole file, given the fields that have been there. -/
def readMember (name : String) (s : Document × List Field) (cs : List Char) :
    Except Fault (Reading (Document × List Field)) := do
  match Field.ofName? name with
  | none => return (s, ← Json.Skip.value (← Json.Read.colon cs))
  | some f =>
    if s.2.contains f then .error ⟨.repeatedField name, afterMember cs⟩
    else
      let (d, rest) ← readField afterMember f s.1 (← Json.Read.colon cs)
      return ((d, f :: s.2), rest)

/-! ## Lists of the fields -/

/-- What a list of the fields is. -/
def listForm : String := "struct RawConfig with 5 elements"

/-- The text before the next item of a list; none when the list ends. -/
def nextItem (first : Bool) (cs : List Char) : Except Fault (Option (List Char)) :=
  match skipSpace cs with
  | [] => .error (.before .endInList [])
  | ']' :: _ => .ok none
  | c :: rest =>
    if first then .ok (some (c :: rest))
    else if c == ',' then
      match skipSpace rest with
      | [] => .error (.before .endInValue [])
      | ']' :: rest => .error (.on .trailingComma (']' :: rest))
      | cs => .ok (some cs)
    else .error (.on .expectedListEnd (c :: rest))

/-- Reads fields as items of a list, `read` of them being there. -/
def readItems (read : Nat) : List Field → Document → List Char → Except Fault (Reading Document)
  | [], d, cs => .ok (d, cs)
  | f :: fs, d, cs => do
    match ← nextItem (read == 0) cs with
    | none => .error ⟨.wrongLength read listForm, afterItem cs⟩
    | some cs =>
      let (d, rest) ← readField afterItem f d cs
      readItems (read + 1) fs d rest

/-- Reads the end of a list from which nothing more is wanted. -/
def listEnd (cs : List Char) : Except Fault (List Char) :=
  match skipSpace cs with
  | [] => .error (.before .endInList [])
  | ']' :: rest => .ok rest
  | ',' :: rest =>
    match skipSpace rest with
    | ']' :: rest => .error (.on .trailingComma (']' :: rest))
    | cs => .error (.on .trailingText cs)
  | cs => .error (.on .trailingText cs)

/-! ## Whole files -/

/-- Reads the value that a file is. -/
def readWhole (cs : List Char) : Except Fault (Reading Document) := do
  match skipSpace cs with
  | [] => .error (.before .endInValue [])
  | '{' :: rest =>
    let (s, rest) ← Json.Read.members readMember ({}, []) rest
    return (s.1, rest)
  | '[' :: rest =>
    let (d, rest) ← readItems 0 Field.all {} rest
    return (d, ← listEnd rest)
  | cs => .error (Json.Read.wrongType "struct RawConfig" cs)

/-- Reads a text from which comments are cleaned. One that is blank says nothing. -/
def ofText (text : String) : Except Fault Document := do
  if text.toList.all Text.isBlank then return {}
  else Json.Read.finish (← readWhole text.toList)

end Document

end DeclKit.Config

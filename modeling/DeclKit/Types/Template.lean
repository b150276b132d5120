/-
Template literal types and letter maps.

A union inside a template is multiplied out, literals are written into the text, and a template inside
a template is opened, so that a stored template has no literal, union or template among its types.
-/
import DeclKit.Number.Text
import DeclKit.Types.Union

set_option autoImplicit false

namespace DeclKit.TypeTable

/-! ## Building -/

/-- The text that a literal contributes to a template. -/
def constantText? (t : TypeTable) (id : TypeId) : Option String :=
  match t.kind id with
  | .stringLiteral s => some s
  | .numberLiteral d => some d.text
  | .bigintLiteral s => some s
  | .true_ => some "true"
  | .false_ => some "false"
  | .null => some "null"
  | .undefined => some "undefined"
  | _ => none

/-- A template under construction: the head, and the spans behind it in reverse. -/
structure TemplateParts where
  head : String
  spans : List (TypeId × String) := []

namespace TemplateParts

/-- Adds text at the end. -/
def addText (p : TemplateParts) (s : String) : TemplateParts :=
  match p.spans with
  | [] => { p with head := p.head ++ s }
  | (ty, text) :: before => { p with spans := (ty, text ++ s) :: before }

/-- Adds a type and the text after it. -/
def addSpan (p : TemplateParts) (ty : TypeId) (s : String) : TemplateParts :=
  { p with spans := (ty, s) :: p.spans }

end TemplateParts

/-- Adds a type and the text after it: literals as text, templates by their parts. -/
def addPart (t : TypeTable) (p : TemplateParts) (span : TypeId × String) : TemplateParts :=
  match t.constantText? span.1 with
  | some s => (p.addText s).addText span.2
  | none => match t.kind span.1 with
    | .template h inner => (inner.foldl (fun q s => q.addSpan s.1 s.2) (p.addText h)).addText span.2
    | _ => p.addSpan span.1 span.2

/-- The template of a head and spans without unions. -/
def flatTemplate (head : String) (spans : List (TypeId × String)) : Stored TypeId := do
  let t ← get
  let p := spans.foldl t.addPart { head }
  match p.spans.reverse with
  | [] => stringLiteral p.head
  | [(ty, tail)] =>
    if ty == .string && p.head.isEmpty && tail.isEmpty then return .string
    else intern (.template p.head [(ty, tail)])
  | spans => intern (.template p.head spans)

/-- The template of a head and spans, given those with fewer unions: the first union among the spans is
multiplied out. -/
def templateStep (nullChecks : Bool) (head : String)
    (inner : List (TypeId × String) → Stored TypeId) (spans : List (TypeId × String)) :
    Stored TypeId := do
  if spans.any (·.1 == .never) then return .never
  else if spans.any (·.1 == .error) then return .error
  else match (← get).splitAtUnion? (·.1) spans with
    | some s => union nullChecks (← s.members.mapM fun m => inner (s.withPart (m, s.part.2)))
    | none => flatTemplate head spans

/-- The template literal type of a head and spans. -/
def template (nullChecks : Bool) (head : String) (spans : List (TypeId × String)) : Stored TypeId :=
  descend (templateStep nullChecks head) (fun _ => return .error) (spans.length + 1) spans

/-- The letter map of a type that is no union. -/
def letteredMember (m : LetterMap) (id : TypeId) : Stored TypeId := do
  match (← get).kind id with
  | .stringLiteral s => stringLiteral (m.run s)
  | .any | .error | .never => return id
  | .lettered inner _ => if inner == m then return id else intern (.lettered m id)
  | _ => intern (.lettered m id)

/-- The letter map of a type. -/
def lettered (nullChecks : Bool) (m : LetterMap) (id : TypeId) : Stored TypeId := do
  match (← get).kind id with
  | .union ms => union nullChecks (← ms.mapM (letteredMember m))
  | _ => letteredMember m id

end DeclKit.TypeTable

/-! ## Matching -/

namespace DeclKit.Template

/-- Splits a text at the first place where a pattern stands. -/
def splitFirst? (pattern : List Char) : List Char → Option (List Char × List Char)
  | [] => if pattern.isEmpty then some ([], []) else none
  | c :: cs =>
    if pattern.isPrefixOf (c :: cs) then some ([], (c :: cs).drop pattern.length)
    else (splitFirst? pattern cs).map fun (a, b) => (c :: a, b)

/-- The pieces of a text between delimiters. A piece ends where its delimiter stands first; before an
empty delimiter it is one character. -/
def pieces? : List (List Char) → List Char → Option (List (List Char))
  | [], text => some [text]
  | [] :: more, text => match text with
    | [] => none
    | c :: rest => (pieces? more rest).map ([c] :: ·)
  | delimiter :: more, text => do
    let (piece, rest) ← splitFirst? delimiter text
    return piece :: (← pieces? more rest)

/-- The text that each type of a template stands for in a text, if the text has its form. -/
def matchText? (text head : String) (spans : List (TypeId × String)) : Option (List String) := do
  let cs := text.toList
  let front := head.toList
  let back := ((spans.getLast?.map (·.2)).getD head).toList
  if cs.length < front.length + back.length || !front.isPrefixOf cs || !back.isSuffixOf cs then none
  else
    let body := (cs.drop front.length).take (cs.length - front.length - back.length)
    let found ← pieces? (spans.dropLast.map fun s => s.2.toList) body
    return found.map String.ofList

end DeclKit.Template

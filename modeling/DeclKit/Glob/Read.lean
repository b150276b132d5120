/-
Patterns for file paths, and how they are read.

A pattern is read into parts: characters, `?` and `*` within one name, `**` across names, classes in
brackets and alternatives in braces. `**` counts only where it is a whole name; elsewhere it is two
stars.

The parts read so far are kept branch by branch: the innermost alternative that is being read, in
reverse, those that are complete in its group, and the groups around it.
-/

set_option autoImplicit false

namespace DeclKit.Glob

/-! ## Patterns -/

/-- A part of a pattern. -/
inductive Part where
  | char (c : Char)
  /-- `?` -/
  | anyInName
  /-- `*` -/
  | manyInName
  /-- `**` and the slash behind it, at the start of a pattern or of an alternative. -/
  | anyFront
  /-- The slash before `**` at the end of a pattern or of an alternative, and `**`. -/
  | anyBelow
  /-- `**` between slashes, both of them included. -/
  | anyBetween
  /-- `[…]` -/
  | oneOf (negated : Bool) (ranges : List (Char × Char))
  /-- `{…,…}` -/
  | either (branches : List (List Part))
deriving Repr, Inhabited

/-- What is wrong with a pattern. -/
inductive Cause where
  | unclosedClass
  | invalidRange (low high : Char)
  | unopenedBranches
  | unclosedBranches
deriving DecidableEq, Repr

/-- A pattern that cannot be read. -/
structure Fault where
  pattern : String
  cause : Cause
deriving DecidableEq, Repr

/-- The wording of a cause. -/
def Cause.message : Cause → String
  | unclosedClass => "unclosed character class; missing ']'"
  | invalidRange low high => "invalid range; '" ++ low.toString ++ "' > '" ++ high.toString ++ "'"
  | unopenedBranches =>
    "unopened alternate group; missing '\x7b' (maybe escape '\x7d' with '[\x7d]'?)"
  | unclosedBranches =>
    "unclosed alternate group; missing '\x7d' (maybe escape '\x7b' with '[\x7b]'?)"

/-- The wording of a fault. -/
def Fault.message (f : Fault) : String :=
  "error parsing glob '" ++ f.pattern ++ "': " ++ f.cause.message

/-- A character that has a meaning of its own in a pattern. -/
def isWild (c : Char) : Bool := c == '*' || c == '?' || c == '[' || c == '{'

/-- A name in a pattern that may stand for several. -/
def hasWild (name : String) : Bool := name.toList.any isWild

/-! ## Reading -/

/-- A group of alternatives that is open: what came before it, and its complete branches in
reverse. -/
structure Group where
  before : List Part
  branches : List (List Part)

/-- What has been read. -/
structure State where
  /-- The parts of the branch that is being read, in reverse. -/
  parts : List Part := []
  /-- The open groups, innermost first. -/
  groups : List Group := []

namespace State

/-- Adds a part. -/
def push (s : State) (p : Part) : State := { s with parts := p :: s.parts }

/-- Adds a star twice. -/
def pushStars (s : State) : State := (s.push .manyInName).push .manyInName

/-- Puts a part in the place of the last one, unless that already stands for a whole end. -/
def replaceLast (s : State) (p : Part) : State :=
  match s.parts with
  | .anyFront :: _ | .anyBelow :: _ => s
  | _ :: rest => { s with parts := p :: rest }
  | [] => { s with parts := [p] }

/-- Starts a group of alternatives. -/
def openGroup (s : State) : State := { parts := [], groups := ⟨s.parts, []⟩ :: s.groups }

/-- Starts the next alternative; outside of a group a comma is a character. -/
def comma (s : State) : State :=
  match s.groups with
  | [] => s.push (.char ',')
  | g :: gs => { parts := [], groups := { g with branches := s.parts.reverse :: g.branches } :: gs }

/-- Ends a group of alternatives. -/
def closeGroup? (s : State) : Option State :=
  match s.groups with
  | [] => none
  | g :: gs =>
    some { parts := .either (s.parts.reverse :: g.branches).reverse :: g.before, groups := gs }

end State

/-- The ranges of a class so far, in reverse, and whether a range waits for its end. -/
structure ClassState where
  ranges : List (Char × Char) := []
  open_ : Bool := false

/-- Takes one character of a class. -/
def ClassState.step (s : ClassState) (first : Bool) (c : Char) : Except Cause ClassState :=
  if c == '-' && !first && !s.open_ then .ok { s with open_ := true }
  else match s.open_, s.ranges with
    | true, (low, _) :: rest =>
      if c < low then .error (.invalidRange low c) else .ok ⟨(low, c) :: rest, false⟩
    | _, _ => .ok ⟨(c, c) :: s.ranges, false⟩

/-- Reads a class behind its bracket and the mark of negation. A closing bracket in front is a
character of the class. -/
def classBody (first : Bool) (s : ClassState) :
    List Char → Except Cause (List (Char × Char) × List Char)
  | [] => .error .unclosedClass
  | c :: cs =>
    if c == ']' && !first then
      .ok ((if s.open_ then ('-', '-') :: s.ranges else s.ranges).reverse, cs)
    else match s.step first c with
      | .ok s => classBody false s cs
      | .error cause => .error cause

/-- A class takes at least the bracket that closes it. -/
theorem length_classBody {first : Bool} {s : ClassState} {cs rest : List Char}
    {ranges : List (Char × Char)} (h : classBody first s cs = .ok (ranges, rest)) :
    rest.length < cs.length := by
  induction cs generalizing first s with
  | nil => simp [classBody] at h
  | cons c cs ih =>
    rw [classBody] at h
    split at h
    · simp only [Except.ok.injEq, Prod.mk.injEq] at h; simp [h.2]
    · split at h
      · exact Nat.lt_succ_of_lt (ih h)
      · simp at h

/-- What two stars in a row stand for, by the character before them and what follows, and the text
behind them. -/
def doubleStar (s : State) (before : Option Char) (cs : List Char) : State × List Char :=
  let atSlash := cs.head? == some '/'
  if s.parts.isEmpty then
    if cs.isEmpty || atSlash then (s.push .anyFront, cs.drop 1) else (s.pushStars, cs)
  else if before != some '/' then (s.pushStars, cs)
  else if cs.isEmpty then (s.replaceLast .anyBelow, cs)
  else if !s.groups.isEmpty && (cs.head? == some ',' || cs.head? == some '}') then
    (s.replaceLast .anyBelow, cs)
  else if atSlash then (s.replaceLast .anyBetween, cs.drop 1)
  else (s.pushStars, cs)

/-- The text behind two stars is no longer than what followed them. -/
theorem length_doubleStar (s : State) (before : Option Char) (cs : List Char) :
    (doubleStar s before cs).2.length ≤ cs.length := by
  simp only [doubleStar]
  repeat' split
  all_goals simp

/-- The mark of negation, and what follows it. -/
def classMark : List Char → Bool × List Char
  | '!' :: rest | '^' :: rest => (true, rest)
  | cs => (false, cs)

/-- The text behind the mark of negation is no longer than the text. -/
theorem length_classMark (cs : List Char) : (classMark cs).2.length ≤ cs.length := by
  simp only [classMark]
  split <;> simp

/-- Reads on from a state, the character before the text being given. -/
def readFrom (s : State) (before : Option Char) (cs : List Char) : Except Cause State :=
  match cs with
  | [] => .ok s
  | '?' :: rest => readFrom (s.push .anyInName) (some '?') rest
  | '*' :: '*' :: rest =>
    let after := (doubleStar s before rest).2
    let last := if after.length < rest.length then '/' else '*'
    readFrom (doubleStar s before rest).1 (some last) after
  | '*' :: rest => readFrom (s.push .manyInName) (some '*') rest
  | '[' :: rest =>
    match _h : classBody true {} (classMark rest).2 with
    | .error cause => .error cause
    | .ok (ranges, after) => readFrom (s.push (.oneOf (classMark rest).1 ranges)) (some ']') after
  | '{' :: rest => readFrom s.openGroup (some '{') rest
  | '}' :: rest =>
    match s.closeGroup? with
    | none => .error .unopenedBranches
    | some s => readFrom s (some '}') rest
  | ',' :: rest => readFrom s.comma (some ',') rest
  | c :: rest => readFrom (s.push (.char c)) (some c) rest
termination_by cs.length
decreasing_by
  all_goals simp
  · have := length_doubleStar s before rest; omega
  · have := length_classBody _h; have := length_classMark rest; omega

/-- Reads a pattern. -/
def read (pattern : String) : Except Fault (List Part) :=
  match readFrom {} none pattern.toList with
  | .error cause => .error ⟨pattern, cause⟩
  | .ok s => if s.groups.isEmpty then .ok s.parts.reverse else .error ⟨pattern, .unclosedBranches⟩

end DeclKit.Glob

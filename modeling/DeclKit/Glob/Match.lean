/-
Which paths a pattern stands for.

Matching goes by the bytes of the path: `?` takes one byte, and a class is the set of the bytes of its
characters, so that neither takes a whole character beyond ASCII. A part is matched by asking whether
the rest of the pattern matches what is left of the path after it, for each way to take the part.
-/
import DeclKit.Glob.Read

set_option autoImplicit false

namespace DeclKit.Glob

/-- The bytes of a character. -/
def charBytes (c : Char) : List UInt8 := String.utf8EncodeChar c

/-- The slash that divides names. -/
def slash : UInt8 := '/'.toUInt8

/-- The ranges of bytes that a range of characters adds to a class: its ends by their bytes, and what
lies between the last byte of the one and the first byte of the other. -/
def byteRanges (r : Char × Char) : List (UInt8 × UInt8) :=
  let single (b : UInt8) := (b, b)
  if r.1 == r.2 then (charBytes r.1).map single
  else
    match (charBytes r.1).getLast?, charBytes r.2 with
    | some low, high :: more =>
      (charBytes r.1).dropLast.map single ++ [(low, high)] ++ more.map single
    | _, _ => []

/-- A byte lies in one of the ranges. -/
def inRanges (ranges : List (Char × Char)) (b : UInt8) : Bool :=
  (ranges.flatMap byteRanges).any fun (low, high) => low ≤ b && b ≤ high

/-- The rest matches after some of the bytes in front, all of which fulfil a condition. -/
def after (p : UInt8 → Bool) (rest : List UInt8 → Bool) : List UInt8 → Bool
  | [] => rest []
  | b :: bs => rest (b :: bs) || (p b && after p rest bs)

/-- The rest matches after one byte that fulfils a condition. -/
def afterOne (p : UInt8 → Bool) (rest : List UInt8 → Bool) : List UInt8 → Bool
  | [] => false
  | b :: bs => p b && rest bs

/-- The rest matches after given bytes. -/
def afterBytes (front : List UInt8) (rest : List UInt8 → Bool) (bs : List UInt8) : Bool :=
  front.isPrefixOf bs && rest (bs.drop front.length)

/-- The rest matches after some bytes and a slash. -/
def afterSlash (rest : List UInt8 → Bool) (bs : List UInt8) : Bool :=
  after (fun _ => true) (afterOne (· == slash) rest) bs

mutual

/-- A part that stands for nothing: alternatives that are all empty. -/
def Part.isVoid : Part → Bool
  | .either branches => allVoid branches
  | _ => false

/-- Parts that all stand for nothing. -/
def isVoid : List Part → Bool
  | [] => true
  | p :: ps => p.isVoid && isVoid ps

/-- Alternatives that all stand for nothing. -/
def allVoid : List (List Part) → Bool
  | [] => true
  | b :: bs => isVoid b && allVoid bs

end

mutual

/-- A part matches in front of a path, and the rest matches behind it. Empty alternatives beside
others do not count. -/
def Part.run : Part → (List UInt8 → Bool) → List UInt8 → Bool
  | .char c, rest, bs => afterBytes (charBytes c) rest bs
  | .anyInName, rest, bs => afterOne (· != slash) rest bs
  | .manyInName, rest, bs => after (· != slash) rest bs
  | .anyFront, rest, bs => rest bs || afterOne (· == slash) rest bs || afterSlash rest bs
  | .anyBelow, rest, bs => afterOne (· == slash) (after (fun _ => true) rest) bs
  | .anyBetween, rest, bs =>
    afterOne (· == slash) (fun bs => rest bs || afterSlash rest bs) bs
  | .oneOf negated ranges, rest, bs => afterOne (fun b => inRanges ranges b != negated) rest bs
  | .either branches, rest, bs =>
    if allVoid branches then rest bs else runAny branches rest bs

/-- Parts match one after the other in front of a path, and the rest behind them. -/
def run : List Part → (List UInt8 → Bool) → List UInt8 → Bool
  | [], rest, bs => rest bs
  | p :: ps, rest, bs => p.run (run ps rest) bs

/-- One of the alternatives that are not empty matches. -/
def runAny : List (List Part) → (List UInt8 → Bool) → List UInt8 → Bool
  | [], _, _ => false
  | b :: more, rest, bs => (!isVoid b && run b rest bs) || runAny more rest bs

end

/-- The parts stand for a whole path. Two stars alone stand for every path. -/
def matchesPath (parts : List Part) (path : String) : Bool :=
  match parts with
  | [.anyFront] => true
  | _ => run parts List.isEmpty path.toUTF8.toList

/-- One of several patterns stands for a path. -/
def anyMatches (patterns : List (List Part)) (path : String) : Bool :=
  patterns.any (matchesPath · path)

end DeclKit.Glob

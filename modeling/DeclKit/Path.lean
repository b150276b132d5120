/-
File paths, by their text alone.

A path is absolute when it starts with a slash. Its components are the names between slashes; empty
ones and single dots drop out, except a dot that a relative path starts with. Nothing here looks at a
file system, so `..` removes the name before it, whatever that name may link to.
-/
import DeclKit.Text.Offset

set_option autoImplicit false

namespace DeclKit.Path

/-! ## Components -/

/-- One step of a path. -/
inductive Component where
  | root
  | current
  | parent
  | name (text : String)
deriving DecidableEq, Repr

namespace Component

/-- The component as it is written. -/
def text : Component → String
  | root => "/"
  | current => "."
  | parent => ".."
  | name s => s

end Component

/-- The path starts at the root. -/
def isAbsolute (p : String) : Bool := p.toList.head? == some '/'

/-- Splits characters at slashes; there is always at least one piece. -/
def splitSlashes : List Char → List (List Char)
  | [] => [[]]
  | c :: cs =>
    if c == '/' then [] :: splitSlashes cs
    else match splitSlashes cs with
      | piece :: more => (c :: piece) :: more
      | [] => [[c]]

/-- The texts between the slashes of a path. -/
def segments (p : String) : List String := (splitSlashes p.toList).map String.ofList

/-- The component of a segment; empty segments and dots are none. -/
def ofSegment? (s : String) : Option Component :=
  if s == "" || s == "." then none else if s == ".." then some .parent else some (.name s)

/-- The components of a path. -/
def components (p : String) : List Component :=
  let front :=
    if isAbsolute p then [.root]
    else if (segments p).head? == some "." then [.current]
    else []
  front ++ (segments p).filterMap ofSegment?

/-- Two paths with the same components. -/
def same (a b : String) : Bool := components a == components b

/-- Writes components as a path. -/
def ofComponents : List Component → String
  | .root :: rest => "/" ++ "/".intercalate (rest.map Component.text)
  | cs => "/".intercalate (cs.map Component.text)

/-! ## Joining and normalizing -/

/-- A path taken from a base directory; an absolute one replaces the base. -/
def join (base p : String) : String :=
  if isAbsolute p || base == "" then p
  else if base.endsWith "/" then base ++ p
  else base ++ "/" ++ p

/-- One step of normalizing, on the components so far in reverse: a dot is dropped, and `..` takes
back the component before it unless there is none to take back. -/
def normalizeStep (out : List Component) : Component → List Component
  | .current => out
  | .parent =>
    match out with
    | [] | .root :: _ => .parent :: out
    | _ :: before => before
  | c => c :: out

/-- The components of a path without dots, and with `..` carried out. -/
def normalComponents (p : String) : List Component :=
  ((components p).foldl normalizeStep []).reverse

/-- The path without dots, and with `..` carried out. -/
def normalize (p : String) : String := ofComponents (normalComponents p)

/-- A path seen from a base directory, normalized. -/
def resolve (base p : String) : String := normalize (join base p)

/-! ## Parts of a path -/

/-- Drops trailing segments that are no components. -/
def trimSegments (segs : List String) : List String :=
  (segs.reverse.dropWhile fun s => s == "" || s == ".").reverse

/-- The path without its last component, otherwise as it was written; the root and the empty path
have none. -/
def parent? (p : String) : Option String :=
  let (front, body) : List String × List String :=
    match segments p with
    | "" :: body => if isAbsolute p then ([""], body) else ([], [""])
    | "." :: body => (["."], body)
    | body => ([], body)
  match (trimSegments body).reverse with
  | _ :: before =>
    let kept := trimSegments before.reverse
    match front, kept with
    | [""], [] => some "/"
    | _, _ => some ("/".intercalate (front ++ kept))
  | [] => if front == ["."] then some "" else none

/-- The last component, when it is a name. -/
def fileName? (p : String) : Option String :=
  match (components p).getLast? with
  | some (.name s) => some s
  | _ => none

/-! ## Relations between paths -/

/-- The components that two lists share at the front. -/
def sharedFront : List Component → List Component → List Component
  | a :: as, b :: bs => if a == b then a :: sharedFront as bs else []
  | _, _ => []

/-- The longest directory that holds every path: of one path its own directory as it is written. -/
def commonDirectory? (paths : List String) : Option String :=
  let directory (p : String) := (parent? p).getD p
  match paths with
  | [] => none
  | p :: rest =>
    some (rest.foldl (fun common q =>
      ofComponents (sharedFront (components common) (components (directory q)))) (directory p))

/-- The way from a directory to a path. -/
def relative (base target : String) : String :=
  let from_ := components base
  let goal := components target
  let shared := (sharedFront from_ goal).length
  "/".intercalate
    (List.replicate (from_.length - shared) ".." ++ (goal.drop shared).map Component.text)

/-- The path is the directory or lies below it. -/
def isUnder (p directory : String) : Bool :=
  (components directory).isPrefixOf (components p)

/-- Extensions that a module specifier leaves out, longest first where one ends another. -/
def moduleExtensions : List String :=
  [".d.ts", ".d.mts", ".d.cts", ".tsx", ".ts", ".mts", ".cts"]

/-- The module specifier by which a file in a directory imports a target: relative, without the
extension, and without a final `index`. -/
def moduleSpecifier (directory target : String) : String :=
  let rel := relative directory target
  let rel := ((moduleExtensions.findSome? (Text.stripSuffix? rel ·))).getD rel
  let rel := match Text.stripSuffix? rel "/index" with
    | some front => front
    | none => if rel == "index" then "." else rel
  if rel.startsWith "../" || rel == ".." || rel == "." then rel else "./" ++ rel

end DeclKit.Path

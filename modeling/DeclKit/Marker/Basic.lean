/-
Markers: comments by which an author steers how a type alias is written out, and what they do to a
declaration file.

A marker is a comment of its own, made of a namespace and the marker's name; a comment that says
anything else is no marker. A marked alias is found through what its references denote, so a marker
works wherever the alias is used. The type of a copied node is found again by the file and range it was
copied from.
-/
import DeclKit.Decl.Edit
import DeclKit.Text.RangeTable
import DeclKit.Typing.Render

set_option autoImplicit false

namespace DeclKit

/-- What a marker asks for. -/
inductive Marker where
  /-- Write the alias with its type fully worked out. -/
  | bake
  /-- The alias is opaque: references to it become `unknown`. -/
  | newtype
  /-- The alias is transparent: references to it become their first type argument. -/
  | unwrap
deriving DecidableEq, Repr

namespace Marker

/-- All markers. -/
def all : List Marker := [bake, newtype, unwrap]

/-- The name of a marker. -/
def name : Marker → String
  | bake => "bake"
  | newtype => "newtype"
  | unwrap => "unwrap"

/-- A comment with this text, blanks at its ends aside, is among the comments. -/
def isAmong (sentinel : String) (comments : List String) : Bool :=
  comments.any fun c => Text.trim c == sentinel

end Marker

/-- The namespace whose markers are obeyed. -/
structure MarkerSet where
  name : String := "fddtsc"
deriving DecidableEq, Repr

namespace MarkerSet

/-- The comment that a marker is written as. -/
def sentinel (s : MarkerSet) (m : Marker) : String := "//! " ++ s.name ++ "::" ++ m.name

/-- The comments carry a marker. -/
def marks (s : MarkerSet) (m : Marker) (comments : List String) : Bool :=
  Marker.isAmong (s.sentinel m) comments

end MarkerSet

/-! ## What markers do -/

namespace Marker

open Decl (TypeNode)

/-- The type that a copied node denotes. -/
def typeOf? (n : TypeNode) : Check (Option TypeId) := do
  match n.origin with
  | some ⟨some file, _, start, stop⟩ =>
    match (← Check.program).typeAt? file start stop with
    | some node => return some (← Operations.standard.typeOf file node)
    | none => return none
  | _ => return none

/-- The declarations of the alias that a reference leads through. -/
def aliasDeclarations (n : TypeNode) : Check (List Declaration) := do
  match n.form with
  | .reference .. =>
    match ← typeOf? n with
    | none => return []
    | some id =>
      match (← Check.table).alias? id with
      | none => return []
      | some a => return ((← Check.program).symbols.get a.symbol).declarationsOf .typeAliasDecl
  | _ => return []

/-- The comments in front of a declaration. -/
def commentsOf (p : Program) (d : Declaration) : List String :=
  Comment.leadingTexts (p.source d.file).text d.node.fullStart

/-- The comments in front of what has an origin; a rebuilt node stands in the given file. -/
def commentsAt (p : Program) (file : SourceId) : Option Decl.Origin → List String
  | none => []
  | some o => Comment.leadingTexts (p.source (o.source.getD file)).text o.fullStart

/-- What a reference through a marked alias becomes: `unknown`, or its first argument. -/
def replacement? (set : MarkerSet) (n : TypeNode) : Check (Option TypeNode) := do
  match n.form with
  | .reference _ args =>
    let p ← Check.program
    let comments := (← aliasDeclarations n).flatMap (commentsOf p)
    if set.marks .newtype comments then return some (.keyword .unknown)
    else if set.marks .unwrap comments then return some (args.head?.getD n)
    else return none
  | _ => return none

/-- How the body of a baked alias is written: in full, with all names reachable. -/
def bakeOptions : RenderOptions :=
  { noTruncation := true, inAlias := true, qualified := true, outsideAliases := true }

/-- An alias with its type written out; one whose type cannot be written stays as it is. -/
def bakeAlias (file : SourceId) (a : Decl.TypeAlias) : Check Decl.TypeAlias := do
  match ← typeOf? a.type with
  | none => return a
  | some id =>
    match ← Check.typeNode? bakeOptions file id with
    | some type => return { a with type }
    | none => return a

/-- The edit that the markers ask for in a file. -/
def editor (set : MarkerSet) (file : SourceId) : Decl.Editor Check where
  type := replacement? set
  typeAlias a := do
    let comments := commentsAt (← Check.program) file a.origin
    if set.marks .bake comments then return some (← bakeAlias file a) else return none

/-- A declaration file as the markers have it. -/
def edit (set : MarkerSet) (f : Decl.File) : Check Decl.File := (editor set f.source).file f

end Marker

end DeclKit

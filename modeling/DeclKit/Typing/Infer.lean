/-
Inference: which types make a target with `infer` parameters fit a source.
-/
import DeclKit.Typing.Members
import DeclKit.Typing.Shapes

set_option autoImplicit false

namespace DeclKit

namespace Inference

/-- An inference of some parameters, nothing found yet. -/
def start (params : List SymbolId) : Inference := params.map fun p => (p, {})

/-- The parameter is to be inferred. -/
def has (found : Inference) (p : SymbolId) : Bool := found.any (·.1 == p)

/-- Adds a type at the end of a list unless it is there. -/
def addOnce (ts : List TypeId) (t : TypeId) : List TypeId := if ts.contains t then ts else ts ++ [t]

/-- Adds a candidate for a parameter. -/
def add (found : Inference) (inward : Bool) (p : SymbolId) (t : TypeId) : Inference :=
  match found with
  | [] => []
  | (q, c) :: rest =>
    if q == p then
      (q, if inward then { c with contravariant := addOnce c.contravariant t }
        else { c with covariant := addOnce c.covariant t }) :: rest
    else (q, c) :: add rest inward p t

end Inference

namespace Typing

open Check

/-- Matches the pieces of a list one after the other. -/
def inferEach (ops : Operations) (inward : Bool) (pairs : List (TypeId × TypeId))
    (found : Inference) : Check Inference :=
  pairs.foldlM (fun found (s, t) => ops.infer inward s t found) found

/-- Both are instances of one interface, or both are tuples. -/
def sameStructure (t : TypeTable) (source target : TypeId) : Bool :=
  match t.kind source, t.kind target with
  | .interface a _, .interface b _ => a == b
  | .tuple .., .tuple .. => true
  | _, _ => false

/-- The first target that a source belongs to. -/
def matching? (ops : Operations) (source : TypeId) : List TypeId → Check (Option TypeId)
  | [] => return none
  | t :: ts => do
    if (← ops.assignable source t) == some true then return some t
    else if sameStructure (← table) source t then return some t
    else matching? ops source ts

/-- Matches the members of a source with those of a union; those that belong to none are given back
too. -/
def inferMembers (ops : Operations) (inward : Bool) (targets : List TypeId) :
    List TypeId → Inference → Check (Inference × List TypeId)
  | [], found => return (found, [])
  | s :: ss, found => do
    match ← matching? ops s targets with
    | some t => inferMembers ops inward targets ss (← ops.infer inward s t found)
    | none =>
      let (found, unmatched) ← inferMembers ops inward targets ss found
      return (found, s :: unmatched)

/-- Matches a source with a union. A single parameter among its members takes what matches no other
member. -/
def inferToUnion (ops : Operations) (inward : Bool) (source : TypeId) (targets : List TypeId)
    (found : Inference) : Check Inference := do
  let t ← table
  let isParam (id : TypeId) : Bool := match t.kind id with
    | .param p => found.has p
    | _ => false
  let naked := targets.filter isParam
  let others := targets.filter fun id => !isParam id
  let sources := match t.kind source with
    | .union members => members
    | _ => [source]
  let (found, unmatched) ← inferMembers ops inward others sources found
  match naked with
  | [param] =>
    if unmatched.isEmpty then return found
    else ops.infer inward (← union unmatched) param found
  | _ => inferEach ops inward (others.map fun o => (source, o)) found

/-- The types of tuple elements. -/
def elementTypes (elements : List TupleElement) : List TypeId := elements.map (·.type)

/-- Matches tuples: elements before and after one that can be repeated from both ends, and what lies
between with that one. -/
def inferTuple (ops : Operations) (inward : Bool) (sources targets : List TupleElement)
    (found : Inference) : Check Inference := do
  match targets.findIdx? fun e => !e.kind.isFixed with
  | none => inferEach ops inward ((elementTypes sources).zip (elementTypes targets)) found
  | some spread =>
    let after := targets.length - spread - 1
    if sources.length < spread + after then return found
    let tail := sources.length - after
    let types := elementTypes sources
    let wanted := elementTypes targets
    let found ← inferEach ops inward ((types.take spread).zip (wanted.take spread)) found
    let found ← inferEach ops inward ((types.drop tail).zip (wanted.drop (spread + 1))) found
    let middle := (sources.take tail).drop spread
    match targets[spread]? with
    | none => return found
    | some target =>
      if target.kind == .variadic then
        ops.infer inward (← intern (.tuple middle false)) target.type found
      else inferEach ops inward ((elementTypes middle).map fun s => (s, target.type)) found

/-- A signature with its own type parameters replaced by their constraints. -/
def baseSignature (ops : Operations) (s : Signature) : Check Signature := do
  if s.typeParams.isEmpty then return s
  let pairs ← s.typeParams.mapM fun p => return (p, (← constraint? ops p).getD .unknown)
  let base ← instantiateSignature ops (← makeMapper pairs) s
  return { base with typeParams := [] }

/-- Parameters as the elements of a tuple. -/
def paramElements (params : List SignatureParam) : Check (List TupleElement) :=
  params.mapM fun p => do
    let type ← if p.rest then pure ((← arrayElement? p.type).getD p.type) else pure p.type
    let kind : ElementKind := if p.rest then .rest else if p.optional then .optional else .required
    return ⟨type, kind, if p.name.isEmpty then none else some p.name⟩

/-- Matches parameters. A rest parameter takes all that are left as a tuple. -/
def inferParams (ops : Operations) (inward : Bool) :
    List SignatureParam → List SignatureParam → Inference → Check Inference
  | _, [], found => return found
  | sources, t :: ts, found =>
    if t.rest then do
      let tuple ← intern (.tuple (← paramElements sources) false)
      ops.infer (!inward) tuple t.type found
    else match sources with
      | s :: ss => do inferParams ops inward ss ts (← ops.infer (!inward) s.type t.type found)
      | [] => inferParams ops inward [] ts found

/-- Matches signatures: parameters the other way round. -/
def inferSignature (ops : Operations) (inward : Bool) (source target : Signature)
    (found : Inference) : Check Inference := do
  let found ← inferParams ops inward source.params target.params found
  ops.infer inward source.returns target.returns found

/-- Matches the last signature of a source with the first of a target. -/
def inferSignatures (ops : Operations) (inward : Bool) (sources targets : List Signature)
    (found : Inference) : Check Inference := do
  match sources.getLast?, targets.head? with
  | some s, some t => inferSignature ops inward (← baseSignature ops s) t found
  | _, _ => return found

/-- Matches member by member. -/
def inferFromMembers (ops : Operations) (inward : Bool) (source target : TypeId)
    (found : Inference) : Check Inference := do
  match ← ops.shape? target with
  | none => return found
  | some wanted =>
    let apparent ← ops.apparent source
    let found ← wanted.properties.foldlM (fun found p => do
      match ← ops.property? apparent p.name with
      | some q => ops.infer inward q.type p.type found
      | none => return found) found
    match ← ops.shape? apparent with
    | none => return found
    | some shape =>
      let found ← inferSignatures ops inward shape.calls wanted.calls found
      let found ← inferSignatures ops inward shape.constructs wanted.constructs found
      wanted.indexes.foldlM (fun found i => do
        match ← ops.index? apparent i.key with
        | some j => ops.infer inward j.type i.type found
        | none => return found) found

/-- The type that a piece of text gives for a type of a template: a number where a number is asked
for and the text reads as one. -/
def pieceType (ops : Operations) (piece : String) (target : TypeId) : Check TypeId := do
  let constraint ← match ← kind target with
    | .param symbol => constraint? ops symbol
    | _ => pure none
  let wantsNumber ← match constraint with
    | some c => pure ((← kind c) == .number)
    | none => pure false
  if wantsNumber && Text.isNumber piece then
    match Double.ofText? (Text.trim piece) with
    | some d => numberLiteral d
    | none => stringLiteral piece
  else stringLiteral piece

/-- Matches a string with a template. -/
def inferTemplate (ops : Operations) (inward : Bool) (text head : String)
    (spans : List (TypeId × String)) (found : Inference) : Check Inference := do
  match Template.matchText? text head spans with
  | none => return found
  | some pieces =>
    (pieces.zip (spans.map (·.1))).foldlM (fun found (piece, target) => do
      ops.infer inward (← pieceType ops piece target) target found) found

/-- Matches a source with an interface. -/
def inferInterface (ops : Operations) (inward : Bool) (source target : TypeId) (symbol : SymbolId)
    (args : List TypeId) (found : Inference) : Check Inference := do
  match ← kind source with
  | .interface sourceSymbol sourceArgs =>
    if sourceSymbol == symbol && sourceArgs.length == args.length then
      inferEach ops inward (sourceArgs.zip args) found
    else inferFromMembers ops inward source target found
  | .tuple elements _ =>
    match ← arrayElement? target, args.head? with
    | some _, some arg => ops.infer inward (← elementUnion ops elements) arg found
    | some _, none => return found
    | none, _ => inferFromMembers ops inward source target found
  | _ => inferFromMembers ops inward source target found

/-- Matches a source with a target. -/
def inferTypes (ops : Operations) (inward : Bool) (source target : TypeId) (found : Inference) :
    Check Inference := do
  match ← kind target with
  | .param symbol => return found.add inward symbol source
  | .union targets => inferToUnion ops inward source targets found
  | .intersection targets => inferEach ops inward (targets.map fun t => (source, t)) found
  | .template head spans =>
    match ← kind source with
    | .stringLiteral text => inferTemplate ops inward text head spans found
    | _ => return found
  | .tuple elements _ =>
    match ← kind source with
    | .tuple sources _ => inferTuple ops inward sources elements found
    | _ =>
      match ← arrayElement? source with
      | some element => inferEach ops inward (elements.map fun e => (element, e.type)) found
      | none => return found
  | .interface symbol args => inferInterface ops inward source target symbol args found
  | .written .. | .computed _ => inferFromMembers ops inward source target found
  | _ => return found

/-- Matches a source with a target, one level deeper. -/
def infer (ops : Operations) (inward : Bool) (source target : TypeId) (found : Inference) :
    Check Inference :=
  nested found (inferTypes ops inward source target found)

/-- What was inferred for a parameter: the union of what flows out, else the intersection of what
flows in. -/
def settle (ops : Operations) (c : Candidates) : Check (Option TypeId) := do
  if !c.covariant.isEmpty then return some (← union c.covariant)
  else if !c.contravariant.isEmpty then return some (← ops.intersection c.contravariant)
  else return none

/-- Types for parameters that make a target fit a source; `none` where nothing was found. -/
def inferAll (ops : Operations) (params : List SymbolId) (source target : TypeId) :
    Check (List (SymbolId × Option TypeId)) := do
  let found ← ops.infer false source target (Inference.start params)
  found.mapM fun (p, c) => return (p, ← settle ops c)

end Typing

end DeclKit

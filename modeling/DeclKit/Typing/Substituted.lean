/-
Types under a substitution.

Operators whose operands become known are worked out on the way.
-/
import DeclKit.Typing.Shapes

set_option autoImplicit false

namespace DeclKit.Typing

open Check

/-- One substitution after another: the results of the first under the second, and what only the
second puts in. -/
def compose (ops : Operations) (inner : Option MapperId) (outer : MapperId) :
    Check (Option MapperId) := do
  let pairs ← ((← table).mapper inner).mapM fun (s, t) => do
    return (s, ← ops.instantiate t (some outer))
  let more := ((← table).mapper (some outer)).filter fun (s, _) => !pairs.any (·.1 == s)
  makeMapper (pairs ++ more)

/-- A tuple under a substitution; what was not known to be a tuple may turn out to be one. -/
def instantiateTuple (ops : Operations) (m : MapperId) (elements : List TupleElement)
    (readonly : Bool) : Check TypeId := do
  let out ← elements.mapM fun e => do
    let type ← ops.instantiate e.type (some m)
    if e.kind == .variadic then spreadElements type e.name else return [{ e with type }]
  intern (.tuple out.flatten readonly)

/-- A kind of type under a substitution; `none` when the type stays as it is. -/
def instantiateKind? (ops : Operations) (m : MapperId) : TypeKind → Check (Option TypeId)
  | .union members => do union (← members.mapM map)
  | .intersection members => do ops.intersection (← members.mapM map)
  | .template head spans => do
    let spans ← spans.mapM fun (t, s) => return (← map t, s)
    template head spans
  | .lettered f t => do lettered f (← map t)
  | .interface symbol args =>
    if args.isEmpty then return none else do intern (.interface symbol (← args.mapM map))
  | .tuple elements readonly => instantiateTuple ops m elements readonly
  | .written decl inner => do written decl (← compose ops inner m)
  | .computed s => do objectOf (← instantiateShape ops (some m) ((← table).shape s))
  | .keys t => do ops.keysOf (← map t)
  | .access object index => do
    let object ← map object
    let index ← map index
    ops.accessOrError object index
  | .conditional decl inner => do ops.conditional decl (← compose ops inner m)
  | .mapped decl inner => do ops.mapped decl (← compose ops inner m)
  | _ => return none
where
  /-- A part under the substitution. -/
  map (t : TypeId) : Check TypeId := ops.instantiate t (some m)

/-- What a type has become, if it does not stay. A name that the type has goes along with its
arguments. -/
def renamed (ops : Operations) (t : TypeTable) (id : TypeId) (m : MapperId) :
    Option TypeId → Check TypeId
  | none => return id
  | some result => match t.alias? id with
    | none => return result
    | some a => do
      let args ← a.args.mapM fun arg => ops.instantiate arg (some m)
      attachAlias result ⟨a.symbol, args⟩

/-- A type of the table, which cannot be looked into if it is not there. -/
def present (t : TypeTable) (id : TypeId) : Check TypeId :=
  if t.has id then return id else giveUp .error

/-- A type in the table under a substitution in the table. -/
def substitutedIn (ops : Operations) (t : TypeTable) (id : TypeId) (m : MapperId) : Check TypeId :=
  match t.kind id with
  | .param symbol => present t ((t.substitute? (some m) symbol).getD id)
  | k => do renamed ops t id m (← instantiateKind? ops m k)

/-- A type under a substitution, looked at for the first time. -/
def substituted (ops : Operations) (id : TypeId) (m : MapperId) : Check TypeId := do
  let t ← table
  if t.has id && t.hasMapper m then substitutedIn ops t id m else giveUp .error

end DeclKit.Typing

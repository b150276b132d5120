/-
Mapped types and conditional types.

A mapped type over the keys of a type parameter goes through unions member by member, leaves primitive
types as they are, and maps arrays and tuples to arrays and tuples; in all other cases each key gives
members of an object type.

A conditional type whose checked type is a bare type parameter goes through unions member by member.
It waits while what it compares mentions type parameters; then the true branch is taken when the
checked type is assignable for certain, and the false branch otherwise.
-/
import DeclKit.Typing.Infer
import DeclKit.Typing.Operators

set_option autoImplicit false

namespace DeclKit.Typing

open Check

/-! ## Mapped types -/

/-- The type whose keys a mapped type runs through, if it is written so. -/
def MappedParts.keysOperand? (parts : MappedParts) : Option Node :=
  (parts.constraint.filter fun n => n.kind == .typeOperator && n.leadingText == "keyof").bind
    Node.type?

/-- A modifier over what is inherited. -/
def modified (modifier : Option MappedModifier) (inherited : Bool) : Bool :=
  match modifier with
  | some .add => true
  | some .remove => false
  | none => inherited

/-- A member's type without `undefined` when members are made to be there. -/
def adjusted (parts : MappedParts) (id : TypeId) : Check TypeId := do
  if parts.optional != some .remove || !(← nullChecks) then return id
  match ← kind id with
  | .union members => union (members.filter (· != .undefined))
  | .undefined => return .never
  | _ => return id

/-- The members of a union, or the type itself. -/
def membersOf (id : TypeId) : Check (List TypeId) := do
  match ← kind id with
  | .union members => return members
  | _ => return [id]

/-- The keys in a type of keys. -/
def separateKeys (id : TypeId) : Check (List TypeId) := do
  match ← kind id with
  | .union members => return members
  | .never => return []
  | _ => return [id]

/-- Adds the members that a mapped type has under one name. -/
def addNamed (parts : MappedParts) (optional readonly : Bool) (template : TypeId) (s : Shape)
    (name : TypeId) : Check Shape := do
  let k ← kind name
  let text? := match k with
    | .stringLiteral text => some (text, false)
    | .numberLiteral d => some (d.text, true)
    | _ => none
  match text? with
  | some (text, numeric) =>
    if (s.property? text).isSome then return s
    let type ← adjusted parts template
    let type ← if optional then withUndefined type else pure type
    return s.addProperty { name := text, type, optional, readonly, numeric }
  | none =>
    match k with
    | .string | .number | .symbol | .template .. => return s.addIndex ⟨name, template, readonly⟩
    | _ => return s

/-- What a mapped member takes over from the member it is made of. -/
structure Inherited where
  optional : Bool := false
  readonly : Bool := false

/-- Adds the members that a mapped type has for one key. -/
def addKey (ops : Operations) (parts : MappedParts) (m : Option MapperId) (s : Shape) (key : TypeId)
    (inherited : Inherited) : Check Shape := do
  let keyMapper ← extendMapper m parts.key key
  let name ← match parts.nameType with
    | some n => ops.instantiate (← ops.typeOf parts.file n) keyMapper
    | none => pure key
  let optional := modified parts.optional inherited.optional
  let readonly := modified parts.readonly inherited.readonly
  let template ← mappedTemplate ops parts m key
  (← membersOf name).foldlM (addNamed parts optional readonly template) s

/-- What the member of a type under a key hands on. -/
def inheritedFrom (ops : Operations) (source key : TypeId) : Check Inherited := do
  let ofProperty (p : Option Property) : Inherited :=
    (p.map fun p => { optional := p.optional, readonly := p.readonly }).getD {}
  match ← kind key with
  | .stringLiteral name => return ofProperty (← ops.property? source name)
  | .numberLiteral d => return ofProperty (← ops.property? source d.text)
  | _ => return ((← ops.index? source key).map fun i => { readonly := i.readonly }).getD {}

/-- A mapped type over the keys of a known type. -/
def mapMembers (ops : Operations) (parts : MappedParts) (m : Option MapperId) (source : TypeId) :
    Check TypeId := do
  if source == .any then
    let s ← [.string, .number, .symbol].foldlM
      (fun (s : Shape) key => addKey ops parts m s key {}) {}
    objectOf s
  else
    let keys ← separateKeys (← ops.keysOf source)
    let s ← keys.foldlM (fun (s : Shape) key => do
      addKey ops parts m s key (← inheritedFrom ops source key)) {}
    objectOf s

/-- A mapped type over a tuple. -/
def mapTuple (ops : Operations) (parts : MappedParts) (m : Option MapperId)
    (elements : List TupleElement) (readonly : Bool) : Check TypeId := do
  let mapped ← elements.zipIdx.mapM fun (e, i) => do
    let key ← if e.kind.isFixed then stringLiteral (Text.radixDigits 10 i) else pure .number
    let type ← adjusted parts (← mappedTemplate ops parts m key)
    let kind : ElementKind := match e.kind, parts.optional with
      | .required, some .add => .optional
      | .optional, some .remove => .required
      | k, _ => k
    return ⟨type, kind, e.name⟩
  intern (.tuple mapped (modified parts.readonly readonly))

/-- A mapped type over the keys of a type parameter, when what stands for the parameter is mapped as
a whole. -/
def mapWhole? (ops : Operations) (parts : MappedParts) (decl : NodeKey) (m : Option MapperId)
    (param : SymbolId) (source : TypeId) : Check (Option TypeId) := do
  match ← kind source with
  | .union members =>
    let results ← members.mapM fun t => do ops.mapped decl (← extendMapper m param t)
    return some (← union results)
  | k =>
    if (← table).isPrimitive source then return some source
    else if ← isDeferred source then return some (← intern (.mapped decl m))
    else match ← arrayElement? source with
      | some _ =>
        let readonly := modified parts.readonly (← isReadonlyArray source)
        let element ← adjusted parts (← mappedTemplate ops parts m .number)
        return some (← arrayType element readonly)
      | none =>
        match k with
        | .tuple elements readonly => return some (← mapTuple ops parts m elements readonly)
        | _ => return none

/-- A mapped type over the keys of a type. -/
def mapKeysOf (ops : Operations) (parts : MappedParts) (decl : NodeKey) (m : Option MapperId)
    (operand : Node) : Check TypeId := do
  let source ← ops.instantiate (← ops.typeOf parts.file operand) m
  let whole ← match (← program).nakedParam? parts.file operand with
    | some param => mapWhole? ops parts decl m param source
    | none => pure none
  match whole with
  | some t => return t
  | none =>
    if ← isDeferred source then intern (.mapped decl m)
    else mapMembers ops parts m source

/-- A mapped type under a substitution, looked at for the first time. -/
def findMapped (ops : Operations) (decl : NodeKey) (m : Option MapperId) : Check TypeId := do
  match mappedParts? (← program) decl with
  | none => return .error
  | some parts =>
    match parts.keysOperand? with
    | some operand => mapKeysOf ops parts decl m operand
    | none =>
      let constraint ← ops.instantiate (← ops.typeOf? parts.file parts.constraint) m
      if ← isDeferred constraint then intern (.mapped decl m)
      else
        let s ← (← separateKeys constraint).foldlM
          (fun (s : Shape) key => addKey ops parts m s key {}) {}
        objectOf s

/-- Remembers what a conditional or mapped type gives under a substitution. -/
def evaluated (find : NodeKey → Option MapperId → Check TypeId) (decl : NodeKey)
    (m : Option MapperId) : Check TypeId := do
  let m ← restrictMapper decl m
  match (← state).evaluations[(decl, m)]? with
  | some t => return t
  | none =>
    let t ← nested .error (find decl m)
    update fun c => { c with evaluations := c.evaluations.insert (decl, m) t }
    return t

/-- A mapped type under a substitution. -/
def mapped (ops : Operations) : NodeKey → Option MapperId → Check TypeId :=
  evaluated (findMapped ops)

/-! ## Parts of a mapped type that waits -/

/-- A mapped type that waits, its parts under its substitution. -/
structure MappedView where
  key : SymbolId
  constraint : TypeId
  nameType : Option TypeId
  template : Option TypeId
  readonly : Option MappedModifier
  optional : Option MappedModifier

/-- The parts of a mapped type that waits. -/
def mappedView? (ops : Operations) (decl : NodeKey) (m : Option MapperId) :
    Check (Option MappedView) := do
  match mappedParts? (← program) decl with
  | none => return none
  | some parts =>
    let type (n : Node) : Check TypeId := do ops.instantiate (← ops.typeOf parts.file n) m
    let constraint ← ops.instantiate (← ops.typeOf? parts.file parts.constraint) m
    let nameType ← parts.nameType.mapM type
    let template ← parts.template.mapM type
    return some { key := parts.key, constraint, nameType, template, readonly := parts.readonly
                  optional := parts.optional }

/-! ## Conditional types -/

/-- A conditional type by member of the union that stands for its checked type parameter. -/
def distributed? (ops : Operations) (decl : NodeKey) (m : Option MapperId) (n : Node) :
    Check (Option TypeId) := do
  let p ← program
  match (n.typeAt? 0).bind (p.nakedParam? decl.file) with
  | none => return none
  | some param =>
    let t ← table
    match (t.substitute? m param).map t.kind with
    | some (.union members) =>
      let results ← members.mapM fun member => do
        ops.conditional decl (← extendMapper m param member)
      return some (← union results)
    | some .never => return some .never
    | _ => return none

/-- The substitution with what is inferred for the `infer` parameters: what was found, or the
constraint, or `unknown`. -/
def inferredMapper (ops : Operations) (m : Option MapperId) (params : List SymbolId)
    (check clause : TypeId) : Check (Option MapperId) := do
  if params.isEmpty then return m
  let target ← ops.instantiate clause m
  let inferred ← inferAll ops params check target
  inferred.foldlM (fun m (param, found) => do
    let t ← match found with
      | some t => pure t
      | none => pure ((← constraint? ops param).getD .unknown)
    extendMapper m param t) m

/-- A conditional type under a substitution, looked at for the first time. -/
def findConditional (ops : Operations) (decl : NodeKey) (m : Option MapperId) : Check TypeId := do
  match ((← program).node? decl).filter (·.kind == .conditionalType) with
  | none => return .error
  | some n =>
    let file := decl.file
    match ← distributed? ops decl m n with
    | some t => return t
    | none =>
      let check ← ops.instantiate (← ops.typeOf? file (n.typeAt? 0)) m
      if ← isGeneric check then intern (.conditional decl m)
      else
        let clause ← ops.typeOf? file (n.typeAt? 1)
        let combined ← inferredMapper ops m ((← program).inferParams file n) check clause
        let extended ← ops.instantiate clause combined
        let whenTrue : Check TypeId := do
          ops.instantiate (← ops.typeOf? file (n.typeAt? 2)) combined
        let whenFalse : Check TypeId := do
          ops.instantiate (← ops.typeOf? file (n.typeAt? 3)) m
        if ← isGeneric extended then intern (.conditional decl m)
        else if check == .any || check == .error then
          if extended == .any || extended == .unknown then whenTrue
          else
            let a ← whenTrue
            let b ← whenFalse
            union [a, b]
        else if (← ops.assignable check extended) == some true then whenTrue
        else whenFalse

/-- A conditional type under a substitution. -/
def conditional (ops : Operations) : NodeKey → Option MapperId → Check TypeId :=
  evaluated (findConditional ops)

/-- A conditional type that waits, its parts under its substitution. -/
structure ConditionalView where
  check : TypeId
  extended : TypeId
  whenTrue : TypeId
  whenFalse : TypeId
  params : List SymbolId

/-- The parts of a conditional type that waits. -/
def conditionalView? (ops : Operations) (decl : NodeKey) (m : Option MapperId) :
    Check (Option ConditionalView) := do
  match ((← program).node? decl).filter (·.kind == .conditionalType) with
  | none => return none
  | some n =>
    let part (i : Nat) : Check TypeId := do ops.instantiate (← ops.typeOf? decl.file (n.typeAt? i)) m
    let check ← part 0
    let extended ← part 1
    let whenTrue ← part 2
    let whenFalse ← part 3
    return some { check, extended, whenTrue, whenFalse
                  params := (← program).inferParams decl.file n }

end DeclKit.Typing

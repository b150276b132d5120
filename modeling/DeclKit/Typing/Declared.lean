/-
Declared types: type parameters, references, aliases and arrays.
-/
import DeclKit.Typing.Operations

set_option autoImplicit false

namespace DeclKit.Typing

open Check

/-! ## Type parameters -/

/-- The constraint of a type parameter; that of a mapped type's key is the type it runs through. -/
def constraint? (ops : Operations) (param : SymbolId) : Check (Option TypeId) := do
  match ((← program).symbols.get param).declarations[0]? with
  | none => return none
  | some d =>
    let node? := match d.kind with
      | .mappedTypeParam => d.node.type?
      | .typeParam => d.node.constraint?
      | _ => none
    node?.mapM (ops.typeOf d.file)

/-- The default of a type parameter. -/
def default? (ops : Operations) (param : SymbolId) : Check (Option TypeId) := do
  match ((← program).symbols.get param).declarations[0]? with
  | none => return none
  | some d =>
    let node? := if d.kind == .typeParam then d.node.default? else none
    node?.mapM (ops.typeOf d.file)

/-- The number of parameters without a default. -/
def requiredCount (ops : Operations) (params : List SymbolId) : Check Nat := do
  let defaults ← params.mapM (default? ops)
  return (defaults.filter Option.isNone).length

/-- Type arguments with the missing ones filled in: from defaults, which see the arguments before
them, or `unknown`. -/
def fillArguments (ops : Operations) (before : List (SymbolId × TypeId)) :
    List SymbolId → List TypeId → Check (List TypeId)
  | [], _ => return []
  | p :: ps, t :: ts => do
    let rest ← fillArguments ops (before ++ [(p, t)]) ps ts
    return t :: rest
  | p :: ps, [] => do
    let t ← match ← default? ops p with
      | some d => ops.instantiate d (← makeMapper before)
      | none => pure .unknown
    let rest ← fillArguments ops (before ++ [(p, t)]) ps []
    return t :: rest

/-! ## Aliases -/

mutual

/-- An alias with such a body names the type that it stands for; references and keywords keep the
name that they have, and parentheses count as what they hold. -/
def namesAlias : Tree → Bool
  | .token _ => false
  | .node k s e cs =>
    match k with
    | .parenType => firstNamesAlias cs
    | .typeOperator => (Node.mk (.node k s e cs) []).leadingText == "keyof"
    | .unionType | .intersectionType | .objectType | .functionType | .constructorType | .mappedType
    | .conditionalType | .indexedAccessType => true
    | _ => false

/-- The first type among several trees would be named. -/
def firstNamesAlias : List Tree → Bool
  | [] => false
  | t :: ts => if (Node.mk t []).isType then namesAlias t else firstNamesAlias ts

end

/-- The type that an alias stands for, with its parameters free. -/
def aliasBody (ops : Operations) (symbol : SymbolId) : Check TypeId := do
  let p ← program
  let s := p.symbols.get symbol
  match s.declarationsOf .typeAliasDecl with
  | [] => return .error
  | d :: _ =>
    match d.node.type? with
    | none => return .error
    | some body =>
      let params := p.typeParamsOf d.file d.node
      if body.kind == .keywordType && body.leadingText == "intrinsic" then
        let map := if (p.source d.file).isDefaultLib then LetterMap.ofName? s.name else none
        match map, params with
        | some m, param :: _ => do
          let inner ← intern (.param param)
          lettered m inner
        | _, _ => return .error
      else
        let t ← ops.typeOf d.file body
        if namesAlias body.tree then
          let args ← params.mapM fun q => intern (.param q)
          attachAlias t ⟨symbol, args⟩
        else return t

/-- Sets how far an alias has been looked into. -/
def setAlias (symbol : SymbolId) (state : AliasState) : Check Unit :=
  update fun c => { c with aliases := c.aliases.insert symbol state }

/-- The type of an alias. One that leads back to itself is reported and is an error. -/
def aliasType (ops : Operations) (symbol : SymbolId) : Check TypeId := do
  match (← state).aliases[symbol]? with
  | some (.resolved t) => return t
  | some (.resolving _) =>
    setAlias symbol (.resolving true)
    return .error
  | none =>
    setAlias symbol (.resolving false)
    let t ← aliasBody ops symbol
    let circular := match (← state).aliases[symbol]? with
      | some (.resolving c) => c
      | _ => false
    let t ← if circular then do
        let s := (← program).symbols.get symbol
        if let d :: _ := s.declarationsOf .typeAliasDecl then
          let name := d.nameNode
          report .circularAlias ⟨d.file, name.start, name.stop⟩ [s.name]
        pure TypeId.error
      else pure t
    setAlias symbol (.resolved t)
    return t

/-- An alias with its arguments. -/
def aliasReference (ops : Operations) (symbol : SymbolId) (params : List SymbolId)
    (args : List TypeId) : Check TypeId := do
  let declared ← aliasType ops symbol
  if params.isEmpty then return declared
  let t ← ops.instantiate declared (← makeMapper (params.zip args))
  attachAlias t ⟨symbol, args⟩

/-- A type parameter, alias or interface with its arguments. -/
def symbolReference (ops : Operations) (symbol : SymbolId) (args : List TypeId) : Check TypeId := do
  let p ← program
  let meaning := (p.symbols.get symbol).meaning
  if meaning.typeParameter then intern (.param symbol)
  else
    let params := p.declaredParams symbol
    let required ← requiredCount ops params
    if params.length < args.length || args.length < required then return .error
    else
      let args ← fillArguments ops [] params args
      if meaning.typeAlias then aliasReference ops symbol params args
      else if meaning.interface then intern (.interface symbol args)
      else return .error

/-! ## Arrays -/

/-- The name of the interface of arrays. -/
def arrayName (readonly : Bool) : String := if readonly then "ReadonlyArray" else "Array"

/-- An array type. -/
def arrayType (element : TypeId) (readonly : Bool) : Check TypeId := do
  match (← program).globalType? (arrayName readonly) with
  | some symbol => intern (.interface symbol [element])
  | none => return .error

/-- The element type of an array. -/
def arrayElement? (id : TypeId) : Check (Option TypeId) := do
  match ← kind id with
  | .interface symbol args =>
    let p ← program
    if p.globalType? (arrayName false) == some symbol || p.globalType? (arrayName true) == some symbol
    then return args.head? else return none
  | _ => return none

/-- The type is a readonly array. -/
def isReadonlyArray (id : TypeId) : Check Bool := do
  match ← kind id with
  | .interface symbol _ => return (← program).globalType? (arrayName true) == some symbol
  | _ => return false

/-- The elements that `...type` adds to a tuple. -/
def spreadElements (id : TypeId) (name : Option String) : Check (List TupleElement) := do
  match ← kind id with
  | .tuple elements _ => return elements
  | _ =>
    match ← arrayElement? id with
    | some element => return [⟨element, .rest, name⟩]
    | none => return [⟨id, if ← isGeneric id then .variadic else .rest, name⟩]

end DeclKit.Typing

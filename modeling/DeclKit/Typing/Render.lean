/-
Types as declarations write them.

Named types are referred to by the shortest name that reaches them, all else is spelled out. Long
output is cut, members in the middle first. A type cannot be written when it nests too deep, when an
`infer` parameter stands outside its conditional type, or when a named type cannot be reached.
-/
import DeclKit.Decl.Print
import DeclKit.Text.PropertyName
import DeclKit.Typing.Level
import DeclKit.Typing.Spelling

set_option autoImplicit false

namespace DeclKit

/-! ## Escapes -/

namespace Text

/-- Characters of a template as they are written between backquotes. -/
def escapeTemplateChars : List Char → List Char
  | [] => []
  | c :: cs =>
    let rest := escapeTemplateChars cs
    if c == (Char.ofNat 96) then '\\' :: c :: rest
    else if c == '\\' then '\\' :: '\\' :: rest
    else if c == '$' && cs.head? == some '{' then '\\' :: '$' :: rest
    else if c == '\n' then '\\' :: 'n' :: rest
    else if c == '\r' then '\\' :: 'r' :: rest
    else if c == '\t' then '\\' :: 't' :: rest
    else if c.toNat < 0x20 then ("\\u" ++ hex4 c.toNat).toList ++ rest
    else c :: rest

/-- A text of a template as it is written between backquotes. -/
def escapeTemplate (s : String) : String := String.ofList (escapeTemplateChars s.toList)

end Text

/-! ## State -/

/-- How types are written. -/
structure RenderOptions where
  /-- Nothing is cut, however long the output. -/
  noTruncation : Bool := false
  /-- The type is the body of an alias, so its own name is opened. -/
  inAlias : Bool := false
  /-- Types that no name reaches are written as import types. -/
  qualified : Bool := false
  /-- Aliases that no name reaches are referred to all the same. -/
  outsideAliases : Bool := false
deriving DecidableEq, Repr, Inhabited

/-- What rendering reads: the options and the file that is written for. -/
structure RenderSetting where
  options : RenderOptions
  file : SourceId

/-- What rendering remembers. -/
structure RenderState where
  inAlias : Bool
  /-- Roughly how much has been written. -/
  length : Nat := 0
  truncating : Bool := false
  /-- The object types that are being spelled out. -/
  visiting : List TypeId := []
  /-- The `infer` parameters of the `extends` clause that is being written. -/
  inferring : List SymbolId := []
  /-- The `infer` parameters that can be referred to. -/
  visible : List SymbolId := []

/-- A step of rendering, which fails when the type cannot be written. -/
abbrev Render := ReaderT RenderSetting (StateT RenderState (OptionT Check))

namespace Render

/-- Writes a type. -/
abbrev Writer := TypeId → Render Decl.TypeNode

/-- A step of the check. -/
def ask {α : Type} (step : Check α) : Render α := liftM (m := OptionT Check) (OptionT.lift step)

/-- A step of the check that may fail. -/
def askSome {α : Type} (step : Check (Option α)) : Render α := liftM (m := OptionT Check) (OptionT.mk step)

/-- Counts what is written. -/
def grow (n : Nat) : Render Unit := modify fun s => { s with length := s.length + n }

/-- How long the output may become. -/
def limit (o : RenderOptions) : Nat := if o.noTruncation then 1000000 else 160

/-- The output has become too long, now or before. -/
def truncated : Render Bool := do
  let o := (← read).options
  modify fun s => { s with truncating := s.truncating || limit o < s.length }
  return (← get).truncating

/-! ## Parts -/

/-- A keyword. -/
def keyword (k : Decl.Keyword) : Render Decl.TypeNode := do
  grow k.text.utf8ByteSize
  return .keyword k

/-- A literal. -/
def literal (n : Decl.TypeNode) : Render Decl.TypeNode := do
  if let .literal text := n.form then grow text.utf8ByteSize
  return n

/-- How a symbol is written here. -/
def spelling? (symbol : SymbolId) (use : NameUse) (qualified : Bool) : Render (Option Spelling) := do
  let s ← read
  return (← ask Check.program).spelling? symbol use s.file (qualified && s.options.qualified)

/-- Writes types in order; once the output is too long, those in the middle are counted only. -/
def list (write : Writer) (total : Nat) (last : Option TypeId) :
    Nat → List TypeId → Render (List Decl.TypeNode)
  | _, [] => return []
  | i, t :: ts => do
    let cut ← truncated
    match last with
    | some final =>
      if cut && i + 2 < total - 1 then
        let elided := "... " ++ toString (total - i) ++ " more ..."
        grow elided.utf8ByteSize
        let node ← write final
        return [.reference [elided] [], node]
      else
        grow 2
        let node ← write t
        return node :: (← list write total last (i + 1) ts)
    | none => return []

/-- Writes types in order. -/
def types (write : Writer) (ts : List TypeId) : Render (List Decl.TypeNode) :=
  list write ts.length ts.getLast? 0 ts

/-- A type that may be missing. -/
def optional (write : Writer) : Option TypeId → Render (Option Decl.TypeNode)
  | some t => return some (← write t)
  | none => return none

/-- The constraint of a type parameter. -/
def constraint (write : Writer) (p : SymbolId) : Render (Option Decl.TypeNode) := do
  optional write (← ask (Typing.constraint? .standard p))

/-- A type parameter as it is declared. -/
def typeParam (write : Writer) (p : SymbolId) : Render (Decl.TypeParam Decl.TypeNode) := do
  let name := ((← ask Check.program).symbols.get p).name
  grow name.utf8ByteSize
  let c ← constraint write p
  let d ← optional write (← ask (Typing.default? .standard p))
  return { name, constraint := c, default := d }

/-- A parameter. -/
def param (write : Writer) (p : SignatureParam) : Render (Decl.Param Decl.TypeNode) := do
  grow (p.name.utf8ByteSize + 2)
  let type ← write p.type
  return { rest := p.rest, name := p.name, optional := p.optional, type := some type }

/-- A signature. -/
def signature (write : Writer) (s : Signature) : Render (Decl.Signature Decl.TypeNode) := do
  let typeParams ← s.typeParams.mapM (typeParam write)
  let params ← s.params.mapM (param write)
  grow 4
  let returns ← write s.returns
  return { typeParams, params, returns := some returns }

/-! ## Object types -/

/-- The members that a property gives: one, or one for each signature of a method. -/
def property (write : Writer) (p : Property) : Render (List (Decl.Member Decl.TypeNode)) := do
  let name := Text.propertyName p.name
  grow (name.utf8ByteSize + 1)
  let calls ← if p.isMethod then
      pure (((← ask (Operations.standard.shape? p.type)).map (·.calls)).getD [])
    else pure []
  if calls.isEmpty then
    if p.readonly then grow 9
    let type ← write p.type
    return [.property none p.readonly name p.optional (some type)]
  else calls.mapM fun s => return .method none name p.optional (← signature write s)

/-- Properties in order; once the output is too long, those in the middle are counted only. -/
def properties (write : Writer) (total : Nat) (last : Option Property) :
    Nat → List Property → Render (List (Decl.Member Decl.TypeNode))
  | _, [] => return []
  | i, p :: ps => do
    let cut ← truncated
    match last with
    | some final =>
      if cut && i + 2 < total - 1 then
        let elided := "... " ++ toString (total - i) ++ " more ..."
        let members ← property write final
        return .property none false elided false none :: members
      else
        let members ← property write p
        return members ++ (← properties write total last (i + 1) ps)
    | none => return []

/-- An index signature. -/
def indexSignature (write : Writer) (i : IndexInfo) : Render (Decl.Member Decl.TypeNode) := do
  grow 5
  let key ← write i.key
  let type ← write i.type
  return .index none i.readonly "x" key type

/-- All members of a shape in braces. -/
def members (write : Writer) (s : Shape) : Render Decl.TypeNode := do
  grow 2
  let calls ← s.calls.mapM fun c => return .call none (← signature write c)
  let constructs ← s.constructs.mapM fun c => do
    grow 4
    return .construct none (← signature write c)
  let indexes ← s.indexes.mapM (indexSignature write)
  let props ← properties write s.properties.length s.properties.getLast? 0 s.properties
  return .object (calls ++ constructs ++ indexes ++ props)

/-- A shape: a function or constructor type when it is one signature and nothing else. -/
def shape (write : Writer) (s : Shape) : Render Decl.TypeNode := do
  if !s.properties.isEmpty || !s.indexes.isEmpty then members write s
  else match s.calls, s.constructs with
    | [c], [] => return .function (← signature write c)
    | [], [c] => do
      grow 4
      return .constructor false (← signature write c)
    | _, _ => members write s

/-- An object type. One that is being spelled out already is cut. -/
def object (write : Writer) (id : TypeId) : Render Decl.TypeNode := do
  if (← get).visiting.contains id then
    grow 3
    if (← read).options.noTruncation then return .keyword .any else return .reference ["..."] []
  else match ← ask (Operations.standard.shape? id) with
    | none => keyword .any
    | some s =>
      let outer := (← get).visiting
      modify fun r => { r with visiting := id :: outer }
      let node ← shape write s
      modify fun r => { r with visiting := outer }
      return node

/-! ## Named types -/

/-- A symbol is an `infer` parameter. -/
def isInferParam (p : Program) (symbol : SymbolId) : Bool :=
  ((p.symbols.get symbol).declarations[0]?.bind (·.node.parent?)).any (·.kind == .inferType)

/-- A type parameter: its declaration in the `extends` clause of its conditional type, a reference
elsewhere. -/
def paramNode (write : Writer) (symbol : SymbolId) : Render Decl.TypeNode := do
  let p ← ask Check.program
  let name := (p.symbols.get symbol).name
  grow name.utf8ByteSize
  let s ← get
  if s.inferring.contains symbol then
    grow 6
    return .infer name (← constraint write symbol)
  else if isInferParam p symbol && !s.visible.contains symbol then failure
  else return .reference [name] []

/-- An instance of an interface, arrays with brackets. -/
def interfaceNode (write : Writer) (id : TypeId) (symbol : SymbolId) (args : List TypeId) :
    Render Decl.TypeNode := do
  match ← ask (Typing.arrayElement? id) with
  | some element =>
    grow 2
    let array := Decl.TypeNode.array (← write element)
    if ← ask (Typing.isReadonlyArray id) then
      grow 9
      return .operator .readonly array
    else return array
  | none =>
    match ← spelling? symbol .type true with
    | none => failure
    | some s =>
      grow s.length
      return s.reference (← types write args)

/-- A function by its name, or spelled out. -/
def functionNode (write : Writer) (id : TypeId) (symbol : SymbolId) : Render Decl.TypeNode := do
  match ← spelling? symbol .value false with
  | some (.reached name) =>
    grow (Text.totalBytes name + 7)
    return .query name []
  | _ => object write id

/-! ## Types that wait -/

/-- A conditional type. Its `infer` parameters can be referred to up to the end of the true branch. -/
def conditionalNode (write : Writer) (decl : NodeKey) (m : Option MapperId) :
    Render Decl.TypeNode := do
  let view ← askSome (Typing.conditionalView? .standard decl m)
  let check ← write view.check
  grow 9
  let outer ← get
  modify fun s => { s with inferring := view.params, visible := s.visible ++ view.params }
  let extended ← write view.extended
  modify fun s => { s with inferring := outer.inferring }
  grow 3
  let whenTrue ← write view.whenTrue
  modify fun s => { s with visible := outer.visible }
  grow 3
  let whenFalse ← write view.whenFalse
  return .conditional check extended whenTrue whenFalse

/-- The sign of a modifier; an added one is written bare. -/
def sign : MappedModifier → Decl.Sign
  | .add => .plain
  | .remove => .remove

/-- A mapped type. -/
def mappedNode (write : Writer) (decl : NodeKey) (m : Option MapperId) : Render Decl.TypeNode := do
  let view ← askSome (Typing.mappedView? .standard decl m)
  let name := ((← ask Check.program).symbols.get view.key).name
  grow (name.utf8ByteSize + 10)
  let constraint ← write view.constraint
  let nameType ← optional write view.nameType
  let type ← optional write view.template
  return .mapped { readonly := view.readonly.map sign, param := name, constraint, nameType
                   optional := view.optional.map sign, type }

/-! ## Types -/

/-- An element of a tuple. -/
def tupleItem (write : Writer) (e : TupleElement) : Render (Decl.TupleItem Decl.TypeNode) := do
  grow 2
  let type ← write e.type
  return match e.kind with
    | .required => ⟨.required, e.name, type⟩
    | .optional => ⟨.optional, e.name, type⟩
    | .rest => ⟨.rest, e.name, .array type⟩
    | .variadic => ⟨.rest, e.name, type⟩

/-- A tuple. -/
def tupleNode (write : Writer) (elements : List TupleElement) (readonly : Bool) :
    Render Decl.TypeNode := do
  let tuple := Decl.TypeNode.tuple (← elements.mapM (tupleItem write))
  if readonly then
    grow 9
    return .operator .readonly tuple
  else return tuple

/-- A template. -/
def templateNode (write : Writer) (head : String) (spans : List (TypeId × String)) :
    Render Decl.TypeNode := do
  let front := Text.escapeTemplate head
  grow (front.utf8ByteSize + 2)
  let spans ← spans.mapM fun (t, s) => do
    let type ← write t
    let text := Text.escapeTemplate s
    grow (text.utf8ByteSize + 3)
    return ⟨type, text⟩
  return .template front spans

/-- The members of a union as they are shown: `boolean` in place of both its values, `null` and
`undefined` last. -/
def shownMembers (ms : List TypeId) : List TypeId :=
  let both := ms.contains .false_ && ms.contains .true_
  let shown := ms.flatMap fun m =>
    if m == .null || m == .undefined then []
    else if both && m == .false_ then [.boolean]
    else if both && m == .true_ then []
    else [m]
  shown ++ ms.filter (· == .null) ++ ms.filter (· == .undefined)

/-- A type by its kind. -/
def byKind (write : Writer) (id : TypeId) : TypeKind → Render Decl.TypeNode
  | .any | .error => keyword .any
  | .unknown => keyword .unknown
  | .undefined => keyword .undefined
  | .null => keyword .null
  | .string => keyword .string
  | .number => keyword .number
  | .bigint => keyword .bigint
  | .symbol => keyword .symbol
  | .void => keyword .void
  | .never => keyword .never
  | .anyObject => keyword .object
  | .this => do
    grow 4
    return .fresh .this
  | .false_ => literal (.boolean false)
  | .true_ => literal (.boolean true)
  | .stringLiteral s => literal (.string s)
  | .numberLiteral d => literal (.number d)
  | .bigintLiteral s => literal (.bigint s)
  | .template head spans => templateNode write head spans
  | .lettered m t => do
    grow m.name.utf8ByteSize
    return .reference [m.name] [← write t]
  | .union ms => do
    match ← types write (shownMembers ms) with
    | [node] => return node
    | nodes => return .union nodes
  | .intersection ms => do
    match ← types write ms with
    | [node] => return node
    | nodes => return .intersection nodes
  | .param symbol => paramNode write symbol
  | .interface symbol args => interfaceNode write id symbol args
  | .tuple elements readonly => tupleNode write elements readonly
  | .functionValue symbol => functionNode write id symbol
  | .written .. | .computed _ => object write id
  | .keys t => do
    grow 6
    return .operator .keyof (← write t)
  | .access o i => do
    let node ← write o
    let index ← write i
    grow 2
    return .indexed node index
  | .conditional decl m => conditionalNode write decl m
  | .mapped decl m => mappedNode write decl m

/-- The name of the alias through which a type was reached, if it can be written here. -/
def aliasSpelling? (id : TypeId) : Render (Option (Spelling × AliasRef)) := do
  match (← ask Check.table).alias? id with
  | none => return none
  | some a =>
    let s ← spelling? a.symbol .type (← read).options.outsideAliases
    return s.map (·, a)

/-- A type, inside which others are written by `write`. -/
def type (write : Writer) (id : TypeId) : Render Decl.TypeNode := do
  let inAlias := (← get).inAlias
  modify fun s => { s with inAlias := false }
  let named ← if inAlias then pure none else aliasSpelling? id
  match named with
  | some (s, a) =>
    grow s.length
    return s.reference (← types write a.args)
  | none =>
    if id == .boolean then keyword .boolean
    else byKind write id ((← ask Check.table).kind id)

/-- A type, nested at most so deep. -/
def upTo : Nat → Writer
  | 0 => fun _ => failure
  | n + 1 => type (upTo n)

/-- How deep a type may nest. -/
def maxDepth : Nat := 100

end Render

namespace Check

/-- A type as a declaration in a file writes it; `none` when it cannot be written. -/
def typeNode? (options : RenderOptions) (file : SourceId) (id : TypeId) :
    Check (Option Decl.TypeNode) := do
  let step := (Render.upTo Render.maxDepth id).run ⟨options, file⟩
  return ((← (step.run { inAlias := options.inAlias }).run)).map (·.1)

/-- A type as a message in a file shows it. -/
def typeText (file : SourceId) (id : TypeId) : Check String := do
  match ← typeNode? { qualified := true, outsideAliases := true } file id with
  | some n => return n.text
  | none => return "any"

end Check

end DeclKit

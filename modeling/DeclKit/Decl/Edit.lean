/-
Editing the types of a declaration tree.

An edit is asked about every type from the outside in. Where it gives a replacement, that stands as
it is; elsewhere the type is rebuilt from its edited parts. A part that has changed is put in
parentheses if its position needs them; one that has not is left alone. What has changed is told by
comparing types node for node, origins included.
-/
import DeclKit.Decl.Build
import DeclKit.Decl.Tree

set_option autoImplicit false

namespace DeclKit.Decl

/-! ## Equality -/

mutual

/-- Two types are the same. -/
def TypeNode.same : TypeNode → TypeNode → Bool
  | .mk f o, .mk g p => o == p && f.same g

/-- Two forms are the same. -/
def TypeForm.same : TypeForm → TypeForm → Bool
  | .keyword a, .keyword b => a == b
  | .literal a, .literal b => a == b
  | .template h ss, .template k ts => h == k && sameSpans ss ts
  | .reference n as, .reference m bs => n == m && sameTypes as bs
  | .imported m q as, .imported n r bs => m == n && q == r && sameTypes as bs
  | .union as, .union bs => sameTypes as bs
  | .intersection as, .intersection bs => sameTypes as bs
  | .array a, .array b => a.same b
  | .tuple as, .tuple bs => sameItems as bs
  | .paren a, .paren b => a.same b
  | .function a, .function b => sameSignature a b
  | .constructor x a, .constructor y b => x == y && sameSignature a b
  | .object as, .object bs => sameMembers as bs
  | .mapped ⟨r, p, c, n, o, t⟩, .mapped ⟨r', p', c', n', o', t'⟩ =>
    r == r' && p == p' && o == o' && c.same c' && sameOption n n' && sameOption t t'
  | .indexed a i, .indexed b j => a.same b && i.same j
  | .operator x a, .operator y b => x == y && a.same b
  | .query n as, .query m bs => n == m && sameTypes as bs
  | .conditional a b c d, .conditional a' b' c' d' =>
    a.same a' && b.same b' && c.same c' && d.same d'
  | .infer n c, .infer m d => n == m && sameOption c d
  | .predicate x p t, .predicate y q u => x == y && p == q && sameOption t u
  | .this, .this => true
  | _, _ => false

/-- Two lists of types are the same. -/
def sameTypes : List TypeNode → List TypeNode → Bool
  | [], [] => true
  | a :: as, b :: bs => a.same b && sameTypes as bs
  | _, _ => false

/-- Two types that may be missing are the same. -/
def sameOption : Option TypeNode → Option TypeNode → Bool
  | none, none => true
  | some a, some b => a.same b
  | _, _ => false

/-- Two lists of template spans are the same. -/
def sameSpans : List (TemplateSpan TypeNode) → List (TemplateSpan TypeNode) → Bool
  | [], [] => true
  | ⟨a, x⟩ :: as, ⟨b, y⟩ :: bs => x == y && a.same b && sameSpans as bs
  | _, _ => false

/-- Two lists of tuple elements are the same. -/
def sameItems : List (TupleItem TypeNode) → List (TupleItem TypeNode) → Bool
  | [], [] => true
  | ⟨k, n, a⟩ :: as, ⟨l, m, b⟩ :: bs => k == l && n == m && a.same b && sameItems as bs
  | _, _ => false

/-- Two signatures are the same. -/
def sameSignature : Signature TypeNode → Signature TypeNode → Bool
  | ⟨ts, ps, r⟩, ⟨us, qs, s⟩ => sameTypeParams ts us && sameParams ps qs && sameOption r s

/-- Two lists of type parameters are the same. -/
def sameTypeParams : List (TypeParam TypeNode) → List (TypeParam TypeNode) → Bool
  | [], [] => true
  | ⟨n, k, c, d⟩ :: as, ⟨m, l, c', d'⟩ :: bs =>
    n == m && k == l && sameOption c c' && sameOption d d' && sameTypeParams as bs
  | _, _ => false

/-- Two lists of parameters are the same. -/
def sameParams : List (Param TypeNode) → List (Param TypeNode) → Bool
  | [], [] => true
  | ⟨r, n, o, t⟩ :: as, ⟨r', n', o', t'⟩ :: bs =>
    r == r' && n == n' && o == o' && sameOption t t' && sameParams as bs
  | _, _ => false

/-- Two members are the same. -/
def sameMember : Member TypeNode → Member TypeNode → Bool
  | .property o r n q t, .property o' r' n' q' t' =>
    o == o' && r == r' && n == n' && q == q' && sameOption t t'
  | .method o n q s, .method o' n' q' s' => o == o' && n == n' && q == q' && sameSignature s s'
  | .call o s, .call o' s' => o == o' && sameSignature s s'
  | .construct o s, .construct o' s' => o == o' && sameSignature s s'
  | .index o r p k t, .index o' r' p' k' t' =>
    o == o' && r == r' && p == p' && k.same k' && t.same t'
  | _, _ => false

/-- Two lists of members are the same. -/
def sameMembers : List (Member TypeNode) → List (Member TypeNode) → Bool
  | [], [] => true
  | a :: as, b :: bs => sameMember a b && sameMembers as bs
  | _, _ => false

end

instance : BEq TypeNode := ⟨TypeNode.same⟩

/-! ## Edits -/

variable {m : Type → Type} [Monad m]

/-- An edited part at its position. -/
def settle (p : Position) (old new : TypeNode) : TypeNode :=
  if new == old then new else new.atPosition p

mutual

/-- Edits a type. -/
def TypeNode.edit (replace : TypeNode → m (Option TypeNode)) : TypeNode → m TypeNode
  | .mk f o => do
    match ← replace (.mk f o) with
    | some t => return t
    | none => return .mk (← f.edit replace) o

/-- Edits the parts of a form. -/
def TypeForm.edit (replace : TypeNode → m (Option TypeNode)) : TypeForm → m TypeForm
  | .keyword k => return .keyword k
  | .literal s => return .literal s
  | .this => return .this
  | .template h ss => return .template h (← editSpans replace ss)
  | .reference n as => return .reference n (← editTypes replace .any as)
  | .imported m q as => return .imported m q (← editTypes replace .any as)
  | .union ts => return .union (← editTypes replace .member ts)
  | .intersection ts => return .intersection (← editTypes replace .member ts)
  | .array t => return .array (settle .postfix_ t (← t.edit replace))
  | .tuple is => return .tuple (← editItems replace is)
  | .paren t => return .paren (← t.edit replace)
  | .function s => return .function (← editSignature replace s)
  | .constructor a s => return .constructor a (← editSignature replace s)
  | .object ms => return .object (← editMembers replace ms)
  | .mapped ⟨r, p, c, n, o, t⟩ => do
    let c ← c.edit replace
    let n ← editOption replace n
    let t ← editOption replace t
    return .mapped ⟨r, p, c, n, o, t⟩
  | .indexed t i => do
    let u ← t.edit replace
    let j ← i.edit replace
    return .indexed (settle .postfix_ t u) j
  | .operator op t => return .operator op (settle op.position t (← t.edit replace))
  | .query n as => return .query n (← editTypes replace .any as)
  | .conditional a b c d => do
    let a' ← a.edit replace
    let b' ← b.edit replace
    let c' ← c.edit replace
    let d' ← d.edit replace
    return .conditional (settle .check a a') (settle .extends_ b b') c' d'
  | .infer n c => return .infer n (← editOption replace c)
  | .predicate a p t => return .predicate a p (← editOption replace t)

/-- Edits types that stand at one position. -/
def editTypes (replace : TypeNode → m (Option TypeNode)) (p : Position) :
    List TypeNode → m (List TypeNode)
  | [] => return []
  | t :: ts => do
    let u ← t.edit replace
    return settle p t u :: (← editTypes replace p ts)

/-- Edits a type that may be missing. -/
def editOption (replace : TypeNode → m (Option TypeNode)) : Option TypeNode → m (Option TypeNode)
  | none => return none
  | some t => return some (← t.edit replace)

/-- Edits the types of a template. -/
def editSpans (replace : TypeNode → m (Option TypeNode)) :
    List (TemplateSpan TypeNode) → m (List (TemplateSpan TypeNode))
  | [] => return []
  | ⟨t, s⟩ :: more => do
    let t ← t.edit replace
    return ⟨t, s⟩ :: (← editSpans replace more)

/-- Edits the elements of a tuple. -/
def editItems (replace : TypeNode → m (Option TypeNode)) :
    List (TupleItem TypeNode) → m (List (TupleItem TypeNode))
  | [] => return []
  | ⟨k, n, t⟩ :: more => do
    let t ← t.edit replace
    return ⟨k, n, t⟩ :: (← editItems replace more)

/-- Edits a signature. -/
def editSignature (replace : TypeNode → m (Option TypeNode)) :
    Signature TypeNode → m (Signature TypeNode)
  | ⟨ts, ps, r⟩ => do
    let ts ← editTypeParams replace ts
    let ps ← editParams replace ps
    let r ← editOption replace r
    return ⟨ts, ps, r⟩

/-- Edits type parameters. -/
def editTypeParams (replace : TypeNode → m (Option TypeNode)) :
    List (TypeParam TypeNode) → m (List (TypeParam TypeNode))
  | [] => return []
  | ⟨n, k, c, d⟩ :: more => do
    let c ← editOption replace c
    let d ← editOption replace d
    return ⟨n, k, c, d⟩ :: (← editTypeParams replace more)

/-- Edits parameters. -/
def editParams (replace : TypeNode → m (Option TypeNode)) :
    List (Param TypeNode) → m (List (Param TypeNode))
  | [] => return []
  | ⟨r, n, o, t⟩ :: more => do
    let t ← editOption replace t
    return ⟨r, n, o, t⟩ :: (← editParams replace more)

/-- Edits a member. -/
def editMember (replace : TypeNode → m (Option TypeNode)) : Member TypeNode → m (Member TypeNode)
  | .property o r n q t => return .property o r n q (← editOption replace t)
  | .method o n q s => return .method o n q (← editSignature replace s)
  | .call o s => return .call o (← editSignature replace s)
  | .construct o s => return .construct o (← editSignature replace s)
  | .index o r p k t => do
    let k ← k.edit replace
    let t ← t.edit replace
    return .index o r p k t

/-- Edits members. -/
def editMembers (replace : TypeNode → m (Option TypeNode)) :
    List (Member TypeNode) → m (List (Member TypeNode))
  | [] => return []
  | x :: more => do
    let x ← editMember replace x
    return x :: (← editMembers replace more)

end

/-- What an edit does with types and with whole aliases. An alias that is given back is final. -/
structure Editor (m : Type → Type) where
  type : TypeNode → m (Option TypeNode)
  typeAlias : TypeAlias → m (Option TypeAlias)

/-- Edits the types of an alias. -/
def Editor.aliasTypes (r : Editor m) (a : TypeAlias) : m TypeAlias := do
  match ← r.typeAlias a with
  | some b => return b
  | none =>
    let typeParams ← editTypeParams r.type a.typeParams
    let type ← a.type.edit r.type
    return { a with typeParams, type }

/-- Edits the types of variables. -/
def Editor.variableItems (r : Editor m) : List Variable → m (List Variable)
  | [] => return []
  | v :: more => do
    let type ← editOption r.type v.type
    return { v with type } :: (← r.variableItems more)

/-- Edits the types of a statement. -/
def Editor.statement (r : Editor m) : Statement → m Statement
  | .typeAlias a => return .typeAlias (← r.aliasTypes a)
  | .interface i => do
    let typeParams ← editTypeParams r.type i.typeParams
    let heritage ← editTypes r.type .any i.heritage
    let members ← editMembers r.type i.members
    return .interface { i with typeParams, heritage, members }
  | .function f => do
    let signature ← editSignature r.type f.signature
    return .function { f with signature }
  | .variableList v => do
    let items ← r.variableItems v.items
    return .variableList { v with items }
  | .importing s => return .importing s
  | .exporting s => return .exporting s
  | .assignment s => return .assignment s

/-- Edits the statements of a file, in order. -/
def Editor.statements (r : Editor m) : List Statement → m (List Statement)
  | [] => return []
  | s :: more => do
    let s ← r.statement s
    return s :: (← r.statements more)

/-- Edits a file. -/
def Editor.file (r : Editor m) (f : File) : m File := do
  let statements ← r.statements f.statements
  return { f with statements }

end DeclKit.Decl

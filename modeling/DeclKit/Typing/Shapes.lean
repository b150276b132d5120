/-
The members of written types, interfaces and functions.
-/
import DeclKit.Typing.Declared

set_option autoImplicit false

namespace DeclKit.Typing

open Check

/-! ## Under a substitution -/

/-- A signature under a substitution; its own type parameters stay. -/
def instantiateSignature (ops : Operations) (m : Option MapperId) (s : Signature) :
    Check Signature := do
  let params ← s.params.mapM fun p => do
    let type ← ops.instantiate p.type m
    return { p with type }
  let returns ← ops.instantiate s.returns m
  return { s with params, returns }

/-- A shape under a substitution. -/
def instantiateShape (ops : Operations) (m : Option MapperId) (s : Shape) : Check Shape := do
  if m.isNone then return s
  let properties ← s.properties.mapM fun p => do
    let type ← ops.instantiate p.type m
    return { p with type }
  let calls ← s.calls.mapM (instantiateSignature ops m)
  let constructs ← s.constructs.mapM (instantiateSignature ops m)
  let indexes ← s.indexes.mapM fun i => do
    let key ← ops.instantiate i.key m
    let type ← ops.instantiate i.type m
    return { i with key, type }
  return { properties, calls, constructs, indexes }

/-- Parts under a substitution are as many as the parts. -/
theorem gives_mapM_isEmpty {α β : Type} (p : Program) (xs : List α) (f : α → Check β) :
    (judgment p).gives (xs.mapM f) fun ys => ys.isEmpty = xs.isEmpty := by
  cases xs with
  | nil => exact Judgment.pure _ rfl
  | cons x xs =>
    rw [List.mapM_cons]
    exact Judgment.bind _ (gives_any p (f x)) fun y _ =>
      Judgment.bind _ (gives_any p (xs.mapM f)) fun ys _ => Judgment.pure _ rfl

/-- A shape under a substitution has members if the shape has. -/
theorem instantiateShape_gives (ops : Operations) (p : Program) (m : Option MapperId) (sh : Shape) :
    (judgment p).gives (instantiateShape ops m sh) fun r => r.isEmpty = sh.isEmpty := by
  unfold instantiateShape
  split
  · exact Judgment.pure _ rfl
  refine Judgment.bind _ (gives_mapM_isEmpty p sh.properties _) fun properties hproperties => ?_
  refine Judgment.bind _ (gives_mapM_isEmpty p sh.calls _) fun calls hcalls => ?_
  refine Judgment.bind _ (gives_mapM_isEmpty p sh.constructs _) fun constructs hconstructs => ?_
  refine Judgment.bind _ (gives_mapM_isEmpty p sh.indexes _) fun indexes hindexes => ?_
  refine Judgment.pure _ ?_
  rw [Shape.isEmpty, Shape.isEmpty, hproperties, hcalls, hconstructs, hindexes]

/-! ## Signatures and members as written -/

/-- What a signature returns: a predicate is a truth value, and an assertion returns nothing. -/
def returnType (ops : Operations) (file : SourceId) (n : Node) : Check TypeId := do
  match n.child? .returnType with
  | none => return .any
  | some r =>
    match r.child? .typePredicate with
    | some p => return if p.hasWord "asserts" then .void else .boolean
    | none => ops.typeOf? file r.type?

/-- A type that is written after a colon, or another type when there is none. -/
def annotatedOr (ops : Operations) (file : SourceId) (fallback : TypeId) (n : Node) : Check TypeId :=
  match n.annotatedType? with
  | some t => ops.typeOf file t
  | none => return fallback

/-- A parameter. -/
def signatureParam (ops : Operations) (file : SourceId) (n : Node) : Check SignatureParam := do
  let type ← annotatedOr ops file .any n
  return {
    name := (n.name?.map (·.nameText)).getD ""
    type
    optional := n.hasToken .question || (n.child? .initializer).isSome
    rest := n.hasToken .dotDotDot }

/-- The signature of a node; a parameter `this` does not count. -/
def signatureOf (ops : Operations) (file : SourceId) (n : Node) : Check Signature := do
  let typeParams := (← program).typeParamsOf file n
  let params ← (n.params.filter fun p => !p.isThisParam).mapM (signatureParam ops file)
  let returns ← returnType ops file n
  return { typeParams, params, returns }

/-- Members as they are collected: the shape so far, and the signatures of each method, by name. -/
structure MembersSoFar where
  shape : Shape := {}
  methods : List (String × List Signature) := []

/-- The name of a member, unless it is computed. -/
def memberName? (n : Node) : Option Node := n.name?.filter fun m => !m.isRawName

/-- A name that is written as a number. -/
def isNumberName (n : Node) : Bool := n.leaves.head?.any (·.kind == .numberLiteral)

/-- Adds a property; the first of a name counts. -/
def addWrittenProperty (ops : Operations) (file : SourceId) (s : MembersSoFar) (n : Node) :
    Check MembersSoFar := do
  match memberName? n with
  | none => return s
  | some nameNode =>
    let name := nameNode.nameText
    if (s.shape.property? name).isSome then return s
    let optional := n.hasToken .question
    let type ← annotatedOr ops file .any n
    let type ← if optional then withUndefined type else pure type
    let shape := s.shape.addProperty
      { name, type, optional, readonly := n.hasWord "readonly", numeric := isNumberName nameNode }
    return { s with shape }

/-- Adds a method; several of one name are its overloads. -/
def addWrittenMethod (ops : Operations) (file : SourceId) (s : MembersSoFar) (n : Node) :
    Check MembersSoFar := do
  match memberName? n with
  | none => return s
  | some nameNode =>
    let name := nameNode.nameText
    let signature ← signatureOf ops file n
    if (s.shape.property? name).isSome then
      let methods := s.methods.map fun (m, signatures) =>
        if m == name then (m, signatures ++ [signature]) else (m, signatures)
      return { s with methods }
    let shape := s.shape.addProperty
      { name, type := .error, optional := n.hasToken .question, isMethod := true
        numeric := isNumberName nameNode }
    return { shape, methods := s.methods ++ [(name, [signature])] }

/-- Adds a member. -/
def addMember (ops : Operations) (file : SourceId) (s : MembersSoFar) (n : Node) :
    Check MembersSoFar := do
  match n.kind with
  | .propertySig => addWrittenProperty ops file s n
  | .methodSig => addWrittenMethod ops file s n
  | .callSig =>
    let signature ← signatureOf ops file n
    return { s with shape := { s.shape with calls := s.shape.calls ++ [signature] } }
  | .constructSig =>
    let signature ← signatureOf ops file n
    return { s with shape := { s.shape with constructs := s.shape.constructs ++ [signature] } }
  | .indexSig =>
    let key ← match n.child? .param with
      | some p => annotatedOr ops file .string p
      | none => pure .string
    let type ← annotatedOr ops file .any n
    let info : IndexInfo := ⟨key, type, n.hasWord "readonly"⟩
    return { s with shape := { s.shape with indexes := s.shape.indexes ++ [info] } }
  | _ => return s

/-- Gives a method the type of its signatures. -/
def finishMethod (s : Shape) (name : String) (signatures : List Signature) : Check Shape := do
  let type ← objectOf { calls := signatures }
  let properties := s.properties.map fun p => if p.name == name then { p with type } else p
  return { s with properties }

/-- The shape of written members. -/
def membersShape (ops : Operations) (file : SourceId) (members : List Node) : Check Shape := do
  let s ← members.foldlM (addMember ops file) {}
  s.methods.foldlM (fun shape (name, signatures) => finishMethod shape name signatures) s.shape

/-! ## Whether there are members

That can be told without looking at their types: the first property or method of a name is added, and
everything else that counts as a member. -/

section

variable (ops : Operations) (p : Program) (file : SourceId)

/-- A shape with a property is not empty, whether the property is added or there already. -/
theorem isEmpty_addProperty (sh : Shape) (property : Property) :
    (sh.addProperty property).isEmpty = false := by
  have hproperties : (sh.addProperty property).properties ≠ [] := by
    unfold Shape.addProperty
    split
    · rename_i hthere
      obtain ⟨found, hfound⟩ := Option.isSome_iff_exists.1 hthere
      exact List.ne_nil_of_mem (List.mem_of_find?_eq_some hfound)
    · exact List.append_ne_nil_of_right_ne_nil _ (List.cons_ne_nil _ _)
  rw [Shape.isEmpty, List.isEmpty_eq_false_iff.2 hproperties, Bool.false_and, Bool.false_and,
    Bool.false_and]

theorem isEmpty_of_property? {sh : Shape} {name : String} (h : (sh.property? name).isSome) :
    sh.isEmpty = false := by
  obtain ⟨found, hfound⟩ := Option.isSome_iff_exists.1 h
  have hproperties : sh.properties ≠ [] := List.ne_nil_of_mem (List.mem_of_find?_eq_some hfound)
  rw [Shape.isEmpty, List.isEmpty_eq_false_iff.2 hproperties, Bool.false_and, Bool.false_and,
    Bool.false_and]

theorem addWrittenProperty_gives (s : MembersSoFar) (n : Node) :
    (judgment p).gives (addWrittenProperty ops file s n) fun r =>
      r.shape.isEmpty = (s.shape.isEmpty && !(memberName? n).isSome) := by
  unfold addWrittenProperty
  cases memberName? n with
  | none => exact Judgment.pure _ (by rw [Option.isSome_none, Bool.not_false, Bool.and_true])
  | some nameNode =>
    dsimp only
    split
    · rename_i hthere
      exact Judgment.pure _ (by rw [isEmpty_of_property? hthere, Bool.false_and])
    · refine Judgment.bind _ (gives_any p _) fun type _ => ?_
      split <;> refine Judgment.bind _ (gives_any p _) fun type' _ => Judgment.pure _ ?_
      all_goals rw [isEmpty_addProperty, Option.isSome_some, Bool.not_true, Bool.and_false]

theorem addWrittenMethod_gives (s : MembersSoFar) (n : Node) :
    (judgment p).gives (addWrittenMethod ops file s n) fun r =>
      r.shape.isEmpty = (s.shape.isEmpty && !(memberName? n).isSome) := by
  unfold addWrittenMethod
  cases memberName? n with
  | none => exact Judgment.pure _ (by rw [Option.isSome_none, Bool.not_false, Bool.and_true])
  | some nameNode =>
    refine Judgment.bind _ (gives_any p _) fun signature _ => ?_
    split
    · rename_i hthere
      exact Judgment.pure _ (by rw [isEmpty_of_property? hthere, Bool.false_and])
    · refine Judgment.pure _ ?_
      rw [isEmpty_addProperty, Option.isSome_some, Bool.not_true, Bool.and_false]

/-- A member that counts is added, and no other one. -/
theorem addMember_gives (s : MembersSoFar) (n : Node) :
    (judgment p).gives (addMember ops file s n) fun r =>
      r.shape.isEmpty = (s.shape.isEmpty && !n.addsMember) := by
  have hadded {α : Type} (xs : List α) (x : α) : (xs ++ [x]).isEmpty = false :=
    List.isEmpty_eq_false_iff.2 (List.append_ne_nil_of_right_ne_nil xs (List.cons_ne_nil x []))
  unfold addMember
  split
  · rename_i hk
    rw [Node.addsMember, hk]
    exact addWrittenProperty_gives ops p file s n
  · rename_i hk
    rw [Node.addsMember, hk]
    exact addWrittenMethod_gives ops p file s n
  · rename_i hk
    refine Judgment.bind _ (gives_any p _) fun signature _ => Judgment.pure _ ?_
    simp only [Node.addsMember, hk, Shape.isEmpty, hadded, Bool.and_false, Bool.false_and, Bool.not_true]
  · rename_i hk
    refine Judgment.bind _ (gives_any p _) fun signature _ => Judgment.pure _ ?_
    simp only [Node.addsMember, hk, Shape.isEmpty, hadded, Bool.and_false, Bool.false_and, Bool.not_true]
  · rename_i hk
    dsimp only
    split <;> refine Judgment.bind _ (gives_any p _) fun key _ => ?_
    all_goals
      refine Judgment.bind _ (gives_any p _) fun type _ => Judgment.pure _ ?_
      simp only [Node.addsMember, hk, Shape.isEmpty, hadded, Bool.and_false, Bool.not_true]
  · rename_i hproperty hmethod hcall hconstruct hindex
    have hother : n.addsMember = false := by
      unfold Node.addsMember
      split <;> first | rfl | contradiction
    exact Judgment.pure _ (by rw [hother, Bool.not_false, Bool.and_true])

/-- Written members make an empty shape if none of them counts. -/
theorem membersShape_gives (members : List Node) :
    (judgment p).gives (membersShape ops file members) fun r =>
      r.isEmpty = !members.any (·.addsMember) := by
  have hadded (s : MembersSoFar) : (judgment p).gives (members.foldlM (addMember ops file) s) fun r =>
      r.shape.isEmpty = (s.shape.isEmpty && !members.any (·.addsMember)) := by
    induction members generalizing s with
    | nil =>
      refine Judgment.pure _ ?_
      rw [List.any_nil, Bool.not_false, Bool.and_true]
    | cons n members ih =>
      rw [List.foldlM_cons]
      refine Judgment.bind _ (addMember_gives ops p file s n) fun s' hs' => ?_
      refine Judgment.gives_mono (ih s') fun r hr => ?_
      rw [hr, hs', List.any_cons, Bool.not_or, Bool.and_assoc]
  have hfinished (methods : List (String × List Signature)) (sh : Shape) : (judgment p).gives
      (methods.foldlM (fun shape (name, signatures) => finishMethod shape name signatures) sh) fun r =>
      r.isEmpty = sh.isEmpty := by
    induction methods generalizing sh with
    | nil => exact Judgment.pure _ rfl
    | cons method methods ih =>
      rw [List.foldlM_cons]
      refine Judgment.bind (P := fun sh' => sh'.isEmpty = sh.isEmpty) _ ?_ fun sh' hsh' => ?_
      · refine Judgment.bind _ (gives_any p _) fun type _ => Judgment.pure _ ?_
        rw [Shape.isEmpty, Shape.isEmpty, List.isEmpty_map]
      · exact Judgment.gives_mono (ih sh') fun r hr => hr.trans hsh'
  exact Judgment.bind _ (hadded {}) fun s hs => Judgment.gives_mono (hfinished s.methods s.shape)
    fun r hr => hr.trans hs

end

/-! ## Shapes of types -/

/-- The shape of an object, function or constructor type node, looked at for the first time. -/
def nodeShape? (ops : Operations) (decl : NodeKey) : Check (Option Shape) := do
  match (← program).node? decl with
  | none => return none
  | some n =>
    match n.kind with
    | .objectType => return some (← membersShape ops decl.file n.members)
    | .functionType =>
      let signature ← signatureOf ops decl.file n
      return some { calls := [signature] }
    | .constructorType =>
      let signature ← signatureOf ops decl.file n
      return some { constructs := [signature] }
    | _ => return none

theorem nodeShape?_gives (ops : Operations) (p : Program) (decl : NodeKey) :
    (judgment p).gives (nodeShape? ops decl) fun r => r.any (·.isEmpty) = p.writesNothing decl := by
  refine Judgment.bind _ (program_gives p) fun q hq => ?_
  subst hq
  unfold Program.writesNothing
  cases q.node? decl with
  | none => exact Judgment.pure _ rfl
  | some n =>
    rw [Option.any_some]
    dsimp only
    split
    · rename_i hk
      refine Judgment.bind _ (membersShape_gives ops q decl.file n.members) fun sh hsh => ?_
      refine Judgment.pure _ ?_
      rw [Option.any_some, hsh, hk, beq_self_eq_true, Bool.true_and]
    · rename_i hk
      refine Judgment.bind _ (gives_any q _) fun signature _ => Judgment.pure _ ?_
      rw [hk]
      rfl
    · rename_i hk
      refine Judgment.bind _ (gives_any q _) fun signature _ => Judgment.pure _ ?_
      rw [hk]
      rfl
    · rename_i hobject _ _
      exact Judgment.pure _ (by rw [beq_eq_false_iff_ne.2 hobject, Bool.false_and]; rfl)

/-- The shape of a written type under no substitution. -/
def writtenShape? (ops : Operations) (decl : NodeKey) : Check (Option Shape) :=
  rememberWritten decl (nodeShape? ops decl) fun s c => nodeShape?_gives ops s.program decl s c rfl

/-- Remembers the shape of an interface. -/
def setInterface (symbol : SymbolId) (s : Option Shape) : Check Unit :=
  update fun c => { c with interfaces := c.interfaces.insert symbol s }

/-- The members of all declarations of an interface, then those of its bases. Seen from itself it has
none. -/
def interfaceShape (ops : Operations) (symbol : SymbolId) : Check Shape := do
  match (← state).interfaces[symbol]? with
  | some (some s) => return s
  | some none => return {}
  | none =>
    setInterface symbol none
    let declarations := ((← program).symbols.get symbol).declarationsOf .interfaceDecl
    let own ← declarations.foldlM (fun (shape : Shape) d => do
      match d.node.child? .objectType with
      | some body => return shape.merge (← membersShape ops d.file body.members)
      | none => return shape) {}
    let bases := declarations.flatMap fun d =>
      (((d.node.child? .heritageClause).map (·.childrenOf .typeRef)).getD []).map fun n => (d.file, n)
    let shape ← bases.foldlM (fun (shape : Shape) (file, n) => do
      match ← ops.shape? (← ops.typeOf file n) with
      | some inherited => return shape.merge inherited
      | none => return shape) own
    setInterface symbol (some shape)
    return shape

/-- The signatures of a function. An implementation does not count beside overloads. -/
def functionSignatures (ops : Operations) (symbol : SymbolId) : Check (List Signature) := do
  let functions := ((← program).symbols.get symbol).declarationsOf .functionDecl
  let hasBody (d : Declaration) : Bool := (d.node.child? .functionBody).isSome
  let overloaded := 1 < functions.length && functions.any fun d => !hasBody d
  (functions.filter fun d => !overloaded || !hasBody d).mapM fun d => signatureOf ops d.file d.node

/-- The shape of a type, looked at for the first time. -/
def findShape? (ops : Operations) (id : TypeId) : Check (Option Shape) := do
  match ← kind id with
  | .written decl m =>
    match ← writtenShape? ops decl with
    | some s => return some (← instantiateShape ops m s)
    | none => return none
  | .interface symbol args =>
    let base ← interfaceShape ops symbol
    let params := (← program).declaredParams symbol
    let m ← makeMapper (params.zip args)
    return some (← instantiateShape ops m base)
  | .functionValue symbol => return some { calls := ← functionSignatures ops symbol }
  | _ => return none

theorem tells_findShape? (ops : Operations) (id : TypeId) : (findShape? ops id).Tells id := by
  intro s c hc ht _
  have hhas (hk : c.table.kind id ≠ .union []) : c.table.has id :=
    Option.isSome_iff_exists.2 ⟨_, TypeTable.get?_of_kind rfl hk⟩
  show c.table.Tells s.program id (((match c.table.kind id with
    | .written decl m => _
    | .interface symbol args => _
    | .functionValue symbol => _
    | _ => _ : Check (Option Shape)).run s).run c).1
  cases hk : c.table.kind id with
  | written decl m =>
    refine ⟨fun _ => hhas (by simp [hk]), fun decl' m' hk' => ?_⟩
    obtain ⟨rfl, rfl⟩ := TypeKind.written.inj (hk.symm.trans hk')
    have hwritten : (((writtenShape? ops decl).run s).run c).1.any (·.isEmpty) = _ :=
      any_rememberWritten (nodeShape? ops decl) _ ht
    show ((Check.run (writtenShape? ops decl >>= fun
      | some sh => do return some (← instantiateShape ops m sh)
      | none => return none) s).run c).1.any (·.isEmpty) = _
    rw [run_bind]
    generalize ((Check.run (writtenShape? ops decl) s).run c) = r at hwritten ⊢
    obtain ⟨found, d⟩ := r
    cases found with
    | none => exact hwritten
    | some sh => exact (instantiateShape_gives ops s.program m sh s d rfl).trans hwritten
  | interface | functionValue =>
    exact ⟨fun _ => hhas (by simp [hk]), fun decl m hk' => nomatch hk.symm.trans hk'⟩
  | _ => exact ⟨fun h => (nomatch h), fun decl m hk' => nomatch hk.symm.trans hk'⟩

/-- The members of an object type. -/
def shape? (ops : Operations) (id : TypeId) : Check (Option Shape) :=
  lookUp id (findShape? ops id) (tells_findShape? ops id)

end DeclKit.Typing

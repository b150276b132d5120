/-
The steps that a check can take on its table, and what a substitution makes of a type.

A type whose kind has a normal form is stored by the operator that works out the form and by nothing
else. Any other type is stored as it stands.

Unions, templates, instances of interfaces and tuples are built of other types, and a substitution
builds them again of what becomes of their parts. Only normal forms are worked out on the way. It takes
several steps on the table until all parts are there, and other steps may come between them; what has
become of a type stays true in every later table.
-/
import DeclKit.Types.Intersection

set_option autoImplicit false

namespace DeclKit

/-! ## Steps -/

/-- A kind with no normal form of its own. A written type has none in the table, but its substitution is
restricted before it is stored. -/
def TypeKind.isPlain : TypeKind → Bool
  | .union _ | .intersection _ | .template .. | .lettered .. | .written .. => false
  | _ => true

open TypeTable in
/-- A step on a table, given whether `null` and `undefined` are types of their own. -/
inductive Stored.Allowed (nullChecks : Bool) : {α : Type} → Stored α → Prop where
  | intern {k : TypeKind} : k.isPlain → Allowed nullChecks (intern k)
  | union (ids : List TypeId) : Allowed nullChecks (union nullChecks ids)
  | withUndefined (id : TypeId) : Allowed nullChecks (withUndefined nullChecks id)
  | widen (reduction : Bool) (id : TypeId) : Allowed nullChecks (widen reduction id)
  | template (head : String) (spans : List (TypeId × String)) :
      Allowed nullChecks (template nullChecks head spans)
  | lettered (m : LetterMap) (id : TypeId) : Allowed nullChecks (lettered nullChecks m id)
  | makeMapper (pairs : List (SymbolId × TypeId)) : Allowed nullChecks (makeMapper pairs)
  | extendMapper (m : Option MapperId) (s : SymbolId) (id : TypeId) :
      Allowed nullChecks (extendMapper m s id)
  | restrictMapper (m : Option MapperId) (params : List SymbolId) :
      Allowed nullChecks (restrictMapper m params)
  | objectOf (s : Shape) : Allowed nullChecks (objectOf s)
  | attachAlias (id : TypeId) (a : AliasRef) : Allowed nullChecks (attachAlias id a)

namespace TypeTable

/-- What a table can become. A written type is stored under a substitution. The members of an
intersection are found to go together before other steps tell which of them are superfluous. -/
inductive Later (nullChecks : Bool) : TypeTable → TypeTable → Prop where
  | refl (t : TypeTable) : Later nullChecks t t
  | step {t u : TypeTable} {α : Type} {x : Stored α} :
      Later nullChecks t u → x.Allowed nullChecks → Later nullChecks t (x.run u).2
  | written {t u : TypeTable} (decl : NodeKey) (m : Option MapperId) :
      Later nullChecks t u → Later nullChecks t ((intern (.written decl m)).run u).2
  | meet {t u v : TypeTable} {ids ms kept : List TypeId} :
      Later nullChecks t u → u.meeting nullChecks ids = .members ms → Later nullChecks u v →
      kept.Sublist ms → Later nullChecks t ((meet kept).run v).2

theorem Later.trans {nullChecks : Bool} {t u v : TypeTable} (h : t.Later nullChecks u)
    (h' : u.Later nullChecks v) : t.Later nullChecks v := by
  induction h' with
  | refl => exact h
  | step _ hx ih => exact .step (ih h) hx
  | written decl m _ ih => exact .written decl m (ih h)
  | meet _ hmeet hlater hsub ih => exact .meet (ih h) hmeet hlater hsub

end TypeTable

/-! ## Instances -/

namespace TypeKind

/-- A substitution leaves a type of this kind as it is. -/
def isFixed : TypeKind → Bool
  | .any | .error | .unknown | .undefined | .null | .string | .number | .bigint | .false_ | .true_
  | .symbol | .void | .never | .anyObject | .this => true
  | .stringLiteral _ | .numberLiteral _ | .bigintLiteral _ => true
  | .interface _ args => args.isEmpty
  | _ => false

/-- A type of this kind is built of its parts. -/
def isBuilt : TypeKind → Bool
  | .union _ | .template .. => true
  | .interface _ args => !args.isEmpty
  | .tuple elements _ => elements.all (·.kind != .variadic)
  | _ => false

/-- The kind of a type parameter. -/
def isParam : TypeKind → Bool
  | .param _ => true
  | _ => false

/-- A substitution works out nothing but normal forms for a type of this kind. -/
def isStructural (k : TypeKind) : Bool := k.isFixed || k.isParam || k.isBuilt

/-- The types of which a type of this kind is built. -/
def parts : TypeKind → List TypeId
  | .union ms => ms
  | .template _ spans => spans.map (·.1)
  | .interface _ args => args
  | .tuple elements _ => elements.map (·.type)
  | _ => []

/-- A kind of type with other types in place of its parts. -/
def withParts : TypeKind → List TypeId → TypeKind
  | .union _, parts => .union parts
  | .template head spans, parts => .template head (parts.zip (spans.map (·.2)))
  | .interface declared _, parts => .interface declared parts
  | .tuple elements readonly, parts =>
    .tuple ((elements.zip parts).map fun (e, type) => { e with type }) readonly
  | k, _ => k

end TypeKind

namespace TypeTable

/-- A type that is built like one of a kind, of other parts. -/
def rebuild (nullChecks : Bool) (k : TypeKind) (parts : List TypeId) : Stored TypeId :=
  match k.withParts parts with
  | .union ms => union nullChecks ms
  | .template head spans => template nullChecks head spans
  | k => intern k

/-- There is a type with this number. -/
def has (t : TypeTable) (id : TypeId) : Bool := (t.types.get? id.index).isSome

/-- There is a substitution with this number. -/
def hasMapper (t : TypeTable) (m : MapperId) : Bool := (t.mappers.get? m.index).isSome

/-- What has become of a type under a substitution. Nothing is said of types for which operators may
have to be worked out, nor of those with an alias. -/
inductive Instance (nullChecks : Bool) (m : MapperId) : TypeTable → TypeId → TypeId → Prop where
  | fixed {t : TypeTable} {id : TypeId} {k : TypeKind} :
      t.types.get? id.index = some { kind := k } → k.isFixed → Instance nullChecks m t id id
  | param {t : TypeTable} {id : TypeId} {symbol : SymbolId} :
      t.types.get? id.index = some { kind := .param symbol } → t.hasMapper m →
      t.has ((t.substitute? (some m) symbol).getD id) →
      Instance nullChecks m t id ((t.substitute? (some m) symbol).getD id)
  | built {t u : TypeTable} {id : TypeId} {k : TypeKind} {rs : List TypeId} :
      t.types.get? id.index = some { kind := k } → k.isBuilt →
      t.Later nullChecks u → initial.Later nullChecks u →
      rs.length = k.parts.length → (∀ p ∈ k.parts.zip rs, Instance nullChecks m u p.1 p.2) →
      Instance nullChecks m ((rebuild nullChecks k rs).run u).2 id ((rebuild nullChecks k rs).run u).1
  | other {t : TypeTable} {id r : TypeId} {d : TypeData} :
      t.types.get? id.index = some d → d.kind.isStructural = false ∨ d.aliased.isSome →
      Instance nullChecks m t id r
  | later {t u : TypeTable} {id r : TypeId} :
      Instance nullChecks m t id r → t.Later nullChecks u → Instance nullChecks m u id r
  | meet {t : TypeTable} {id r : TypeId} (kept : List TypeId) :
      Instance nullChecks m t id r → Instance nullChecks m ((meet kept).run t).2 id r

end TypeTable

end DeclKit

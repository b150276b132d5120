/-
Substitutions in the course of a check.

A check keeps a substitution as a number, and remembers what it has made of types under that number. This
is sound because the number stands for a partial function from type parameters to types. Pairs are put into
a form that depends on nothing but the function they define, and the number is that of the form. So it does
not matter in which order the pairs come, what else is said of a parameter behind its first pair, or what
has been stored in between.

A substitution for a node is restricted to the parameters that are free in it, so that nodes are evaluated
once for all substitutions that put in the same types for these. They are found by looking through the
node, and what is found is kept in a map; here they are described by where they are used and declared.
-/
import DeclKit.Proofs.Symbol.Names
import DeclKit.Proofs.Types.Mapper
import DeclKit.Proofs.Typing.Reachable

set_option autoImplicit false

namespace DeclKit

/-! ## Free type parameters -/

namespace Program

variable {p : Program} {file : SourceId} {n : Node} {x : SymbolId}

/-- A symbol is declared inside a node. The first one of its declarations counts. -/
def DeclaresInside (p : Program) (file : SourceId) (n : Node) (x : SymbolId) : Prop :=
  ∃ d, (p.symbols.get x).declarations[0]? = some d ∧ d.file = file ∧ n.covers d.node

/-- A type parameter is free in a node: a single name in it stands for the parameter, which is declared
elsewhere, or an `infer` in it declares the parameter for a conditional type that reaches beyond the
node. -/
inductive FreeIn (p : Program) (file : SourceId) (n : Node) (x : SymbolId) : Prop where
  | reference {reference entity : Node} {name : Token} :
      reference ∈ n.descendants → reference.kind = .typeRef →
      reference.child? .entityName = some entity → entity.segments = [name] →
      p.resolveName file reference name.text .type = .found x →
      (p.symbols.get x).meaning.typeParameter → ¬p.DeclaresInside file n x → FreeIn p file n x
  | infer {infer owner param : Node} :
      infer ∈ n.descendants → infer.kind = .inferType →
      infer.inferOwner? = some owner → ¬n.covers owner →
      infer.child? .typeParam = some param → p.paramOf? file param = some x → FreeIn p file n x

theorem freeReference?_eq_some {reference : Node} :
    p.freeReference? file n reference = some x ↔
      ∃ entity name, reference.child? .entityName = some entity ∧ entity.segments = [name] ∧
        p.resolveName file reference name.text .type = .found x ∧
        (p.symbols.get x).meaning.typeParameter ∧ ¬p.DeclaresInside file n x := by
  have hinside (y : SymbolId) : ((p.symbols.get y).declarations[0]?.any fun d =>
      d.file == file && n.covers d.node) = true ↔ p.DeclaresInside file n y := by
    rw [Option.any_eq_true, DeclaresInside]
    simp only [Bool.and_eq_true, beq_iff_eq]
  constructor
  · intro h
    unfold freeReference? at h
    split at h
    · rename_i name hname
      obtain ⟨entity, hentity, hsegments⟩ := Option.map_eq_some_iff.1 hname
      split at h
      · rename_i y hy
        dsimp only at h
        split at h
        · rename_i hfree
          obtain rfl := Option.some.inj h
          rw [Bool.and_eq_true, Bool.not_eq_true', ← Bool.not_eq_true, hinside] at hfree
          exact ⟨entity, name, hentity, hsegments, hy, hfree⟩
        · cases h
      · cases h
    · cases h
  · rintro ⟨entity, name, hentity, hsegments, hx, hparam, hnot⟩
    rw [← hinside, Bool.not_eq_true] at hnot
    simp only [freeReference?, hentity, Option.map_some, hsegments, hx, hparam, hnot, Bool.not_false,
      Bool.and_self, if_true]

theorem freeInfer?_eq_some {infer : Node} :
    p.freeInfer? file n infer = some x ↔
      ∃ owner param, infer.inferOwner? = some owner ∧ ¬n.covers owner ∧
        infer.child? .typeParam = some param ∧ p.paramOf? file param = some x := by
  rw [freeInfer?]
  constructor
  · intro h
    split at h
    · rename_i houtside
      obtain ⟨owner, howner, hnot⟩ := (Option.any_eq_true _ _).1 houtside
      obtain ⟨param, hparam, hx⟩ := Option.bind_eq_some_iff.1 h
      exact ⟨owner, param, howner, by simpa using hnot, hparam, hx⟩
    · cases h
  · rintro ⟨owner, param, howner, hnot, hparam, hx⟩
    rw [howner, Option.any_some, if_pos (by simpa using hnot), hparam, Option.bind_some, hx]

/-- The parameters that are found to be free in a node are those that are. -/
theorem mem_freeParams : x ∈ p.freeParams file n ↔ p.FreeIn file n x := by
  have hfold : p.freeParams file n =
      (((n.descendants.filter (·.kind == .typeRef)).filterMap (p.freeReference? file n)) ++
        ((n.descendants.filter (·.kind == .inferType)).filterMap (p.freeInfer? file n))).foldl
          addNew [] := rfl
  rw [hfold, mem_foldl_addNew, List.mem_append, List.mem_filterMap, List.mem_filterMap]
  simp only [List.mem_filter, beq_iff_eq, freeReference?_eq_some, freeInfer?_eq_some,
    List.not_mem_nil, false_or]
  constructor
  · rintro (⟨reference, ⟨hmem, hkind⟩, entity, name, hentity, hname, hx, hparam, hnot⟩ |
      ⟨infer, ⟨hmem, hkind⟩, owner, param, howner, hnot, hparam, hx⟩)
    · exact .reference hmem hkind hentity hname hx hparam hnot
    · exact .infer hmem hkind howner hnot hparam hx
  · intro h
    cases h with
    | reference hmem hkind hentity hname hx hparam hnot =>
      exact .inl ⟨_, ⟨hmem, hkind⟩, _, _, hentity, hname, hx, hparam, hnot⟩
    | infer hmem hkind howner hnot hparam hx =>
      exact .inr ⟨_, ⟨hmem, hkind⟩, _, _, howner, hnot, hparam, hx⟩

/-- A type parameter is free in the node of a key; where there is no such node, none is. -/
def IsFree (p : Program) (decl : NodeKey) (x : SymbolId) : Prop :=
  ∃ n, p.node? decl = some n ∧ p.FreeIn decl.file n x

theorem mem_freeParamsAt {decl : NodeKey} : x ∈ p.freeParamsAt decl ↔ p.IsFree decl x := by
  rw [freeParamsAt, IsFree]
  cases p.node? decl with
  | none => simp
  | some n => simp only [mem_freeParams, Option.some.injEq, exists_eq_left']

end Program

/-- A map that has been filled from a function has no other values than those of the function. -/
theorem getElem?_ofList_map {α β : Type} [BEq α] [LawfulBEq α] [Hashable α] {f : α → β}
    {keys : List α} {k : α} {v : β}
    (h : (Std.HashMap.ofList (keys.map fun k => (k, f k)))[k]? = some v) : v = f k := by
  -- by induction on the keys, for a map that has been filled so before
  have hfill (m : Std.HashMap α β) (hm : m[k]? = some v → v = f k) :
      (m.insertMany (keys.map fun k => (k, f k)))[k]? = some v → v = f k := by
    clear h
    induction keys generalizing m with
    | nil => exact hm
    | cons key keys ih =>
      rw [List.map_cons, Std.HashMap.insertMany_cons]
      apply ih
      intro h
      rw [Std.HashMap.getElem?_insert] at h
      split at h
      · rename_i hkey
        rw [← beq_iff_eq.1 hkey]
        exact (Option.some.inj h).symm
      · exact hm h
  rw [Std.HashMap.ofList_eq_insertMany_empty] at h
  exact hfill ∅ (fun hnone => by simp at hnone) h

/-- What a check of a program has worked out beforehand is what it would work out when it is asked. -/
theorem Setting.free_ofProgram (p : Program) : (Setting.ofProgram p).free = p.freeParamsAt := by
  funext decl
  unfold Setting.ofProgram
  dsimp only
  split
  · rename_i params h
    exact getElem?_ofList_map h
  · rfl

/-! ## Substitutions in a state -/

namespace Checker

open TypeTable

/-- Substitutions are canonical partial functions. In every state that a check of a program can reach, the
substitution of given pairs, unless there are none, has a number, and under it each symbol has the type of
its first pair and no other symbol has one, now and later. Pairs that are given now and pairs that are given
later have one number exactly if they define the same partial function, and two numbers that are in the
table stand for two partial functions. With one more pair, a substitution gives the type of the pair to its
symbol and is the same elsewhere. Restricted for a node, it is the same on the parameters that are free in
the node, and gives nothing elsewhere. -/
theorem Reachable.mappers_canonical {p : Program} {c : Checker} (h : Reachable (.ofProgram p) c) :
    let s := Setting.ofProgram p
    (∀ pairs, pairs ≠ [] → let r := ((Check.makeMapper pairs).run s).run c
      ∃ m, r.1 = some m ∧ ∀ u, r.2.table.Later s.nullChecks u →
        ∀ x, u.substitute? (some m) x = pairs.lookup x) ∧
    (∀ pairs pairs' d, let r := ((Check.makeMapper pairs).run s).run c
      r.2.table.Later s.nullChecks d.table →
        (r.1 = (((Check.makeMapper pairs').run s).run d).1 ↔
          ∀ x, pairs.lookup x = pairs'.lookup x)) ∧
    (∀ m m', c.table.hasMapper m → c.table.hasMapper m' →
      (m = m' ↔ ∀ x, c.table.substitute? (some m) x = c.table.substitute? (some m') x)) ∧
    (∀ m x ty, let r := ((Check.extendMapper m x ty).run s).run c
      ∀ u, r.2.table.Later s.nullChecks u →
        u.substitute? r.1 x = some ty ∧
        ∀ y, y ≠ x → u.substitute? r.1 y = c.table.substitute? m y) ∧
    (∀ decl m, let r := ((Check.restrictMapper decl m).run s).run c
      ∀ u, r.2.table.Later s.nullChecks u → ∀ y,
        (p.IsFree decl y → u.substitute? r.1 y = c.table.substitute? m y) ∧
        (¬p.IsFree decl y → u.substitute? r.1 y = none)) := by
  intro s
  refine ⟨?numbered, ?same, ?apart, ?extended, ?restricted⟩
  case numbered =>
    intro pairs hpairs r
    have hrun : r.1 = ((makeMapper pairs).run c.table).1 := rfl
    obtain rfl | ⟨m, hm, -⟩ := (substitute?_makeMapper c.table pairs).2
    · exact absurd rfl hpairs
    refine ⟨m, hrun.trans hm, ?_⟩
    intro u hu x
    rw [← Mapper.get?_eq_lookup, ← hm]
    exact substitute?_of_makeMapper hu.keeps.1 x
  case same =>
    -- steps in between only add to the table, so the first number can still be looked up
    intro pairs pairs' d r hd
    simp only [← Mapper.get?_eq_lookup]
    exact makeMapper_eq_iff hd.keeps.1
  case apart =>
    -- only here it counts how the table has come about: nothing is stored in it but sorted pairs
    intro m m' hm hm'
    exact (h.later.arranged arranged_initial).eq_iff hm hm'
  case extended =>
    intro m x ty r u hu
    have hputs : ∀ y, u.substitute? r.1 y = if y = x then some ty else c.table.substitute? m y :=
      substitute?_extendMapper hu.keeps.1
    constructor
    · rw [hputs, if_pos rfl]
    · intro y hy
      rw [hputs, if_neg hy]
  case restricted =>
    intro decl m r u hu y
    have hputs : u.substitute? r.1 y = if y ∈ s.free decl then c.table.substitute? m y else none :=
      substitute?_restrictMapper hu.keeps.1 y
    -- whether the parameters of the node have been worked out beforehand makes no difference
    have hfree : y ∈ s.free decl ↔ p.IsFree decl y := by
      rw [Setting.free_ofProgram, Program.mem_freeParamsAt]
    constructor
    · intro hy
      rw [hputs, if_pos (hfree.2 hy)]
    · intro hy
      rw [hputs, if_neg (mt hfree.1 hy)]

/-- The program of one file, `type A<T>={x:T}`, in which `A` is the symbol with the number 1 and `T` the
one with the number 2. -/
def genericAlias : Program :=
  let word (start : Nat) (text : String) : Tree := .token ⟨.ident, start, text⟩
  let root : Node := ⟨.node .root 0 15 [.node .typeAliasDecl 0 15 [
    word 0 "type", .token ⟨.whitespace, 4, " "⟩, .node .name 5 6 [word 5 "A"],
    .node .typeParamList 6 9 [.token ⟨.lt, 6, "<"⟩,
      .node .typeParam 7 8 [.node .name 7 8 [word 7 "T"]], .token ⟨.gt, 8, ">"⟩],
    .token ⟨.equals, 9, "="⟩,
    .node .objectType 10 15 [.token ⟨.braceOpen, 10, "\x7b"⟩,
      .node .propertySig 11 14 [.node .name 11 12 [word 11 "x"],
        .node .colonType 12 14 [.token ⟨.colon, 12, ":"⟩,
          .node .typeRef 13 14 [.node .entityName 13 14 [word 13 "T"]]]],
      .token ⟨.braceClose, 14, "\x7d"⟩]]], []⟩
  ⟨{}, {}, #[⟨⟨0⟩, root, []⟩], [], (bind [⟨⟨0⟩, root, []⟩]).symbols, [], [], []⟩

theorem freeParamsAt_genericAlias :
    genericAlias.freeParamsAt ⟨⟨0⟩, 10, 15, .objectType⟩ = [⟨2⟩] := by cbv

/-- In the object type of this file `T` is free and `A` is not. A second pair for `T` does not count, nor
does the order. -/
theorem Reachable.mappers_canonical_generic :
    let s := Setting.ofProgram genericAlias
    let pairs : List (SymbolId × TypeId) := [(⟨2⟩, .number), (⟨1⟩, .string), (⟨2⟩, .boolean)]
    let pairs' : List (SymbolId × TypeId) := [(⟨1⟩, .string), (⟨2⟩, .number)]
    let r := ((Check.makeMapper pairs).run s).run {}
    let r' := ((Check.restrictMapper ⟨⟨0⟩, 10, 15, .objectType⟩ r.1).run s).run r.2
    let r'' := ((Check.makeMapper pairs').run s).run r'.2
    Reachable s r''.2 ∧ r.1 = r''.1 ∧
      r'.2.table.substitute? r'.1 ⟨2⟩ = some .number ∧ r'.2.table.substitute? r'.1 ⟨1⟩ = none := by
  intro s pairs pairs' r r' r''
  have hr : Reachable s r.2 := .step _ .start
  have hr' : Reachable s r'.2 := .step _ hr
  obtain ⟨hnumbered, hsame, -⟩ := mappers_canonical (c := {}) (.start : Reachable s {})
  obtain ⟨-, -, -, -, hrestricted⟩ := mappers_canonical hr
  have hfree (x : SymbolId) : genericAlias.IsFree ⟨⟨0⟩, 10, 15, .objectType⟩ x ↔ x = ⟨2⟩ := by
    rw [← Program.mem_freeParamsAt, freeParamsAt_genericAlias, List.mem_singleton]
  refine ⟨.step _ hr', ?_, ?_, ?_⟩
  · refine (hsame pairs pairs' r'.2 ((Check.restrictMapper _ _).later s r.2)).2 ?_
    intro x
    by_cases hT : x = ⟨2⟩
    · rw [hT]
      decide
    by_cases hA : x = ⟨1⟩
    · rw [hA]
      decide
    · simp only [pairs, pairs', List.lookup_cons, beq_false_of_ne hT, beq_false_of_ne hA]
  · obtain ⟨m, hm, hputs⟩ := hnumbered pairs (List.cons_ne_nil _ _)
    have hm' : r.1 = some m := hm
    rw [(hrestricted _ _ _ (.refl _) _).1 ((hfree _).2 rfl), hm']
    exact hputs _ (.refl _) _
  · exact (hrestricted _ _ _ (.refl _) _).2 (by rw [hfree]; decide)

end Checker

end DeclKit

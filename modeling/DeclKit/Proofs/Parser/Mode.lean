/-
The mode of the parser.

Two parts of the state say where the parser is in a type: how deep types are nested, and whether what is
read is the `extends` operand of a conditional type, where another conditional type is not allowed.
Brackets put the flag back to what it was; a conditional type sets it to what it takes it to have been.
Either way a production leaves the mode as it has found it, so that no type can change how a later one is
read.

Where conditional types are opened is no matter of the state that is left behind, so the parser writes a
history. A composed step either keeps the mode wherever it is taken or is taken only where conditional
types are allowed, and that is enough for an induction on how steps are composed.
-/
import DeclKit.Proofs.Limits.Account

set_option autoImplicit false

namespace DeclKit.Parser

open Kind

/-! ## States of one mode -/

/-- The second state is in the mode of the first, and its history goes on from there, with conditional
types opened only outside of `extends` operands. -/
structure Kept (s s' : State) : Prop where
  depth_eq : s'.depth = s.depth
  inExtends_eq : s'.inExtends = s.inExtends
  openings_eq : ∃ new, s'.openings = new ++ s.openings ∧
    ∀ o ∈ new, o.1 = conditionalType → o.2 = false

section Kept

variable {s s' s'' : State}

theorem Kept.of_eq (hdepth : s'.depth = s.depth) (hmode : s'.inExtends = s.inExtends)
    (hopenings : s'.openings = s.openings) : Kept s s' :=
  ⟨hdepth, hmode, [], hopenings, fun _ ho => absurd ho List.not_mem_nil⟩

theorem Kept.refl (s : State) : Kept s s := .of_eq rfl rfl rfl

theorem Kept.trans (h : Kept s s') (h' : Kept s' s'') : Kept s s'' where
  depth_eq := h'.depth_eq.trans h.depth_eq
  inExtends_eq := h'.inExtends_eq.trans h.inExtends_eq
  openings_eq := by
    obtain ⟨new, hnew, hall⟩ := h.openings_eq
    obtain ⟨new', hnew', hall'⟩ := h'.openings_eq
    refine ⟨new' ++ new, by rw [hnew', hnew, List.append_assoc], fun o ho => ?_⟩
    rcases List.mem_append.1 ho with ho | ho
    · exact hall' o ho
    · exact hall o ho

/-- A node is opened: a conditional type only outside of an `extends` operand. -/
theorem Kept.opening {k : Kind} (m : Nat) (hk : restricted k = true → s.inExtends = false) :
    Kept s (s.opening k m) where
  depth_eq := rfl
  inExtends_eq := rfl
  openings_eq := by
    refine ⟨[(k, s.inExtends)], rfl, fun o ho hconditional => ?_⟩
    obtain rfl := List.mem_singleton.1 ho
    exact hk (congrArg restricted hconditional)

theorem Kept.openNode {k : Kind} (hk : restricted k = true → s.inExtends = false) :
    Kept s (openNode k s).2 := by
  have hplace : Kept s (placeTrivia s).2 := .of_eq rfl rfl rfl
  exact hplace.trans (.opening (placeTrivia s).2.row.size hk)

theorem Kept.openAt {k : Kind} (m : Nat) (hk : restricted k = true → s.inExtends = false) :
    Kept s (openAt m k s).2 := by
  obtain ⟨-, fault, -, heq⟩ := openAt_after m k s
  have hopen : Kept s (s.opening k m) := .opening m hk
  rw [heq]
  exact ⟨hopen.depth_eq, hopen.inExtends_eq, hopen.openings_eq⟩

theorem Kept.closeNode (count : Nat) (s : State) : Kept s (closeNode count s).2 := by
  have hclosed (t : State) : Kept t t.closed := by
    unfold State.closed
    split <;> exact .of_eq rfl rfl rfl
  change Kept s ((if s.opened.length != count then _ else _ : Parse Unit) s).2
  split
  · have hraise : Kept s (raise .unbalanced s).2 := .of_eq rfl rfl rfl
    exact hraise.trans (hclosed _)
  · exact hclosed s

theorem Kept.report (kind : DiagnosticKind) (args : List String) (s : State) :
    Kept s (reportWith kind args s).2 := by
  obtain ⟨-, heq⟩ | ⟨-, heq⟩ := reportWith_cases kind args s
  all_goals
    rw [heq]
    exact .of_eq rfl rfl rfl

theorem Kept.bump (s : State) : Kept s (bump s).2 := by
  obtain ⟨-, heq⟩ | ⟨-, spent, failure, -, heq⟩ := bump_cases s
  all_goals
    rw [heq]
    exact .of_eq rfl rfl rfl

/-- What is done with the flag set to something is no matter once it has its value again. -/
theorem Kept.withMode {flag : Bool} (h : Kept { s with inExtends := flag } s') :
    Kept s { s' with inExtends := s.inExtends } :=
  ⟨h.depth_eq, rfl, h.openings_eq⟩

/-- A nested type that is refused changes nothing, and one that is read comes back up. -/
theorem Kept.nested {type : Parse Bool} (h : ∀ t, Kept t (typeHere type t).2) (s : State) :
    Kept s (typeWith type s).2 := by
  obtain ⟨-, -, -, heq⟩ | ⟨-, heq⟩ := typeWith_cases type s
  · rw [heq]
    exact .of_eq rfl rfl rfl
  · rw [heq]
    let entered : State := { s with depth := s.depth + 1, patience := fullPatience }
    obtain ⟨hdepth, hmode, hopenings⟩ := h entered
    refine ⟨?_, hmode, hopenings⟩
    change (typeHere type entered).2.depth - 1 = s.depth
    rw [hdepth]
    rfl

end Kept

/-- A composed step keeps the mode; one that is taken only where conditional types are allowed does where
they are. -/
theorem Composed.kept {α : Type} {allowed : Bool} {m a c : Nat} {p : Parse α}
    (h : Composed allowed m a c p) {s : State} (hs : allowed = true → s.inExtends = false) :
    Kept s (p s).2 := by
  induction h generalizing s with
  | pure => exact .refl s
  | step _ _ hp hf =>
    have hfirst := hp hs
    exact hfirst.trans (hf s fun h => hfirst.inExtends_eq.trans (hs h))
  | weaken _ _ _ hp => exact hp hs
  | read _ _ hf => exact hf s hs
  | adjust hg =>
    obtain ⟨_, _, heq⟩ := hg.only s
    rw [modify_apply, heq]
    exact .of_eq rfl rfl rfl
  | report => exact .report _ _ s
  | skipTrivia => exact .of_eq rfl rfl rfl
  | placeTrivia => exact .of_eq rfl rfl rfl
  | atEnd => exact .of_eq rfl rfl rfl
  | bump => exact .bump s
  | within _ _ _ hk hp =>
    have hopen := Kept.openNode (s := s) fun h => absurd h (Bool.eq_false_iff.1 hk)
    exact hopen.trans ((hp 0 nofun).trans (.closeNode _ _))
  | marked _ _ hf =>
    have hmark : Kept s (mark s).2 := .of_eq rfl rfl rfl
    exact hmark.trans (hf _ nofun)
  | @withinFrom _ _ m _ _ _ _ _ _ _ hk hp =>
    have hopen := Kept.openAt m fun h => hs (hk h)
    refine hopen.trans ((hp fun h => ?_).trans (.closeNode _ _))
    exact hopen.inExtends_eq.trans (hs h)
  | nested _ hp => exact .nested (fun _ => hp 0 nofun) s
  | lift _ hp => exact hp nofun
  | allowing _ hp => exact (hp fun _ => rfl).withMode
  | @choice _ _ _ _ p q _ _ hp hq =>
    change Kept s ((if s.inExtends then p else q) s).2
    split
    · exact hp nofun
    · rename_i hoff
      exact hq fun _ => by simpa using hoff
  | forbidding _ _ hp hq =>
    -- the flag is set to what it was, because it was off
    have hfirst := (hp (s := { s with inExtends := true }) nofun).withMode
    rw [hs rfl] at hfirst
    exact hfirst.trans (hq fun _ => rfl)

/-! ## Productions -/

/-- A step that keeps the mode, whatever state it is taken in. -/
def Keeps {α : Type} (p : Parse α) : Prop := ∀ s, Kept s (p s).2

theorem Stacks.keeps {α : Type} {n : Nat} {p : Parse α} (h : Stacks n p) : Keeps p :=
  fun _ => (h 0).kept nofun

/-- A production for types keeps the mode, and so do all that read their parts by it. -/
structure ModeKept (type : Parse Bool) : Prop where
  itself : Keeps type
  nested : Keeps (typeWith type)
  here : Keeps (typeHere type)
  functionType : Keeps (functionType type)
  constructorType : Keeps (constructorType type)
  conditionalOrUnion : Keeps (conditionalOrUnion type)
  union : Keeps (union type)
  intersection : Keeps (intersection type)
  operatorType : ∀ count, Keeps (operatorType type count)
  postfixType : Keeps (postfixType type)
  bracketSuffix : ∀ start, Keeps (bracketSuffix type start)
  primaryType : Keeps (primaryType type)
  typeReference : Keeps (typeReference type)
  typeQuery : Keeps (typeQuery type)
  templateType : Keeps (templateType type)
  tupleType : Keeps (tupleType type)
  tupleElement : Keeps (tupleElement type)
  mappedType : Keeps (mappedType type)
  parenthesizedType : Keeps (parenthesizedType type)
  objectType : Keeps (objectType type)
  members : Keeps (members type)
  member : Keeps (member type)
  memberRest : ∀ start, Keeps (memberRest type start)
  signatureRest : Keeps (signatureRest type)
  params : Keeps (params type)
  param : Keeps (param type)
  typeParams : Keeps (typeParams type)
  typeParam : Keeps (typeParam type)
  typeArgs : Keeps (typeArgs type)
  typeOrPredicate : Keeps (typeOrPredicate type)
  colonType : Keeps (colonType type)
  returnType : Keeps (returnType type)

theorem Flat.modeKept {type : Parse Bool} (ht : Flat type) : ModeKept type where
  itself := (ht 0).keeps
  nested := (typeWith_flat ht 0).keeps
  here := (typeHere_stacks ht).keeps
  functionType := (functionType_stacks ht (Nat.le_refl _)).keeps
  constructorType := (constructorType_stacks ht (Nat.le_refl _)).keeps
  conditionalOrUnion := (conditionalOrUnion_stacks ht (Nat.le_refl _)).keeps
  union := (union_stacks ht (Nat.le_refl _)).keeps
  intersection := (intersection_stacks ht (Nat.le_refl _)).keeps
  operatorType count := (operatorType_stacks ht (Nat.le_refl _) count).keeps
  postfixType := (postfixType_stacks ht (Nat.le_refl _)).keeps
  bracketSuffix _ _ := (bracketSuffix_composed ht (n := 0)).kept nofun
  primaryType := (primaryType_stacks ht (Nat.le_refl _)).keeps
  typeReference := (typeReference_stacks ht (Nat.le_refl _)).keeps
  typeQuery := (typeQuery_stacks ht (Nat.le_refl _)).keeps
  templateType := (templateType_stacks ht (Nat.le_refl _)).keeps
  tupleType := (tupleType_stacks ht (Nat.le_refl _)).keeps
  tupleElement := (tupleElement_stacks ht (Nat.le_refl _)).keeps
  mappedType := (mappedType_stacks ht (Nat.le_refl _)).keeps
  parenthesizedType := (parenthesizedType_stacks ht (Nat.le_refl _)).keeps
  objectType := (objectType_stacks ht (Nat.le_refl _)).keeps
  members := (members_stacks ht (Nat.le_refl _)).keeps
  member := (member_stacks ht (Nat.le_refl _)).keeps
  memberRest _ _ := (memberRest_composed ht (Nat.le_refl _)).kept nofun
  signatureRest := (signatureRest_stacks ht (Nat.le_refl _)).keeps
  params := (params_stacks ht (Nat.le_refl _)).keeps
  param := (param_stacks ht (Nat.le_refl _)).keeps
  typeParams := (typeParams_stacks ht (Nat.le_refl _)).keeps
  typeParam := (typeParam_stacks ht (Nat.le_refl _)).keeps
  typeArgs := (typeArgs_stacks ht (Nat.le_refl _)).keeps
  typeOrPredicate := (typeOrPredicate_stacks ht (Nat.le_refl _)).keeps
  colonType := (colonType_stacks ht (Nat.le_refl _)).keeps
  returnType := (returnType_stacks ht (Nat.le_refl _)).keeps

/-- Every production of types leaves the mode as it has found it, with whatever tokens and limits and in
whatever state it is taken, at any depth that is allowed: the nesting and the flag for `extends` operands
are what they were, and a conditional type was opened only where the flag was off. -/
theorem types_keep_mode : (∀ n, ModeKept (typeAt n)) ∧ ModeKept type :=
  ⟨fun n => (typeAt_flat n).modeKept, type_flat.modeKept⟩

/-- A parse of a file ends outside of all types, and has opened conditional types only outside of
`extends` operands. -/
theorem afterFile_mode (source : SourceId) (limits : Limits) (text : String) :
    let s := State.afterFile source limits text
    s.depth = 0 ∧ s.inExtends = false ∧ ∀ o ∈ s.openings, o.1 = conditionalType → o.2 = false := by
  obtain ⟨hdepth, hmode, new, hnew, hall⟩ :=
    file_composed.kept (s := State.start source limits text) nofun
  refine ⟨hdepth, hmode, fun o ho => hall o ?_⟩
  rw [State.afterFile, hnew] at ho
  exact (List.append_nil new) ▸ ho

/-- The history tells of the conditional types of a text. -/
example : (State.afterFile ⟨0⟩ .standard "type X=A extends B?C:D;").openings.filter
    (·.1 == conditionalType) = [(conditionalType, false)] := by
  have hlex : Token.lex "type X=A extends B?C:D;" =
      [⟨.ident, 0, "type"⟩, ⟨.whitespace, 4, " "⟩, ⟨.ident, 5, "X"⟩, ⟨.equals, 6, "="⟩,
        ⟨.ident, 7, "A"⟩, ⟨.whitespace, 8, " "⟩, ⟨.kwExtends, 9, "extends"⟩, ⟨.whitespace, 16, " "⟩,
        ⟨.ident, 17, "B"⟩, ⟨.question, 18, "?"⟩, ⟨.ident, 19, "C"⟩, ⟨.colon, 20, ":"⟩,
        ⟨.ident, 21, "D"⟩, ⟨.semicolon, 22, ";"⟩] := by
    cbv
  rw [State.afterFile, State.start, hlex]
  decide +kernel

end DeclKit.Parser

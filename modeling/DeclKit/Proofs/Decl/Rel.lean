/-
Declaration trees that are the same but for their types.

Each structure that holds types has a relation that lifts a relation between types: names,
modifiers, origins, numbers of parts and which types are missing are the same on both sides, and the
types that stand at one place are related. `Rewritten` closes such a relation under the forms of
types: a type is replaced, or it is kept, with its origin, and its parts are rewritten. If nothing
may be replaced then nothing differs, for a part that comes back as it was is not put in parentheses.
A part that comes back different is put in parentheses where its position asks for them, so a tree in
which every type stands as its form needs it stays such a tree.
-/
import DeclKit.Decl.Edit
import Mathlib.Data.List.Forall2

set_option autoImplicit false

namespace DeclKit.Decl

/-! ## Parts that hold types -/

section

variable {α β : Type}

/-- Type parameters that differ in their types only. -/
inductive TypeParam.Rel (r : α → β → Prop) : TypeParam α → TypeParam β → Prop where
  | mk {name isConst c d c' d'} : Option.Rel r c c' → Option.Rel r d d' →
      TypeParam.Rel r ⟨name, isConst, c, d⟩ ⟨name, isConst, c', d'⟩

/-- Parameters that differ in their types only. -/
inductive Param.Rel (r : α → β → Prop) : Param α → Param β → Prop where
  | mk {rest name optional t t'} : Option.Rel r t t' →
      Param.Rel r ⟨rest, name, optional, t⟩ ⟨rest, name, optional, t'⟩

/-- Signatures that differ in their types only. -/
inductive Signature.Rel (r : α → β → Prop) : Signature α → Signature β → Prop where
  | mk {ts ps t ts' ps' t'} : List.Forall₂ (TypeParam.Rel r) ts ts' →
      List.Forall₂ (Param.Rel r) ps ps' → Option.Rel r t t' →
      Signature.Rel r ⟨ts, ps, t⟩ ⟨ts', ps', t'⟩

/-- Members that differ in their types only. -/
inductive Member.Rel (r : α → β → Prop) : Member α → Member β → Prop where
  | property {origin readonly name optional t t'} : Option.Rel r t t' →
      Member.Rel r (.property origin readonly name optional t)
        (.property origin readonly name optional t')
  | method {origin name optional s s'} : Signature.Rel r s s' →
      Member.Rel r (.method origin name optional s) (.method origin name optional s')
  | call {origin s s'} : Signature.Rel r s s' → Member.Rel r (.call origin s) (.call origin s')
  | construct {origin s s'} : Signature.Rel r s s' →
      Member.Rel r (.construct origin s) (.construct origin s')
  | index {origin readonly param k k' t t'} : r k k' → r t t' →
      Member.Rel r (.index origin readonly param k t) (.index origin readonly param k' t')

/-- Spans of a template that differ in their types only. -/
inductive TemplateSpan.Rel (r : α → β → Prop) : TemplateSpan α → TemplateSpan β → Prop where
  | mk {t t' text} : r t t' → TemplateSpan.Rel r ⟨t, text⟩ ⟨t', text⟩

/-- Elements of a tuple that differ in their types only. -/
inductive TupleItem.Rel (r : α → β → Prop) : TupleItem α → TupleItem β → Prop where
  | mk {kind name t t'} : r t t' → TupleItem.Rel r ⟨kind, name, t⟩ ⟨kind, name, t'⟩

/-- Mapped types that differ in their types only. -/
inductive Mapped.Rel (r : α → β → Prop) : Mapped α → Mapped β → Prop where
  | mk {readonly param c n optional t c' n' t'} : r c c' → Option.Rel r n n' → Option.Rel r t t' →
      Mapped.Rel r ⟨readonly, param, c, n, optional, t⟩ ⟨readonly, param, c', n', optional, t'⟩

end

/-! ## Types -/

/-- One form of types on both sides, with parts that are related at their positions. -/
inductive TypeForm.Rel (r : Position → TypeNode → TypeNode → Prop) : TypeForm → TypeForm → Prop where
  | keyword {k} : TypeForm.Rel r (.keyword k) (.keyword k)
  | literal {text} : TypeForm.Rel r (.literal text) (.literal text)
  | this : TypeForm.Rel r .this .this
  | template {head ss ss'} : List.Forall₂ (TemplateSpan.Rel (r .any)) ss ss' →
      TypeForm.Rel r (.template head ss) (.template head ss')
  | reference {name as as'} : List.Forall₂ (r .any) as as' →
      TypeForm.Rel r (.reference name as) (.reference name as')
  | imported {module qualifier as as'} : List.Forall₂ (r .any) as as' →
      TypeForm.Rel r (.imported module qualifier as) (.imported module qualifier as')
  | union {ts ts'} : List.Forall₂ (r .member) ts ts' → TypeForm.Rel r (.union ts) (.union ts')
  | intersection {ts ts'} : List.Forall₂ (r .member) ts ts' →
      TypeForm.Rel r (.intersection ts) (.intersection ts')
  | array {t t'} : r .postfix_ t t' → TypeForm.Rel r (.array t) (.array t')
  | tuple {is is'} : List.Forall₂ (TupleItem.Rel (r .any)) is is' →
      TypeForm.Rel r (.tuple is) (.tuple is')
  | paren {t t'} : r .any t t' → TypeForm.Rel r (.paren t) (.paren t')
  | function {s s'} : Signature.Rel (r .any) s s' → TypeForm.Rel r (.function s) (.function s')
  | constructor {isAbstract s s'} : Signature.Rel (r .any) s s' →
      TypeForm.Rel r (.constructor isAbstract s) (.constructor isAbstract s')
  | object {ms ms'} : List.Forall₂ (Member.Rel (r .any)) ms ms' →
      TypeForm.Rel r (.object ms) (.object ms')
  | mapped {m m'} : Mapped.Rel (r .any) m m' → TypeForm.Rel r (.mapped m) (.mapped m')
  | indexed {t t' i i'} : r .postfix_ t t' → r .any i i' →
      TypeForm.Rel r (.indexed t i) (.indexed t' i')
  | operator {op t t'} : r op.position t t' → TypeForm.Rel r (.operator op t) (.operator op t')
  | query {name as as'} : List.Forall₂ (r .any) as as' →
      TypeForm.Rel r (.query name as) (.query name as')
  | conditional {a b c d a' b' c' d'} : r .check a a' → r .extends_ b b' → r .any c c' →
      r .any d d' → TypeForm.Rel r (.conditional a b c d) (.conditional a' b' c' d')
  | infer {name c c'} : Option.Rel (r .any) c c' →
      TypeForm.Rel r (.infer name c) (.infer name c')
  | predicate {asserts param t t'} : Option.Rel (r .any) t t' →
      TypeForm.Rel r (.predicate asserts param t) (.predicate asserts param t')

/-- A type at a position and what has become of it: it is replaced as `R` allows, or it is kept and
its parts are rewritten. Either way it stands as its position needs it if it has changed. -/
inductive Rewritten (R : TypeNode → TypeNode → Prop) : Position → TypeNode → TypeNode → Prop where
  | replaced {p t u} : R t u → Rewritten R p t (settle p t u)
  | kept {p f g origin} : TypeForm.Rel (Rewritten R) f g →
      Rewritten R p (.mk f origin) (settle p (.mk f origin) (.mk g origin))

/-! ## A type is the same as itself -/

mutual

theorem TypeNode.same_self (t : TypeNode) : t.same t = true := by
  match t with
  | .mk f o => simp [TypeNode.same, f.same_self]

theorem TypeForm.same_self (f : TypeForm) : f.same f = true := by
  match f with
  | .keyword _ | .literal _ | .this => simp [TypeForm.same]
  | .template _ ss => simp [TypeForm.same, sameSpans_self ss]
  | .reference _ ts | .imported _ _ ts | .query _ ts => simp [TypeForm.same, sameTypes_self ts]
  | .union ts | .intersection ts => simp [TypeForm.same, sameTypes_self ts]
  | .array t | .paren t | .operator _ t => simp [TypeForm.same, t.same_self]
  | .tuple is => simp [TypeForm.same, sameItems_self is]
  | .function s | .constructor _ s => simp [TypeForm.same, sameSignature_self s]
  | .object ms => simp [TypeForm.same, sameMembers_self ms]
  | .mapped ⟨_, _, c, n, _, t⟩ =>
    simp [TypeForm.same, c.same_self, sameOption_self n, sameOption_self t]
  | .indexed t i => simp [TypeForm.same, t.same_self, i.same_self]
  | .conditional a b c d =>
    simp [TypeForm.same, a.same_self, b.same_self, c.same_self, d.same_self]
  | .infer _ t | .predicate _ _ t => simp [TypeForm.same, sameOption_self t]

theorem sameTypes_self (ts : List TypeNode) : sameTypes ts ts = true := by
  match ts with
  | [] => rw [sameTypes]
  | t :: ts => simp [sameTypes, t.same_self, sameTypes_self ts]

theorem sameOption_self (t : Option TypeNode) : sameOption t t = true := by
  match t with
  | none => rw [sameOption]
  | some t => rw [sameOption, t.same_self]

theorem sameSpans_self (ss : List (TemplateSpan TypeNode)) : sameSpans ss ss = true := by
  match ss with
  | [] => rw [sameSpans]
  | ⟨t, _⟩ :: ss => simp [sameSpans, t.same_self, sameSpans_self ss]

theorem sameItems_self (is : List (TupleItem TypeNode)) : sameItems is is = true := by
  match is with
  | [] => rw [sameItems]
  | ⟨_, _, t⟩ :: is => simp [sameItems, t.same_self, sameItems_self is]

theorem sameSignature_self (s : Signature TypeNode) : sameSignature s s = true := by
  match s with
  | ⟨ts, ps, r⟩ =>
    simp [sameSignature, sameTypeParams_self ts, sameParams_self ps, sameOption_self r]

theorem sameTypeParams_self (ts : List (TypeParam TypeNode)) : sameTypeParams ts ts = true := by
  match ts with
  | [] => rw [sameTypeParams]
  | ⟨_, _, c, d⟩ :: ts =>
    simp [sameTypeParams, sameOption_self c, sameOption_self d, sameTypeParams_self ts]

theorem sameParams_self (ps : List (Param TypeNode)) : sameParams ps ps = true := by
  match ps with
  | [] => rw [sameParams]
  | ⟨_, _, _, t⟩ :: ps => simp [sameParams, sameOption_self t, sameParams_self ps]

theorem sameMember_self (m : Member TypeNode) : sameMember m m = true := by
  match m with
  | .property _ _ _ _ t => simp [sameMember, sameOption_self t]
  | .method _ _ _ s | .call _ s | .construct _ s => simp [sameMember, sameSignature_self s]
  | .index _ _ _ k t => simp [sameMember, k.same_self, t.same_self]

theorem sameMembers_self (ms : List (Member TypeNode)) : sameMembers ms ms = true := by
  match ms with
  | [] => rw [sameMembers]
  | m :: ms => simp [sameMembers, sameMember_self m, sameMembers_self ms]

end

instance : ReflBEq TypeNode := ⟨fun {t} => t.same_self⟩

/-! ## Parts at their positions -/

/-- A part that has not changed is left alone, whatever its position. -/
@[simp]
theorem settle_self (p : Position) (t : TypeNode) : settle p t t = t := by
  rw [settle, beq_self_eq_true, if_pos rfl]

/-- Where every type may stand no parentheses are needed. -/
@[simp]
theorem settle_any (t u : TypeNode) : settle .any t u = u := by
  rw [settle, TypeNode.atPosition, Position.encloses, if_neg Bool.false_ne_true, ite_self]

/-! ## Nothing is replaced -/

variable {R : TypeNode → TypeNode → Prop}

mutual

/-- If no type may be replaced, what has become of a type is that type. -/
theorem Rewritten.eq {p : Position} {t u : TypeNode} (hR : ∀ a b, ¬R a b)
    (h : Rewritten R p t u) : u = t := by
  match t, u, h with
  | .mk _ _, _, .replaced h => exact absurd h (hR _ _)
  | .mk f o, _, .kept h => rw [TypeForm.Rel.eq hR h, settle_self]
termination_by structural t

theorem TypeForm.Rel.eq {f g : TypeForm} (hR : ∀ a b, ¬R a b)
    (h : TypeForm.Rel (Rewritten R) f g) : g = f := by
  match f, g, h with
  | .keyword _, _, .keyword | .literal _, _, .literal | .this, _, .this => rfl
  | .template _ ss, _, .template h => rw [eq_of_spans hR h]
  | .reference _ ts, _, .reference h | .imported _ _ ts, _, .imported h | .query _ ts, _, .query h =>
    rw [eq_of_types hR h]
  | .union ts, _, .union h | .intersection ts, _, .intersection h => rw [eq_of_types hR h]
  | .array t, _, .array h | .paren t, _, .paren h | .operator _ t, _, .operator h =>
    rw [Rewritten.eq hR h]
  | .tuple is, _, .tuple h => rw [eq_of_items hR h]
  | .function s, _, .function h | .constructor _ s, _, .constructor h => rw [eq_of_signature hR h]
  | .object ms, _, .object h => rw [eq_of_members hR h]
  | .mapped ⟨_, _, c, n, _, t⟩, _, .mapped (.mk hc hn ht) =>
    rw [Rewritten.eq hR hc, eq_of_option hR hn, eq_of_option hR ht]
  | .indexed t i, _, .indexed ht hi => rw [Rewritten.eq hR ht, Rewritten.eq hR hi]
  | .conditional a b c d, _, .conditional ha hb hc hd =>
    rw [Rewritten.eq hR ha, Rewritten.eq hR hb, Rewritten.eq hR hc, Rewritten.eq hR hd]
  | .infer _ t, _, .infer h | .predicate _ _ t, _, .predicate h => rw [eq_of_option hR h]
termination_by structural f

theorem eq_of_types {p : Position} {ts us : List TypeNode} (hR : ∀ a b, ¬R a b)
    (h : List.Forall₂ (Rewritten R p) ts us) : us = ts := by
  match ts, us, h with
  | [], _, .nil => rfl
  | t :: ts, _, .cons h hs => rw [Rewritten.eq hR h, eq_of_types hR hs]
termination_by structural ts

theorem eq_of_option {p : Position} {t u : Option TypeNode} (hR : ∀ a b, ¬R a b)
    (h : Option.Rel (Rewritten R p) t u) : u = t := by
  match t, u, h with
  | none, _, .none => rfl
  | some t, _, .some h => rw [Rewritten.eq hR h]
termination_by structural t

theorem eq_of_spans {p : Position} {ss us : List (TemplateSpan TypeNode)} (hR : ∀ a b, ¬R a b)
    (h : List.Forall₂ (TemplateSpan.Rel (Rewritten R p)) ss us) : us = ss := by
  match ss, us, h with
  | [], _, .nil => rfl
  | ⟨t, _⟩ :: ss, _, .cons (.mk h) hs => rw [Rewritten.eq hR h, eq_of_spans hR hs]
termination_by structural ss

theorem eq_of_items {p : Position} {is us : List (TupleItem TypeNode)} (hR : ∀ a b, ¬R a b)
    (h : List.Forall₂ (TupleItem.Rel (Rewritten R p)) is us) : us = is := by
  match is, us, h with
  | [], _, .nil => rfl
  | ⟨_, _, t⟩ :: is, _, .cons (.mk h) hs => rw [Rewritten.eq hR h, eq_of_items hR hs]
termination_by structural is

theorem eq_of_signature {p : Position} {s u : Signature TypeNode} (hR : ∀ a b, ¬R a b)
    (h : Signature.Rel (Rewritten R p) s u) : u = s := by
  match s, u, h with
  | ⟨ts, ps, r⟩, _, .mk hts hps hr =>
    rw [eq_of_typeParams hR hts, eq_of_params hR hps, eq_of_option hR hr]
termination_by structural s

theorem eq_of_typeParams {p : Position} {ts us : List (TypeParam TypeNode)}
    (hR : ∀ a b, ¬R a b) (h : List.Forall₂ (TypeParam.Rel (Rewritten R p)) ts us) : us = ts := by
  match ts, us, h with
  | [], _, .nil => rfl
  | ⟨_, _, c, d⟩ :: ts, _, .cons (.mk hc hd) hs =>
    rw [eq_of_option hR hc, eq_of_option hR hd, eq_of_typeParams hR hs]
termination_by structural ts

theorem eq_of_params {p : Position} {ps us : List (Param TypeNode)} (hR : ∀ a b, ¬R a b)
    (h : List.Forall₂ (Param.Rel (Rewritten R p)) ps us) : us = ps := by
  match ps, us, h with
  | [], _, .nil => rfl
  | ⟨_, _, _, t⟩ :: ps, _, .cons (.mk h) hs => rw [eq_of_option hR h, eq_of_params hR hs]
termination_by structural ps

theorem eq_of_member {p : Position} {m u : Member TypeNode} (hR : ∀ a b, ¬R a b)
    (h : Member.Rel (Rewritten R p) m u) : u = m := by
  match m, u, h with
  | .property _ _ _ _ t, _, .property h => rw [eq_of_option hR h]
  | .method _ _ _ s, _, .method h | .call _ s, _, .call h | .construct _ s, _, .construct h =>
    rw [eq_of_signature hR h]
  | .index _ _ _ k t, _, .index hk ht => rw [Rewritten.eq hR hk, Rewritten.eq hR ht]
termination_by structural m

theorem eq_of_members {p : Position} {ms us : List (Member TypeNode)} (hR : ∀ a b, ¬R a b)
    (h : List.Forall₂ (Member.Rel (Rewritten R p)) ms us) : us = ms := by
  match ms, us, h with
  | [], _, .nil => rfl
  | m :: ms, _, .cons h hs => rw [eq_of_member hR h, eq_of_members hR hs]
termination_by structural ms

end

/-! ## Statements -/

/-- Type aliases that differ in their types only. -/
inductive TypeAlias.Rel (r : TypeNode → TypeNode → Prop) : TypeAlias → TypeAlias → Prop where
  | mk {origin modifiers name ts t ts' t'} : List.Forall₂ (TypeParam.Rel r) ts ts' → r t t' →
      TypeAlias.Rel r ⟨origin, modifiers, name, ts, t⟩ ⟨origin, modifiers, name, ts', t'⟩

/-- Variables that differ in their types only. -/
inductive Variable.Rel (r : TypeNode → TypeNode → Prop) : Variable → Variable → Prop where
  | mk {name initializer t t'} : Option.Rel r t t' →
      Variable.Rel r ⟨name, t, initializer⟩ ⟨name, t', initializer⟩

/-- Statements that differ in their types only; of type aliases `aliases` says what differs. -/
inductive Statement.Rel (r : TypeNode → TypeNode → Prop) (aliases : TypeAlias → TypeAlias → Prop) :
    Statement → Statement → Prop where
  | importing {s} : Statement.Rel r aliases (.importing s) (.importing s)
  | exporting {s} : Statement.Rel r aliases (.exporting s) (.exporting s)
  | assignment {s} : Statement.Rel r aliases (.assignment s) (.assignment s)
  | typeAlias {a b} : aliases a b → Statement.Rel r aliases (.typeAlias a) (.typeAlias b)
  | interface {origin modifiers name ts ts' hs hs' ms ms'} :
      List.Forall₂ (TypeParam.Rel r) ts ts' → List.Forall₂ r hs hs' →
      List.Forall₂ (Member.Rel r) ms ms' →
      Statement.Rel r aliases (.interface ⟨origin, modifiers, name, ts, hs, ms⟩)
        (.interface ⟨origin, modifiers, name, ts', hs', ms'⟩)
  | function {origin modifiers name s s'} : Signature.Rel r s s' →
      Statement.Rel r aliases (.function ⟨origin, modifiers, name, s⟩)
        (.function ⟨origin, modifiers, name, s'⟩)
  | variableList {origin modifiers keyword vs vs'} : List.Forall₂ (Variable.Rel r) vs vs' →
      Statement.Rel r aliases (.variableList ⟨origin, modifiers, keyword, vs⟩)
        (.variableList ⟨origin, modifiers, keyword, vs'⟩)

/-- Files of one source with as many statements, which differ in their types only. -/
inductive File.Rel (r : TypeNode → TypeNode → Prop) (aliases : TypeAlias → TypeAlias → Prop) :
    File → File → Prop where
  | mk {source ss ss'} : List.Forall₂ (Statement.Rel r aliases) ss ss' →
      File.Rel r aliases ⟨source, ss⟩ ⟨source, ss'⟩

/-- An alias of which no type may be replaced stays as it is. -/
theorem TypeAlias.Rel.eq {p : Position} {a b : TypeAlias} (hR : ∀ a b, ¬R a b)
    (h : TypeAlias.Rel (Rewritten R p) a b) : b = a := by
  obtain ⟨hts, ht⟩ := h
  rw [eq_of_typeParams hR hts, ht.eq hR]

theorem eq_of_variables {p : Position} {vs us : List Variable} (hR : ∀ a b, ¬R a b)
    (h : List.Forall₂ (Variable.Rel (Rewritten R p)) vs us) : us = vs := by
  induction h with
  | nil => rfl
  | cons h _ ih =>
    obtain ⟨h⟩ := h
    rw [eq_of_option hR h, ih]

/-- A statement stays as it is if no type may be replaced and, where it is an alias, that alias
stays as it is. -/
theorem Statement.Rel.eq {p : Position} {aliases : TypeAlias → TypeAlias → Prop} {s s' : Statement}
    (hR : ∀ a b, ¬R a b) (halias : ∀ a b, s = .typeAlias a → aliases a b → b = a)
    (h : Statement.Rel (Rewritten R p) aliases s s') : s' = s := by
  cases h with
  | importing | exporting | assignment => rfl
  | typeAlias h => rw [halias _ _ rfl h]
  | interface hts hhs hms => rw [eq_of_typeParams hR hts, eq_of_types hR hhs, eq_of_members hR hms]
  | function h => rw [eq_of_signature hR h]
  | variableList h => rw [eq_of_variables hR h]

/-- A file stays as it is if no type may be replaced and its aliases stay as they are. -/
theorem File.Rel.eq {p : Position} {aliases : TypeAlias → TypeAlias → Prop} {f g : File}
    (hR : ∀ a b, ¬R a b) (halias : ∀ a b, .typeAlias a ∈ f.statements → aliases a b → b = a)
    (h : File.Rel (Rewritten R p) aliases f g) : g = f := by
  obtain ⟨hs⟩ := h
  congr 1
  induction hs with
  | nil => rfl
  | cons hs _ ih =>
    rw [hs.eq hR fun a b ha => halias a b (ha ▸ List.mem_cons_self),
      ih fun a b ha => halias a b (List.mem_cons_of_mem _ ha)]

/-! ## Types at their positions -/

section

variable {α : Type}

/-- The types of a type parameter. -/
def TypeParam.types (p : TypeParam α) : List α := p.constraint.toList ++ p.default.toList

/-- The types of a signature. -/
def Signature.types (s : Signature α) : List α :=
  s.typeParams.flatMap TypeParam.types ++ (s.params.flatMap (·.type.toList) ++ s.returns.toList)

/-- The types of a member. -/
def Member.types : Member α → List α
  | .property _ _ _ _ t => t.toList
  | .method _ _ _ s | .call _ s | .construct _ s => s.types
  | .index _ _ _ k t => [k, t]

end

/-- The parts of a form, each with the position that it stands at. -/
def TypeForm.parts : TypeForm → List (Position × TypeNode)
  | .keyword _ | .literal _ | .this => []
  | .template _ ss => ss.map fun s => (.any, s.type)
  | .reference _ ts | .imported _ _ ts | .query _ ts => ts.map ((.any, ·))
  | .union ts | .intersection ts => ts.map ((.member, ·))
  | .array t => [(.postfix_, t)]
  | .tuple is => is.map fun i => (.any, i.type)
  | .paren t => [(.any, t)]
  | .function s | .constructor _ s => s.types.map ((.any, ·))
  | .object ms => (ms.flatMap Member.types).map ((.any, ·))
  | .mapped m => (m.constraint :: (m.nameType.toList ++ m.type.toList)).map ((.any, ·))
  | .indexed t i => [(.postfix_, t), (.any, i)]
  | .operator op t => [(op.position, t)]
  | .conditional a b c d => [(.check, a), (.extends_, b), (.any, c), (.any, d)]
  | .infer _ t | .predicate _ _ t => t.toList.map ((.any, ·))

/-- A type stands at a position that takes its form without parentheses, and so does every part of
it. -/
inductive Placed : Position → TypeNode → Prop where
  | mk {p : Position} {t : TypeNode} : p.encloses t.form = false →
      (∀ x ∈ t.form.parts, Placed x.1 x.2) → Placed p t

section

variable {α β : Type} {r : α → β → Prop}

theorem forall₂_toList {x : Option α} {y : Option β} (h : Option.Rel r x y) :
    List.Forall₂ r x.toList y.toList := by
  cases h with
  | none => exact .nil
  | some h => exact .cons h .nil

/-- What holds of everything that is related to a first list holds of the second one. -/
theorem forall_mem_of_forall₂ {p : β → Prop} {xs : List α} {ys : List β} (h : List.Forall₂ r xs ys)
    (hp : ∀ x ∈ xs, ∀ y, r x y → p y) : ∀ y ∈ ys, p y := by
  induction h with
  | nil => exact nofun
  | cons h _ ih =>
    refine List.forall_mem_cons.2 ⟨hp _ List.mem_cons_self _ h, ih fun x hx => ?_⟩
    exact hp x (List.mem_cons_of_mem _ hx)

theorem TypeParam.Rel.types {p : TypeParam α} {p' : TypeParam β} (h : TypeParam.Rel r p p') :
    List.Forall₂ r p.types p'.types := by
  obtain ⟨hc, hd⟩ := h
  exact List.rel_append (forall₂_toList hc) (forall₂_toList hd)

theorem Signature.Rel.types {s : Signature α} {s' : Signature β} (h : Signature.Rel r s s') :
    List.Forall₂ r s.types s'.types := by
  obtain ⟨hts, hps, ht⟩ := h
  have htypeParams := List.rel_flatMap hts fun _ _ h => h.types
  refine List.rel_append htypeParams (List.rel_append ?_ (forall₂_toList ht))
  refine List.rel_flatMap hps fun _ _ h => ?_
  obtain ⟨h⟩ := h
  exact forall₂_toList h

theorem Member.Rel.types {m : Member α} {m' : Member β} (h : Member.Rel r m m') :
    List.Forall₂ r m.types m'.types := by
  cases h with
  | property h => exact forall₂_toList h
  | method h | call h | construct h => exact h.types
  | index hk ht => exact .cons hk (.cons ht .nil)

end

/-- Parts of two forms stand at one position and are related there. -/
def AtPosition (r : Position → TypeNode → TypeNode → Prop) (x y : Position × TypeNode) : Prop :=
  x.1 = y.1 ∧ r x.1 x.2 y.2

section

variable {r : Position → TypeNode → TypeNode → Prop}

theorem forall₂_at {p : Position} {ts us : List TypeNode} (h : List.Forall₂ (r p) ts us) :
    List.Forall₂ (AtPosition r) (ts.map ((p, ·))) (us.map ((p, ·))) := by
  rw [List.forall₂_map_left_iff, List.forall₂_map_right_iff]
  exact h.imp fun _ _ h => ⟨rfl, h⟩

/-- Forms with related parts have their parts at the same positions. -/
theorem TypeForm.Rel.parts {f g : TypeForm} (h : TypeForm.Rel r f g) :
    List.Forall₂ (AtPosition r) f.parts g.parts := by
  cases h with
  | keyword | literal | this => exact .nil
  | template h =>
    refine List.rel_map (fun _ _ h => ?_) h
    obtain ⟨h⟩ := h
    exact ⟨rfl, h⟩
  | tuple h =>
    refine List.rel_map (fun _ _ h => ?_) h
    obtain ⟨h⟩ := h
    exact ⟨rfl, h⟩
  | reference h | imported h | query h | union h | intersection h => exact forall₂_at h
  | array h | paren h | operator h => exact .cons ⟨rfl, h⟩ .nil
  | function h | constructor h => exact forall₂_at h.types
  | object h => exact forall₂_at (List.rel_flatMap h fun _ _ h => h.types)
  | mapped h =>
    obtain ⟨hc, hn, ht⟩ := h
    exact forall₂_at (.cons hc (List.rel_append (forall₂_toList hn) (forall₂_toList ht)))
  | indexed ht hi => exact .cons ⟨rfl, ht⟩ (.cons ⟨rfl, hi⟩ .nil)
  | conditional ha hb hc hd =>
    exact .cons ⟨rfl, ha⟩ (.cons ⟨rfl, hb⟩ (.cons ⟨rfl, hc⟩ (.cons ⟨rfl, hd⟩ .nil)))
  | infer h | predicate h => exact forall₂_at (forall₂_toList h)

end

/-- Forms that are the same stand in parentheses at the same positions. -/
theorem Position.encloses_of_same (p : Position) {f g : TypeForm} (h : f.same g = true) :
    p.encloses f = p.encloses g := by
  rw [TypeForm.same.eq_def] at h
  split at h
  case h_22 => cases h
  all_goals cases p <;> rfl

namespace Placed

variable {p : Position} {t u : TypeNode}

theorem encloses (h : Placed p t) : p.encloses t.form = false := by
  obtain ⟨hencloses, -⟩ := h
  exact hencloses

theorem part (h : Placed p t) {x : Position × TypeNode} (hx : x ∈ t.form.parts) : Placed x.1 x.2 := by
  obtain ⟨-, hparts⟩ := h
  exact hparts x hx

/-- Anything may stand where every type may. -/
theorem any (h : Placed p t) : Placed .any t := ⟨rfl, fun _ => h.part⟩

theorem atPosition (h : Placed p t) (q : Position) : Placed q (t.atPosition q) := by
  rw [TypeNode.atPosition]
  cases hq : q.encloses t.form with
  | false => exact ⟨hq, fun _ => h.part⟩
  | true =>
    refine ⟨by cases q <;> rfl, fun x hx => ?_⟩
    obtain rfl := List.mem_singleton.1 hx
    exact h.any

/-- A type that has come to stand in the place of another one stands there as its form asks for,
whether it was put in parentheses or is the old one. -/
theorem settle (h : Placed p t) (hu : Placed .any u) : Placed p (settle p t u) := by
  rw [Decl.settle]
  split
  · rename_i hsame
    obtain ⟨f, o⟩ := t
    obtain ⟨g, o'⟩ := u
    have hsame : (TypeNode.mk g o').same (.mk f o) = true := hsame
    rw [TypeNode.same] at hsame
    have hform := p.encloses_of_same (Bool.and_eq_true_iff.1 hsame).2
    exact ⟨hform.trans h.encloses, fun _ => hu.part⟩
  · exact hu.atPosition p

end Placed

/-- What has become of a well-placed type is well-placed, if the replacements are. By induction on how
the parts of the type are placed. -/
theorem Rewritten.placed {R : TypeNode → TypeNode → Prop}
    (hR : ∀ p t u, Placed p t → R t u → Placed .any u) {p : Position} {t u : TypeNode}
    (ht : Placed p t) (h : Rewritten R p t u) : Placed p u := by
  induction ht generalizing u with
  | @mk p t hencloses hparts ih =>
    have ht : Placed p t := ⟨hencloses, hparts⟩
    cases h with
    | replaced h => exact ht.settle (hR p t _ ht h)
    | @kept p f g origin h =>
      refine ht.settle ⟨rfl, forall_mem_of_forall₂ h.parts fun x hx y hxy => ?_⟩
      exact hxy.1 ▸ ih x hx hxy.2

/-! ## Files -/

/-- The types that a statement is written with. -/
def Statement.types : Statement → List TypeNode
  | .importing _ | .exporting _ | .assignment _ => []
  | .typeAlias a => a.typeParams.flatMap TypeParam.types ++ [a.type]
  | .interface i =>
    i.typeParams.flatMap TypeParam.types ++ (i.heritage ++ i.members.flatMap Member.types)
  | .function f => f.signature.types
  | .variableList v => v.items.flatMap (·.type.toList)

/-- All types in a file stand as their forms ask for. -/
def File.Placed (f : File) : Prop := ∀ s ∈ f.statements, ∀ t ∈ s.types, Decl.Placed .any t

theorem Statement.Rel.types {r : TypeNode → TypeNode → Prop} {s s' : Statement}
    (h : Statement.Rel r (TypeAlias.Rel r) s s') : List.Forall₂ r s.types s'.types := by
  cases h with
  | importing | exporting | assignment => exact .nil
  | typeAlias h =>
    obtain ⟨hts, ht⟩ := h
    exact List.rel_append (List.rel_flatMap hts fun _ _ h => h.types) (.cons ht .nil)
  | interface hts hhs hms =>
    exact List.rel_append (List.rel_flatMap hts fun _ _ h => h.types)
      (List.rel_append hhs (List.rel_flatMap hms fun _ _ h => h.types))
  | function h => exact h.types
  | variableList h =>
    refine List.rel_flatMap h fun _ _ h => ?_
    obtain ⟨h⟩ := h
    exact forall₂_toList h

/-- Of what differs in aliases only that of a statement's own alias matters. -/
theorem Statement.Rel.aliases {r : TypeNode → TypeNode → Prop}
    {aliases aliases' : TypeAlias → TypeAlias → Prop} {s s' : Statement}
    (h : Statement.Rel r aliases s s') (hs : ∀ a b, s = .typeAlias a → aliases a b → aliases' a b) :
    Statement.Rel r aliases' s s' := by
  cases h with
  | importing => exact .importing
  | exporting => exact .exporting
  | assignment => exact .assignment
  | typeAlias h => exact .typeAlias (hs _ _ rfl h)
  | interface hts hhs hms => exact .interface hts hhs hms
  | function h => exact .function h
  | variableList h => exact .variableList h

/-- A rewritten file is well-placed if the old one was, the replacements are, and its aliases are
rewritten like all other statements. -/
theorem File.Rel.placed {aliases : TypeAlias → TypeAlias → Prop} {f g : File}
    (hR : ∀ p t u, Decl.Placed p t → R t u → Decl.Placed .any u)
    (halias : ∀ a b, .typeAlias a ∈ f.statements → aliases a b →
      TypeAlias.Rel (Rewritten R .any) a b)
    (h : File.Rel (Rewritten R .any) aliases f g) (hf : f.Placed) : g.Placed := by
  obtain ⟨hstatements⟩ := h
  refine forall_mem_of_forall₂ hstatements fun s hs s' hrel => ?_
  have hrel : Statement.Rel (Rewritten R .any) (TypeAlias.Rel (Rewritten R .any)) s s' :=
    hrel.aliases fun a b ha => halias a b (ha ▸ hs)
  exact forall_mem_of_forall₂ hrel.types fun t ht u hu => hu.placed hR (hf s hs t ht)

end DeclKit.Decl

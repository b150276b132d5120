/-
What an edit does to a declaration file.

An edit asks about every type and every alias, in a monad of the asker's choice. All that matters
here is what its answers have in common: a `Judgment` speaks about the results of computations, and
if every answer to a type fulfils `R` then the edited file is the old one rewritten by `R`.
-/
import DeclKit.Judgment
import DeclKit.Proofs.Decl.Rel

set_option autoImplicit false

namespace DeclKit.Decl

variable {m : Type → Type} [Monad m] (J : Judgment m) {R : TypeNode → TypeNode → Prop}

/-! ## Types -/

/-- What an edited type is, whatever the position that it is put in afterwards. -/
def Becomes (R : TypeNode → TypeNode → Prop) (t u : TypeNode) : Prop :=
  ∀ p, Rewritten R p t (settle p t u)

/-- Where every type may stand, an edited type stands as it is. -/
theorem Becomes.any {t u : TypeNode} (h : Becomes R t u) : Rewritten R .any t u := by
  simpa only [settle_any] using h .any

section

variable {replace : TypeNode → m (Option TypeNode)}

-- The induction is the recursion of the edit, with one lemma for each of its functions; a type is
-- the only place where an answer of `replace` comes in.

mutual

theorem TypeNode.edit_becomes (hR : ∀ t, J.gives (replace t) fun r => ∀ u ∈ r, R t u)
    (t : TypeNode) : J.gives (t.edit replace) (Becomes R t) := by
  match t with
  | .mk f o =>
    rw [TypeNode.edit]
    refine J.bind (hR _) fun r hr => ?_
    cases r with
    | some u => exact J.pure fun p => .replaced (hr u rfl)
    | none =>
      refine J.bind (TypeForm.edit_rel hR f) fun g hg => ?_
      exact J.pure fun p => .kept hg

theorem TypeForm.edit_rel (hR : ∀ t, J.gives (replace t) fun r => ∀ u ∈ r, R t u)
    (f : TypeForm) : J.gives (f.edit replace) (TypeForm.Rel (Rewritten R) f) := by
  match f with
  | .keyword k => exact J.pure .keyword
  | .literal s => exact J.pure .literal
  | .this => exact J.pure .this
  | .template h ss => exact J.bind (editSpans_rel hR ss) fun _ h => J.pure (.template h)
  | .reference n as => exact J.bind (editTypes_rel hR .any as) fun _ h => J.pure (.reference h)
  | .imported s q as => exact J.bind (editTypes_rel hR .any as) fun _ h => J.pure (.imported h)
  | .union ts => exact J.bind (editTypes_rel hR .member ts) fun _ h => J.pure (.union h)
  | .intersection ts =>
    exact J.bind (editTypes_rel hR .member ts) fun _ h => J.pure (.intersection h)
  | .array t => exact J.bind (t.edit_becomes hR) fun _ h => J.pure (.array (h _))
  | .tuple is => exact J.bind (editItems_rel hR is) fun _ h => J.pure (.tuple h)
  | .paren t => exact J.bind (t.edit_becomes hR) fun _ h => J.pure (.paren h.any)
  | .function s => exact J.bind (editSignature_rel hR s) fun _ h => J.pure (.function h)
  | .constructor a s => exact J.bind (editSignature_rel hR s) fun _ h => J.pure (.constructor h)
  | .object ms => exact J.bind (editMembers_rel hR ms) fun _ h => J.pure (.object h)
  | .mapped ⟨r, p, c, n, o, t⟩ =>
    refine J.bind (c.edit_becomes hR) fun c' hc => ?_
    refine J.bind (editOption_rel hR n) fun n' hn => ?_
    refine J.bind (editOption_rel hR t) fun t' ht => ?_
    exact J.pure (.mapped (.mk hc.any hn ht))
  | .indexed t i =>
    refine J.bind (t.edit_becomes hR) fun t' ht => ?_
    refine J.bind (i.edit_becomes hR) fun i' hi => ?_
    exact J.pure (.indexed (ht _) hi.any)
  | .operator op t => exact J.bind (t.edit_becomes hR) fun _ h => J.pure (.operator (h _))
  | .query n as => exact J.bind (editTypes_rel hR .any as) fun _ h => J.pure (.query h)
  | .conditional a b c d =>
    refine J.bind (a.edit_becomes hR) fun a' ha => ?_
    refine J.bind (b.edit_becomes hR) fun b' hb => ?_
    refine J.bind (c.edit_becomes hR) fun c' hc => ?_
    refine J.bind (d.edit_becomes hR) fun d' hd => ?_
    exact J.pure (.conditional (ha _) (hb _) hc.any hd.any)
  | .infer n c => exact J.bind (editOption_rel hR c) fun _ h => J.pure (.infer h)
  | .predicate a p t => exact J.bind (editOption_rel hR t) fun _ h => J.pure (.predicate h)

theorem editTypes_rel (hR : ∀ t, J.gives (replace t) fun r => ∀ u ∈ r, R t u)
    (p : Position) (ts : List TypeNode) :
    J.gives (editTypes replace p ts) (List.Forall₂ (Rewritten R p) ts) := by
  match ts with
  | [] => exact J.pure .nil
  | t :: ts =>
    refine J.bind (t.edit_becomes hR) fun u hu => ?_
    exact J.bind (editTypes_rel hR p ts) fun us hus => J.pure (.cons (hu p) hus)

theorem editOption_rel (hR : ∀ t, J.gives (replace t) fun r => ∀ u ∈ r, R t u)
    (t : Option TypeNode) :
    J.gives (editOption replace t) (Option.Rel (Rewritten R .any) t) := by
  match t with
  | none => exact J.pure .none
  | some t => exact J.bind (t.edit_becomes hR) fun u hu => J.pure (.some hu.any)

theorem editSpans_rel (hR : ∀ t, J.gives (replace t) fun r => ∀ u ∈ r, R t u)
    (ss : List (TemplateSpan TypeNode)) :
    J.gives (editSpans replace ss) (List.Forall₂ (TemplateSpan.Rel (Rewritten R .any)) ss) := by
  match ss with
  | [] => exact J.pure .nil
  | ⟨t, s⟩ :: ss =>
    refine J.bind (t.edit_becomes hR) fun u hu => ?_
    exact J.bind (editSpans_rel hR ss) fun us hus => J.pure (.cons (.mk hu.any) hus)

theorem editItems_rel (hR : ∀ t, J.gives (replace t) fun r => ∀ u ∈ r, R t u)
    (is : List (TupleItem TypeNode)) :
    J.gives (editItems replace is) (List.Forall₂ (TupleItem.Rel (Rewritten R .any)) is) := by
  match is with
  | [] => exact J.pure .nil
  | ⟨k, n, t⟩ :: is =>
    refine J.bind (t.edit_becomes hR) fun u hu => ?_
    exact J.bind (editItems_rel hR is) fun us hus => J.pure (.cons (.mk hu.any) hus)

theorem editSignature_rel (hR : ∀ t, J.gives (replace t) fun r => ∀ u ∈ r, R t u)
    (s : Signature TypeNode) :
    J.gives (editSignature replace s) (Signature.Rel (Rewritten R .any) s) := by
  match s with
  | ⟨ts, ps, r⟩ =>
    refine J.bind (editTypeParams_rel hR ts) fun ts' hts => ?_
    refine J.bind (editParams_rel hR ps) fun ps' hps => ?_
    exact J.bind (editOption_rel hR r) fun r' hr => J.pure (.mk hts hps hr)

theorem editTypeParams_rel (hR : ∀ t, J.gives (replace t) fun r => ∀ u ∈ r, R t u)
    (ts : List (TypeParam TypeNode)) :
    J.gives (editTypeParams replace ts)
      (List.Forall₂ (TypeParam.Rel (Rewritten R .any)) ts) := by
  match ts with
  | [] => exact J.pure .nil
  | ⟨n, k, c, d⟩ :: ts =>
    refine J.bind (editOption_rel hR c) fun c' hc => ?_
    refine J.bind (editOption_rel hR d) fun d' hd => ?_
    exact J.bind (editTypeParams_rel hR ts) fun us hus => J.pure (.cons (.mk hc hd) hus)

theorem editParams_rel (hR : ∀ t, J.gives (replace t) fun r => ∀ u ∈ r, R t u)
    (ps : List (Param TypeNode)) :
    J.gives (editParams replace ps) (List.Forall₂ (Param.Rel (Rewritten R .any)) ps) := by
  match ps with
  | [] => exact J.pure .nil
  | ⟨r, n, o, t⟩ :: ps =>
    refine J.bind (editOption_rel hR t) fun t' ht => ?_
    exact J.bind (editParams_rel hR ps) fun us hus => J.pure (.cons (.mk ht) hus)

theorem editMember_rel (hR : ∀ t, J.gives (replace t) fun r => ∀ u ∈ r, R t u)
    (x : Member TypeNode) :
    J.gives (editMember replace x) (Member.Rel (Rewritten R .any) x) := by
  match x with
  | .property o r n q t => exact J.bind (editOption_rel hR t) fun _ h => J.pure (.property h)
  | .method o n q s => exact J.bind (editSignature_rel hR s) fun _ h => J.pure (.method h)
  | .call o s => exact J.bind (editSignature_rel hR s) fun _ h => J.pure (.call h)
  | .construct o s => exact J.bind (editSignature_rel hR s) fun _ h => J.pure (.construct h)
  | .index o r p k t =>
    refine J.bind (k.edit_becomes hR) fun k' hk => ?_
    refine J.bind (t.edit_becomes hR) fun t' ht => ?_
    exact J.pure (.index hk.any ht.any)

theorem editMembers_rel (hR : ∀ t, J.gives (replace t) fun r => ∀ u ∈ r, R t u)
    (xs : List (Member TypeNode)) :
    J.gives (editMembers replace xs) (List.Forall₂ (Member.Rel (Rewritten R .any)) xs) := by
  match xs with
  | [] => exact J.pure .nil
  | x :: xs =>
    refine J.bind (editMember_rel hR x) fun y hy => ?_
    exact J.bind (editMembers_rel hR xs) fun ys hys => J.pure (.cons hy hys)

end

end

/-! ## Statements -/

/-- Every answer of an edit is allowed: for types by `R`, for aliases by `A`, which also allows the
aliases without an answer that differ in their types as `R` allows. -/
structure Editor.Allowed (r : Editor m) (R : TypeNode → TypeNode → Prop)
    (A : TypeAlias → TypeAlias → Prop) : Prop where
  type : ∀ t, J.gives (r.type t) fun u => ∀ v ∈ u, R t v
  typeAlias : ∀ a, J.gives (r.typeAlias a) fun
    | some b => A a b
    | none => ∀ b, TypeAlias.Rel (Rewritten R .any) a b → A a b

variable {J} {r : Editor m} {A : TypeAlias → TypeAlias → Prop}

theorem Editor.aliasTypes_rel (h : r.Allowed J R A) (a : TypeAlias) :
    J.gives (r.aliasTypes a) (A a) := by
  unfold Editor.aliasTypes
  refine J.bind (h.typeAlias a) fun b hb => ?_
  cases b with
  | some b => exact J.pure hb
  | none =>
    refine J.bind (editTypeParams_rel J h.type _) fun ts hts => ?_
    refine J.bind (a.type.edit_becomes J h.type) fun t ht => ?_
    exact J.pure (hb _ (.mk hts ht.any))

theorem Editor.variableItems_rel (h : r.Allowed J R A) (vs : List Variable) :
    J.gives (r.variableItems vs) (List.Forall₂ (Variable.Rel (Rewritten R .any)) vs) := by
  induction vs with
  | nil => exact J.pure .nil
  | cons v vs ih =>
    refine J.bind (editOption_rel J h.type _) fun t ht => ?_
    exact J.bind ih fun us hus => J.pure (.cons (.mk ht) hus)

theorem Editor.statement_rel (h : r.Allowed J R A) (s : Statement) :
    J.gives (r.statement s) (Statement.Rel (Rewritten R .any) A s) := by
  cases s with
  | importing s => exact J.pure .importing
  | exporting s => exact J.pure .exporting
  | assignment s => exact J.pure .assignment
  | typeAlias a => exact J.bind (aliasTypes_rel h a) fun b hb => J.pure (.typeAlias hb)
  | interface i =>
    refine J.bind (editTypeParams_rel J h.type _) fun ts hts => ?_
    refine J.bind (editTypes_rel J h.type .any _) fun hs hhs => ?_
    refine J.bind (editMembers_rel J h.type _) fun ms hms => ?_
    exact J.pure (.interface hts hhs hms)
  | function f =>
    exact J.bind (editSignature_rel J h.type _) fun g hg => J.pure (.function hg)
  | variableList v =>
    exact J.bind (variableItems_rel h _) fun vs hvs => J.pure (.variableList hvs)

theorem Editor.statements_rel (h : r.Allowed J R A) (ss : List Statement) :
    J.gives (r.statements ss)
      (List.Forall₂ (Statement.Rel (Rewritten R .any) A) ss) := by
  induction ss with
  | nil => exact J.pure .nil
  | cons s ss ih =>
    refine J.bind (statement_rel h s) fun t ht => ?_
    exact J.bind ih fun ts hts => J.pure (.cons ht hts)

/-- An edited file is the old one with its types rewritten as the answers of the edit allow. -/
theorem Editor.file_rel (h : r.Allowed J R A) (f : File) :
    J.gives (r.file f) (File.Rel (Rewritten R .any) A f) :=
  J.bind (statements_rel h f.statements) fun _ hs => J.pure (.mk hs)

end DeclKit.Decl

/-
Copying what was read.

A node says an outline when its tree has it. What is asked of a node, its parts by kind and its tokens,
is found in the outline, so a type that is copied from a node has the form of the phrase that the
node's outline is, and the same forms inside. Only where it stood is new.
-/
import DeclKit.Emit.Copy
import DeclKit.Proofs.Decl.Rel
import DeclKit.Proofs.Grammar.Phrase
import DeclKit.Proofs.Judgment
import DeclKit.Proofs.Marker.Edit
import DeclKit.Proofs.Typing.Intersection

set_option autoImplicit false

namespace DeclKit

/-! ## Parts of outlines -/

namespace Outline

/-- The kind of a word or node. -/
def kind : Outline → Kind
  | word w => w.kind
  | node k _ => k

/-- The outline is a node. -/
def isNode : Outline → Bool
  | word _ => false
  | node .. => true

/-- The outline is a node that is a type. -/
def isType (o : Outline) : Bool := o.kind.isType && o.isNode

/-- The word that an outline is. -/
def word? : Outline → Option Lexeme
  | word w => some w
  | node .. => none

end Outline

theorem Phrase.isType {n : Nat} {l : Level} {t : Decl.TypeNode} {o : Outline} (h : Phrase n l t o) :
    o.isType = true := by
  induction h with
  | ofPrimary _ ih | ofPostfix _ ih | ofOperator _ ih | ofIntersection _ ih | ofUnion _ ih => exact ih
  | _ => rfl

namespace Outline

variable {p : Outline → Bool} {k : Kind} {os : List Outline}

theorem filter_following (hmark : ∀ k, ¬p (mark k) = true) (h : ∀ o ∈ os, p o = true) :
    (following k os).filter p = os := by
  induction os with
  | nil => rfl
  | cons o os ih =>
    obtain ⟨ho, hos⟩ := List.forall_mem_cons.1 h
    rw [following_cons, List.filter_cons_of_neg (hmark k), List.filter_cons_of_pos ho, ih hos]

/-- Marks between items are left out by what takes nodes only. -/
theorem filter_joined (hmark : ∀ k, ¬p (mark k) = true) (h : ∀ o ∈ os, p o = true) :
    (joined k os).filter p = os := by
  cases os with
  | nil => rfl
  | cons o os =>
    obtain ⟨ho, hos⟩ := List.forall_mem_cons.1 h
    rw [joined_cons, List.filter_cons_of_pos ho, filter_following hmark hos]

/-- Marks around and between items are left out by what takes nodes only. -/
theorem filter_enclosed {k' k'' : Kind} (hmark : ∀ k, ¬p (mark k) = true)
    (h : ∀ o ∈ os, p o = true) : (mark k' :: joined k os ++ [mark k'']).filter p = os := by
  rw [List.cons_append, List.filter_cons_of_neg (hmark k'), List.filter_append,
    filter_joined hmark h, List.filter_cons_of_neg (hmark k''), List.filter_nil, List.append_nil]

@[simp] theorem isNode_mark (k : Kind) : (mark k).isNode = false := rfl

@[simp] theorem isNode_named (s : String) : (named s).isNode = false := rfl

@[simp] theorem isType_mark (k : Kind) : (mark k).isType = false := Bool.and_false _

@[simp] theorem isType_named (s : String) : (named s).isType = false := Bool.and_false _

end Outline

/-! ## Parts of nodes -/

theorem Tree.height_le_heightOfList {t : Tree} {ts : List Tree} (h : t ∈ ts) :
    t.height ≤ Tree.heightOfList ts := by
  induction ts with
  | nil => cases h
  | cons u ts ih =>
    rw [Tree.heightOfList]
    obtain rfl | h := List.mem_cons.1 h
    · exact Nat.le_max_left _ _
    · exact Nat.le_trans (ih h) (Nat.le_max_right _ _)

mutual

/-- The words of a tree are those among its tokens. -/
theorem Tree.wordsOf_outline (t : Tree) : Outline.wordsOf t.outline = wordsIn t.tokens := by
  cases t with
  | token t =>
    rw [Tree.outline, Tree.tokens]
    cases ht : t.kind.isTrivia <;> simp [ht, wordsIn]
  | node k a b cs =>
    rw [Tree.outline_node, Tree.tokens, ← Tree.wordsOf_outlines cs]
    simp

theorem Tree.wordsOf_outlines (ts : List Tree) :
    Outline.wordsOf (Tree.outlines ts) = wordsIn (Tree.tokensOfList ts) := by
  cases ts with
  | nil =>
    rw [Tree.outlines_nil, Tree.tokensOfList]
    rfl
  | cons t ts =>
    rw [Tree.outlines_cons, Tree.tokensOfList, wordsIn_append, Outline.wordsOf_append,
      t.wordsOf_outline, Tree.wordsOf_outlines ts]

end

theorem wordsIn_cons (t : Token) (ts : List Token) :
    wordsIn (t :: ts) = if t.kind.isTrivia then wordsIn ts else t.lexeme :: wordsIn ts := by
  cases ht : t.kind.isTrivia <;> simp [ht, wordsIn]

namespace Node

variable {m c : Node} {o : Outline} {os : List Outline} {k : Kind}

theorem joinTokens_of_wordsIn_eq_nil {ts : List Token} (h : wordsIn ts = []) (gap : Bool) :
    joinTokens gap ts = [] := by
  induction ts generalizing gap with
  | nil => rfl
  | cons t ts ih =>
    rw [wordsIn_cons] at h
    split at h
    case isTrue ht => rw [joinTokens, if_pos ht, ih h]
    case isFalse => cases h

/-- A single word between blanks is joined to its text. -/
theorem joinTokens_dropWhile {ts : List Token} {w : Lexeme} (h : wordsIn ts = [w]) :
    joinTokens false (ts.dropWhile (·.kind.isTrivia)) = [String.ofList w.chars] := by
  induction ts with
  | nil => cases h
  | cons t ts ih =>
    rw [wordsIn_cons] at h
    split at h
    case isTrue ht => rw [List.dropWhile_cons, if_pos ht, ih h]
    case isFalse ht =>
      obtain ⟨rfl, hrest⟩ := List.cons.inj h
      rw [List.dropWhile_cons, if_neg ht, joinTokens, if_neg ht, joinTokens_of_wordsIn_eq_nil hrest]
      exact congrArg (· :: []) String.ofList_toList.symm

/-- The tree of a node has an outline. -/
def Says (m : Node) (o : Outline) : Prop := m.tree.outline = [o]

theorem Says.kind (h : m.Says o) : m.kind = o.kind := by
  obtain ⟨t, above⟩ := m
  cases t with
  | token t =>
    rw [Says, Tree.outline] at h
    split at h
    · cases h
    · obtain rfl := (List.cons.inj h).1
      rfl
  | node k a b cs =>
    rw [Says, Tree.outline_node] at h
    obtain rfl := (List.cons.inj h).1
    rfl

/-- A node that says a node has its parts. -/
theorem Says.exists_node (h : m.Says (.node k os)) :
    ∃ a b cs, m.tree = .node k a b cs ∧ Tree.outlines cs = os := by
  obtain ⟨t, above⟩ := m
  cases t with
  | token t =>
    rw [Says, Tree.outline] at h
    split at h
    · cases h
    · cases (List.cons.inj h).1
  | node k a b cs =>
    rw [Says, Tree.outline_node] at h
    obtain ⟨rfl, rfl⟩ := Outline.node.inj (List.cons.inj h).1
    exact ⟨a, b, cs, rfl, rfl⟩

/-- The parts that are nodes say the nodes of the outline. -/
theorem Says.children (h : m.Says (.node k os)) :
    List.Forall₂ Says m.children (os.filter Outline.isNode) := by
  obtain ⟨a, b, cs, htree, rfl⟩ := h.exists_node
  rw [Node.children, htree, Tree.children, List.forall₂_map_left_iff]
  clear h htree
  induction cs with
  | nil =>
    rw [Tree.outlines_nil]
    exact .nil
  | cons t cs ih =>
    rw [Tree.outlines_cons]
    cases t with
    | token t =>
      rw [Tree.outline, List.filter_cons_of_neg (by simp [Tree.isNode])]
      split
      · exact ih
      · exact ih
    | node k a b ds =>
      rw [Tree.outline_node, List.filter_cons_of_pos rfl]
      exact .cons (Tree.outline_node k a b ds) ih

/-- The tokens are the words of the outline. -/
theorem Says.leaves (h : m.Says (.node k os)) :
    m.leaves.map Token.lexeme = os.filterMap Outline.word? := by
  obtain ⟨a, b, cs, htree, rfl⟩ := h.exists_node
  rw [Node.leaves, htree, Tree.children]
  clear h htree
  induction cs with
  | nil =>
    rw [Tree.outlines_nil]
    rfl
  | cons t cs ih =>
    rw [Tree.outlines_cons, List.filterMap_append, ← ih]
    cases t with
    | token t =>
      rw [Tree.outline]
      cases ht : t.kind.isTrivia <;> simp [ht, Outline.word?]
    | node k a b ds =>
      rw [Tree.outline_node, List.filterMap_cons]
      rfl

/-- A node of one word has one token. -/
theorem Says.leaf {w : Lexeme} (h : m.Says (.node k [.word w])) :
    ∃ t : Token, m.leaves = [t] ∧ t.kind = w.kind ∧ t.text = String.ofList w.chars := by
  obtain ⟨t, ht, rfl⟩ := List.map_eq_singleton_iff.1 h.leaves
  exact ⟨t, ht, rfl, String.ofList_toList.symm⟩

/-- The leading text is the first word. -/
theorem Says.leadingText {w : Lexeme} (h : m.Says (.node k (.word w :: os))) :
    m.leadingText = String.ofList w.chars := by
  obtain ⟨t, ts, ht, rfl, -⟩ := List.map_eq_cons_iff.1 h.leaves
  rw [Node.leadingText, ht]
  exact String.ofList_toList.symm

/-- A node of one word is written as that word, whatever blanks are in it. -/
theorem Says.sourceText {w : Lexeme} (h : m.Says (.node k [.word w])) :
    m.sourceText = String.ofList w.chars := by
  have hwords : wordsIn m.tree.tokens = [w] := by
    rw [← Tree.wordsOf_outline, h]
    simp
  rw [Node.sourceText, joinTokens_dropWhile hwords]
  simp

/-- Parts are not as high. -/
theorem height_lt (h : c ∈ m.children) : c.tree.height < m.tree.height := by
  obtain ⟨t, ht, rfl⟩ := List.mem_map.1 h
  obtain ⟨hmem, -⟩ := List.mem_filter.1 ht
  generalize m.tree = u at hmem ⊢
  cases u with
  | token u => cases hmem
  | node k a b cs =>
    rw [Tree.height]
    exact Nat.lt_succ_of_le (Tree.height_le_heightOfList hmem)

/-- Parts that are told by their kinds say the nodes of the outline that are told by them. -/
theorem Says.filter_children (h : m.Says (.node k os)) (p : Kind → Bool) :
    List.Forall₂ Says (m.children.filter fun c => p c.kind)
      (os.filter fun o => p o.kind && o.isNode) := by
  rw [← List.filter_filter]
  refine List.rel_filter (fun c o hc => ?_) h.children
  show p c.kind = true ↔ p o.kind = true
  rw [hc.kind]

theorem Says.types (h : m.Says (.node k os)) : List.Forall₂ Says m.types (os.filter Outline.isType) :=
  h.filter_children Kind.isType

theorem Says.childrenOf (h : m.Says (.node k os)) (k' : Kind) :
    List.Forall₂ Says (m.childrenOf k') (os.filter fun o => o.kind == k' && o.isNode) :=
  h.filter_children (· == k')

/-- The first part of a kind says the first node of that kind. -/
theorem Says.child? (h : m.Says (.node k os)) (k' : Kind) {o : Outline} {rest : List Outline}
    (ho : os.filter (fun o => o.kind == k' && o.isNode) = o :: rest) :
    ∃ c ∈ m.children, m.child? k' = some c ∧ c.Says o := by
  have hall := h.childrenOf k'
  rw [ho] at hall
  obtain ⟨c, cs, hc, -, hcs⟩ := List.forall₂_cons_right_iff.1 hall
  have hmem : c ∈ m.childrenOf k' := by rw [hcs]; exact List.mem_cons_self
  refine ⟨c, (List.mem_filter.1 hmem).1, ?_, hc⟩
  rw [Node.child?, ← List.head?_filter]
  exact congrArg List.head? hcs

theorem Says.child?_eq_none (h : m.Says (.node k os)) (k' : Kind)
    (ho : os.filter (fun o => o.kind == k' && o.isNode) = []) : m.child? k' = none := by
  have hall := h.childrenOf k'
  rw [ho, List.forall₂_nil_right_iff] at hall
  rw [Node.child?, ← List.head?_filter]
  exact congrArg List.head? hall

/-- The type at a place says the type at that place. -/
theorem Says.typeAt? (h : m.Says (.node k os)) {i : Nat} {o : Outline}
    (ho : (os.filter Outline.isType)[i]? = some o) :
    ∃ c ∈ m.children, m.typeAt? i = some c ∧ c.Says o := by
  have hall := h.types
  obtain ⟨hi, rfl⟩ := List.getElem?_eq_some_iff.1 ho
  have hi' : i < m.types.length := hall.length_eq ▸ hi
  refine ⟨m.types[i], (List.mem_filter.1 (List.getElem_mem hi')).1, List.getElem?_eq_getElem hi', ?_⟩
  exact List.Forall₂.get hall hi' hi

theorem Says.type? (h : m.Says (.node k os)) {o : Outline}
    (ho : (os.filter Outline.isType)[0]? = some o) :
    ∃ c ∈ m.children, m.type? = some c ∧ c.Says o := by
  obtain ⟨c, hmem, hc, hsaid⟩ := h.typeAt? ho
  refine ⟨c, hmem, ?_, hsaid⟩
  rw [← hc, Node.type?, Node.typeAt?, Node.types, ← List.head?_filter, List.head?_eq_getElem?]

end Node

/-! ## Types that are the same -/

/-- Two types are the same but for where they come from. -/
inductive Decl.TypeNode.Alike : TypeNode → TypeNode → Prop where
  | mk {f g : TypeForm} {o p : Option Origin} :
      TypeForm.Rel (fun _ => TypeNode.Alike) f g → TypeNode.Alike (.mk f o) (.mk g p)

/-- Two forms are the same but for where the types inside come from. -/
abbrev Decl.TypeForm.Alike : TypeForm → TypeForm → Prop := TypeForm.Rel fun _ => TypeNode.Alike

/-! ## Copies -/

namespace Emit

open Decl (TypeNode TypeForm)

variable {J : Judgment Check} {file : SourceId} {copy : Copier} {n : Nat} {l : Level} {k : Kind}
  {m : Node} {t : TypeNode} {o : Outline} {os : List Outline} {items : List (TypeNode × Outline)}

/-- A copier copies a type wherever its outline is read, from nodes so high. -/
def Copies (J : Judgment Check) (copy : Copier) (height : Nat) (t : TypeNode) (o : Outline) : Prop :=
  ∀ m : Node, m.Says o → m.tree.height < height → J.gives (copy m) (TypeNode.Alike t)

/-- A form is copied from a node so high that says an outline. -/
def CopiesForm (J : Judgment Check) (file : SourceId) (copy : Copier) (height : Nat) (f : TypeForm)
    (o : Outline) : Prop :=
  ∀ m : Node, m.Says o → m.tree.height ≤ height → J.gives (copyForm file copy m) (TypeForm.Alike f)

/-- What relates members of two lists is all that is needed of what relates the lists. -/
theorem forall₂_of_mem {α β : Type} {R S : α → β → Prop} {xs : List α} {ys : List β}
    (h : List.Forall₂ R xs ys) (hS : ∀ x ∈ xs, ∀ y ∈ ys, R x y → S x y) : List.Forall₂ S xs ys := by
  induction h with
  | nil => exact .nil
  | cons hxy _ ih =>
    refine .cons (hS _ List.mem_cons_self _ List.mem_cons_self hxy) (ih fun x hx y hy => ?_)
    exact hS x (List.mem_cons_of_mem _ hx) y (List.mem_cons_of_mem _ hy)

/-- Types among the parts of a node are copied each by itself. -/
theorem copyTypes_gives (hsaid : m.Says (.node k os)) (hheight : m.tree.height ≤ n)
    (hos : os.filter Outline.isType = items.map (·.2))
    (h : ∀ x ∈ items, Copies J copy n x.1 x.2) :
    J.gives (m.types.mapM copy) (List.Forall₂ TypeNode.Alike (items.map (·.1))) := by
  have htypes := hsaid.types
  rw [hos, List.forall₂_map_right_iff] at htypes
  refine Judgment.gives_mapM_forall₂ (List.forall₂_map_right_iff.2 ?_)
  refine forall₂_of_mem htypes fun d hd x hx hdx => ?_
  exact h x hx d hdx (Nat.lt_of_lt_of_le (Node.height_lt (List.mem_filter.1 hd).1) hheight)

/-- The type at a place is copied. -/
theorem copyOr_gives {c : Option Node} (hheight : m.tree.height ≤ n)
    (hsaid : ∃ d ∈ m.children, c = some d ∧ d.Says o) (h : Copies J copy n t o) :
    J.gives (copyOr copy c) (TypeNode.Alike t) := by
  obtain ⟨d, hd, rfl, hsaid⟩ := hsaid
  exact h d hsaid (Nat.lt_of_lt_of_le (Node.height_lt hd) hheight)

/-! ## Forms without parts -/

theorem copyForm_keyword {k : Decl.Keyword} :
    CopiesForm J file copy n (.keyword k) (.node .keywordType [.named k.text]) := by
  intro m hsaid _
  have hkind : m.kind = .keywordType := hsaid.kind
  have hkeyword : (Decl.Keyword.ofText? m.leadingText).getD .any = k := by
    rw [hsaid.leadingText, Lexeme.named, String.ofList_toList]
    cases k <;> decide
  simp only [copyForm, hkind, hkeyword]
  exact J.pure .keyword

/-- A literal without a sign is copied as it is written. -/
theorem copyForm_literal {text : String} (hminus : k ≠ .minus) :
    CopiesForm J file copy n (.literal text) (.node .literalType [.word ⟨k, text.toList⟩]) := by
  intro m hsaid _
  have hkind : m.kind = .literalType := hsaid.kind
  obtain ⟨t, hleaves, htokenKind, htext⟩ := hsaid.leaf
  have hno : (t.kind == .minus) = false := by rw [htokenKind]; exact beq_false_of_ne hminus
  have hliteral : ((m.leaves.find? (·.kind != .minus)).map (·.text)).getD "" = text := by
    rw [hleaves, List.find?_cons_of_pos (by rw [bne, hno]; rfl)]
    exact htext.trans String.ofList_toList
  have hsign : m.hasToken .minus = false := by
    rw [Node.hasToken, hleaves, List.any_cons, hno]
    rfl
  simp only [copyForm, hkind, hliteral, hsign]
  exact J.pure .literal

theorem copyForm_boolean {b : Bool} :
    CopiesForm J file copy n (.literal (if b then "true" else "false"))
      (.node .literalType [.named (if b then "true" else "false")]) :=
  copyForm_literal (by cases b <;> decide)

/-! ## Forms with types inside -/

theorem copyForm_paren (ho : o.isType = true) (h : Copies J copy n t o) :
    CopiesForm J file copy n (.paren t)
      (.node .parenType [.mark .parenOpen, o, .mark .parenClose]) := by
  intro m hsaid hheight
  have hkind : m.kind = .parenType := hsaid.kind
  simp only [copyForm, hkind]
  have htype := hsaid.type? (o := o) (by simp [ho])
  exact J.bind (copyOr_gives hheight htype h) fun u hu => J.pure (.paren hu)

theorem copyForm_array (ho : o.isType = true) (h : Copies J copy n t o) :
    CopiesForm J file copy n (.array t)
      (.node .arrayType [o, .mark .bracketOpen, .mark .bracketClose]) := by
  intro m hsaid hheight
  have hkind : m.kind = .arrayType := hsaid.kind
  simp only [copyForm, hkind]
  have htype := hsaid.type? (o := o) (by simp [ho])
  exact J.bind (copyOr_gives hheight htype h) fun u hu => J.pure (.array hu)

theorem copyForm_indexed {i : TypeNode} {p : Outline} (ho : o.isType = true) (hp : p.isType = true)
    (h : Copies J copy n t o) (hi : Copies J copy n i p) :
    CopiesForm J file copy n (.indexed t i)
      (.node .indexedAccessType [o, .mark .bracketOpen, p, .mark .bracketClose]) := by
  intro m hsaid hheight
  have hkind : m.kind = .indexedAccessType := hsaid.kind
  simp only [copyForm, hkind]
  have hobject := hsaid.typeAt? (i := 0) (o := o) (by simp [ho])
  have hindex := hsaid.typeAt? (i := 1) (o := p) (by simp [ho, hp])
  refine J.bind (copyOr_gives hheight hobject h) fun u hu => ?_
  exact J.bind (copyOr_gives hheight hindex hi) fun v hv => J.pure (.indexed hu hv)

theorem copyForm_keyof (ho : o.isType = true) (h : Copies J copy n t o) :
    CopiesForm J file copy n (.operator .keyof t) (.node .typeOperator [.named "keyof", o]) := by
  intro m hsaid hheight
  have hkind : m.kind = .typeOperator := hsaid.kind
  have hword : m.leadingText = "keyof" := by
    rw [hsaid.leadingText, Lexeme.named, String.ofList_toList]
  simp only [copyForm, hkind, hword]
  have htype := hsaid.type? (o := o) (by simp [ho])
  exact J.bind (copyOr_gives hheight htype h) fun u hu => J.pure (.operator hu)

theorem copyForm_conditional {a b c d : TypeNode} {oa ob oc od : Outline} (hoa : oa.isType = true)
    (hob : ob.isType = true) (hoc : oc.isType = true) (hod : od.isType = true)
    (ha : Copies J copy n a oa) (hb : Copies J copy n b ob) (hc : Copies J copy n c oc)
    (hd : Copies J copy n d od) :
    CopiesForm J file copy n (.conditional a b c d)
      (.node .conditionalType [oa, .named "extends", ob, .mark .question, oc, .mark .colon, od]) := by
  intro m hsaid hheight
  have hkind : m.kind = .conditionalType := hsaid.kind
  simp only [copyForm, hkind]
  have htypes : [oa, .named "extends", ob, .mark .question, oc, .mark .colon, od].filter
      Outline.isType = [oa, ob, oc, od] := by simp [hoa, hob, hoc, hod]
  have hcheck := hsaid.typeAt? (i := 0) (o := oa) (by rw [htypes]; rfl)
  have hextends := hsaid.typeAt? (i := 1) (o := ob) (by rw [htypes]; rfl)
  have htrue := hsaid.typeAt? (i := 2) (o := oc) (by rw [htypes]; rfl)
  have hfalse := hsaid.typeAt? (i := 3) (o := od) (by rw [htypes]; rfl)
  refine J.bind (copyOr_gives hheight hcheck ha) fun a' ha' => ?_
  refine J.bind (copyOr_gives hheight hextends hb) fun b' hb' => ?_
  refine J.bind (copyOr_gives hheight htrue hc) fun c' hc' => ?_
  refine J.bind (copyOr_gives hheight hfalse hd) fun d' hd' => ?_
  exact J.pure (.conditional ha' hb' hc' hd')

/-! ## Forms with lists of types -/

/-- Types are the elements of a tuple that have neither name nor mark. -/
theorem copyItem_gives (htype : o.isType = true) (hsaid : m.Says o)
    (h : J.gives (copy m) (TypeNode.Alike t)) :
    J.gives (copyItem copy m) fun i => ∃ j, i = some j ∧
      Decl.TupleItem.Rel TypeNode.Alike ⟨.required, none, t⟩ j := by
  have hparts : Typing.elementParts m = some (some m, .required, none) := by
    have hm : m.kind.isType = true := by rw [hsaid.kind]; exact (Bool.and_eq_true_iff.1 htype).1
    rw [Typing.elementParts]
    split
    case h_4 => exact if_pos hm
    all_goals next hkind => rw [hkind] at hm; cases hm
  rw [copyItem, hparts]
  exact J.bind h fun u hu => J.pure ⟨_, rfl, .mk hu⟩

section

variable (htypes : ∀ x ∈ items, x.2.isType = true) (h : ∀ x ∈ items, Copies J copy n x.1 x.2)
include htypes h

theorem copyForm_intersection :
    CopiesForm J file copy n (.intersection (items.map (·.1)))
      (.node .intersectionType (Outline.joined .amp (items.map (·.2)))) := by
  intro m hsaid hheight
  have hkind : m.kind = .intersectionType := hsaid.kind
  simp only [copyForm, hkind]
  have hos : (Outline.joined .amp (items.map (·.2))).filter Outline.isType = items.map (·.2) :=
    Outline.filter_joined (by simp) (List.forall_mem_map.2 htypes)
  exact J.bind (copyTypes_gives hsaid hheight hos h) fun us hus => J.pure (.intersection hus)

theorem copyForm_union :
    CopiesForm J file copy n (.union (items.map (·.1)))
      (.node .unionType (Outline.joined .pipe (items.map (·.2)))) := by
  intro m hsaid hheight
  have hkind : m.kind = .unionType := hsaid.kind
  simp only [copyForm, hkind]
  have hos : (Outline.joined .pipe (items.map (·.2))).filter Outline.isType = items.map (·.2) :=
    Outline.filter_joined (by simp) (List.forall_mem_map.2 htypes)
  exact J.bind (copyTypes_gives hsaid hheight hos h) fun us hus => J.pure (.union hus)

theorem copyForm_tuple :
    CopiesForm J file copy n (.tuple (items.map fun x => ⟨.required, none, x.1⟩))
      (.node .tupleType
        (.mark .bracketOpen :: Outline.joined .comma (items.map (·.2)) ++ [.mark .bracketClose])) := by
  intro m hsaid hheight
  have hkind : m.kind = .tupleType := hsaid.kind
  simp only [copyForm, hkind]
  have hnodes : ∀ o ∈ items.map (·.2), o.isNode = true :=
    List.forall_mem_map.2 fun x hx => (Bool.and_eq_true_iff.1 (htypes x hx)).2
  have hchildren := hsaid.children
  rw [Outline.filter_enclosed (by simp) hnodes, List.forall₂_map_right_iff] at hchildren
  have hitems : J.gives (m.children.filterMapM (copyItem copy))
      (List.Forall₂ (Decl.TupleItem.Rel TypeNode.Alike)
        (items.map fun x => ⟨.required, none, x.1⟩)) := by
    refine Judgment.gives_filterMapM_forall₂ (List.forall₂_map_right_iff.2 ?_)
    refine forall₂_of_mem hchildren fun d hd x hx hdx => ?_
    refine copyItem_gives (htypes x hx) hdx ?_
    exact h x hx d hdx (Nat.lt_of_lt_of_le (Node.height_lt hd) hheight)
  exact J.bind hitems fun is his => J.pure (.tuple his)

/-- The arguments of a reference are copied, whether there are any or not. -/
theorem copyArgs_gives {entity : List Outline}
    (hsaid : m.Says (.node k (.node .entityName entity :: Outline.arguments (items.map (·.2)))))
    (hheight : m.tree.height ≤ n) :
    J.gives (m.typeArgs.mapM copy) (List.Forall₂ TypeNode.Alike (items.map (·.1))) := by
  cases items with
  | nil =>
    rw [Node.typeArgs, hsaid.child?_eq_none .typeArgList (by rfl)]
    exact J.pure .nil
  | cons x items =>
    obtain ⟨c, hc, hchild, hargs⟩ := hsaid.child? .typeArgList (by rfl)
    rw [Node.typeArgs, hchild]
    refine copyTypes_gives hargs (Nat.le_trans (Nat.le_of_lt (Node.height_lt hc)) hheight) ?_ h
    exact Outline.filter_enclosed (by simp) (List.forall_mem_map.2 htypes)

theorem copyForm_reference {name : String} (hname : isIdentifier name = true) :
    CopiesForm J file copy n (.reference [name] (items.map (·.1)))
      (.node .typeRef (.node .entityName [.named name] :: Outline.arguments (items.map (·.2)))) := by
  intro m hsaid hheight
  have hkind : m.kind = .typeRef := hsaid.kind
  have hsegments : segmentTexts m = [name] := by
    obtain ⟨e, -, hchild, hentity⟩ := hsaid.child? .entityName (by rfl)
    obtain ⟨t, hleaves, htokenKind, htext⟩ := hentity.leaf
    rw [named_of_isIdentifier hname] at htokenKind htext
    rw [segmentTexts, hchild, Option.map_some, Option.getD_some, Node.segments, hleaves,
      List.filter_cons_of_pos (by rw [htokenKind]; rfl)]
    exact congrArg (· :: []) (htext.trans String.ofList_toList)
  simp only [copyForm, hkind, hsegments]
  exact J.bind (copyArgs_gives htypes h hsaid hheight) fun us hus => J.pure (.reference hus)

end

/-! ## Functions -/

/-- A parameter of a name and a type is copied as it is. -/
theorem copyParam_gives {name : String} (ho : o.isType = true) (h : Copies J copy n t o)
    (hsaid : m.Says (Outline.param name o)) (hheight : m.tree.height ≤ n) :
    J.gives (copyParam file copy m)
      (Decl.Param.Rel TypeNode.Alike { name, type := some t }) := by
  obtain ⟨c, hc, hcolon, hannotation⟩ :=
    hsaid.child? .colonType (o := .node .colonType [.mark .colon, o]) (by rfl)
  obtain ⟨u, hu, htype, husaid⟩ := hannotation.type? (o := o) (by simp [ho])
  obtain ⟨e, -, hname, hesaid⟩ := hsaid.child? .name (by rfl)
  have hannotated : m.annotatedType? = some u := by rw [Node.annotatedType?, hcolon]; exact htype
  have hwritten : writtenName m = name := by
    rw [writtenName, Node.name?, hname]
    exact hesaid.sourceText.trans String.ofList_toList
  have hleaves : m.leaves = [] := List.map_eq_nil_iff.1 hsaid.leaves
  have hinitializer : m.child? .initializer = none := hsaid.child?_eq_none _ (by rfl)
  have hcopy : J.gives (copy u) (TypeNode.Alike t) :=
    h u husaid (Nat.lt_of_lt_of_le (Nat.lt_trans (Node.height_lt hu) (Node.height_lt hc)) hheight)
  simp only [copyParam, paramType, hannotated, hwritten, hinitializer, Node.hasToken, hleaves]
  exact J.bind hcopy fun v hv => J.pure (.mk (.some hv))

/-- What a function returns is copied when it is no predicate. -/
theorem copyReturn_gives (ho : o.isType = true) (h : Copies J copy n t o)
    (hsaid : m.Says (.node .returnType [.mark .arrow, o])) (hheight : m.tree.height ≤ n) :
    J.gives (copyReturn file copy m) (TypeNode.Alike t) := by
  have hpredicate : m.child? .typePredicate = none := by
    have hkind : o.kind ≠ .typePredicate := by
      rintro hkind
      rw [Outline.isType, hkind] at ho
      cases ho
    exact hsaid.child?_eq_none _ (by simp [hkind])
  obtain ⟨u, hu, htype, husaid⟩ := hsaid.type? (o := o) (by simp [ho])
  simp only [copyReturn, hpredicate, htype]
  exact h u husaid (Nat.lt_of_lt_of_le (Node.height_lt hu) hheight)

theorem copyForm_function {params : List (String × TypeNode × Outline)}
    (hptypes : ∀ p ∈ params, p.2.2.isType = true)
    (hparams : ∀ p ∈ params, Copies J copy n p.2.1 p.2.2)
    (ho : o.isType = true) (h : Copies J copy n t o) :
    CopiesForm J file copy n
      (.function
        { params := params.map fun p => { name := p.1, type := some p.2.1 }, returns := some t })
      (Outline.function (params.map fun p => Outline.param p.1 p.2.2) o) := by
  intro m hsaid hheight
  have hkind : m.kind = .functionType := hsaid.kind
  obtain ⟨c, hc, hparamList, hcsaid⟩ := hsaid.child? .paramList (by rfl)
  obtain ⟨r, hr, hreturnType, hrsaid⟩ := hsaid.child? .returnType (by rfl)
  have hsplit : m.params = c.childrenOf .param := by rw [Node.params, hparamList]; rfl
  have hnone : m.typeParams = [] := by
    rw [Node.typeParams, hsaid.child?_eq_none .typeParamList (by rfl)]
    rfl
  have hall := hcsaid.childrenOf .param
  rw [Outline.filter_enclosed (by simp) (List.forall_mem_map.2 fun _ _ => rfl),
    List.forall₂_map_right_iff] at hall
  have hgives : J.gives (m.params.mapM (copyParam file copy))
      (List.Forall₂ (Decl.Param.Rel TypeNode.Alike)
        (params.map fun p => { name := p.1, type := some p.2.1 })) := by
    rw [hsplit]
    refine Judgment.gives_mapM_forall₂ (List.forall₂_map_right_iff.2 ?_)
    refine forall₂_of_mem hall fun d hd p hp hdp => ?_
    have hlt := Nat.lt_trans (Node.height_lt (List.mem_filter.1 hd).1) (Node.height_lt hc)
    have hle := Nat.le_of_lt (Nat.lt_of_lt_of_le hlt hheight)
    exact copyParam_gives (hptypes p hp) (hparams p hp) hdp hle
  have hreturn : J.gives (copyReturn file copy r) (TypeNode.Alike t) :=
    copyReturn_gives ho h hrsaid (Nat.le_trans (Nat.le_of_lt (Node.height_lt hr)) hheight)
  have hsignature : J.gives (copySignature file copy m) (Decl.Signature.Rel TypeNode.Alike
      { params := params.map fun p => { name := p.1, type := some p.2.1 }, returns := some t }) := by
    rw [copySignature, copyTypeParams, hnone, hreturnType]
    refine J.bind hgives fun ps hps => J.bind (P := (· = [])) (J.pure rfl) fun ts hts => ?_
    obtain rfl := hts
    refine J.bind (P := Option.Rel TypeNode.Alike (some t)) ?_ fun r hr => J.pure (.mk .nil hps hr)
    exact J.bind hreturn fun u hu => J.pure (.some hu)
  simp only [copyForm, hkind]
  exact J.bind hsignature fun s hs => J.pure (.function hs)

/-! ## Types -/

/-- A type is copied when its form is, by a copier for what is inside. -/
theorem copies_of_form {f : TypeForm} {origin : Option Decl.Origin}
    (h : ∀ fuel, CopiesForm J file (copyUpTo file fuel) fuel f (.node k os)) (fuel : Nat) :
    Copies J (copyUpTo file fuel) fuel (.mk f origin) (.node k os) := by
  intro m hsaid hheight
  cases fuel with
  | zero => exact absurd hheight (Nat.not_lt_zero _)
  | succ fuel =>
    rw [copyUpTo]
    exact J.bind (h fuel m hsaid (Nat.le_of_lt_succ hheight)) fun g hg => J.pure (.mk hg)

/-- Every phrase is copied from what says it. -/
theorem copies (h : Phrase n l t o) (fuel : Nat) : Copies J (copyUpTo file fuel) fuel t o := by
  induction h generalizing fuel with
  | keyword => exact copies_of_form (fun _ => copyForm_keyword) fuel
  | string => exact copies_of_form (fun _ => copyForm_literal (by decide)) fuel
  | boolean => exact copies_of_form (fun _ => copyForm_boolean) fuel
  | reference hname hargs ih =>
    refine copies_of_form (fun fuel => ?_) fuel
    exact copyForm_reference (fun x hx => (hargs x hx).isType) (fun x hx => ih x hx fuel)
      (isIdentifier_of_isTypeName hname)
  | tuple hitems ih =>
    refine copies_of_form (fun fuel => ?_) fuel
    exact copyForm_tuple (fun x hx => (hitems x hx).isType) fun x hx => ih x hx fuel
  | paren h ih => exact copies_of_form (fun fuel => copyForm_paren h.isType (ih fuel)) fuel
  | array h ih => exact copies_of_form (fun fuel => copyForm_array h.isType (ih fuel)) fuel
  | indexed h hi ih ihi =>
    exact copies_of_form (fun fuel => copyForm_indexed h.isType hi.isType (ih fuel) (ihi fuel)) fuel
  | keyof h ih => exact copies_of_form (fun fuel => copyForm_keyof h.isType (ih fuel)) fuel
  | intersection hmembers ih =>
    refine copies_of_form (fun fuel => ?_) fuel
    exact copyForm_intersection (fun x hx => (hmembers x hx).isType) fun x hx => ih x hx fuel
  | union hmembers ih =>
    refine copies_of_form (fun fuel => ?_) fuel
    exact copyForm_union (fun x hx => (hmembers x hx).isType) fun x hx => ih x hx fuel
  | function _ hparams h ihparams ih =>
    refine copies_of_form (fun fuel => ?_) fuel
    exact copyForm_function (fun p hp => (hparams p hp).isType) (fun p hp => ihparams p hp fuel)
      h.isType (ih fuel)
  | conditional ha hb hc hd iha ihb ihc ihd =>
    refine copies_of_form (fun fuel => ?_) fuel
    exact copyForm_conditional ha.isType hb.isType hc.isType hd.isType (iha fuel) (ihb fuel)
      (ihc fuel) (ihd fuel)
  | ofPrimary _ ih | ofPostfix _ ih | ofOperator _ ih | ofIntersection _ ih | ofUnion _ ih =>
    exact ih fuel

end Emit

end DeclKit

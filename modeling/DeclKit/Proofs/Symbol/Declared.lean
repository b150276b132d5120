/-
What a file declares.

A declaration is a node of the file; its name, what it makes of the name, and the scope that the name is
entered into can be read off it. The declarations of a file come in the order of its statements, and no
two of them are the same node, as soon as they are not empty: nodes side by side have different ranges,
and the parts of an import that bind names have different kinds.
-/
import DeclKit.Proofs.Program.Keys
import DeclKit.Proofs.Symbol.Binder
import Mathlib.Data.List.Nodup

set_option autoImplicit false

namespace DeclKit

open Node DeclKit.Tree

namespace Node

/-! ## Declarations -/

/-- The node that spells the declared name. An item of an import list may rename what it takes, and its
own name stands last. -/
def declaredName? (n : Node) : Option Node :=
  match n.kind with
  | .importSpecifier => (n.childrenOf .name).getLast?
  | _ => n.name?

/-- The name that a node declares. -/
def declaredName (n : Node) : String := (n.declaredName?.map nameText).getD ""

/-- What a declaration makes of its name. -/
def declaredMeaning (n : Node) : Meaning :=
  match n.kind with
  | .typeAliasDecl => { typeAlias := true }
  | .interfaceDecl => { interface := true }
  | .functionDecl => { function := true }
  | .variableDecl =>
    match n.parent?.map variableKeyword with
    | some .var => { variable_ := true }
    | _ => { blockScoped := true }
  | .importClause | .namespaceImport | .importSpecifier => { importAlias := true }
  | .typeParam | .mappedTypeParam => { typeParameter := true }
  | _ => {}

/-- The node has a name that is no pattern. -/
def hasPlainName (n : Node) : Bool := n.name?.any (!·.isRawName)

/-- The items of the list of an import. -/
def importItems (clause : Node) : List Node :=
  ((clause.child? .namedImports).map (·.childrenOf .importSpecifier)).getD []

/-- The parts of an import statement that bind a name: the clause itself for the default import, what
imports the whole module, and the items of its list. -/
def importBindings (n : Node) : List Node :=
  match n.child? .importClause with
  | none => []
  | some clause =>
    [clause].filter (·.name?.isSome) ++
      ((clause.child? .namespaceImport).toList.filter (·.name?.isSome) ++
        clause.importItems.filter (·.declaredName?.isSome))

/-- The declarations of a statement. -/
def declarations (n : Node) : List Node :=
  match n.kind with
  | .importDecl => n.importBindings
  | .typeAliasDecl | .interfaceDecl | .functionDecl => [n].filter hasPlainName
  | .variableStatement => (n.childrenOf .variableDecl).filter hasPlainName
  | _ => []

/-- A type parameter or a parameter of a mapped type, with a name. -/
def bindsType (n : Node) : Bool :=
  (n.kind == .typeParam || n.kind == .mappedTypeParam) && n.name?.isSome

/-- The node holds some of the text. -/
def isFull (n : Node) : Bool := decide (n.start < n.stop)

end Node

namespace BindInput

/-- The scope of a file's names: the file itself if it is a module, and otherwise the whole program. -/
def scope? (i : BindInput) : Option SourceId := if i.root.isModule then some i.file else none

/-- The declarations of a file, in order. -/
def declarations (i : BindInput) : List Declaration :=
  (i.root.statements.flatMap Node.declarations).map (Declaration.mk i.file)

/-- The type parameters of a file, in order. -/
def typeParams (i : BindInput) : List Declaration :=
  (i.root.descendants.filter bindsType).map (Declaration.mk i.file)

/-- The root of a file is what a parse of some text gives. -/
def IsParsed (i : BindInput) : Prop :=
  ∃ source limits text p, parseWith source limits text = .ok p ∧ i.root = ⟨p.tree, []⟩

end BindInput

/-! ## Places of declarations -/

namespace Node

/-- One node ends before the other starts. -/
def Before (n m : Node) : Prop := n.stop ≤ m.start

/-- The node lies within the range of the other. -/
def Within (m n : Node) : Prop := n.start ≤ m.start ∧ m.stop ≤ n.stop

/-- The tree of a node covers its range. -/
def Covered (n : Node) : Prop := Covers n.start n.stop n.tree

variable {n m k : Node}

theorem isFull_iff : n.isFull = true ↔ n.start < n.stop := decide_eq_true_iff

theorem Within.refl (n : Node) : n.Within n := ⟨Nat.le_refl _, Nat.le_refl _⟩

theorem Within.trans (h : m.Within n) (h' : n.Within k) : m.Within k :=
  ⟨Nat.le_trans h'.1 h.1, Nat.le_trans h.2 h'.2⟩

/-- What lies within two nodes side by side is empty. -/
theorem Before.not_isFull {a b : Node} (h : a.Before b) (ha : n.Within a) (hb : n.Within b) :
    ¬n.isFull = true := by
  intro hfull
  have hlt := isFull_iff.1 hfull
  have hle : n.stop ≤ n.start := Nat.le_trans ha.2 (Nat.le_trans h hb.1)
  omega

/-- Of nodes side by side those that are not empty are different. -/
theorem nodup_of_before {ns : List Node} (h : ns.Pairwise Before) : (ns.filter isFull).Nodup := by
  rw [List.Nodup, List.pairwise_filter]
  refine h.imp fun {a b} hab hfull _ heq => ?_
  subst heq
  exact hab.not_isFull (.refl a) (.refl a) hfull

end Node

/-- The parts of several trees cover their ranges, one behind the other. -/
theorem Tree.CoversAll.parts {a b : Nat} {ts : List Tree} (h : CoversAll a b ts) :
    (∀ t ∈ ts.filter isNode, Covers t.start t.stop t ∧ a ≤ t.start ∧ t.stop ≤ b) ∧
      (ts.filter isNode).Pairwise fun t u => t.stop ≤ u.start := by
  induction ts generalizing a with
  | nil => exact ⟨fun t ht => absurd ht List.not_mem_nil, List.Pairwise.nil⟩
  | cons t ts ih =>
    obtain ⟨m, ht, hts⟩ := h
    obtain ⟨hparts, hside⟩ := ih hts
    cases t with
    | token t =>
      refine ⟨fun u hu => ?_, hside⟩
      obtain ⟨hc, hs, he⟩ := hparts u hu
      exact ⟨hc, Nat.le_trans ht.le hs, he⟩
    | node k s e cs =>
      have hhead := ht
      obtain ⟨rfl, rfl, -⟩ := ht
      have hle : s ≤ e := hhead.le
      refine ⟨fun u hu => ?_, List.pairwise_cons.2 ⟨fun u hu => (hparts u hu).2.1, hside⟩⟩
      rcases List.mem_cons.1 hu with rfl | hu
      · exact ⟨hhead, Nat.le_refl _, hts.le⟩
      · obtain ⟨hc, hs, he⟩ := hparts u hu
        exact ⟨hc, Nat.le_trans hle hs, he⟩

namespace Node

variable {n c : Node} {k : Kind}

/-- The trees below a node that covers its range. -/
theorem Covered.below (h : n.Covered) : CoversAll n.start n.stop n.tree.children ∨
    n.children = [] := by
  obtain ⟨t, above⟩ := n
  cases t with
  | token t => exact .inr rfl
  | node k s e cs => exact .inl h.2.2

theorem Covered.children (h : n.Covered) (hc : c ∈ n.children) : c.Covered ∧ c.Within n := by
  obtain hall | hnone := h.below
  · obtain ⟨t, ht, rfl⟩ := List.mem_map.1 hc
    exact hall.parts.1 t ht
  · rw [hnone] at hc
    exact absurd hc List.not_mem_nil

theorem Covered.pairwise_children (h : n.Covered) : n.children.Pairwise Before := by
  obtain hall | hnone := h.below
  · exact List.pairwise_map.2 hall.parts.2
  · rw [hnone]
    exact List.Pairwise.nil

theorem Covered.child? (h : n.Covered) (hc : n.child? k = some c) : c.Covered ∧ c.Within n :=
  h.children (List.mem_of_find?_eq_some hc)

theorem Covered.childrenOf (h : n.Covered) (hc : c ∈ n.childrenOf k) : c.Covered ∧ c.Within n :=
  h.children (List.mem_filter.1 hc).1

theorem Covered.pairwise_childrenOf (h : n.Covered) (k : Kind) :
    (n.childrenOf k).Pairwise Before := h.pairwise_children.filter _

/-! ## Different declarations -/

theorem mem_importItems (hc : c ∈ n.importItems) :
    ∃ list, n.child? .namedImports = some list ∧ c ∈ list.childrenOf .importSpecifier := by
  rw [importItems] at hc
  cases hlist : n.child? .namedImports with
  | none => rw [hlist] at hc; exact absurd hc List.not_mem_nil
  | some list => rw [hlist] at hc; exact ⟨list, rfl, hc⟩

theorem kind_of_importItems (hc : c ∈ n.importItems) : c.kind = .importSpecifier := by
  obtain ⟨list, -, hc⟩ := mem_importItems hc
  exact kind_of_childrenOf hc

theorem Covered.importItems (h : n.Covered) :
    (∀ c ∈ n.importItems, c.Within n) ∧ (n.importItems.filter isFull).Nodup := by
  refine ⟨fun c hc => ?_, ?_⟩
  · obtain ⟨list, hlist, hc⟩ := mem_importItems hc
    obtain ⟨hcovered, hwithin⟩ := h.child? hlist
    exact (hcovered.childrenOf hc).2.trans hwithin
  · rw [Node.importItems]
    cases hlist : n.child? .namedImports with
    | none => exact List.nodup_nil
    | some list => exact nodup_of_before ((h.child? hlist).1.pairwise_childrenOf _)

/-- What an import statement binds lies in it. -/
theorem Covered.importBindings_within (h : n.Covered) :
    ∀ c ∈ n.importBindings, c.Within n := by
  intro c hc
  rw [importBindings] at hc
  split at hc
  · exact absurd hc List.not_mem_nil
  · rename_i clause hclause
    obtain ⟨hcovered, hwithin⟩ := h.child? hclause
    simp only [List.mem_append, List.mem_filter, List.mem_singleton, Option.mem_toList] at hc
    rcases hc with ⟨rfl, -⟩ | ⟨hspace, -⟩ | ⟨hitem, -⟩
    · exact hwithin
    · exact (hcovered.child? hspace).2.trans hwithin
    · exact (hcovered.importItems.1 c hitem).trans hwithin

/-- The parts of an import that bind a name are told apart by their kinds, and the items of its list
by their places. -/
theorem Covered.nodup_importBindings (h : n.Covered) : (n.importBindings.filter isFull).Nodup := by
  rw [importBindings]
  split
  · exact List.nodup_nil
  · rename_i clause hclause
    have hkind := kind_of_child? hclause
    have hitems := (h.child? hclause).1.importItems.2
    rw [List.filter_append, List.filter_append]
    refine List.nodup_append'.2 ⟨?_, List.nodup_append'.2 ⟨?_, ?_, ?_⟩, ?_⟩
    · exact ((List.nodup_singleton clause).filter _).filter _
    · refine (List.Nodup.filter _ ?_).filter _
      cases clause.child? .namespaceImport with
      | none => exact List.nodup_nil
      | some space => exact List.nodup_singleton space
    · rw [List.filter_comm]
      exact hitems.filter _
    · intro c hc hc'
      simp only [List.mem_filter, Option.mem_toList] at hc hc'
      have := kind_of_child? hc.1.1
      rw [kind_of_importItems hc'.1.1] at this
      cases this
    · intro c hc hc'
      simp only [List.mem_append, List.mem_filter, List.mem_singleton, Option.mem_toList] at hc hc'
      obtain rfl := hc.1.1
      rcases hc' with hc' | hc'
      · have := kind_of_child? hc'.1.1
        rw [hkind] at this
        cases this
      · have := kind_of_importItems hc'.1.1
        rw [hkind] at this
        cases this

/-- The declarations of a statement lie in it, and are different as far as they are not empty. -/
theorem Covered.declarations (h : n.Covered) :
    (∀ c ∈ n.declarations, c.Within n) ∧ (n.declarations.filter isFull).Nodup := by
  have hself : (∀ c ∈ [n].filter hasPlainName, c.Within n) ∧
      (([n].filter hasPlainName).filter isFull).Nodup := by
    refine ⟨fun c hc => ?_, ((List.nodup_singleton n).filter _).filter _⟩
    obtain rfl := List.mem_singleton.1 (List.mem_filter.1 hc).1
    exact .refl c
  rw [Node.declarations]
  split
  · exact ⟨h.importBindings_within, h.nodup_importBindings⟩
  · exact hself
  · exact hself
  · exact hself
  · refine ⟨fun c hc => (h.childrenOf (List.mem_filter.1 hc).1).2, ?_⟩
    exact nodup_of_before ((h.pairwise_childrenOf _).filter _)
  · exact ⟨fun c hc => absurd hc List.not_mem_nil, List.nodup_nil⟩

/-- What an import binds is a clause, an import of a module, or an item. -/
theorem bindsType_of_importBindings (hc : c ∈ n.importBindings) : c.bindsType = false := by
  rw [importBindings] at hc
  split at hc
  · exact absurd hc List.not_mem_nil
  · rename_i clause hclause
    simp only [List.mem_append, List.mem_filter, List.mem_singleton, Option.mem_toList] at hc
    rcases hc with ⟨rfl, -⟩ | ⟨hspace, -⟩ | ⟨hitem, -⟩
    · rw [bindsType, kind_of_child? hclause]
      rfl
    · rw [bindsType, kind_of_child? hspace]
      rfl
    · rw [bindsType, kind_of_importItems hitem]
      rfl

/-- No declaration of a name is a type parameter. -/
theorem bindsType_of_declarations (hc : c ∈ n.declarations) : c.bindsType = false := by
  rw [Node.declarations] at hc
  split at hc
  · exact bindsType_of_importBindings hc
  · rename_i hk
    rw [List.mem_singleton.1 (List.mem_filter.1 hc).1, bindsType, hk]
    rfl
  · rename_i hk
    rw [List.mem_singleton.1 (List.mem_filter.1 hc).1, bindsType, hk]
    rfl
  · rename_i hk
    rw [List.mem_singleton.1 (List.mem_filter.1 hc).1, bindsType, hk]
    rfl
  · rw [bindsType, kind_of_childrenOf (List.mem_filter.1 hc).1]
    rfl
  · exact absurd hc List.not_mem_nil

/-- The declarations of a file are different as far as they are not empty. -/
theorem Covered.nodup_statements (h : n.Covered) :
    ((n.statements.flatMap Node.declarations).filter isFull).Nodup := by
  have hside : n.statements.Pairwise Before := h.pairwise_children.filter _
  rw [List.filter_flatMap, List.nodup_flatMap]
  refine ⟨fun s hs => ?_, ?_⟩
  · exact (h.children (List.mem_filter.1 hs).1).1.declarations.2
  · refine hside.imp_of_mem fun {s u} hs hu hbefore c hc hc' => ?_
    obtain ⟨hc, hfull⟩ := List.mem_filter.1 hc
    have hin := (h.children (List.mem_filter.1 hs).1).1.declarations.1 c hc
    have hin' := (h.children (List.mem_filter.1 hu).1).1.declarations.1 c (List.mem_filter.1 hc').1
    exact hbefore.not_isFull hin hin' hfull

end Node

end DeclKit

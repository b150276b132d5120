/-
How deep trees get.

The bound on nesting is charged where a type nests in a type. Between two nested types the productions
add a fixed number of levels, so a tree has at most so many levels for each nesting that is allowed,
and some for the statement around the types. Chains of prefix operators and of brackets behind a type
are not charged. Their nodes take no level here, and they have to be left out: with any bound on
nesting there are texts whose trees are as deep as one likes.
-/
import DeclKit.Proofs.Grammar.Built
import DeclKit.Proofs.Limits.Account

set_option autoImplicit false

namespace DeclKit

open DeclKit.Parser (chains levels typeLevels)

/-! ## Levels of trees -/

/-- An element has at most so many levels, where nodes that form chains take none. -/
inductive Tree.AtMost : Nat → Tree → Prop where
  | token {n : Nat} {t : Token} : AtMost n (.token t)
  | node {n b : Nat} {k : Kind} {start stop : Nat} {cs : List Tree} :
      (∀ c ∈ cs, AtMost b c) → b + levels k ≤ n → AtMost n (.node k start stop cs)

theorem Tree.AtMost.mono {n m : Nat} {t : Tree} (h : t.AtMost n) (hm : n ≤ m) : t.AtMost m := by
  cases h with
  | token => exact .token
  | node hcs hn => exact .node hcs (Nat.le_trans hn hm)

/-- How many of some nodes take a level. -/
def Node.levelsOf (ts : List Tree) : Nat := ts.countP fun t => !chains t.kind

mutual

/-- A node is below at most as many levels as the tree has, and those around the tree. -/
theorem Tree.AtMost.levelsOf_above {n : Nat} {above : List Tree} {t : Tree} {m : Node}
    (h : t.AtMost n) (hm : m ∈ Node.nodesOf above t) :
    Node.levelsOf m.above ≤ Node.levelsOf above + n := by
  match t with
  | .token _ => exact absurd hm List.not_mem_nil
  | .node k start stop cs =>
    rcases List.mem_cons.1 hm with rfl | hm
    · exact Nat.le_add_right _ _
    · cases h with
      | node hcs hn =>
        have hle := Tree.levelsOf_above_of_list hcs hm
        have hlevels : Node.levelsOf (.node k start stop cs :: above) =
            Node.levelsOf above + levels k := by
          rw [Node.levelsOf, List.countP_cons]
          cases hk : chains k <;> simp [Node.levelsOf, Tree.kind, levels, hk]
        omega

theorem Tree.levelsOf_above_of_list {n : Nat} {above ts : List Tree} {m : Node}
    (h : ∀ t ∈ ts, t.AtMost n) (hm : m ∈ Node.nodesOfList above ts) :
    Node.levelsOf m.above ≤ Node.levelsOf above + n := by
  match ts with
  | [] => exact absurd hm List.not_mem_nil
  | t :: ts =>
    rcases List.mem_append.1 hm with hm | hm
    · exact Tree.AtMost.levelsOf_above (h t List.mem_cons_self) hm
    · exact Tree.levelsOf_above_of_list (fun t' ht' => h t' (List.mem_cons_of_mem t ht')) hm

end

namespace Parser

/-! ## Levels of the row -/

/-- At depth `d` of at most `l` nestings, the elements of the row behind a front have at most `n` levels
and those of the nestings that are left. -/
structure Piled (l d : Nat) (opened : List (Kind × Nat)) (front : List Tree) (n : Nat) (s : State) :
    Prop where
  nesting : s.limits.nesting = some l
  depth_eq : s.depth = d
  opened_eq : s.opened = opened
  row_eq : ∃ inner, s.row.toList = front ++ inner ∧
    ∀ t ∈ inner, t.AtMost (n + typeLevels * (l - d))

section Piled

variable {l d n a b : Nat} {opened : List (Kind × Nat)} {front : List Tree} {s s' : State} {k : Kind}

theorem Piled.of_eq (h : Piled l d opened front n s) (hlimits : s'.limits = s.limits)
    (hdepth : s'.depth = s.depth) (hopened : s'.opened = s.opened) (hrow : s'.row = s.row) :
    Piled l d opened front n s' where
  nesting := hlimits ▸ h.nesting
  depth_eq := hdepth.trans h.depth_eq
  opened_eq := hopened.trans h.opened_eq
  row_eq := hrow ▸ h.row_eq

/-- Whether conditional types are allowed is no matter of the row. -/
theorem Piled.withMode (h : Piled l d opened front n s) (allowed : Bool) :
    Piled l d opened front n { s with inExtends := allowed } :=
  h.of_eq rfl rfl rfl rfl

theorem Piled.mono (h : Piled l d opened front a s) (hab : a ≤ b) : Piled l d opened front b s :=
  { h with
    row_eq := by
      obtain ⟨inner, hrow, hinner⟩ := h.row_eq
      exact ⟨inner, hrow, fun t ht => (hinner t ht).mono (Nat.add_le_add_right hab _)⟩ }

/-- Tokens take no level. -/
theorem Piled.place (h : Piled l d opened front n s) : Piled l d opened front n (placeTrivia s).2 where
  nesting := h.nesting
  depth_eq := h.depth_eq
  opened_eq := h.opened_eq
  row_eq := by
    obtain ⟨inner, hrow, hinner⟩ := h.row_eq
    refine ⟨inner ++ ((s.tokens.toList.take s.pos).drop s.placed).map .token, ?_, fun t ht => ?_⟩
    · rw [placeTrivia_row, hrow, List.append_assoc]
    · rcases List.mem_append.1 ht with ht | ht
      · exact hinner t ht
      · obtain ⟨u, -, rfl⟩ := List.mem_map.1 ht
        exact .token

/-- Behind all that is there is nothing. -/
theorem Piled.fresh (h : Piled l d opened front a s) : Piled l d opened s.row.toList n s :=
  { h with row_eq := ⟨[], (List.append_nil _).symm, fun _ ht => absurd ht List.not_mem_nil⟩ }

/-- What comes behind the elements that were there is behind the front as well. -/
theorem Piled.join (h : Piled l d opened front a s) (h' : Piled l d opened s.row.toList b s')
    (hab : a ≤ b) : Piled l d opened front b s' :=
  { h' with
    row_eq := by
      obtain ⟨inner, hrow, hinner⟩ := h.row_eq
      obtain ⟨more, hrow', hmore⟩ := h'.row_eq
      refine ⟨inner ++ more, by rw [hrow', hrow, List.append_assoc], fun t ht => ?_⟩
      rcases List.mem_append.1 ht with ht | ht
      · exact (hinner t ht).mono (Nat.add_le_add_right hab _)
      · exact hmore t ht }

/-- A node takes up what is behind the front, and adds its level. -/
theorem Piled.close (h : Piled l d ((k, front.length) :: opened) front b s) :
    Piled l d opened front (b + levels k) (closeNode (opened.length + 1) s).2 := by
  obtain ⟨inner, hrow, hinner⟩ := h.row_eq
  rw [closeNode_eq h.opened_eq, hrow, List.drop_left' rfl]
  refine ⟨h.nesting, h.depth_eq, rfl, [nodeOf k inner (placedStop s)], ?_, fun t ht => ?_⟩
  · dsimp only
    rw [Array.toList_push, Array.toList_shrink, hrow, List.take_left' rfl]
  · obtain rfl := List.mem_singleton.1 ht
    exact .node hinner (by omega)

/-- A token that is taken takes no level. -/
theorem Piled.bump (h : Piled l d opened front n s) : Piled l d opened front n (bump s).2 := by
  obtain ⟨-, heq⟩ | ⟨-, spent, failure, -, heq⟩ := bump_cases s
  · rw [heq]
    exact h.of_eq rfl rfl rfl rfl
  · rw [heq]
    have hpast : Piled l d opened front n { s with pos := cursor s + 1, patience := fullPatience } :=
      h.of_eq rfl rfl rfl rfl
    exact hpast.place.of_eq rfl rfl rfl rfl

/-- A node that is opened behind all that is there adds its level to what its body adds. -/
theorem Piled.within {α : Type} {p : Parse α} (h : Piled l d opened front a s) (hac : a ≤ n)
    (hbc : b + levels k ≤ n)
    (hp : ∀ {opened front s}, Piled l d opened front 0 s → Piled l d opened front b (p s).2) :
    Piled l d opened front n (within k p s).2 := by
  have hplace := h.place
  let s1 : State := (placeTrivia s).2
  let s2 : State := s1.opening k s1.row.size
  have hopen : Piled l d ((k, s1.row.toList.length) :: opened) s1.row.toList 0 s2 :=
    { hplace.fresh with opened_eq := congrArg ((k, s1.row.size) :: ·) hplace.opened_eq }
  have hclosed := (hp hopen).close
  rw [← hplace.opened_eq] at hclosed
  exact hplace.join (hplace.opened_eq ▸ hclosed.mono hbc) hac

/-- What comes behind a new mark comes behind the front as well. -/
theorem Piled.marked {α : Type} {f : Nat → Parse α} (h : Piled l d opened front a s) (han : a ≤ n)
    (hf : ∀ {front s}, Piled l d opened front 0 s →
      Piled l d opened front n (f front.length s).2) :
    Piled l d opened front n ((mark >>= f) s).2 := by
  have hskip : Piled l d opened front a (skipTrivia s).2 := h.of_eq rfl rfl rfl rfl
  exact hskip.place.join (hf hskip.place.fresh) han

/-- A node that is opened at a mark takes up what is behind it. -/
theorem Piled.withinFrom {α : Type} {p : Parse α} (h : Piled l d opened front a s)
    (hbc : b + levels k ≤ n)
    (hp : ∀ {opened s}, Piled l d opened front a s → Piled l d opened front b (p s).2) :
    Piled l d opened front n (withinFrom front.length k p s).2 := by
  obtain ⟨hcount, fault, -, hstate⟩ := openAt_after front.length k s
  have hopen : Piled l d ((k, front.length) :: opened) front a (openAt front.length k s).2 := by
    rw [hstate]
    exact { h with opened_eq := congrArg ((k, front.length) :: ·) h.opened_eq }
  have hclosed := (hp hopen).close.mono hbc
  rw [← h.opened_eq, ← hcount] at hclosed
  exact h.opened_eq ▸ hclosed

/-- What a nested type adds is covered by the nesting that it has entered. -/
theorem Piled.nested {type : Parse Bool} (h : Piled l d opened front a s)
    (hp : ∀ {s}, d < l → Piled l (d + 1) opened s.row.toList 0 s →
      Piled l (d + 1) opened s.row.toList typeLevels (typeHere type s).2) :
    Piled l d opened front a (typeWith type s).2 := by
  obtain ⟨-, -, -, heq⟩ | ⟨hlet, heq⟩ := typeWith_cases type s
  · rw [heq]
    exact h.of_eq rfl rfl rfl rfl
  rw [heq]
  have hlt : d < l := h.depth_eq ▸ hlet l h.nesting
  let s1 : State := { s with depth := s.depth + 1, patience := fullPatience }
  have hentered : Piled l (d + 1) opened s1.row.toList 0 s1 :=
    ⟨h.nesting, congrArg (· + 1) h.depth_eq, h.opened_eq, [], (List.append_nil _).symm,
      fun _ ht => absurd ht List.not_mem_nil⟩
  obtain ⟨hnesting, hdepth, hopened, more, hrow, hmore⟩ := hp hlt hentered
  refine h.join ⟨hnesting, ?_, hopened, more, hrow, fun t ht => (hmore t ht).mono ?_⟩ (Nat.le_refl a)
  · change (typeHere type s1).2.depth - 1 = d
    rw [hdepth]
    rfl
  · -- the levels of one type and of the nestings within it
    have hroom : l - d = (l - (d + 1)) + 1 := by omega
    rw [hroom, Nat.mul_add]
    omega

end Piled

/-- A composed step adds levels as it says it does. -/
theorem Composed.piled {α : Type} {allowed : Bool} {m a c : Nat} {p : Parse α}
    (h : Composed allowed m a c p) {l d : Nat} {opened : List (Kind × Nat)} {front : List Tree}
    {s : State} (hd : d ≤ l) (hfront : front.length = m) (hs : Piled l d opened front a s) :
    Piled l d opened front c (p s).2 := by
  induction h generalizing d opened front s with
  | pure => exact hs
  | step _ _ hp hf => exact hf s hd hfront (hp hd hfront hs)
  | weaken _ ha hc hp => exact (hp hd hfront (hs.mono ha)).mono hc
  | read _ _ hf => exact hf s hd hfront hs
  | adjust hg =>
    obtain ⟨_, _, heq⟩ := hg.only s
    rw [modify_apply, heq]
    exact hs.of_eq rfl rfl rfl rfl
  | report =>
    obtain ⟨-, heq⟩ | ⟨-, heq⟩ := reportWith_cases _ _ s
    all_goals
      rw [heq]
      exact hs.of_eq rfl rfl rfl rfl
  | skipTrivia => exact hs.of_eq rfl rfl rfl rfl
  | placeTrivia => exact hs.place
  | atEnd => exact hs.of_eq rfl rfl rfl rfl
  | bump => exact hs.bump
  | within _ hac hbc _ hp => exact hs.within hac hbc fun h => hp _ hd rfl h
  | marked _ hac hf => exact hs.marked hac fun h => hf _ hd rfl h
  | withinFrom _ hbc _ hp =>
    subst hfront
    exact hs.withinFrom hbc fun h => hp hd rfl h
  | nested _ hp => exact hs.nested fun hlt h => hp _ hlt rfl h
  | lift _ hp => exact hp hd hfront hs
  | allowing _ hp => exact (hp hd hfront (hs.withMode false)).withMode s.inExtends
  | @choice _ _ _ _ p q _ _ hp hq =>
    change Piled l d opened front _ ((if s.inExtends then p else q) s).2
    split
    · exact hp hd hfront hs
    · exact hq hd hfront hs
  | forbidding _ _ hp hq =>
    exact hq hd hfront ((hp hd hfront (hs.withMode true)).withMode false)

/-- All that a parse leaves in the row has a bounded number of levels. -/
theorem afterFile_atMost {limits : Limits} {l : Nat} (hl : limits.nesting = some l)
    (source : SourceId) (text : String) :
    ∀ t ∈ (State.afterFile source limits text).row.toList, t.AtMost (7 + typeLevels * l) := by
  have hstart : Piled l 0 [] [] 0 (State.start source limits text) :=
    ⟨hl, rfl, rfl, [], rfl, fun _ ht => absurd ht List.not_mem_nil⟩
  obtain ⟨inner, hrow, hinner⟩ := (file_composed.piled (Nat.zero_le l) rfl hstart).row_eq
  intro t ht
  rw [State.afterFile, hrow] at ht
  exact hinner t ht

end Parser

open DeclKit.Parser

/-- The nodes around a node of a parsed file take no more levels than the bound on nesting allows. -/
theorem levelsOf_above_le {source : SourceId} {limits : Limits} {text : String} {f : ParsedFile}
    {l : Nat} (hl : limits.nesting = some l) (h : parseWith source limits text = .ok f) {n : Node}
    (hn : n ∈ (Node.mk f.tree []).descendants) : Node.levelsOf n.above ≤ 8 * (l + 1) := by
  obtain ⟨-, ⟨a, b, cs, hroot⟩, -⟩ := afterFile_spec source limits text
  have hall := afterFile_atMost hl source text
  rw [parseWith, State.result] at h
  generalize State.afterFile source limits text = s at hroot hall h
  split at h
  · cases h
  obtain rfl := Except.ok.inj h
  -- the tree is the only element of the row, and nothing is around it
  have htree : s.row.getD 0 default ∈ s.row.toList := by
    rw [Array.getD_eq_getD_getElem?, ← Array.getElem?_toList, hroot]
    exact List.mem_singleton_self _
  have hle : Node.levelsOf n.above ≤ 0 + (7 + typeLevels * l) := (hall _ htree).levelsOf_above hn
  rw [typeLevels] at hle
  omega

/-! ## Chains -/

/-- The type `string` behind so many prefix operators. -/
def keyofChain : Nat → Decl.TypeNode
  | 0 => .fresh (.keyword .string)
  | n + 1 => .fresh (.operator .keyof (keyofChain n))

/-- What such a type is read as. -/
def keyofOutline : Nat → Outline
  | 0 => .node .keywordType [.named "string"]
  | n + 1 => .node .typeOperator [.named "keyof", keyofOutline n]

theorem phrase_keyofChain (n : Nat) : Phrase 0 .operator (keyofChain n) (keyofOutline n) := by
  induction n with
  | zero => exact .ofPostfix (.ofPrimary .keyword)
  | succ n ih => exact .keyof ih

namespace Node

theorem mem_nodesOfList_of_mem {above ts : List Tree} {t : Tree} {n : Node} (ht : t ∈ ts)
    (hn : n ∈ nodesOf above t) : n ∈ nodesOfList above ts := by
  induction ts with
  | nil => exact absurd ht List.not_mem_nil
  | cons u ts ih =>
    rcases List.mem_cons.1 ht with rfl | ht
    · exact List.mem_append_left _ hn
    · exact List.mem_append_right _ (ih ht)

/-- What is below a part of a node is below the node. -/
theorem mem_descendants_of_child {m c n : Node} (hc : c ∈ m.children) (hn : n ∈ c.descendants) :
    n ∈ m.descendants := by
  obtain ⟨t, above⟩ := m
  obtain ⟨u, hu, rfl⟩ := List.mem_map.1 hc
  obtain ⟨hmem, -⟩ := List.mem_filter.1 hu
  cases t with
  | token t => exact absurd hmem List.not_mem_nil
  | node k start stop cs => exact List.mem_cons_of_mem _ (mem_nodesOfList_of_mem hmem hn)

theorem above_of_child {m c : Node} (hc : c ∈ m.children) : c.above = m.tree :: m.above := by
  obtain ⟨u, -, rfl⟩ := List.mem_map.1 hc
  rfl

/-- A chain of operators is as deep as it is long. -/
theorem Says.exists_deep {n : Nat} {m : Node} (h : m.Says (keyofOutline n)) :
    ∃ d ∈ m.descendants, d.above.length = m.above.length + n := by
  induction n generalizing m with
  | zero =>
    obtain ⟨start, stop, cs, htree, -⟩ := h.exists_node
    obtain ⟨t, above⟩ := m
    obtain rfl : t = _ := htree
    exact ⟨_, List.mem_cons_self, rfl⟩
  | succ n ih =>
    have htypes : [.named "keyof", keyofOutline n].filter Outline.isType = [keyofOutline n] := by
      simp [(phrase_keyofChain n).isType]
    obtain ⟨c, hc, -, hsaid⟩ := Says.type? (k := .typeOperator) h (congrArg (·[0]?) htypes)
    obtain ⟨d, hd, hdeep⟩ := ih hsaid
    refine ⟨d, mem_descendants_of_child hc hd, ?_⟩
    rw [hdeep, above_of_child hc, List.length_cons]
    omega

end Node

/-- A chain of prefix operators is read however long it is, even where no type may nest in another. -/
theorem exists_deep (n : Nat) (source : SourceId) :
    ∃ text f d, parseWith source { nesting := some 1 } text = .ok f ∧
      d ∈ (Node.mk f.tree []).descendants ∧ n < d.above.length := by
  have hphrase : Phrase 0 (.type true) (keyofChain n) (keyofOutline n) :=
    .ofUnion (.ofIntersection (.ofOperator (phrase_keyofChain n)))
  have hname : isIdentifier "X" = true := by decide
  have htokens : ({ nesting := some 1 } : Limits).tokens = none := rfl
  obtain ⟨tree, hparse, houtline⟩ := hphrase.parsed hname htokens (by decide) .line 0 source
  obtain ⟨decl, hstatements, hdecl⟩ := Node.Says.statements_alias (m := ⟨tree, []⟩) houtline
  obtain ⟨type, htype, -, hsaid⟩ :=
    hdecl.type? (congrArg (·[0]?) (Outline.types_alias false "X" hphrase.isType))
  obtain ⟨d, hd, hdeep⟩ := hsaid.exists_deep
  have hchild : decl ∈ (Node.mk tree []).children := by
    have hmem : decl ∈ (Node.mk tree []).statements := hstatements ▸ List.mem_singleton_self decl
    exact (List.mem_filter.1 hmem).1
  refine ⟨_, _, d, hparse, Node.mem_descendants_of_child hchild (Node.mem_descendants_of_child htype hd),
    ?_⟩
  rw [hdeep, Node.above_of_child htype, Node.above_of_child hchild]
  simp only [List.length_cons, List.length_nil]
  omega

/-- The bound on nesting bounds the nodes around a node as far as they are no prefix operators, array
types or indexed access types. Of those there can be any number: no multiple of the bound is enough. -/
theorem nesting_bounds_levels (source : SourceId) :
    (∀ l text f, parseWith source { nesting := some l } text = .ok f →
      ∀ n ∈ (Node.mk f.tree []).descendants,
        n.above.countP (fun t => !chains t.kind) ≤ 8 * (l + 1)) ∧
    ∀ c : Nat, ∃ l text f, parseWith source { nesting := some l } text = .ok f ∧
      ∃ n ∈ (Node.mk f.tree []).descendants, c * (l + 1) < n.above.length := by
  refine ⟨fun l text f hf n hn => levelsOf_above_le rfl hf hn, fun c => ?_⟩
  obtain ⟨text, f, d, hf, hd, hdeep⟩ := exists_deep (c * (1 + 1)) source
  exact ⟨1, text, f, hf, d, hd, hdeep⟩

end DeclKit

/-
What a source tree covers, and which of its tokens are a node's own.

A tree covers a stretch of bytes when its leaves lie side by side in that stretch, none of them empty,
and every node states the stretch of its own leaves. The parser keeps this of its row of elements, and
it is all that has to be known about ranges afterwards.

The keyed nodes are those that are found again by their range: types, and the parameters that types
bind. A token is a keyed node's own when no keyed node further in holds it. A keyed node that owns a
token cannot share its range with a keyed node inside it, which is why every production is asked to
leave one.
-/
import DeclKit.Tree.Node

set_option autoImplicit false

namespace DeclKit

/-- Nodes that are found again by their range: types, and the parameters bound inside types. -/
def Kind.isKeyed (k : Kind) : Bool :=
  k.isType || k == .typeParam || k == .mappedTypeParam

namespace Token

/-- The tokens lie side by side from byte `a` to byte `b`, and none is empty. -/
def Tiles : Nat → Nat → List Token → Prop
  | a, b, [] => a = b
  | a, b, t :: ts => t.start = a ∧ a < t.stop ∧ Tiles t.stop b ts

/-- Tokens lie side by side exactly when a first part of them does and the rest goes on from there. -/
theorem tiles_append {a b : Nat} {xs ys : List Token} :
    Tiles a b (xs ++ ys) ↔ ∃ m, Tiles a m xs ∧ Tiles m b ys := by
  induction xs generalizing a with
  | nil => simp [Tiles]
  | cons t ts ih =>
    simp only [List.cons_append, Tiles, ih]
    constructor
    · rintro ⟨hs, hlt, m, h1, h2⟩
      exact ⟨m, ⟨hs, hlt, h1⟩, h2⟩
    · rintro ⟨m, ⟨hs, hlt, h1⟩, h2⟩
      exact ⟨hs, hlt, m, h1, h2⟩

theorem Tiles.le {a b : Nat} {ts : List Token} (h : Tiles a b ts) : a ≤ b := by
  induction ts generalizing a with
  | nil => exact Nat.le_of_eq h
  | cons t ts ih => exact Nat.le_trans (Nat.le_of_lt h.2.1) (ih h.2.2)

/-- Tokens that lie side by side are none at all when they start where they end. -/
theorem Tiles.eq_nil {a : Nat} {ts : List Token} (h : Tiles a a ts) : ts = [] := by
  cases ts with
  | nil => rfl
  | cons t ts =>
    have hle := Tiles.le h.2.2
    have hlt := h.2.1
    omega

/-- Where tokens end depends on the tokens alone. -/
theorem Tiles.stop_unique {a b c : Nat} {ts : List Token} (h : Tiles a b ts) (h' : Tiles a c ts) :
    b = c := by
  induction ts generalizing a with
  | nil => exact (h.symm.trans h' : b = c)
  | cons t ts ih => exact ih h.2.2 h'.2.2

/-- Every token of a row lies within what the row covers, and is not empty. -/
theorem Tiles.mem {a b : Nat} {ts : List Token} (h : Tiles a b ts) {t : Token} (ht : t ∈ ts) :
    a ≤ t.start ∧ t.start < t.stop ∧ t.stop ≤ b := by
  induction ts generalizing a with
  | nil => exact absurd ht List.not_mem_nil
  | cons u us ih =>
    obtain ⟨hs, hlt, hus⟩ := h
    rcases List.mem_cons.1 ht with rfl | ht
    · exact ⟨Nat.le_of_eq hs.symm, hs ▸ hlt, hus.le⟩
    · have := ih hus ht
      exact ⟨by omega, this.2⟩

end Token

namespace Tree

/-! ## Leaves of a forest -/

@[simp] theorem tokensOfList_append (xs ys : List Tree) :
    tokensOfList (xs ++ ys) = tokensOfList xs ++ tokensOfList ys := by
  induction xs with
  | nil => simp [tokensOfList]
  | cons t ts ih => simp [tokensOfList, ih]

@[simp] theorem tokensOfList_token (ts : List Token) :
    tokensOfList (ts.map .token) = ts := by
  induction ts with
  | nil => rfl
  | cons t ts ih => simp [tokensOfList, tokens, ih]

theorem tokensOfList_eq_flatMap (ts : List Tree) : tokensOfList ts = ts.flatMap tokens := by
  induction ts with
  | nil => rfl
  | cons t ts ih => rw [tokensOfList, ih, List.flatMap_cons]

theorem tokens_subset_of_mem {t : Tree} {ts : List Tree} (h : t ∈ ts) :
    t.tokens ⊆ tokensOfList ts := fun u hu => by
  rw [tokensOfList_eq_flatMap]
  exact List.mem_flatMap.2 ⟨t, h, hu⟩

end Tree

namespace Node

theorem tokens_subset_of_below {n : Node} {t : Tree} (h : t ∈ n.tree.children) :
    t.tokens ⊆ n.tree.tokens := by
  obtain ⟨tree, above⟩ := n
  cases tree with
  | token u => exact absurd h List.not_mem_nil
  | node k a b cs => exact Tree.tokens_subset_of_mem h

theorem tokens_subset_of_children {n c : Node} (h : c ∈ n.children) :
    c.tree.tokens ⊆ n.tree.tokens := by
  obtain ⟨t, ht, rfl⟩ := List.mem_map.1 h
  exact tokens_subset_of_below (List.mem_filter.1 ht).1

theorem leaves_subset_tokens {n : Node} : n.leaves ⊆ n.tree.tokens := fun t ht => by
  obtain ⟨u, hu, hleaf⟩ := List.mem_filterMap.1 ht
  cases u with
  | node k a b cs => cases hleaf
  | token u =>
    dsimp only at hleaf
    split at hleaf
    · cases hleaf
    · obtain rfl := Option.some.inj hleaf
      exact tokens_subset_of_below hu List.mem_cons_self

end Node

namespace Tree

/-! ## Covering -/

mutual

/-- The tree covers exactly the bytes from `a` to `b`. -/
def Covers (a b : Nat) : Tree → Prop
  | token t => t.start = a ∧ t.stop = b ∧ a < b
  | node _ s e cs => s = a ∧ e = b ∧ CoversAll a b cs

/-- The trees, one behind the other, cover exactly the bytes from `a` to `b`. -/
def CoversAll (a b : Nat) : List Tree → Prop
  | [] => a = b
  | t :: ts => ∃ m, Covers a m t ∧ CoversAll m b ts

end

theorem coversAll_append {a b : Nat} {xs ys : List Tree} :
    CoversAll a b (xs ++ ys) ↔ ∃ m, CoversAll a m xs ∧ CoversAll m b ys := by
  induction xs generalizing a with
  | nil => simp [CoversAll]
  | cons t ts ih =>
    simp only [List.cons_append, CoversAll, ih]
    constructor
    · rintro ⟨m, ht, n, h1, h2⟩
      exact ⟨n, ⟨m, ht, h1⟩, h2⟩
    · rintro ⟨n, ⟨m, ht, h1⟩, h2⟩
      exact ⟨m, ht, n, h1, h2⟩

/-- Tokens as trees cover what they tile. -/
theorem coversAll_token {a b : Nat} {ts : List Token} :
    CoversAll a b (ts.map .token) ↔ Token.Tiles a b ts := by
  induction ts generalizing a with
  | nil => simp [CoversAll, Token.Tiles]
  | cons t ts ih =>
    simp only [List.map_cons, CoversAll, Covers, Token.Tiles, ih]
    constructor
    · rintro ⟨m, ⟨hs, he, hlt⟩, h⟩
      exact ⟨hs, he ▸ hlt, he ▸ h⟩
    · rintro ⟨hs, hlt, h⟩
      exact ⟨t.stop, ⟨hs, rfl, hlt⟩, h⟩

theorem Covers.start_eq {a b : Nat} {t : Tree} (h : Covers a b t) : t.start = a := by
  cases t with
  | token t => exact h.1
  | node k s e cs => exact h.1

theorem Covers.stop_eq {a b : Nat} {t : Tree} (h : Covers a b t) : t.stop = b := by
  cases t with
  | token t => exact h.2.1
  | node k s e cs => exact h.2.1

mutual

/-- The leaves of a tree tile what it covers. -/
theorem Covers.tiles {a b : Nat} : ∀ {t : Tree}, Covers a b t → Token.Tiles a b t.tokens
  | token _, h => ⟨h.1, h.2.1 ▸ h.2.2, h.2.1⟩
  | node .., h => CoversAll.tiles h.2.2

/-- The leaves of several trees tile what these cover. -/
theorem CoversAll.tiles {a b : Nat} :
    ∀ {ts : List Tree}, CoversAll a b ts → Token.Tiles a b (tokensOfList ts)
  | [], h => h
  | t :: ts, h => by
    obtain ⟨m, ht, hts⟩ := h
    exact Token.tiles_append.2 ⟨m, Covers.tiles ht, CoversAll.tiles hts⟩

end

theorem Covers.le {a b : Nat} {t : Tree} (h : Covers a b t) : a ≤ b := h.tiles.le

theorem CoversAll.le {a b : Nat} {ts : List Tree} (h : CoversAll a b ts) : a ≤ b := h.tiles.le

/-- A node over trees that cover a stretch covers it too, whether or not there are any. -/
theorem covers_nodeOf {a b : Nat} {k : Kind} {cs : List Tree} (h : CoversAll a b cs) :
    Covers a b (.node k ((cs.head?.map Tree.start).getD b) b cs) := by
  refine ⟨?_, rfl, h⟩
  cases cs with
  | nil => exact h.symm
  | cons t ts =>
    obtain ⟨m, ht, -⟩ := h
    exact ht.start_eq

/-! ## Own tokens of keyed nodes -/

mutual

/-- The tokens of a tree that no keyed node of it holds. -/
def bare : Tree → List Token
  | token t => [t]
  | node k _ _ cs => if k.isKeyed then [] else bareAll cs

/-- The tokens of several trees that no keyed node of theirs holds. -/
def bareAll : List Tree → List Token
  | [] => []
  | t :: ts => bare t ++ bareAll ts

end

@[simp] theorem bareAll_append (xs ys : List Tree) :
    bareAll (xs ++ ys) = bareAll xs ++ bareAll ys := by
  induction xs with
  | nil => simp [bareAll]
  | cons t ts ih => simp [bareAll, ih]

@[simp] theorem bareAll_token (ts : List Token) : bareAll (ts.map .token) = ts := by
  induction ts with
  | nil => rfl
  | cons t ts ih => simp [bareAll, bare, ih]

mutual

theorem bare_subset : ∀ (t : Tree), bare t ⊆ t.tokens
  | token _ => List.Subset.refl _
  | node k _ _ cs => by
    simp only [bare, tokens]
    split
    · exact List.nil_subset _
    · exact bareAll_subset cs

theorem bareAll_subset : ∀ (ts : List Tree), bareAll ts ⊆ tokensOfList ts
  | [] => List.Subset.refl _
  | t :: ts => by
    simp only [bareAll, tokensOfList]
    intro x hx
    rcases List.mem_append.1 hx with hx | hx
    · exact List.mem_append_left _ (bare_subset t hx)
    · exact List.mem_append_right _ (bareAll_subset ts hx)

end

/-- Trees that hold a token hold one outside their keyed nodes. -/
def Owns (ts : List Tree) : Prop := tokensOfList ts = [] ∨ bareAll ts ≠ []

/-- The trees are none, or hold a token outside their keyed nodes. -/
def Quiet (ts : List Tree) : Prop := ts = [] ∨ bareAll ts ≠ []

theorem Owns.append {xs ys : List Tree} (hx : Owns xs) (hy : Owns ys) : Owns (xs ++ ys) := by
  rcases hx with hx | hx
  · rcases hy with hy | hy
    · exact .inl (by rw [tokensOfList_append, hx, hy]; rfl)
    · exact .inr (by rw [bareAll_append]; simp [hy])
  · exact .inr (by rw [bareAll_append]; simp [hx])

theorem Quiet.append {xs ys : List Tree} (hx : Quiet xs) (hy : Quiet ys) : Quiet (xs ++ ys) := by
  rcases hx with rfl | hx
  · exact hy
  · exact .inr (by rw [bareAll_append]; simp [hx])

theorem quiet_token (ts : List Token) : Quiet (ts.map .token) := by
  cases ts with
  | nil => exact .inl rfl
  | cons t ts => exact .inr (by rw [bareAll_token]; exact List.cons_ne_nil t ts)

theorem Quiet.owns {ts : List Tree} (h : Quiet ts) : Owns ts := by
  rcases h with rfl | h
  · exact .inl rfl
  · exact .inr h

/-- The parts that a node of a kind may have: a keyed node owns a token or has none, and a type
parameter without tokens has no parts either. -/
def Proper (k : Kind) (cs : List Tree) : Prop :=
  k.isKeyed = true → Owns cs ∧ (k = .typeParam → Quiet cs)

mutual

/-- Every node of the tree has parts that its kind may have. -/
def Good : Tree → Prop
  | token _ => True
  | node k _ _ cs => Proper k cs ∧ GoodAll cs

/-- Every node of the trees has parts that its kind may have. -/
def GoodAll : List Tree → Prop
  | [] => True
  | t :: ts => Good t ∧ GoodAll ts

end

theorem goodAll_append {xs ys : List Tree} : GoodAll (xs ++ ys) ↔ GoodAll xs ∧ GoodAll ys := by
  induction xs with
  | nil => simp [GoodAll]
  | cons t ts ih => simp [GoodAll, ih, and_assoc]

theorem goodAll_token (ts : List Token) : GoodAll (ts.map .token) := by
  induction ts with
  | nil => trivial
  | cons t ts ih => exact ⟨trivial, ih⟩

/-! ## Hollow parameters

The parameter of a mapped type takes whatever token is next as its name, so it is without tokens only
where the text ends. -/

mutual

/-- How many parameters of mapped types hold no token. -/
def hollows : Tree → Nat
  | token _ => 0
  | node k _ _ cs =>
    (if k = .mappedTypeParam ∧ tokensOfList cs = [] then 1 else 0) + hollowsAll cs

/-- How many parameters of mapped types in several trees hold no token. -/
def hollowsAll : List Tree → Nat
  | [] => 0
  | t :: ts => hollows t + hollowsAll ts

end

@[simp] theorem hollowsAll_append (xs ys : List Tree) :
    hollowsAll (xs ++ ys) = hollowsAll xs + hollowsAll ys := by
  induction xs with
  | nil => simp [hollowsAll]
  | cons t ts ih => simp [hollowsAll, ih, Nat.add_assoc]

@[simp] theorem hollowsAll_token (ts : List Token) : hollowsAll (ts.map .token) = 0 := by
  induction ts with
  | nil => rfl
  | cons t ts ih => simp [hollowsAll, hollows, ih]

end Tree

end DeclKit

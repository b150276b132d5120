/-
Outlines of trees.

The outline of a tree is what it says: its nodes and its words, without blanks and comments and
without places. How a type is written and how it is read both come down to its outline, and where the
blanks go matters to neither.
-/
import DeclKit.Tree.Basic
import DeclKit.Token.Basic

set_option autoImplicit false

namespace DeclKit

/-! ## Words -/

/-- The characters of a kind that is a mark. -/
def Kind.markChars : Kind → List Char
  | parenOpen => ['(']
  | parenClose => [')']
  | bracketOpen => ['[']
  | bracketClose => [']']
  | braceOpen => ['{']
  | braceClose => ['}']
  | lt => ['<']
  | gt => ['>']
  | comma => [',']
  | semicolon => [';']
  | colon => [':']
  | question => ['?']
  | equals => ['=']
  | arrow => ['=', '>']
  | pipe => ['|']
  | amp => ['&']
  | _ => []

namespace Lexeme

/-- A mark. -/
def mark (k : Kind) : Lexeme := ⟨k, k.markChars⟩

/-- A word, which is reserved or an identifier. -/
def named (s : String) : Lexeme := ⟨(Kind.keyword? s).getD .ident, s.toList⟩

@[simp] theorem mark_kind (k : Kind) : (mark k).kind = k := rfl

/-- Words are told apart by their texts. -/
theorem named_inj {s t : String} : named s = named t ↔ s = t := by
  refine ⟨fun h => ?_, fun h => h ▸ rfl⟩
  exact String.toList_inj.1 (congrArg Lexeme.chars h)

end Lexeme

/-- A token without its place. -/
def Token.lexeme (t : Token) : Lexeme := ⟨t.kind, t.text.toList⟩

/-! ## Outlines -/

/-- A word, or a node with its parts. -/
inductive Outline where
  | word (w : Lexeme)
  | node (kind : Kind) (parts : List Outline)

namespace Outline

/-- The outline of a mark. -/
def mark (k : Kind) : Outline := word (.mark k)

/-- The outline of a word. -/
def named (s : String) : Outline := word (.named s)

mutual

/-- The words of an outline. -/
def words : Outline → List Lexeme
  | word w => [w]
  | node _ os => wordsOf os

/-- The words of several outlines. -/
def wordsOf : List Outline → List Lexeme
  | [] => []
  | o :: os => words o ++ wordsOf os

end

@[simp] theorem words_word (w : Lexeme) : (word w).words = [w] := by rw [words]

@[simp] theorem words_mark (k : Kind) : (mark k).words = [.mark k] := words_word _

@[simp] theorem words_named (s : String) : (named s).words = [.named s] := words_word _

@[simp] theorem words_node (k : Kind) (os : List Outline) : (node k os).words = wordsOf os := by
  rw [words]

@[simp] theorem wordsOf_nil : wordsOf [] = [] := by rw [wordsOf]

@[simp] theorem wordsOf_cons (o : Outline) (os : List Outline) :
    wordsOf (o :: os) = o.words ++ wordsOf os := by rw [wordsOf]

@[simp] theorem wordsOf_append (os ps : List Outline) :
    wordsOf (os ++ ps) = wordsOf os ++ wordsOf ps := by
  induction os with
  | nil => rw [wordsOf_nil, List.nil_append, List.nil_append]
  | cons o os ih => rw [List.cons_append, wordsOf_cons, ih, wordsOf_cons, List.append_assoc]

/-- An outline that is there if a flag is set. -/
def flagged (flag : Bool) (o : Outline) : List Outline := if flag then [o] else []

/-- Outlines with a mark before each. -/
def following (k : Kind) (os : List Outline) : List Outline := os.flatMap fun o => [mark k, o]

/-- Outlines with a mark between each two. -/
def joined (k : Kind) : List Outline → List Outline
  | [] => []
  | o :: os => o :: following k os

@[simp] theorem following_nil (k : Kind) : following k [] = [] := rfl

@[simp] theorem following_cons (k : Kind) (o : Outline) (os : List Outline) :
    following k (o :: os) = mark k :: o :: following k os := rfl

@[simp] theorem joined_nil (k : Kind) : joined k [] = [] := rfl

@[simp] theorem joined_cons (k : Kind) (o : Outline) (os : List Outline) :
    joined k (o :: os) = o :: following k os := rfl

/-- An outline between others has no more words than all of them. -/
theorem length_words_le {o : Outline} {os : List Outline} (h : o ∈ os) :
    o.words.length ≤ (wordsOf os).length := by
  induction os with
  | nil => cases h
  | cons p os ih =>
    rw [wordsOf_cons, List.length_append]
    obtain rfl | h := List.mem_cons.1 h
    · exact Nat.le_add_right _ _
    · exact Nat.le_trans (ih h) (Nat.le_add_left _ _)

theorem mem_following {k : Kind} {o : Outline} {os : List Outline} (h : o ∈ os) :
    o ∈ following k os :=
  List.mem_flatMap.2 ⟨o, h, List.mem_cons_of_mem _ List.mem_cons_self⟩

theorem mem_joined {k : Kind} {o : Outline} {os : List Outline} (h : o ∈ os) :
    o ∈ joined k os := by
  cases os with
  | nil => cases h
  | cons p os =>
    rw [joined_cons]
    obtain rfl | h := List.mem_cons.1 h
    · exact List.mem_cons_self
    · exact List.mem_cons_of_mem p (mem_following h)

/-- Outlines that have words have as many words as there are outlines. -/
theorem length_le_wordsOf {os : List Outline} (h : ∀ o ∈ os, 0 < o.words.length) :
    os.length ≤ (wordsOf os).length := by
  induction os with
  | nil => exact Nat.zero_le _
  | cons o os ih =>
    obtain ⟨ho, hos⟩ := List.forall_mem_cons.1 h
    have hrest := ih hos
    rw [wordsOf_cons, List.length_append, List.length_cons]
    omega

/-- With a mark before each there are at least as many words as outlines. -/
theorem length_le_following (k : Kind) (os : List Outline) :
    os.length ≤ (wordsOf (following k os)).length := by
  induction os with
  | nil => exact Nat.zero_le _
  | cons o os ih =>
    rw [following_cons, wordsOf_cons, words_mark, wordsOf_cons, List.length_append,
      List.length_append, List.length_cons, List.length_singleton]
    omega

/-- A type alias, exported or not. -/
def typeAlias (exported : Bool) (name : String) (type : Outline) : Outline :=
  .node .typeAliasDecl (flagged exported (named "export") ++
    [named "type", .node .name [named name], mark .equals, type, mark .semicolon])

theorem words_alias (exported : Bool) (name : String) (o : Outline) :
    (Outline.typeAlias exported name o).words = wordsOf (flagged exported (named "export")) ++
      .named "type" :: .named name :: .mark .equals :: (o.words ++ [.mark .semicolon]) := by
  simp [Outline.typeAlias]

end Outline

/-! ## Outlines of trees -/

namespace Tree

mutual

/-- The outline of a tree; a blank or a comment has none. -/
def outline : Tree → List Outline
  | .token t => if t.kind.isTrivia then [] else [.word t.lexeme]
  | .node k _ _ cs => [.node k (outlines cs)]

/-- The outlines of several trees. -/
def outlines : List Tree → List Outline
  | [] => []
  | t :: ts => outline t ++ outlines ts

end

@[simp] theorem outline_node (k : Kind) (start stop : Nat) (cs : List Tree) :
    (Tree.node k start stop cs).outline = [.node k (outlines cs)] := by rw [outline]

@[simp] theorem outlines_nil : outlines [] = [] := by rw [outlines]

@[simp] theorem outlines_cons (t : Tree) (ts : List Tree) :
    outlines (t :: ts) = t.outline ++ outlines ts := by rw [outlines]

@[simp] theorem outlines_append (ts us : List Tree) :
    outlines (ts ++ us) = outlines ts ++ outlines us := by
  induction ts with
  | nil => rw [outlines_nil, List.nil_append, List.nil_append]
  | cons t ts ih => rw [List.cons_append, outlines_cons, ih, outlines_cons, List.append_assoc]

end Tree

/-- The words among tokens. -/
def wordsIn (ts : List Token) : List Lexeme :=
  (ts.filter fun t => !t.kind.isTrivia).map Token.lexeme

theorem wordsIn_append (ts us : List Token) : wordsIn (ts ++ us) = wordsIn ts ++ wordsIn us := by
  rw [wordsIn, List.filter_append, List.map_append]
  rfl

theorem Tree.outlines_token (ts : List Token) :
    Tree.outlines (ts.map .token) = (wordsIn ts).map .word := by
  induction ts with
  | nil => rw [List.map_nil, outlines_nil]; rfl
  | cons t ts ih =>
    rw [List.map_cons, outlines_cons, ih, outline]
    by_cases ht : t.kind.isTrivia = true
    · simp [ht, wordsIn]
    · simp [ht, wordsIn]

end DeclKit

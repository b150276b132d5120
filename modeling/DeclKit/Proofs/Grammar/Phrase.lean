/-
The grammar of types.

A phrase is an outline that spells a type at a level of the grammar, from the tightest binding to the
loosest. The levels are those of the productions that read types: what a level takes in is written
without parentheses there, and everything else stands in parentheses. A conditional type cannot stand
at the open end of a phrase that is itself the `extends` operand of a conditional type, and for this
the loosest level comes in two kinds.

The number of a phrase bounds how deep types nest in it. What can be told from the first words of a
phrase is all that the productions look at before they choose between them.
-/
import DeclKit.Decl.Tree
import DeclKit.Parser.Types
import DeclKit.Proofs.Grammar.Outline

set_option autoImplicit false

namespace DeclKit

open Decl (TypeNode)

/-! ## Names -/

/-- A text is a single identifier token. -/
def isIdentifier (s : String) : Bool :=
  match s.toList with
  | [] => false
  | c :: cs => Token.startsIdent c && cs.all Token.continuesIdent && (Kind.keyword? s).isNone

/-- Words that mean something of their own in front of a type, or behind the name of a parameter. -/
def operatorWords : List String := ["keyof", "unique", "readonly", "infer", "is"]

/-- A name that a type can be referred to by: it is no built-in type and no operator. -/
def isTypeName (s : String) : Bool :=
  isIdentifier s && !Parser.keywordTypes.contains s && !operatorWords.contains s

theorem named_of_isIdentifier {s : String} (h : isIdentifier s = true) :
    Lexeme.named s = ⟨.ident, s.toList⟩ := by
  have hnone : Kind.keyword? s = none := by
    unfold isIdentifier at h
    split at h
    · cases h
    · simp only [Bool.and_eq_true, Option.isNone_iff_eq_none] at h
      exact h.2
  rw [Lexeme.named, hnone]
  rfl

theorem isIdentifier_of_isTypeName {s : String} (h : isTypeName s = true) : isIdentifier s = true := by
  simp only [isTypeName, Bool.and_eq_true] at h
  exact h.1.1

theorem not_operatorWord_of_isTypeName {s : String} (h : isTypeName s = true) : s ∉ operatorWords := by
  simpa [isTypeName] using (Bool.and_eq_true_iff.1 h).2

theorem not_keywordType_of_isTypeName {s : String} (h : isTypeName s = true) :
    s ∉ Parser.keywordTypes := by
  simp only [isTypeName, Bool.and_eq_true] at h
  simpa using h.1.2

/-! ## Phrases -/

/-- Levels of the grammar of types. At the loosest one a conditional type may stand at the open end or
not. -/
inductive Level where
  | primary
  | postfix_
  | operator
  | intersection
  | union
  | type (conditional : Bool)
deriving DecidableEq, Repr

namespace Outline

/-- A list of type arguments; none for no arguments. -/
def arguments (os : List Outline) : List Outline :=
  if os.isEmpty then [] else [.node .typeArgList (mark .lt :: joined .comma os ++ [mark .gt])]

/-- A parameter with a type. -/
def param (name : String) (type : Outline) : Outline :=
  .node .param [.node .name [named name], .node .colonType [mark .colon, type]]

/-- A function type. -/
def function (params : List Outline) (returns : Outline) : Outline :=
  .node .functionType
    [.node .paramList (mark .parenOpen :: joined .comma params ++ [mark .parenClose]),
      .node .returnType [mark .arrow, returns]]

end Outline

open Outline in
/-- An outline spells a type at a level, in which types nest at most so deep. -/
inductive Phrase : Nat → Level → TypeNode → Outline → Prop where
  | keyword {n : Nat} {k : Decl.Keyword} {origin : Option Decl.Origin} :
      Phrase n .primary (.mk (.keyword k) origin) (.node .keywordType [named k.text])
  | string {n : Nat} {s : String} {origin : Option Decl.Origin} :
      Phrase n .primary (.mk (.literal (Text.quote s)) origin)
        (.node .literalType [word ⟨.stringLiteral, (Text.quote s).toList⟩])
  | boolean {n : Nat} {b : Bool} {origin : Option Decl.Origin} :
      Phrase n .primary (.mk (.literal (if b then "true" else "false")) origin)
        (.node .literalType [named (if b then "true" else "false")])
  | reference {n : Nat} {name : String} {args : List (TypeNode × Outline)}
      {origin : Option Decl.Origin} : isTypeName name = true →
      (∀ x ∈ args, Phrase n (.type true) x.1 x.2) →
      Phrase (n + 1) .primary (.mk (.reference [name] (args.map (·.1))) origin)
        (.node .typeRef (.node .entityName [named name] :: arguments (args.map (·.2))))
  | tuple {n : Nat} {items : List (TypeNode × Outline)} {origin : Option Decl.Origin} :
      (∀ x ∈ items, Phrase n (.type true) x.1 x.2) →
      Phrase (n + 1) .primary (.mk (.tuple (items.map fun x => ⟨.required, none, x.1⟩)) origin)
        (.node .tupleType
          (mark .bracketOpen :: joined .comma (items.map (·.2)) ++ [mark .bracketClose]))
  | paren {n : Nat} {t : TypeNode} {o : Outline} {origin : Option Decl.Origin} :
      Phrase n (.type true) t o →
      Phrase (n + 1) .primary (.mk (.paren t) origin)
        (.node .parenType [mark .parenOpen, o, mark .parenClose])
  | array {n : Nat} {t : TypeNode} {o : Outline} {origin : Option Decl.Origin} :
      Phrase n .postfix_ t o →
      Phrase n .postfix_ (.mk (.array t) origin)
        (.node .arrayType [o, mark .bracketOpen, mark .bracketClose])
  | indexed {n : Nat} {t i : TypeNode} {o p : Outline} {origin : Option Decl.Origin} :
      Phrase (n + 1) .postfix_ t o →
      Phrase n (.type true) i p →
      Phrase (n + 1) .postfix_ (.mk (.indexed t i) origin)
        (.node .indexedAccessType [o, mark .bracketOpen, p, mark .bracketClose])
  | keyof {n : Nat} {t : TypeNode} {o : Outline} {origin : Option Decl.Origin} :
      Phrase n .operator t o →
      Phrase n .operator (.mk (.operator .keyof t) origin) (.node .typeOperator [named "keyof", o])
  | intersection {n : Nat} {x y : TypeNode × Outline} {members : List (TypeNode × Outline)}
      {origin : Option Decl.Origin} :
      (∀ z ∈ x :: y :: members, Phrase n .operator z.1 z.2) →
      Phrase n .intersection (.mk (.intersection ((x :: y :: members).map (·.1))) origin)
        (.node .intersectionType (joined .amp ((x :: y :: members).map (·.2))))
  | union {n : Nat} {x y : TypeNode × Outline} {members : List (TypeNode × Outline)}
      {origin : Option Decl.Origin} :
      (∀ z ∈ x :: y :: members, Phrase n .intersection z.1 z.2) →
      Phrase n .union (.mk (.union ((x :: y :: members).map (·.1))) origin)
        (.node .unionType (joined .pipe ((x :: y :: members).map (·.2))))
  | function {n : Nat} {c : Bool} {params : List (String × TypeNode × Outline)} {t : TypeNode}
      {o : Outline} {origin : Option Decl.Origin} :
      (∀ p ∈ params, isIdentifier p.1 = true) →
      (∀ p ∈ params, Phrase n (.type true) p.2.1 p.2.2) → Phrase n (.type c) t o →
      Phrase (n + 1) (.type c)
        (.mk (.function
          { params := params.map fun p => { name := p.1, type := some p.2.1 }, returns := some t }) origin)
        (function (params.map fun p => param p.1 p.2.2) o)
  | conditional {n : Nat} {a b c d : TypeNode} {oa ob oc od : Outline}
      {origin : Option Decl.Origin} :
      Phrase (n + 1) .union a oa → Phrase n (.type false) b ob →
      Phrase n (.type true) c oc → Phrase n (.type true) d od →
      Phrase (n + 1) (.type true) (.mk (.conditional a b c d) origin)
        (.node .conditionalType
          [oa, named "extends", ob, mark .question, oc, mark .colon, od])
  | ofPrimary {n : Nat} {t : TypeNode} {o : Outline} : Phrase n .primary t o → Phrase n .postfix_ t o
  | ofPostfix {n : Nat} {t : TypeNode} {o : Outline} : Phrase n .postfix_ t o → Phrase n .operator t o
  | ofOperator {n : Nat} {t : TypeNode} {o : Outline} :
      Phrase n .operator t o → Phrase n .intersection t o
  | ofIntersection {n : Nat} {t : TypeNode} {o : Outline} :
      Phrase n .intersection t o → Phrase n .union t o
  | ofUnion {n : Nat} {c : Bool} {t : TypeNode} {o : Outline} :
      Phrase n .union t o → Phrase n (.type c) t o

namespace Phrase

variable {n m : Nat} {l : Level} {t : TypeNode} {o : Outline}

theorem exists_succ_of_succ_le (h : n + 1 ≤ m) : ∃ k, m = k + 1 ∧ n ≤ k := by
  cases m with
  | zero => exact absurd h (Nat.not_succ_le_zero n)
  | succ k => exact ⟨k, rfl, Nat.le_of_succ_le_succ h⟩

/-- Types may be said to nest deeper than they do. -/
theorem mono (h : Phrase n l t o) (hm : n ≤ m) : Phrase m l t o := by
  induction h generalizing m with
  | keyword => exact .keyword
  | string => exact .string
  | boolean => exact .boolean
  | reference hname _ ih =>
    obtain ⟨k, rfl, hk⟩ := exists_succ_of_succ_le hm
    exact .reference hname fun x hx => ih x hx hk
  | tuple _ ih =>
    obtain ⟨k, rfl, hk⟩ := exists_succ_of_succ_le hm
    exact .tuple fun x hx => ih x hx hk
  | paren _ ih =>
    obtain ⟨k, rfl, hk⟩ := exists_succ_of_succ_le hm
    exact .paren (ih hk)
  | array _ ih => exact .array (ih hm)
  | indexed _ _ iht ihi =>
    obtain ⟨k, rfl, hk⟩ := exists_succ_of_succ_le hm
    exact .indexed (iht hm) (ihi hk)
  | keyof _ ih => exact .keyof (ih hm)
  | intersection _ ih => exact .intersection fun z hz => ih z hz hm
  | union _ ih => exact .union fun z hz => ih z hz hm
  | function hnames _ _ ihparams ih =>
    obtain ⟨k, rfl, hk⟩ := exists_succ_of_succ_le hm
    exact .function hnames (fun p hp => ihparams p hp hk) (ih hk)
  | conditional _ _ _ _ iha ihb ihc ihd =>
    obtain ⟨k, rfl, hk⟩ := exists_succ_of_succ_le hm
    exact .conditional (iha hm) (ihb hk) (ihc hk) (ihd hk)
  | ofPrimary _ ih => exact .ofPrimary (ih hm)
  | ofPostfix _ ih => exact .ofPostfix (ih hm)
  | ofOperator _ ih => exact .ofOperator (ih hm)
  | ofIntersection _ ih => exact .ofIntersection (ih hm)
  | ofUnion _ ih => exact .ofUnion (ih hm)

end Phrase

/-! ## First words -/

namespace Lexeme

/-- A word can be the first one of a type. -/
def starts (w : Lexeme) : Bool :=
  w != named "is" && match w.kind with
    | .ident | .kwVoid | .kwNull | .kwTrue | .kwFalse | .stringLiteral | .parenOpen
    | .bracketOpen | .braceOpen => true
    | _ => false

/-- A word goes on with a type behind its first word. -/
def carries (w : Lexeme) : Bool :=
  match w.kind with
  | .lt | .bracketOpen | .amp | .pipe | .kwExtends => true
  | _ => false

/-- A word that starts a type has none of the other kinds. -/
theorem starts_kind_ne {w : Lexeme} (h : w.starts = true) {k : Kind}
    (hk : k ∉ [Kind.ident, .kwVoid, .kwNull, .kwTrue, .kwFalse, .stringLiteral, .parenOpen,
      .bracketOpen, .braceOpen]) : w.kind ≠ k := by
  rintro rfl
  rw [starts, Bool.and_eq_true] at h
  have hkind := h.2
  split at hkind
  all_goals simp_all

/-- A word that goes on with a type has none of the other kinds. -/
theorem carries_kind_ne {w : Lexeme} (h : w.carries = true) {k : Kind}
    (hk : k ∉ [Kind.lt, .bracketOpen, .amp, .pipe, .kwExtends]) : w.kind ≠ k := by
  rintro rfl
  rw [carries] at h
  split at h
  all_goals simp_all

end Lexeme

/-- The first word of a type, and the second one behind a first one that is a word like a name. -/
def Leads : List Lexeme → Prop
  | [] => False
  | [w] => w.starts = true
  | w :: v :: _ => w.starts = true ∧
      (w.kind.isIdentifierLike = true → v.carries = true ∨ w = .named "keyof" ∧ v.starts = true)

theorem Leads.append {ws vs : List Lexeme} (h : Leads ws) (hvs : ∀ v ∈ vs.head?, v.carries = true) :
    Leads (ws ++ vs) := by
  match ws, vs, h with
  | [w], [], h => exact h
  | [w], v :: vs, h => exact ⟨h, fun _ => .inl (hvs v rfl)⟩
  | w :: v :: ws, vs, h => exact h

theorem Leads.exists_cons {ws : List Lexeme} (h : Leads ws) :
    ∃ w vs, ws = w :: vs ∧ w.starts = true := by
  match ws, h with
  | [w], h => exact ⟨w, [], rfl, h⟩
  | w :: v :: ws, h => exact ⟨w, v :: ws, rfl, h.1⟩

open Outline in
theorem leads_arguments {name : String} (h : isTypeName name = true) (os : List Outline) :
    Leads (.named name :: wordsOf (arguments os)) := by
  have hstart : (Lexeme.named name).starts = true := by
    have hname : name ≠ "is" := fun heq => not_operatorWord_of_isTypeName h (by rw [heq]; decide)
    rw [named_of_isIdentifier (isIdentifier_of_isTypeName h)]
    rw [Lexeme.starts, Bool.and_eq_true]
    refine ⟨?_, rfl⟩
    rw [bne_iff_ne, ← named_of_isIdentifier (isIdentifier_of_isTypeName h)]
    exact fun heq => hname (Lexeme.named_inj.1 heq)
  unfold arguments
  split
  · rw [wordsOf_nil]
    exact hstart
  · rw [wordsOf_cons, words_node, List.cons_append, wordsOf_cons, words_mark]
    exact ⟨hstart, fun _ => .inl rfl⟩

/-- A bracket leads a type whatever stands behind it. -/
theorem leads_bracket {w : Lexeme} (hw : w.starts = true) (hkind : w.kind.isIdentifierLike = false)
    (vs : List Lexeme) : Leads (w :: vs) := by
  cases vs with
  | nil => exact hw
  | cons v vs => exact ⟨hw, fun h => absurd (hkind.symm.trans h) Bool.false_ne_true⟩

open Outline in
/-- Every type starts with a word that can start one, and what stands behind a word like a name tells
that it is no parameter, no label and no predicate. -/
theorem Phrase.leads {n : Nat} {l : Level} {t : TypeNode} {o : Outline} (h : Phrase n l t o) :
    Leads o.words := by
  induction h with
  | @keyword _ k =>
    have hstart : (Lexeme.named k.text).starts = true := by cases k <;> decide
    simpa [Leads] using hstart
  | string => rfl
  | @boolean _ b =>
    have hstart : (Lexeme.named (if b then "true" else "false")).starts = true := by
      cases b <;> decide
    simpa [Leads] using hstart
  | reference hname =>
    rw [words_node, wordsOf_cons, words_node, wordsOf_cons, wordsOf_nil, words_named]
    exact leads_arguments hname _
  | tuple =>
    rw [words_node, List.cons_append, wordsOf_cons, words_mark]
    exact leads_bracket rfl rfl _
  | paren =>
    rw [words_node, wordsOf_cons, words_mark]
    exact leads_bracket rfl rfl _
  | function =>
    rw [Outline.function, words_node, wordsOf_cons, words_node, List.cons_append, wordsOf_cons,
      words_mark]
    exact leads_bracket rfl rfl _
  | array _ ih | indexed _ _ ih =>
    rw [words_node, wordsOf_cons, wordsOf_cons, words_mark]
    exact ih.append fun v hv => Option.mem_some.1 hv ▸ rfl
  | keyof _ ih =>
    rw [words_node, wordsOf_cons, wordsOf_cons, wordsOf_nil, words_named, List.append_nil]
    obtain ⟨w, vs, hw, hstarts⟩ := ih.exists_cons
    rw [hw]
    exact ⟨rfl, fun _ => .inr ⟨rfl, hstarts⟩⟩
  | intersection _ ih | union _ ih =>
    rw [words_node, List.map_cons, List.map_cons, joined_cons, following_cons, wordsOf_cons,
      wordsOf_cons, words_mark]
    exact (ih _ List.mem_cons_self).append fun v hv => Option.mem_some.1 hv ▸ rfl
  | conditional _ _ _ _ ih =>
    rw [words_node, wordsOf_cons, wordsOf_cons, words_named]
    exact ih.append fun v hv => Option.mem_some.1 hv ▸ rfl
  | ofPrimary _ ih | ofPostfix _ ih | ofOperator _ ih | ofIntersection _ ih | ofUnion _ ih => exact ih

/-! ## Parameters -/

/-- What stands behind a name tells that it is the name of a parameter. -/
def labels : List Lexeme → Bool
  | [] => false
  | u :: ts =>
    u.kind == .colon || u.kind == .comma || u.kind == .question || u.kind == .equals ||
      (u.kind == .parenClose && ts.head?.any (·.kind == .arrow))

/-- What stands behind an opening parenthesis is a list of parameters, as far as the first words
tell. -/
def startsParams : List Lexeme → Bool
  | [] => false
  | v :: us =>
    v.kind == .parenClose || v.kind == .dotDotDot ||
      ((v.kind == .ident || v.kind == .kwThis) && labels us)

/-- Words start a function type. -/
def startsFunction : List Lexeme → Bool
  | [] => false
  | w :: vs => w.kind == .lt || (w.kind == .parenOpen && startsParams vs)

/-- What can stand behind the first word of a type makes no parameter of it. -/
theorem labels_cons_eq_false {u : Lexeme} (h : u.carries = true ∨ u.starts = true) (ts : List Lexeme) :
    labels (u :: ts) = false := by
  have hne : ∀ k ∈ [Kind.colon, .comma, .question, .equals, .parenClose], u.kind ≠ k := by
    intro k hk
    obtain h | h := h
    · exact Lexeme.carries_kind_ne h (by revert hk; revert k; decide)
    · exact Lexeme.starts_kind_ne h (by revert hk; revert k; decide)
  simp [labels, hne]

/-- A type in parentheses is no list of parameters, unless an arrow follows. -/
theorem Leads.startsParams_eq_false {ws rest : List Lexeme} (h : Leads ws)
    (hrest : ∀ w ∈ rest.head?, w.kind ≠ .arrow) :
    startsParams (ws ++ Lexeme.mark .parenClose :: rest) = false := by
  obtain ⟨w, vs, rfl, hw⟩ := h.exists_cons
  have hclose : w.kind ≠ .parenClose := Lexeme.starts_kind_ne hw (by decide)
  have hdots : w.kind ≠ .dotDotDot := Lexeme.starts_kind_ne hw (by decide)
  have hthis : w.kind ≠ .kwThis := Lexeme.starts_kind_ne hw (by decide)
  have hlabels : w.kind = .ident → labels (vs ++ Lexeme.mark .parenClose :: rest) = false := by
    intro hident
    cases vs with
    | nil =>
      -- a name alone in parentheses is a parameter only before an arrow
      cases rest with
      | nil => rfl
      | cons u rest => simpa [labels] using hrest u rfl
    | cons v vs =>
      have hlike : w.kind.isIdentifierLike = true := by rw [hident]; rfl
      exact labels_cons_eq_false ((h.2 hlike).imp id And.right) _
  simpa [startsParams, hclose, hdots, hthis] using hlabels

open Outline in
/-- What is no function type is not taken for one by its first words, unless it is in parentheses and
an arrow follows. -/
theorem Phrase.startsFunction_eq_false {n : Nat} {l : Level} {t : TypeNode} {o : Outline}
    (h : Phrase n l t o) (hl : ∀ c, l ≠ .type c) {rest : List Lexeme}
    (hrest : ∀ w ∈ rest.head?, w.kind ≠ .arrow) :
    startsFunction (o.words ++ rest) = false := by
  induction h generalizing rest with
  | @keyword _ k =>
    have hkind : (Lexeme.named k.text).kind ≠ .lt ∧ (Lexeme.named k.text).kind ≠ .parenOpen := by
      cases k <;> decide
    simp [startsFunction, hkind]
  | string => rfl
  | @boolean _ b =>
    have hkind : (Lexeme.named (if b then "true" else "false")).kind ≠ .lt ∧
        (Lexeme.named (if b then "true" else "false")).kind ≠ .parenOpen := by cases b <;> decide
    simp [startsFunction, hkind]
  | reference hname =>
    simp [startsFunction, named_of_isIdentifier (isIdentifier_of_isTypeName hname)]
  | tuple => simp [startsFunction]
  | paren h ih =>
    simpa [startsFunction] using h.leads.startsParams_eq_false hrest
  | array _ ih | indexed _ _ ih =>
    rw [words_node, wordsOf_cons, wordsOf_cons, words_mark, List.append_assoc]
    exact ih (fun _ => nofun) fun w hw => Option.mem_some.1 hw ▸ nofun
  | keyof =>
    have hkind : (Lexeme.named "keyof").kind = .ident := by decide
    simp [startsFunction, hkind]
  | intersection _ ih | union _ ih =>
    -- the first member comes before a mark that is no arrow
    rw [words_node, List.map_cons, List.map_cons, joined_cons, following_cons, wordsOf_cons,
      wordsOf_cons, words_mark, List.append_assoc]
    exact ih _ List.mem_cons_self (fun _ => nofun) fun w hw => Option.mem_some.1 hw ▸ nofun
  | function | conditional | ofUnion => exact absurd rfl (hl _)
  | ofPrimary _ ih | ofPostfix _ ih | ofOperator _ ih | ofIntersection _ ih =>
    exact ih (fun _ => nofun) hrest

end DeclKit

/-
Names of members, written and read back.

A member is written with its name as an identifier, as a number or in quotes, whichever names it. What
is written is parsed as a member of that name, with two exceptions: a method that is called `new` is
taken for a construct signature unless a question mark keeps the parenthesis away from the word, and
no member starts with the minus sign of a negative number.
-/
import DeclKit.Proofs.Grammar.Built
import DeclKit.Proofs.Grammar.Member
import DeclKit.Proofs.Token.Naming
import DeclKit.Proofs.Token.Written

set_option autoImplicit false

namespace DeclKit

open DeclKit.Parser Kind Outline

/-! ## Printing -/

namespace Token

variable {s t : String} {ws vs : List Lexeme} {optional : Bool}

theorem closed_braceOpen : Closed "\x7b " [.mark braceOpen] :=
  (closed_mark (s := "\x7b") rfl (fun _ => rfl) (by decide)).append closed_blank

theorem closed_braceClose : Closed "\x7d" [.mark braceClose] :=
  closed_mark rfl (fun _ => rfl) (by decide)

/-- A question mark behind a name, if there is one. -/
theorem closed_question_behind (optional : Bool) (ht : Closed t vs) :
    Closed (Decl.flagged optional "?" ++ t) (wordsOf (flagged optional (.mark question)) ++ vs) := by
  have hmark : Closed "?" [.mark question] := closed_mark rfl (fun _ => rfl) (by decide)
  cases optional with
  | true => exact hmark.append ht
  | false =>
    rw [Decl.flagged, if_neg Bool.false_ne_true, String.empty_append]
    exact ht

theorem bounds_question_behind (optional : Bool) (ht : Bounds t) :
    Bounds (Decl.flagged optional "?" ++ t) := by
  cases optional with
  | true => exact ⟨'?', t.toList, by rw [String.toList_append]; rfl, by decide⟩
  | false =>
    rw [Decl.flagged, if_neg Bool.false_ne_true, String.empty_append]
    exact ht

/-- A property with its semicolon. -/
theorem closed_property {readonly : Bool} (hs : Names s ws) (ht : Writes t vs) :
    Closed (Decl.flagged readonly "readonly " ++ (s ++ (Decl.flagged optional "?" ++
        (": " ++ (t ++ ";")))))
      (wordsOf (flagged readonly (.named "readonly")) ++ (ws ++
        (wordsOf (flagged optional (.mark question)) ++
          (Lexeme.mark colon :: (vs ++ [.mark semicolon]))))) := by
  have htype := closed_colon.append (ht.before closed_semicolon ⟨_, _, rfl, by decide⟩)
  have hnamed := hs.before (closed_question_behind optional htype)
    (bounds_question_behind optional ⟨_, _, by rw [String.toList_append]; rfl, by decide⟩)
  cases readonly with
  | true =>
    have hword : Writes "readonly" [.named "readonly"] := writes_word (by decide)
    exact (hword.before closed_blank ⟨_, _, rfl, by decide⟩).append hnamed
  | false =>
    rw [Decl.flagged, if_neg Bool.false_ne_true, String.empty_append]
    exact hnamed

/-- A method without parameters, with its semicolon. -/
theorem closed_method (hs : Names s ws) (ht : Writes t vs) :
    Closed (s ++ (Decl.flagged optional "?" ++ ("(" ++ (")" ++ (": " ++ (t ++ ";"))))))
      (ws ++ (wordsOf (flagged optional (.mark question)) ++
        (Lexeme.mark parenOpen :: .mark parenClose :: .mark colon :: (vs ++ [.mark semicolon])))) := by
  have hreturn := closed_colon.append (ht.before closed_semicolon ⟨_, _, rfl, by decide⟩)
  have hparens := closed_parenOpen.append (closed_parenClose.append hreturn)
  exact hs.before (closed_question_behind optional hparens)
    (bounds_question_behind optional ⟨_, _, by rw [String.toList_append]; rfl, by decide⟩)

end Token

namespace Decl

/-- A property of type `string`, or a method without parameters that returns one, under a property
name. -/
def stringMember (method readonly optional : Bool) (name : String) : Member TypeNode :=
  if method then
    .method none (Text.propertyName name) optional { returns := some (.keyword .string) }
  else .property none readonly (Text.propertyName name) optional (some (.keyword .string))

/-- A type that has one member, on one line. -/
theorem text_object (x : Member TypeNode) :
    (TypeNode.object [x]).text = "\x7b " ++ (printMember .line 0 x ++ ";" ++ " ") ++ "\x7d" := by
  rw [TypeNode.text, TypeNode.object, TypeNode.fresh, TypeNode.print, TypeForm.print, printMembers,
    printMembers, Layout.inner, braced]
  simp [String.join]

/-- The words that a member is written as behind the words of its name. -/
def memberWords (method readonly optional : Bool) (ws : List Lexeme) : List Lexeme :=
  if method then
    ws ++ (wordsOf (Outline.flagged optional (.mark question)) ++
      [Lexeme.mark parenOpen, .mark parenClose, .mark colon, .named "string", .mark semicolon])
  else
    wordsOf (Outline.flagged readonly (.named "readonly")) ++ (ws ++
      (wordsOf (Outline.flagged optional (.mark question)) ++
        [Lexeme.mark colon, .named "string", .mark semicolon]))

open Token in
theorem writes_object {method readonly optional : Bool} {name : String} {ws : List Lexeme}
    (hname : Names (Text.propertyName name) ws) :
    Writes (TypeNode.object [stringMember method readonly optional name]).text
      (.mark braceOpen :: (memberWords method readonly optional ws ++ [.mark braceClose])) := by
  have hstring : Writes "string" [.named "string"] := writes_word (by decide)
  have hmember : Closed (printMember .line 0 (stringMember method readonly optional name) ++ ";")
      (memberWords method readonly optional ws) := by
    cases method with
    | true =>
      have htext : printMember .line 0 (stringMember true readonly optional name) ++ ";" =
          Text.propertyName name ++ (flagged optional "?" ++ ("(" ++ (")" ++ (": " ++
            ("string" ++ ";"))))) := by
        show Text.propertyName name ++ flagged optional "?" ++
          ("" ++ "(" ++ "" ++ ")" ++ ": " ++ "string") ++ ";" = _
        simp only [String.empty_append, String.append_empty, String.append_assoc]
      rw [htext]
      exact closed_method hname hstring
    | false =>
      have htext : printMember .line 0 (stringMember false readonly optional name) ++ ";" =
          flagged readonly "readonly " ++ (Text.propertyName name ++ (flagged optional "?" ++
            (": " ++ ("string" ++ ";")))) := by
        show flagged readonly "readonly " ++ Text.propertyName name ++ flagged optional "?" ++
          (": " ++ "string") ++ ";" = _
        simp only [String.append_assoc]
      rw [htext]
      exact closed_property hname hstring
  rw [text_object]
  have hall := (closed_braceOpen.append (hmember.append closed_blank)).append closed_braceClose
  rw [List.append_nil] at hall
  exact hall.writes

end Decl

/-! ## Reading back -/

namespace Token

/-- A name or reserved word is a member name, and nothing that is written between marks. -/
theorem kind_named (s : String) : (Lexeme.named s).kind.isIdentifierLike = true ∧
    (Lexeme.named s).kind ∉ [stringLiteral, bracketOpen, braceOpen] := by
  show ((Kind.keyword? s).getD ident).isIdentifierLike = true ∧
    (Kind.keyword? s).getD ident ∉ [stringLiteral, bracketOpen, braceOpen]
  unfold Kind.keyword?
  split <;> decide

theorem eq_new_of_kind {s : String} (h : (Lexeme.named s).kind = kwNew) : s = "new" := by
  rw [Lexeme.named] at h
  unfold Kind.keyword? at h
  split at h
  all_goals first
    | rfl
    | cases h

/-- The word of a property name is a member name. -/
theorem isMemberName_nameWord (s : String) : IsMemberName (nameWord s) := by
  unfold nameWord
  split
  · obtain ⟨hlike, hmarks⟩ := kind_named s
    exact ⟨by rw [startsMemberName, hlike]; rfl, fun hkind => hmarks (by rw [hkind]; decide)⟩
  split
  · exact ⟨rfl, nofun⟩
  · exact ⟨rfl, nofun⟩

/-- Only `new` is written as the reserved word. -/
theorem eq_new_of_nameWord {s : String} (h : (nameWord s).kind = kwNew) : s = "new" := by
  unfold nameWord at h
  split at h
  · exact eq_new_of_kind h
  split at h
  · cases h
  · cases h

end Token

namespace Node

variable {m : Node} {k : Kind} {os : List Outline}

/-- A name node of the word that a property name is written as has that name. -/
theorem Says.nameText_nameWord {s : String} (h : m.Says (.node k [.word (Token.nameWord s)])) :
    m.nameText = s := by
  obtain ⟨t, hleaves, hkind, htext⟩ := h.leaf
  by_cases hname : Text.isIdentifierName s = true
  · have hword : Token.nameWord s = .named s := if_pos hname
    rw [hword] at hkind htext
    have hmarks : t.kind ∉ [stringLiteral, bracketOpen, braceOpen] := by
      rw [hkind]
      exact (Token.kind_named s).2
    rw [nameText_of_leaves hleaves hmarks, htext]
    exact String.ofList_toList
  by_cases hnumeric : Text.isNumericName s = true
  · have hword : Token.nameWord s = ⟨numberLiteral, s.toList⟩ := (if_neg hname).trans (if_pos hnumeric)
    rw [hword] at hkind htext
    have hmarks : t.kind ∉ [stringLiteral, bracketOpen, braceOpen] := by
      rw [hkind]
      exact (by decide : numberLiteral ∉ [stringLiteral, bracketOpen, braceOpen])
    rw [nameText_of_leaves hleaves hmarks, htext, String.ofList_toList]
  · have hword : Token.nameWord s = ⟨stringLiteral, (Text.quote s).toList⟩ :=
      (if_neg hname).trans (if_neg hnumeric)
    simp only [hword, String.ofList_toList] at hkind htext
    have hstring : (t.kind == stringLiteral) = true := beq_iff_eq.2 hkind
    rw [nameText, hleaves]
    simp only [List.head?_cons, hstring, if_true, htext, literalValue_quote]

theorem Says.hasToken (h : m.Says (.node k os)) (k' : Kind) :
    m.hasToken k' = (os.filterMap Outline.word?).any (·.kind == k') := by
  rw [← h.leaves, List.any_map]
  rfl

theorem Says.hasWord (h : m.Says (.node k os)) (word : String) :
    m.hasWord word = (os.filterMap Outline.word?).any fun w =>
      w.kind == .ident && String.ofList w.chars == word := by
  rw [← h.leaves, List.any_map]
  simp only [Node.hasWord, Function.comp_def, Token.lexeme, String.ofList_toList]

/-- The node is a member of a kind under a name, and has the flags that it was given. A method has no
`readonly`. -/
structure IsMember (m : Node) (method readonly optional : Bool) (name : String) : Prop where
  kind_eq : m.kind = if method then methodSig else propertySig
  name_eq : m.name?.map nameText = some name
  optional_eq : m.hasToken question = optional
  readonly_eq : m.hasWord "readonly" = (readonly && !method)

/-- A file is a type alias of an object type with exactly one member, which is as given. -/
def DeclaresMember (file : Node) (method readonly optional : Bool) (name : String) : Prop :=
  ∃ decl type member : Node, file.statements = [decl] ∧ decl.kind = typeAliasDecl ∧
    decl.type? = some type ∧ type.kind = Kind.objectType ∧ type.members = [member] ∧
    member.IsMember method readonly optional name

/-- The kinds of members. -/
def memberKinds : List Kind := [propertySig, methodSig, callSig, constructSig, indexSig]

theorem members_eq (n : Node) :
    n.members = n.children.filter fun c => memberKinds.contains c.kind := by
  refine List.filter_congr fun c _ => ?_
  cases c.kind <;> rfl

/-- The members of an object type. -/
theorem Says.members (h : m.Says (.object os))
    (hos : ∀ o ∈ os, o.isNode = true ∧ o.kind ∈ memberKinds) : List.Forall₂ Says m.members os := by
  have hmembers : ∀ o ∈ os, (memberKinds.contains o.kind && o.isNode) = true := by
    intro o ho
    obtain ⟨hnode, hkind⟩ := hos o ho
    rw [List.contains_iff_mem.2 hkind, hnode]
    rfl
  have hall := Says.filter_children h memberKinds.contains
  rw [members_eq]
  rwa [filter_ended (fun k => by simp) hmembers] at hall

theorem Says.isMember_property {readonly optional : Bool} {name : String} {o : Outline}
    (h : m.Says (.property readonly (Token.nameWord name) optional o)) :
    m.IsMember false readonly optional name := by
  have hname : (flagged readonly (named "readonly") ++
      Outline.node Kind.name [.word (Token.nameWord name)] ::
        (flagged optional (mark question) ++ [Outline.node Kind.colonType [mark colon, o]])).filter
          (fun o => o.kind == Kind.name && o.isNode) =
        [.node Kind.name [.word (Token.nameWord name)]] := by
    cases readonly <;> cases optional <;> rfl
  obtain ⟨e, -, hchild, hsaid⟩ := Says.child? h Kind.name hname
  refine ⟨h.kind, ?_, ?_, ?_⟩
  · rw [name?, hchild, Option.map_some, hsaid.nameText_nameWord]
  · rw [Says.hasToken h]
    cases readonly <;> cases optional <;> rfl
  · rw [Says.hasWord h]
    cases readonly <;> cases optional <;> rfl

theorem Says.isMember_method {readonly optional : Bool} {name : String} {o : Outline}
    (h : m.Says (.method (Token.nameWord name) optional [] o)) :
    m.IsMember true readonly optional name := by
  have hname : (Outline.node Kind.name [.word (Token.nameWord name)] ::
      (flagged optional (mark question) ++ signature [] o)).filter
        (fun o => o.kind == Kind.name && o.isNode) =
      [.node Kind.name [.word (Token.nameWord name)]] := by
    cases optional <;> rfl
  obtain ⟨e, -, hchild, hsaid⟩ := Says.child? h Kind.name hname
  refine ⟨h.kind, ?_, ?_, ?_⟩
  · rw [name?, hchild, Option.map_some, hsaid.nameText_nameWord]
  · rw [Says.hasToken h]
    cases optional <;> rfl
  · rw [Says.hasWord h]
    cases readonly <;> cases optional <;> rfl

end Node

/-- The type `string`. -/
def Outline.string : Outline := .node keywordType [.named "string"]

theorem spelt_string (n : Nat) : Parser.Spelt n true .string :=
  have hphrase : Phrase n (.type true) (.keyword .string) .string := Phrase.toAny .keyword
  ⟨hphrase.readable, hphrase.leads⟩

/-- What a member is written as is parsed without a report, as the one member of an object type. -/
theorem member_parsed {method readonly optional : Bool} {name : String} {ws : List Lexeme} {o : Outline}
    (hname : Token.Names (Text.propertyName name) ws) (ho : Parser.Declares 0 o)
    (hkind : o.isNode = true ∧ o.kind ∈ Node.memberKinds)
    (hwords : o.words ++ [.mark semicolon] = Decl.memberWords method readonly optional ws)
    (source : SourceId) :
    ∃ (tree : Tree) (decl type member : Node), parseWith source .standard ("type X = " ++
        (Decl.TypeNode.object [Decl.stringMember method readonly optional name]).text ++ ";") =
          .ok ⟨tree, []⟩ ∧
      (Node.mk tree []).statements = [decl] ∧ decl.kind = typeAliasDecl ∧ decl.type? = some type ∧
      type.kind = Kind.objectType ∧ type.members = [member] ∧ member.Says o := by
  have hspelt : Parser.Spelt 1 true (.object [o]) :=
    Parser.spelt_object (List.forall_mem_singleton.2 ho)
  have hwrites : Token.Writes
      (Decl.TypeNode.object [Decl.stringMember method readonly optional name]).text
      (Outline.object [o]).words := by
    have hall : Token.Writes
        (Decl.TypeNode.object [Decl.stringMember method readonly optional name]).text _ :=
      Decl.writes_object hname
    rw [← hwords] at hall
    rw [words_object, ended_cons, wordsOf_cons, wordsOf_cons, ended_nil, wordsOf_nil, words_mark,
      List.append_nil]
    exact hall
  obtain ⟨tree, hparse, houtline⟩ := parseWith_written hspelt hwrites
    (show isIdentifier "X" = true by decide) (show Limits.standard.tokens = none from rfl) (by decide)
    source
  obtain ⟨decl, hstatements, hdecl⟩ := Node.Says.statements_alias (m := ⟨tree, []⟩) houtline
  obtain ⟨type, -, htype, hsaid⟩ := hdecl.type? (congrArg (·[0]?) (Outline.types_alias false "X" rfl))
  obtain ⟨member, rest, hmember, hrest, hmembers⟩ := List.forall₂_cons_right_iff.1
    (Node.Says.members hsaid (List.forall_mem_singleton.2 hkind))
  obtain rfl := List.forall₂_nil_right_iff.1 hrest
  exact ⟨tree, decl, type, member, hparse, hstatements, hdecl.kind, htype, hsaid.kind, hmembers,
    hmember⟩

/-! ## Names and words -/

namespace Node

/-- What stands in a text that is kept as it was written stands in its tokens. -/
theorem mem_joinTokens {ts : List Token} {t : Token} (ht : t ∈ ts) (hword : t.kind.isTrivia = false)
    {c : Char} (hc : c ∈ t.text.toList) (gap : Bool) :
    c ∈ (String.join (joinTokens gap ts)).toList := by
  induction ts generalizing gap with
  | nil => cases ht
  | cons u ts ih =>
    rw [joinTokens]
    obtain rfl | ht := List.mem_cons.1 ht
    · rw [hword, if_neg Bool.false_ne_true, String.join_cons, String.toList_append]
      refine List.mem_append_left _ ?_
      split
      · rw [String.toList_append]
        exact List.mem_append_right _ hc
      · exact hc
    · split
      · exact ih ht true
      · rw [String.join_cons, String.toList_append]
        exact List.mem_append_right _ (ih ht false)

theorem mem_sourceText {m : Node} {t : Token} (ht : t ∈ m.tree.tokens) (hword : t.kind.isTrivia = false)
    {c : Char} (hc : c ∈ t.text.toList) : c ∈ m.sourceText.toList := by
  rw [← List.takeWhile_append_dropWhile (p := (·.kind.isTrivia)) (l := m.tree.tokens)] at ht
  obtain ht | ht := List.mem_append.1 ht
  · rw [List.mem_takeWhile_imp ht] at hword
    cases hword
  · exact mem_joinTokens ht hword hc false

theorem isTrivia_of_mem_leaves {m : Node} {t : Token} (ht : t ∈ m.leaves) :
    t.kind.isTrivia = false := by
  obtain ⟨u, -, hleaf⟩ := List.mem_filterMap.1 ht
  cases u with
  | node k a b cs => cases hleaf
  | token u =>
    dsimp only at hleaf
    split at hleaf
    · cases hleaf
    · rename_i hword
      rwa [Option.some.inj hleaf, Bool.not_eq_true] at hword

/-- A name is a word in the node, the value of a literal in it, or holds a bracket or brace that opens
it. -/
theorem nameText_cases {m : Node} (hname : m.nameText ≠ "") : ∃ w ∈ wordsIn m.tree.tokens,
    w.kind = stringLiteral ∨ w.chars = m.nameText.toList ∨
      w.kind ∈ [bracketOpen, braceOpen] ∧ ∀ c ∈ w.chars, c ∈ m.nameText.toList := by
  unfold nameText at hname ⊢
  cases hleaves : m.leaves with
  | nil =>
    rw [hleaves] at hname
    exact absurd rfl hname
  | cons t ts =>
    have ht : t ∈ m.leaves := hleaves ▸ List.mem_cons_self
    have hword := isTrivia_of_mem_leaves ht
    have hin : t ∈ m.tree.tokens.filter (!·.kind.isTrivia) :=
      List.mem_filter.2 ⟨leaves_subset_tokens ht, by rw [hword]; rfl⟩
    refine ⟨t.lexeme, List.mem_map_of_mem hin, ?_⟩
    by_cases hstring : t.kind = stringLiteral
    · exact .inl hstring
    rw [List.head?_cons]
    dsimp only
    rw [beq_false_of_ne hstring, if_neg Bool.false_ne_true]
    split
    · rename_i hraw
      rw [isRawName, hleaves, List.head?_cons, Option.any_some, Bool.or_eq_true, beq_iff_eq,
        beq_iff_eq] at hraw
      exact .inr (.inr ⟨by simpa [Token.lexeme] using hraw,
        fun c hc => mem_sourceText (leaves_subset_tokens ht) hword hc⟩)
    · exact .inr (.inl rfl)

end Node

/-! ## Reading back -/

namespace Decl

variable {method readonly optional : Bool}

/-- Around a name a member has marks, `readonly` and the type. -/
theorem mem_memberWords {ws : List Lexeme} {w : Lexeme}
    (hw : w ∈ memberWords method readonly optional ws) :
    w ∈ ws ∨ w ∈ [.named "readonly", .named "string", .mark question, .mark parenOpen, .mark parenClose,
      .mark colon, .mark semicolon] := by
  have hquestion : wordsOf (Outline.flagged optional (.mark question)) ⊆ [.mark question] := by
    cases optional
    · exact List.nil_subset _
    · exact List.Subset.refl _
  have hreadonly : wordsOf (Outline.flagged readonly (.named "readonly")) ⊆ [.named "readonly"] := by
    cases readonly
    · exact List.nil_subset _
    · exact List.Subset.refl _
  unfold memberWords at hw
  split at hw
  · simp only [List.mem_append, List.mem_cons, List.not_mem_nil, or_false] at hw ⊢
    obtain hw | hw | hw := hw
    · exact .inl hw
    · have := List.mem_singleton.1 (hquestion hw)
      tauto
    · tauto
  · simp only [List.mem_append, List.mem_cons, List.not_mem_nil, or_false] at hw ⊢
    obtain hw | hw | hw | hw := hw
    · have := List.mem_singleton.1 (hreadonly hw)
      tauto
    · exact .inl hw
    · have := List.mem_singleton.1 (hquestion hw)
      tauto
    · tauto

end Decl

namespace Decl

variable {method readonly optional : Bool} {name : String} {source : SourceId} {p : ParsedFile}

/-- A word that is no literal, does not start with a minus sign and opens nothing but with a brace. -/
def isCommonWord (w : Lexeme) : Bool :=
  w.kind != stringLiteral && w.chars.head? != some '-' &&
    (w.kind != bracketOpen && w.kind != braceOpen || w.chars.contains '\x7b')

/-- Around the name of its member the text of a type alias has common words. -/
theorem mem_words_alias {ws : List Lexeme} {w : Lexeme}
    (hw : w ∈ Lexeme.named "type" :: .named "X" :: .mark equals ::
      (Lexeme.mark braceOpen :: (memberWords method readonly optional ws ++ [Lexeme.mark braceClose]) ++
        [.mark semicolon])) : w ∈ ws ∨ isCommonWord w = true := by
  have haround : ∀ v ∈ [Lexeme.named "type", .named "X", .mark equals, .mark braceOpen,
      .mark braceClose, .mark semicolon], isCommonWord v = true := by decide
  have hmember : ∀ v ∈ [Lexeme.named "readonly", .named "string", .mark question, .mark parenOpen,
      .mark parenClose, .mark colon, .mark semicolon], isCommonWord v = true := by decide
  have hsplit : w ∈ memberWords method readonly optional ws ∨ w ∈ [Lexeme.named "type", .named "X",
      .mark equals, .mark braceOpen, .mark braceClose, .mark semicolon] := by
    simp only [List.mem_append, List.mem_cons, List.not_mem_nil, or_false] at hw ⊢
    tauto
  obtain hw | hw := hsplit
  · exact (mem_memberWords hw).imp_right (hmember w)
  · exact .inr (haround w hw)

/-- A negative number is the name of no node of what it is parsed as, as its minus sign is a word of its
own. -/
theorem nameText_ne_of_negative (hs : Token.isNegativeName name = true)
    (hparse : parseWith source .standard ("type X = " ++
      (TypeNode.object [stringMember method readonly optional name]).text ++ ";") = .ok p)
    {m : Node} (hm : m.tree.tokens ⊆ p.tree.tokens) : m.nameText ≠ name := by
  obtain ⟨w, hnames, hkind, hchars, hne, hbrace⟩ := Token.exists_names_negative hs
  have hobject : Token.Writes (TypeNode.object [stringMember method readonly optional name]).text _ :=
    writes_object hnames
  have hclosed := Token.closed_alias (show isIdentifier "X" = true by decide) hobject
  have hspells := hclosed [] [] Token.Spells.nil
  rw [List.append_nil, List.append_nil, show "type " ++ "X" ++ " = " = "type X = " by rfl] at hspells
  have hwords := (hspells.lex (by simp)).1
  rw [← (parseWith_spec hparse).2.1] at hwords
  intro hname
  obtain ⟨v, hv, hcases⟩ := Node.nameText_cases (m := m) (by
    rw [hname]
    rintro rfl
    cases hchars)
  rw [hname, ← hchars] at hcases
  have hin : v ∈ wordsIn p.tree.tokens := List.map_subset _ (List.filter_subset _ hm) hv
  rw [hwords] at hin
  obtain hin | hin := mem_words_alias hin
  · simp only [List.mem_cons, List.not_mem_nil, or_false] at hin hkind
    obtain rfl | rfl := hin
    · -- the minus sign is not all of the name
      obtain hstring | hall | ⟨hopen, -⟩ := hcases
      · cases hstring
      · exact hne (List.cons.inj hall).2.symm
      · exact absurd hopen (by decide)
    · -- and the other word is no longer the name
      obtain hstring | hall | ⟨hopen, -⟩ := hcases
      · obtain hkind | hkind := hkind <;> cases hkind.symm.trans hstring
      · exact List.cons_ne_self _ _ hall.symm
      · obtain hkind | hkind := hkind <;> rw [hkind] at hopen <;> exact absurd hopen (by decide)
  · simp only [isCommonWord, Bool.and_eq_true, Bool.or_eq_true, bne_iff_ne,
      List.contains_iff_mem] at hin
    obtain ⟨⟨hstring, hminus⟩, hopens⟩ := hin
    obtain hkind | hall | ⟨hopen, hall⟩ := hcases
    · exact hstring hkind
    · exact hminus (by rw [hall]; rfl)
    · obtain ⟨hbracket, hopen'⟩ | hmem := hopens
      · simp [hbracket, hopen'] at hopen
      · obtain hfirst | hmem := List.mem_cons.1 (hall _ hmem)
        · cases hfirst
        · exact hbrace hmem

end Decl

/-- The members that the words of a named member can be read as. -/
theorem Outline.words_property_string (readonly optional : Bool) (w : Lexeme) :
    (property readonly w optional .string).words ++ [.mark semicolon] =
      Decl.memberWords false readonly optional [w] := by
  simp [words_property, Decl.memberWords, Outline.string]

theorem Outline.words_method_string (readonly optional : Bool) (w : Lexeme) :
    (method w optional [] .string).words ++ [.mark semicolon] =
      Decl.memberWords true readonly optional [w] := by
  simp [words_method, wordsOf_signature, paramsOf, Decl.memberWords, Outline.string]

theorem Outline.words_construct_string (readonly : Bool) :
    (construct [] .string).words ++ [.mark semicolon] =
      Decl.memberWords true readonly false [.named "new"] := by
  simp [words_construct, wordsOf_signature, paramsOf, Decl.memberWords, Outline.string, flagged]

/-- A member is written, parsed and found again with its name and flags, except for two kinds of names:
a method called `new` that is not optional, which is taken for a construct signature, and a negative
number, whose minus sign no member starts with. -/
theorem member_reads_back_iff (method readonly optional : Bool) (name : String) (source : SourceId) :
    (∃ tree, parseWith source .standard ("type X = " ++
        (Decl.TypeNode.object [Decl.stringMember method readonly optional name]).text ++ ";") =
          .ok ⟨tree, []⟩ ∧
      (Node.mk tree []).DeclaresMember method readonly optional name) ↔
    ¬((method = true ∧ optional = false ∧ name = "new") ∨ Token.isNegativeName name = true) := by
  constructor
  · rintro ⟨tree, hparse, decl, type, member, hstatements, -, htype, -, hmembers, hmember⟩
    rintro (⟨rfl, rfl, rfl⟩ | hnegative)
    · -- what was read says a construct signature
      obtain ⟨tree', decl', type', member', hparse', hstatements', -, htype', -, hmembers', hsaid⟩ :=
        member_parsed (o := .construct [] .string) (Token.names_propertyName (s := "new") (by decide))
          (Parser.declares_construct nofun nofun (spelt_string 0)) ⟨rfl, by decide⟩
          (Outline.words_construct_string readonly) source
      obtain rfl : tree = tree' := congrArg ParsedFile.tree (Except.ok.inj (hparse.symm.trans hparse'))
      obtain rfl := (List.cons.inj (hstatements.symm.trans hstatements')).1
      obtain rfl := Option.some.inj (htype.symm.trans htype')
      obtain rfl := (List.cons.inj (hmembers.symm.trans hmembers')).1
      have hkind : constructSig = methodSig := hsaid.kind.symm.trans hmember.kind_eq
      cases hkind
    · -- no node has the name
      obtain ⟨d, hd, hname⟩ := Option.map_eq_some_iff.1 hmember.name_eq
      refine Decl.nameText_ne_of_negative hnegative hparse (m := d) ?_ hname
      have hdecl : decl ∈ (Node.mk tree []).children :=
        List.mem_of_mem_filter
          (hstatements ▸ List.mem_cons_self : decl ∈ (Node.mk tree []).statements)
      have hmem : member ∈ type.children :=
        List.mem_of_mem_filter (hmembers ▸ List.mem_cons_self : member ∈ type.members)
      intro t ht
      have ht := Node.tokens_subset_of_children (List.mem_of_find?_eq_some hd) ht
      have ht := Node.tokens_subset_of_children hmem ht
      have ht := Node.tokens_subset_of_children (List.mem_of_find?_eq_some htype) ht
      exact Node.tokens_subset_of_children hdecl ht
  · intro hread
    rw [not_or, Bool.not_eq_true] at hread
    obtain ⟨hnew, hpositive⟩ := hread
    have hname := Token.names_propertyName hpositive
    have hw := Token.isMemberName_nameWord name
    cases method with
    | false =>
      obtain ⟨tree, decl, type, member, hparse, hstatements, hdecl, htype, hkind, hmembers, hsaid⟩ :=
        member_parsed (o := .property readonly (Token.nameWord name) optional .string) hname
          (Parser.declares_property hw (spelt_string 0)) ⟨rfl, List.mem_cons_self⟩
          (Outline.words_property_string readonly optional _) source
      exact ⟨tree, hparse, decl, type, member, hstatements, hdecl, htype, hkind, hmembers,
        hsaid.isMember_property⟩
    | true =>
      have hoptional : (Token.nameWord name).kind = kwNew → optional = true := fun hkind => by
        by_contra hoptional
        exact hnew ⟨rfl, Bool.not_eq_true _ ▸ hoptional, Token.eq_new_of_nameWord hkind⟩
      obtain ⟨tree, decl, type, member, hparse, hstatements, hdecl, htype, hkind, hmembers, hsaid⟩ :=
        member_parsed (o := .method (Token.nameWord name) optional [] .string) hname
          (Parser.declares_method hw hoptional nofun nofun (spelt_string 0))
          ⟨rfl, List.mem_cons_of_mem _ List.mem_cons_self⟩
          (Outline.words_method_string readonly optional _) source
      exact ⟨tree, hparse, decl, type, member, hstatements, hdecl, htype, hkind, hmembers,
        hsaid.isMember_method⟩

end DeclKit

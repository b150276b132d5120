/-
Templates as words.

A template is a text in which types stand at some places: a word of characters and types. Settling the
types of a template is then nothing but putting words together. A literal is the word of its text, a
template its own word, and any other type the word of one letter; so it does not matter in which order
the types are settled, nor how the text between them was cut.
-/
import DeclKit.Proofs.Types.Template
import Std.Data.HashMap
import Std.Data.HashMap

set_option autoImplicit false

namespace DeclKit.TypeTable

/-! ## Words -/

/-- A text with types at some places. -/
abbrev TemplateWord := List (Char ⊕ TypeId)

/-- The word of a text without types. -/
def textWord (s : String) : TemplateWord := s.toList.map .inl

/-- Texts in turn, one of the first list before each of the second. -/
def alternate : List String → List String → String
  | piece :: pieces, text :: texts => piece ++ text ++ alternate pieces texts
  | _, _ => ""

/-- The word of types and the texts behind them. -/
def spansWord (spans : List (TypeId × String)) : TemplateWord :=
  spans.flatMap fun s => .inr s.1 :: textWord s.2

/-- The word of a template. -/
def templateWord (head : String) (spans : List (TypeId × String)) : TemplateWord :=
  textWord head ++ spansWord spans

theorem textWord_append (s s' : String) : textWord (s ++ s') = textWord s ++ textWord s' := by
  rw [textWord, String.toList_append, List.map_append, ← textWord, ← textWord]

theorem mem_spansWord {spans : List (TypeId × String)} {id : TypeId} :
    .inr id ∈ spansWord spans ↔ ∃ s ∈ spans, s.1 = id := by
  simp only [spansWord, textWord, List.mem_flatMap, List.mem_cons, Sum.inr.injEq, List.mem_map,
    reduceCtorEq, and_false, exists_false, or_false]
  exact exists_congr fun s => and_congr_right fun _ => eq_comm

theorem mem_templateWord {head : String} {spans : List (TypeId × String)} {id : TypeId} :
    .inr id ∈ templateWord head spans ↔ ∃ s ∈ spans, s.1 = id := by
  rw [templateWord, List.mem_append, mem_spansWord]
  simp [textWord]

namespace TemplateParts

/-- The word that has been built up. -/
def word (p : TemplateParts) : TemplateWord := templateWord p.head p.spans.reverse

/-- Adds one letter at the end. -/
def push (p : TemplateParts) : Char ⊕ TypeId → TemplateParts
  | .inl c => p.addText (String.singleton c)
  | .inr id => p.addSpan id ""

/-- The template that a word makes. -/
def ofWord (w : TemplateWord) : TemplateParts := w.foldl push { head := "" }

theorem addText_empty (p : TemplateParts) : p.addText "" = p := by
  obtain ⟨head, spans⟩ := p
  cases spans with
  | nil => rw [addText, String.append_empty]
  | cons s spans => simp only [addText, String.append_empty]

theorem addText_addText (p : TemplateParts) (s s' : String) :
    (p.addText s).addText s' = p.addText (s ++ s') := by
  obtain ⟨head, spans⟩ := p
  cases spans with
  | nil => simp only [addText, String.append_assoc]
  | cons span spans => simp only [addText, String.append_assoc]

theorem addText_addSpan (p : TemplateParts) (id : TypeId) (s s' : String) :
    (p.addSpan id s).addText s' = p.addSpan id (s ++ s') := rfl

theorem foldl_push_textWord (p : TemplateParts) (s : String) :
    (textWord s).foldl push p = p.addText s := by
  obtain ⟨cs, rfl⟩ : ∃ cs, s = String.ofList cs := ⟨s.toList, (String.ofList_toList).symm⟩
  rw [textWord, String.toList_ofList]
  induction cs generalizing p with
  | nil => exact (addText_empty p).symm
  | cons c cs ih =>
    rw [List.map_cons, List.foldl_cons, ih, push, addText_addText]
    congr 1
    apply String.toList_inj.1
    simp

theorem foldl_push_spansWord (p : TemplateParts) (spans : List (TypeId × String)) :
    (spansWord spans).foldl push p = spans.foldl (fun q s => q.addSpan s.1 s.2) p := by
  induction spans generalizing p with
  | nil => rfl
  | cons s spans ih =>
    rw [spansWord, List.flatMap_cons, ← spansWord, List.cons_append, List.foldl_cons,
      List.foldl_append, foldl_push_textWord, ih, push, addText_addSpan, String.empty_append]
    rfl

theorem word_addText (p : TemplateParts) (s : String) :
    (p.addText s).word = p.word ++ textWord s := by
  obtain ⟨head, spans⟩ := p
  cases spans with
  | nil =>
    simp only [word, addText, templateWord, spansWord, List.reverse_nil, List.flatMap_nil,
      List.append_nil, textWord_append]
  | cons span spans =>
    simp only [word, addText, templateWord, spansWord, List.reverse_cons, List.flatMap_append,
      List.flatMap_singleton, textWord_append, List.append_assoc, List.cons_append]

theorem word_addSpan (p : TemplateParts) (id : TypeId) (s : String) :
    (p.addSpan id s).word = p.word ++ .inr id :: textWord s := by
  simp only [word, addSpan, templateWord, spansWord, List.reverse_cons, List.flatMap_append,
    List.flatMap_singleton, List.append_assoc]

/-- Letters that are added to a template one after another stand behind its word. -/
theorem word_foldl_push (p : TemplateParts) (w : TemplateWord) :
    (w.foldl push p).word = p.word ++ w := by
  induction w generalizing p with
  | nil => rw [List.foldl_nil, List.append_nil]
  | cons c w ih =>
    rw [List.foldl_cons, ih]
    cases c with
    | inl c =>
      rw [push, word_addText, textWord, String.toList_singleton, List.map_singleton, List.append_assoc,
        List.singleton_append]
    | inr id =>
      rw [push, word_addSpan, List.append_assoc]
      rfl

/-- The template that a word makes has that word. -/
theorem word_ofWord (w : TemplateWord) : (ofWord w).word = w := by
  rw [ofWord, word_foldl_push, word, templateWord]
  rfl

end TemplateParts

/-! ## The kind of type that a word makes -/

/-- The kind of type that a word makes: text alone is a literal, and `string` without text around it is
`string` itself. -/
def wordKind (w : TemplateWord) : TypeKind :=
  let p := TemplateParts.ofWord w
  match p.spans.reverse with
  | [] => .stringLiteral p.head
  | [(id, tail)] =>
    if id == .string && p.head.isEmpty && tail.isEmpty then .string
    else .template p.head [(id, tail)]
  | spans => .template p.head spans

/-- What a word makes is a literal without types in the word, `string`, or a template with that word. -/
theorem wordKind_cases (w : TemplateWord) :
    (∃ s, wordKind w = .stringLiteral s ∧ w = textWord s) ∨
    (wordKind w = .string ∧ w = [.inr .string]) ∨
    ∃ head spans, wordKind w = .template head spans ∧ w = templateWord head spans ∧ spans ≠ [] := by
  have hw : templateWord (TemplateParts.ofWord w).head (TemplateParts.ofWord w).spans.reverse = w :=
    TemplateParts.word_ofWord w
  unfold wordKind
  dsimp only
  split
  · rename_i hspans
    rw [hspans] at hw
    refine .inl ⟨_, rfl, hw.symm.trans ?_⟩
    rw [templateWord, spansWord, List.flatMap_nil, List.append_nil]
  · rename_i id tail hspans
    rw [hspans] at hw
    split
    · rename_i hstring
      simp only [Bool.and_eq_true, beq_iff_eq, String.isEmpty_iff] at hstring
      obtain ⟨⟨rfl, hhead⟩, rfl⟩ := hstring
      refine .inr (.inl ⟨rfl, ?_⟩)
      rw [← hw, hhead]
      rfl
    · exact .inr (.inr ⟨_, _, rfl, hw.symm, List.cons_ne_nil _ _⟩)
  · rename_i hnil _
    exact .inr (.inr ⟨_, _, rfl, hw.symm, hnil⟩)

/-- A text alone makes its literal. -/
theorem wordKind_textWord (s : String) : wordKind (textWord s) = .stringLiteral s := by
  have hparts : TemplateParts.ofWord (textWord s) = { head := s } := by
    rw [TemplateParts.ofWord, TemplateParts.foldl_push_textWord, TemplateParts.addText,
      String.empty_append]
  unfold wordKind
  rw [hparts]
  rfl

/-! ## The word of a type in a template -/

section

variable {nullChecks : Bool} {t u : TypeTable}

/-- The word that a type contributes to a template. -/
def partWord (t : TypeTable) (id : TypeId) : TemplateWord :=
  match t.constantText? id with
  | some s => textWord s
  | none => match t.kind id with
    | .template head spans => templateWord head spans
    | _ => [.inr id]

/-- The word of a template whose types contribute theirs. -/
def settledWord (t : TypeTable) (head : String) (spans : List (TypeId × String)) : TemplateWord :=
  textWord head ++ spans.flatMap fun s => t.partWord s.1 ++ textWord s.2

/-- A type is settled by adding its word. -/
theorem foldl_push_partWord (t : TypeTable) (p : TemplateParts) (span : TypeId × String) :
    (t.partWord span.1 ++ textWord span.2).foldl TemplateParts.push p = t.addPart p span := by
  rw [List.foldl_append, TemplateParts.foldl_push_textWord]
  unfold partWord addPart
  cases t.constantText? span.1 with
  | some s => exact congrArg (TemplateParts.addText · span.2) (TemplateParts.foldl_push_textWord p s)
  | none =>
    have hother : ([.inr span.1].foldl TemplateParts.push p).addText span.2 =
        p.addSpan span.1 span.2 := by
      rw [List.foldl_cons, List.foldl_nil, TemplateParts.push, TemplateParts.addText_addSpan,
        String.empty_append]
    cases t.kind span.1 with
    | template head spans =>
      dsimp only
      rw [templateWord, List.foldl_append, TemplateParts.foldl_push_textWord,
        TemplateParts.foldl_push_spansWord]
    | _ => exact hother

theorem foldl_addPart (t : TypeTable) (head : String) (spans : List (TypeId × String)) :
    spans.foldl t.addPart { head } = TemplateParts.ofWord (t.settledWord head spans) := by
  rw [settledWord, TemplateParts.ofWord, List.foldl_append, TemplateParts.foldl_push_textWord,
    TemplateParts.addText, String.empty_append]
  generalize ({ head } : TemplateParts) = p
  induction spans generalizing p with
  | nil => rfl
  | cons s spans ih =>
    rw [List.flatMap_cons, List.foldl_append, foldl_push_partWord, ← ih, List.foldl_cons]

/-- A type of a kind that a word makes contributes this word again. -/
theorem partWord_of_wordKind (ht : t.Normal nullChecks) {id : TypeId} {w : TemplateWord}
    (h : t.kind id = wordKind w) : t.partWord id = w := by
  rcases wordKind_cases w with ⟨s, hk, hw⟩ | ⟨hk, hw⟩ | ⟨head, spans, hk, hw, -⟩
  · simp only [partWord, constantText?, h, hk]
    exact hw.symm
  · obtain rfl := ht.eq_of_kind (i := 5) rfl rfl (h.trans hk)
    simp only [partWord, constantText?, h, hk]
    exact hw.symm
  · simp only [partWord, constantText?, h, hk]
    exact hw.symm

/-- A type that may stand in a template is a word of one letter. -/
theorem partWord_of_inTemplate {id : TypeId} (h : (t.kind id).inTemplate) :
    t.partWord id = [.inr id] := by
  unfold partWord constantText?
  cases hk : t.kind id with
  | stringLiteral | numberLiteral | bigintLiteral | true_ | false_ | null | undefined | template =>
    simp [hk, TypeKind.inTemplate] at h
  | _ => rfl

theorem partWord_of_constantText? {id : TypeId} {s : String} (h : t.constantText? id = some s) :
    t.partWord id = textWord s := by
  rw [partWord, h]

/-- What a type contributes is the same in every later table. -/
theorem partWord_eq_of_kind {id : TypeId} (h : u.kind id = t.kind id) :
    u.partWord id = t.partWord id := by
  simp only [partWord, constantText?, h]

end

/-! ## Words that a word stands for -/

/-- A word stands for another one when each type in it stands for some word, and each character for
itself. -/
inductive Expands (g : TypeId → TemplateWord → Prop) : TemplateWord → TemplateWord → Prop
  | nil : Expands g [] []
  | char {c : Char} {w v : TemplateWord} : Expands g w v → Expands g (.inl c :: w) (.inl c :: v)
  | type {id : TypeId} {x w v : TemplateWord} :
      g id x → Expands g w v → Expands g (.inr id :: w) (x ++ v)

namespace Expands

variable {g h : TypeId → TemplateWord → Prop}

theorem append {w w' v v' : TemplateWord} (hw : Expands g w v) (hw' : Expands g w' v') :
    Expands g (w ++ w') (v ++ v') := by
  induction hw with
  | nil => exact hw'
  | char _ ih => exact .char ih
  | type hx _ ih =>
    rw [List.cons_append, List.append_assoc]
    exact .type hx ih

theorem append_inv {w w' v : TemplateWord} (hv : Expands g (w ++ w') v) :
    ∃ x x', v = x ++ x' ∧ Expands g w x ∧ Expands g w' x' := by
  induction w generalizing v with
  | nil => exact ⟨[], v, rfl, .nil, hv⟩
  | cons c w ih =>
    cases hv with
    | char hv =>
      obtain ⟨x, x', rfl, hx, hx'⟩ := ih hv
      exact ⟨_, x', rfl, .char hx, hx'⟩
    | type hg hv =>
      obtain ⟨x, x', rfl, hx, hx'⟩ := ih hv
      exact ⟨_, x', (List.append_assoc _ _ _).symm, .type hg hx, hx'⟩

/-- A type alone stands for its words. -/
theorem single_iff {id : TypeId} {v : TemplateWord} : Expands g [.inr id] v ↔ g id v := by
  constructor
  · intro hv
    cases hv with
    | type hg hnil =>
      cases hnil
      rwa [List.append_nil]
  · intro hg
    have hv := Expands.type hg .nil
    rwa [List.append_nil] at hv

/-- A text stands for itself alone. -/
theorem textWord_iff {s : String} {v : TemplateWord} : Expands g (textWord s) v ↔ v = textWord s := by
  rw [textWord]
  generalize s.toList = cs
  induction cs generalizing v with
  | nil =>
    constructor
    · rintro ⟨⟩
      rfl
    · rintro rfl
      exact .nil
  | cons c cs ih =>
    constructor
    · intro hv
      cases hv with
      | char hv => rw [ih.1 hv, List.map_cons]
    · rintro rfl
      exact .char (ih.2 rfl)

/-- What a word stands for depends on the types in it alone. -/
theorem congr {w v : TemplateWord} (hgh : ∀ id, .inr id ∈ w → ∀ x, g id x ↔ h id x) :
    Expands g w v ↔ Expands h w v := by
  have mono {g h : TypeId → TemplateWord → Prop} {w v : TemplateWord}
      (hgh : ∀ id, .inr id ∈ w → ∀ x, g id x → h id x) (hv : Expands g w v) : Expands h w v := by
    induction hv with
    | nil => exact .nil
    | char _ ih => exact .char (ih fun id hid => hgh id (List.mem_cons_of_mem _ hid))
    | type hx _ ih =>
      refine .type (hgh _ List.mem_cons_self _ hx) (ih fun id hid => ?_)
      exact hgh id (List.mem_cons_of_mem _ hid)
  exact ⟨mono fun id hid x => (hgh id hid x).1, mono fun id hid x => (hgh id hid x).2⟩

/-- Expanding a word and then what it stands for is expanding it once, by what the words of its types
stand for. -/
theorem comp_iff {w v : TemplateWord} :
    Expands (fun id x => ∃ y, g id y ∧ Expands h y x) w v ↔ ∃ y, Expands g w y ∧ Expands h y v := by
  constructor
  · intro hv
    induction hv with
    | nil => exact ⟨[], .nil, .nil⟩
    | char _ ih =>
      obtain ⟨y, hy, hv⟩ := ih
      exact ⟨_, .char hy, .char hv⟩
    | type hx _ ih =>
      obtain ⟨y, hy, hv⟩ := ih
      obtain ⟨z, hz, hx⟩ := hx
      exact ⟨z ++ y, .type hz hy, hx.append hv⟩
  · rintro ⟨y, hy, hv⟩
    induction hy generalizing v with
    | nil =>
      cases hv
      exact .nil
    | char _ ih =>
      cases hv with
      | char hv => exact .char (ih hv)
    | type hx _ ih =>
      obtain ⟨z, z', rfl, hz, hz'⟩ := append_inv hv
      exact .type ⟨_, hx, hz⟩ (ih hz')

/-- A word stands for nothing when a type in it does not. -/
theorem exists_of_mem {w v : TemplateWord} (hv : Expands g w v) {id : TypeId} (hid : .inr id ∈ w) :
    ∃ x, g id x := by
  induction hv with
  | nil => cases hid
  | char _ ih => exact ih (by simpa using hid)
  | @type id' x _ _ hx _ ih =>
    rcases List.mem_cons.1 hid with heq | hid
    · obtain rfl := Sum.inr.inj heq
      exact ⟨x, hx⟩
    · exact ih hid

end Expands

end DeclKit.TypeTable

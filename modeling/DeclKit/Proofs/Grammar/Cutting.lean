/-
Cutting texts that are put together.

A text that is put together from words, marks and blanks is cut into these words again, provided that no
word is taken to go on in what stands behind it. Texts are judged with all that follows them in place,
so that the longest match of each word is settled where the word is written. Lines end only where the
next one may start with the words behind.
-/
import DeclKit.Parser.State
import DeclKit.Proofs.Grammar.Ahead
import DeclKit.Proofs.Grammar.Outline
import DeclKit.Proofs.Grammar.Phrase
import DeclKit.Proofs.Text.Escape

set_option autoImplicit false

namespace DeclKit.Token

open Kind

variable {c : Char} {cs rest body : List Char} {ws vs : List Lexeme} {k : Kind} {s t : String}

/-! ## Words of a text -/

/-- A kind of lexeme that is taken as it is: it is no garbage, ends no line and is no comment. -/
def isPlain (k : Kind) : Bool := k != garbage && k != newline && !k.isComment && k != shebang

/-- The words among lexemes. -/
def wordsAmong (ls : List Lexeme) : List Lexeme := ls.filter (!·.kind.isTrivia)

/-- There is no garbage among lexemes and no comment, no blank is a byte-order mark, and lines end only
at the end of the words or where a line may start. -/
inductive Lined : List Lexeme → Prop where
  | nil : Lined []
  | cons {l : Lexeme} {ls : List Lexeme} : isPlain l.kind = true →
      (l.kind.isTrivia = true → l.chars ≠ ['\uFEFF']) → Lined ls → Lined (l :: ls)
  | line {l : Lexeme} {ls : List Lexeme} : l.kind = newline → l.chars ≠ ['\uFEFF'] →
      wordsAmong ls = [] ∨ Parser.startsLine (wordsAmong ls) = true → Lined ls → Lined (l :: ls)

/-- Characters are cut into given words, with nothing but blanks and line ends between them. -/
structure Spells (cs : List Char) (ws : List Lexeme) : Prop where
  words : wordsAmong (cut cs) = ws
  lined : Lined (cut cs)

theorem Lined.tail {l : Lexeme} {ls : List Lexeme} (h : Lined (l :: ls)) : Lined ls := by
  cases h with
  | cons _ _ h => exact h
  | line _ _ _ h => exact h

theorem Lined.of_mem {l : Lexeme} {ls : List Lexeme} (h : Lined ls) (hl : l ∈ ls) :
    (l.kind = newline ∨ isPlain l.kind = true) ∧ (l.kind.isTrivia = true → l.chars ≠ ['\uFEFF']) := by
  induction h with
  | nil => cases hl
  | cons hplain hmark _ ih =>
    obtain rfl | hl := List.mem_cons.1 hl
    · exact ⟨.inr hplain, hmark⟩
    · exact ih hl
  | line hkind hmark _ _ ih =>
    obtain rfl | hl := List.mem_cons.1 hl
    · exact ⟨.inl hkind, fun _ => hmark⟩
    · exact ih hl

/-- Behind the end of a line there are no words, or those that a line may start with. -/
theorem Lined.behind {l : Lexeme} {ls : List Lexeme} (h : Lined ls) {i : Nat} (hl : ls[i]? = some l)
    (hkind : l.kind = newline) : wordsAmong (ls.drop (i + 1)) = [] ∨
      Parser.startsLine (wordsAmong (ls.drop (i + 1))) = true := by
  induction h generalizing i with
  | nil => cases hl
  | cons hplain _ _ ih =>
    cases i with
    | zero =>
      obtain rfl := Option.some.inj hl
      rw [hkind] at hplain
      cases hplain
    | succ i => exact ih hl
  | line _ _ hbehind _ ih =>
    cases i with
    | zero => exact hbehind
    | succ i => exact ih hl

theorem Spells.nil : Spells [] [] := by
  refine ⟨?_, ?_⟩ <;> rw [cut]
  · rfl
  · exact .nil

theorem cut_cons (hc : c ≠ '`') : cut (c :: rest) =
    ⟨(extent c rest).1, c :: rest.take (extent c rest).2⟩ :: cut (rest.drop (extent c rest).2) := by
  rw [cut, dif_neg hc]

/-- A lexeme in front that is no blank is a word. -/
theorem Spells.word {n : Nat} (hc : c ≠ '`') (hextent : extent c rest = (k, n))
    (hk : k.isTrivia = false ∧ isPlain k = true) (h : Spells (rest.drop n) ws) :
    Spells (c :: rest) (⟨k, c :: rest.take n⟩ :: ws) := by
  have hcut : cut (c :: rest) = ⟨k, c :: rest.take n⟩ :: cut (rest.drop n) := by
    rw [cut_cons hc, hextent]
  have hword : ¬k.isTrivia = true := by rw [hk.1]; exact Bool.false_ne_true
  refine ⟨?_, ?_⟩
  · rw [hcut, wordsAmong, List.filter_cons_of_pos (by simpa using hk.1)]
    exact congrArg _ h.words
  · rw [hcut]
    exact .cons hk.2 (fun htrivia => absurd htrivia hword) h.lined

/-- A run ends where the first other character stands. -/
theorem runLength_append {p : Char → Bool} (hcs : ∀ c ∈ cs, p c = true)
    (hrest : ∀ c ∈ rest.head?, p c = false) : runLength p (cs ++ rest) = cs.length := by
  rw [runLength, List.takeWhile_append_of_pos hcs, List.length_append]
  cases rest with
  | nil => rfl
  | cons d rest => simp [hrest d rfl]

theorem drop_runLength (p : Char → Bool) (cs : List Char) :
    cs.drop (runLength p cs) = cs.dropWhile p := by
  calc cs.drop (runLength p cs)
      = (cs.takeWhile p ++ cs.dropWhile p).drop (cs.takeWhile p).length := by
        rw [List.takeWhile_append_dropWhile]
        rfl
    _ = cs.dropWhile p := List.drop_left

/-- A blank in front takes all blanks behind it with it. -/
theorem cut_blank (hc : isInlineBlank c = true) (rest : List Char) :
    ∃ blank, blank.kind = whitespace ∧ blank.chars ≠ ['\uFEFF'] ∧
      cut (c :: rest) = blank :: cut (rest.dropWhile isInlineBlank) := by
  have hcases : c = ' ' ∨ c = '\t' ∨ c = Char.ofNat 0xb ∨ c = Char.ofNat 0xc := by
    simp only [isInlineBlank, Bool.or_eq_true, beq_iff_eq] at hc
    obtain ((hc | hc) | hc) | hc := hc
    · exact .inl hc
    · exact .inr (.inl hc)
    · exact .inr (.inr (.inl (by rw [← hc, Char.ofNat_toNat])))
    · exact .inr (.inr (.inr (by rw [← hc, Char.ofNat_toNat])))
  have hextent : c ≠ '`' ∧ extent c rest = (whitespace, runLength isInlineBlank rest) := by
    obtain rfl | rfl | rfl | rfl := hcases <;> exact ⟨by decide, rfl⟩
  have hmark : c ≠ '\uFEFF' := by
    obtain rfl | rfl | rfl | rfl := hcases <;> decide
  rw [cut_cons hextent.1, hextent.2, ← drop_runLength]
  exact ⟨_, rfl, fun h => hmark (List.cons.inj h).1, rfl⟩

/-- Blanks in front make no difference. -/
theorem Spells.dropWhile_blank (h : Spells cs ws) : Spells (cs.dropWhile isInlineBlank) ws := by
  cases cs with
  | nil => exact h
  | cons c rest =>
    cases hc : isInlineBlank c with
    | false => rwa [List.dropWhile_cons_of_neg (by simpa using hc)]
    | true =>
      obtain ⟨blank, hkind, -, hcut⟩ := cut_blank hc rest
      obtain ⟨hwords, hlined⟩ := h
      rw [hcut] at hwords hlined
      rw [wordsAmong, List.filter_cons_of_neg (by rw [hkind]; decide)] at hwords
      rw [List.dropWhile_cons_of_pos hc]
      exact ⟨hwords, hlined.tail⟩

theorem Spells.blank (h : Spells rest ws) : Spells (' ' :: rest) ws := by
  obtain ⟨blank, hkind, hmark, hcut⟩ := cut_blank (c := ' ') rfl rest
  obtain ⟨hwords, hlined⟩ := h.dropWhile_blank
  refine ⟨?_, ?_⟩
  · rw [hcut, wordsAmong, List.filter_cons_of_neg (by rw [hkind]; decide)]
    exact hwords
  · rw [hcut]
    exact .cons (by rw [hkind]; decide) (fun _ => hmark) hlined

/-- The two ways in which lines end. -/
def IsLineEnd (s : String) : Prop := s = "\n" ∨ s = "\r\n"

/-- A line ends where the next one may start, or behind all words. -/
theorem Spells.lineEnd (hs : IsLineEnd s) (hline : ws = [] ∨ Parser.startsLine ws = true)
    (h : Spells rest ws) : Spells (s.toList ++ rest) ws := by
  obtain ⟨l, hkind, hmark, hcut⟩ : ∃ l : Lexeme, l.kind = newline ∧ l.chars ≠ ['\uFEFF'] ∧
      cut (s.toList ++ rest) = l :: cut rest := by
    obtain rfl | rfl := hs
    · exact ⟨⟨newline, ['\n']⟩, rfl, by decide, cut_cons (c := '\n') (by decide)⟩
    · exact ⟨⟨newline, ['\r', '\n']⟩, rfl, by decide, cut_cons (c := '\r') (by decide)⟩
  refine ⟨?_, ?_⟩
  · rw [hcut, wordsAmong, List.filter_cons_of_neg (by rw [hkind]; decide)]
    exact h.words
  · rw [hcut]
    exact .line hkind hmark (by rwa [h.words]) h.lined

/-! ## Marks, names and strings -/

/-- A mark of one character. -/
theorem Spells.mark (hc : c ≠ '`') (hextent : extent c rest = (k, 0)) (hchars : k.markChars = [c])
    (hk : k.isTrivia = false ∧ isPlain k = true) (h : Spells rest ws) :
    Spells (c :: rest) (.mark k :: ws) := by
  have hword := Spells.word hc hextent hk (h : Spells (rest.drop 0) ws)
  rwa [List.take_zero, ← hchars] at hword

/-- The text is one name or reserved word. -/
def isWord (s : String) : Bool :=
  match s.toList with
  | [] => false
  | c :: cs => startsIdent c && cs.all continuesIdent

theorem isPlain_keyword {s : String} :
    ((Kind.keyword? s).getD ident).isTrivia = false ∧ isPlain ((Kind.keyword? s).getD ident) = true := by
  unfold Kind.keyword?
  split <;> decide

/-- A name or a reserved word, when what stands behind it does not go on with it. -/
theorem Spells.named (hs : isWord s = true) (hrest : ∀ c ∈ rest.head?, continuesIdent c = false)
    (h : Spells rest ws) : Spells (s.toList ++ rest) (.named s :: ws) := by
  unfold isWord at hs
  split at hs
  · cases hs
  rename_i c cs hchars
  obtain ⟨hstart, hcontinue⟩ := Bool.and_eq_true_iff.1 hs
  have hc : c ≠ '`' := by
    rintro rfl
    exact absurd hstart (by decide)
  have hrun : runLength continuesIdent (cs ++ rest) = cs.length :=
    runLength_append (List.all_eq_true.1 hcontinue) hrest
  have hextent : extent c (cs ++ rest) = ((Kind.keyword? s).getD ident, cs.length) := by
    unfold extent
    rw [if_pos hstart, hrun]
    dsimp only
    rw [List.take_left, ← hchars, String.ofList_toList]
  rw [hchars, List.cons_append]
  have hword := Spells.word hc hextent isPlain_keyword (by rwa [List.drop_left])
  rwa [List.take_left, ← hchars] at hword

/-! ## Strings -/

/-- A character stands for itself inside double quotes. -/
def isInside (c : Char) : Bool := c != '"' && c != '\\' && isInLine c

/-- Characters are passed over on the way to the closing quote. -/
def Passed (body : List Char) : Prop := ∀ rest, stringExtent '"' (body ++ rest) =
  ((stringExtent '"' rest).1 + body.length, (stringExtent '"' rest).2)

theorem Passed.append {more : List Char} (h : Passed body) (h' : Passed more) :
    Passed (body ++ more) := by
  intro rest
  rw [List.append_assoc, h, h', List.length_append]
  exact Prod.ext (by dsimp only; omega) rfl

theorem passed_nil : Passed [] := fun _ => rfl

theorem passed_inside (hc : isInside c = true) : Passed [c] := by
  intro rest
  simp only [isInside, Bool.and_eq_true, bne_iff_ne] at hc
  obtain ⟨⟨hquote, hslash⟩, hline⟩ := hc
  rw [List.singleton_append, stringExtent]
  · rw [if_neg (by simpa using hquote), if_pos hline]
    rfl
  · exact fun _ h => absurd h hslash
  · exact fun _ _ h => absurd h hslash

theorem passed_all (h : ∀ c ∈ cs, isInside c = true) : Passed cs := by
  induction cs with
  | nil => exact passed_nil
  | cons c cs ih =>
    obtain ⟨hc, hcs⟩ := List.forall_mem_cons.1 h
    exact (passed_inside hc).append (ih hcs)

/-- A backslash takes the next character with it. -/
theorem passed_escape (hc : c ≠ '\r') : Passed ['\\', c] := by
  intro rest
  rw [List.cons_append, List.singleton_append, stringExtent]
  · rfl
  · exact fun _ h => absurd h hc

theorem isInside_of_mem_hex4 (n : Nat) : ∀ c ∈ (Text.hex4 n).toList, isInside c = true := by
  intro c hc
  have hne (mark : Char) (hmark : mark.isAlphanum = false) : c ≠ mark :=
    (Text.hex_hex4 n).ne_of_mem hc hmark
  simp [isInside, isInLine, hne '"' rfl, hne '\\' rfl, hne '\n' rfl, hne '\r' rfl]

/-- A character as it is written between quotes. -/
theorem passed_quoteChar (c : Char) : Passed (Text.quoteChar c) := by
  unfold Text.quoteChar
  split
  · exact passed_escape (by decide)
  split
  · exact passed_escape (by decide)
  split
  · exact passed_escape (by decide)
  split
  · exact passed_escape (by decide)
  split
  · exact passed_escape (by decide)
  split
  · exact (passed_escape (c := 'u') (by decide)).append (passed_all (isInside_of_mem_hex4 _))
  · exact passed_inside (by simp_all [isInside, isInLine])

/-- Everything between the quotes is passed over. -/
theorem passed_flatMap (cs : List Char) : Passed (cs.flatMap Text.quoteChar) := by
  induction cs with
  | nil => exact passed_nil
  | cons c cs ih =>
    rw [List.flatMap_cons]
    exact (passed_quoteChar c).append ih

theorem quote_toList (s : String) :
    (Text.quote s).toList = '"' :: (s.toList.flatMap Text.quoteChar ++ ['"']) := by
  rw [Text.quote, String.toList_ofList, List.cons_append]

/-- A quoted text is cut off up to its closing quote, whatever stands behind it. -/
theorem cut_quote (s : String) (rest : List Char) :
    cut ((Text.quote s).toList ++ rest) = ⟨stringLiteral, (Text.quote s).toList⟩ :: cut rest := by
  have hclose : stringExtent '"' ('"' :: rest) = (1, true) := by
    rw [stringExtent]
    · rfl
    · exact fun _ h => absurd h (by decide)
    · exact fun _ _ h => absurd h (by decide)
  have hextent : extent '"' (s.toList.flatMap Text.quoteChar ++ ['"'] ++ rest) =
      (stringLiteral, (s.toList.flatMap Text.quoteChar ++ ['"']).length) := by
    show (let p := stringExtent '"' _; (if p.2 then stringLiteral else garbage, p.1)) = _
    rw [List.append_assoc, List.singleton_append, passed_flatMap, hclose, List.length_append]
    exact Prod.ext rfl (Nat.add_comm _ _)
  rw [quote_toList, List.cons_append, cut_cons (by decide), hextent, List.take_left, List.drop_left]

/-- A quoted text is one word. -/
theorem Spells.quote (s : String) (h : Spells rest ws) :
    Spells ((Text.quote s).toList ++ rest) (⟨stringLiteral, (Text.quote s).toList⟩ :: ws) := by
  refine ⟨?_, ?_⟩
  · rw [cut_quote, wordsAmong, List.filter_cons_of_pos rfl]
    exact congrArg _ h.words
  · rw [cut_quote]
    exact .cons rfl nofun h.lined

/-! ## Tokens -/

/-- Nothing is joined with a lexeme that is no garbage. -/
theorem joinGarbage_cons {l : Lexeme} (hl : l.kind ≠ garbage) (ls : List Lexeme) :
    joinGarbage (l :: ls) = l :: joinGarbage ls := by
  rw [joinGarbage]
  split
  · rename_i hkind _
    exact absurd hkind hl
  · rfl

/-- Without garbage there is none to join. -/
theorem joinGarbage_eq {ls : List Lexeme} (h : ∀ l ∈ ls, l.kind ≠ garbage) : joinGarbage ls = ls := by
  induction ls with
  | nil => rfl
  | cons l ls ih =>
    obtain ⟨hl, hls⟩ := List.forall_mem_cons.1 h
    rw [joinGarbage_cons hl, ih hls]

theorem wordsIn_place (start : Nat) (ls : List Lexeme) :
    wordsIn (place start ls) = wordsAmong ls := by
  induction ls generalizing start with
  | nil => rfl
  | cons l ls ih =>
    have hlexeme : (⟨l.kind, start, String.ofList l.chars⟩ : Token).lexeme = l := by
      rw [Token.lexeme, String.toList_ofList]
    rw [place, ← List.singleton_append, wordsIn_append, ih]
    cases ht : l.kind.isTrivia <;> simp [wordsIn, wordsAmong, ht, hlexeme]

/-- The token at a place is the lexeme there, and the words behind it are those behind the lexeme. -/
theorem lexeme_of_place {start i : Nat} {ls : List Lexeme} {t : Token}
    (h : (place start ls)[i]? = some t) : ls[i]? = some t.lexeme ∧
      wordsIn ((place start ls).drop (i + 1)) = wordsAmong (ls.drop (i + 1)) := by
  induction ls generalizing start i with
  | nil => cases h
  | cons l ls ih =>
    cases i with
    | zero =>
      obtain rfl := Option.some.inj h
      refine ⟨?_, wordsIn_place _ ls⟩
      rw [List.getElem?_cons_zero, Token.lexeme, String.toList_ofList]
    | succ i => exact ih h

/-- What is cut into words is no garbage. -/
theorem Spells.lexemes_eq (h : Spells cs ws) (hmark : ∀ c ∈ cs.head?, c ≠ '\uFEFF') :
    lexemes cs = cut cs := by
  unfold lexemes
  split
  · exact absurd rfl (hmark _ rfl)
  · refine joinGarbage_eq fun l hl hkind => ?_
    obtain ⟨hnewline | hplain, -⟩ := h.lined.of_mem hl
    · rw [hkind] at hnewline
      cases hnewline
    · rw [hkind] at hplain
      cases hplain

/-- The tokens of a text are its words, with blanks between them, and lines end where the next one may
start. -/
theorem Spells.lex (h : Spells s.toList ws) (hmark : ∀ c ∈ s.toList.head?, c ≠ '\uFEFF') :
    wordsIn (lex s) = ws ∧ ∀ i t, (lex s)[i]? = some t → Parser.breaksLine t = true →
      wordsIn ((lex s).drop (i + 1)) = [] ∨
        Parser.startsLine (wordsIn ((lex s).drop (i + 1))) = true := by
  rw [Token.lex, h.lexemes_eq hmark]
  refine ⟨(wordsIn_place 0 _).trans h.words, fun i t ht hbreaks => ?_⟩
  obtain ⟨hl, hwords⟩ := lexeme_of_place ht
  rw [hwords]
  refine h.lined.behind hl ?_
  obtain ⟨hnewline | hplain, -⟩ := h.lined.of_mem (List.mem_of_getElem? hl)
  · exact hnewline
  · simp only [isPlain, Bool.and_eq_true, bne_iff_ne, Bool.not_eq_true'] at hplain
    obtain ⟨⟨⟨-, hnewline⟩, hcomment⟩, -⟩ := hplain
    replace hnewline : t.kind ≠ newline := hnewline
    have hblock : t.kind ≠ blockComment := by
      intro hkind
      rw [Token.lexeme, hkind] at hcomment
      cases hcomment
    rw [Parser.breaksLine, beq_false_of_ne hnewline, beq_false_of_ne hblock] at hbreaks
    cases hbreaks

/-- No token of such a text is a comment, and no blank is a byte-order mark. -/
theorem Spells.of_mem_lex (h : Spells s.toList ws) (hmark : ∀ c ∈ s.toList.head?, c ≠ '\uFEFF')
    {t : Token} (ht : t ∈ Token.lex s) : t.kind.isComment = false ∧ t.kind ≠ shebang ∧
      (t.kind.isTrivia = true → t.text ≠ "\uFEFF") := by
  rw [Token.lex, h.lexemes_eq hmark] at ht
  obtain ⟨i, hi⟩ := List.getElem?_of_mem ht
  obtain ⟨hkind, hblank⟩ := h.lined.of_mem (List.mem_of_getElem? (lexeme_of_place hi).1)
  replace hblank : t.kind.isTrivia = true → t.text ≠ "\uFEFF" := fun htrivia htext =>
    hblank htrivia (congrArg String.toList htext)
  replace hkind : t.kind = newline ∨ isPlain t.kind = true := hkind
  obtain hkind | hkind := hkind
  · refine ⟨?_, ?_, hblank⟩ <;> rw [hkind] <;> decide
  · simp only [isPlain, Bool.and_eq_true, bne_iff_ne, Bool.not_eq_true'] at hkind
    exact ⟨hkind.1.2, hkind.2, hblank⟩

/-! ## Texts put together -/

/-- A text is cut into given words whatever stands behind it. -/
def Closed (s : String) (ws : List Lexeme) : Prop :=
  ∀ rest vs, Spells rest vs → Spells (s.toList ++ rest) (ws ++ vs)

/-- A text is cut into given words when what stands behind it does not go on with the last one. -/
def Writes (s : String) (ws : List Lexeme) : Prop :=
  ∀ rest vs, (∀ c ∈ rest.head?, continuesIdent c = false) → Spells rest vs →
    Spells (s.toList ++ rest) (ws ++ vs)

/-- The text starts with a character that goes on with no word. -/
def Delimits (s : String) : Prop := ∃ c cs, s.toList = c :: cs ∧ continuesIdent c = false

theorem Closed.writes (h : Closed s ws) : Writes s ws := fun rest vs _ hrest => h rest vs hrest

theorem Closed.append (h : Closed s ws) (h' : Closed t vs) : Closed (s ++ t) (ws ++ vs) := by
  intro rest us hrest
  rw [String.toList_append, List.append_assoc, List.append_assoc]
  exact h _ _ (h' rest us hrest)

theorem Closed.before (h : Closed s ws) (h' : Writes t vs) : Writes (s ++ t) (ws ++ vs) := by
  intro rest us hends hrest
  rw [String.toList_append, List.append_assoc, List.append_assoc]
  exact h _ _ (h' rest us hends hrest)

theorem Writes.before (h : Writes s ws) (h' : Closed t vs) (ht : Delimits t) :
    Closed (s ++ t) (ws ++ vs) := by
  intro rest us hrest
  obtain ⟨c, cs, hchars, hc⟩ := ht
  rw [String.toList_append, List.append_assoc, List.append_assoc]
  refine h _ _ (fun d hd => ?_) (h' rest us hrest)
  rw [hchars] at hd
  exact Option.mem_some.1 hd ▸ hc

end DeclKit.Token

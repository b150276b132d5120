/-
Literals and templates, written and read.

The writer of string literals, the rule by which the lexer finds the end of one, and the reader of
escapes are three definitions. A text that is written as a literal is cut off as one token, whatever
stands behind it, and the value of that token is the text.

A template is written as texts with names in between: a text with its escapes, a name in a dollar brace,
the next text, and so on between backticks. Whether a dollar sign is escaped is decided within one text,
by the character behind it. That is enough: what follows a text is a backtick or a dollar brace, so
that a dollar sign at its end opens nothing. Both scans of the lexer pass over every text and end every
substitution at its brace, so the template is cut into the pieces that it was written from, and each
piece stands for its text.
-/
import DeclKit.Proofs.Grammar.Cutting
import DeclKit.Proofs.Token.Lexer
import DeclKit.Tree.Node
import DeclKit.Typing.Denote
import DeclKit.Typing.Render
import Mathlib

set_option autoImplicit false

namespace DeclKit

/-! ## String literals -/

/-- The value of a literal is what is read between its first and its last character. -/
theorem literalValue_enclosed {a b : Char} (ha : a.utf8Size = 1) (hb : b.utf8Size = 1)
    (cs : List Char) :
    literalValue (String.ofList (a :: (cs ++ [b]))) = Text.unescape (String.ofList cs) := by
  have hfront : Text.bytes [a] = 1 := by simp [Text.bytes, ha]
  have hsize : (String.ofList (a :: (cs ++ [b]))).utf8ByteSize - 1 = 1 + Text.bytes cs := by
    rw [Text.utf8ByteSize_ofList]
    simp only [Text.bytes, Text.bytes_append, ha, hb]
    omega
  have hfirst : Text.isBoundary (String.ofList (a :: (cs ++ [b]))) 1 = true := by
    have hsplit := Token.isBoundary_append (String.ofList [a]) (String.ofList (cs ++ [b]))
    rwa [← String.ofList_append, Text.utf8ByteSize_ofList, hfront] at hsplit
  have hlast : Text.isBoundary (String.ofList (a :: (cs ++ [b]))) (1 + Text.bytes cs) = true := by
    have hsplit := Token.isBoundary_append (String.ofList (a :: cs)) (String.ofList [b])
    rwa [← String.ofList_append, Text.utf8ByteSize_ofList, Text.bytes, ha] at hsplit
  have hslice := Text.slice_append_mid [a] cs [b]
  rw [hfront] at hslice
  rw [literalValue, hsize]
  simp only [hfirst, hlast, Nat.le_add_right, decide_true, Bool.and_self, if_true]
  exact congrArg Text.unescape hslice

theorem literalValue_quote (s : String) : literalValue (Text.quote s) = s := by
  have hwritten : Text.quote s =
      String.ofList ('"' :: (s.toList.flatMap Text.quoteChar ++ ['"'])) := by
    rw [← Token.quote_toList, String.ofList_toList]
  have hread := Text.unescapeChars_quote s.toList []
  rw [Text.unescapeChars, List.append_nil, List.append_nil] at hread
  rw [hwritten, literalValue_enclosed (by decide) (by decide), Text.unescape,
    String.toList_ofList, hread, String.ofList_toList]

namespace Token

/-- A text that is written as a string literal is the first token of whatever it stands at the front of,
and the value of that token is the text. -/
theorem lex_quote (s rest : String) :
    (lex (Text.quote s ++ rest)).head? = some ⟨.stringLiteral, 0, Text.quote s⟩ ∧
      literalValue (Text.quote s) = s := by
  refine ⟨?_, literalValue_quote s⟩
  have hlexemes : lexemes ((Text.quote s).toList ++ rest.toList) =
      ⟨.stringLiteral, (Text.quote s).toList⟩ :: joinGarbage (cut rest.toList) := by
    unfold lexemes
    split
    · -- a literal does not start with a byte-order mark
      rename_i more hmark
      rw [quote_toList, List.cons_append] at hmark
      exact absurd (List.cons.inj hmark).1 (by decide)
    · rw [cut_quote, joinGarbage_cons (by simp)]
  rw [lex, String.toList_append, hlexemes, place, List.head?_cons, String.ofList_toList]

end Token

/-! ## Templates -/

namespace Text

variable {c : Char} {cs rest : List Char} {next : Option Char}

/-- One character of a template, in front of another one of the same text. -/
def templateChar (c : Char) (next : Option Char) : List Char :=
  if c == '`' then ['\\', '`']
  else if c == '\\' then ['\\', '\\']
  else if c == '$' && next == some '{' then ['\\', '$']
  else if c == '\n' then ['\\', 'n']
  else if c == '\r' then ['\\', 'r']
  else if c == '\t' then ['\\', 't']
  else if c.toNat < 0x20 then '\\' :: 'u' :: (hex4 c.toNat).toList
  else [c]

theorem escapeTemplateChars_cons (c : Char) (cs : List Char) :
    escapeTemplateChars (c :: cs) = templateChar c cs.head? ++ escapeTemplateChars cs := by
  have htick : Char.ofNat 96 = '`' := rfl
  rw [escapeTemplateChars, templateChar, htick]
  by_cases hc : c = '`'
  · simp [hc]
  · simp only [beq_iff_eq, hc, if_false]
    split_ifs <;> simp

/-- How a character of a template is written: with a backslash, or as itself where that opens nothing. -/
theorem templateChar_cases (c : Char) (next : Option Char) :
    (∃ e, templateChar c next = ['\\', e] ∧ simpleEscape e = [c] ∧ e ∈ ['`', '\\', '$', 'n', 'r', 't']) ∨
      (c.toNat < 0x20 ∧ templateChar c next = '\\' :: 'u' :: (hex4 c.toNat).toList) ∨
      (templateChar c next = [c] ∧ c ≠ '`' ∧ c ≠ '\\' ∧ (c = '$' → next ≠ some '{')) := by
  unfold templateChar
  by_cases htick : c = '`'
  · subst htick
    exact .inl ⟨'`', rfl, rfl, by decide⟩
  by_cases hslash : c = '\\'
  · subst hslash
    exact .inl ⟨'\\', rfl, rfl, by decide⟩
  by_cases hopen : c = '$' ∧ next = some '{'
  · obtain ⟨rfl, rfl⟩ := hopen
    exact .inl ⟨'$', rfl, rfl, by decide⟩
  by_cases hfeed : c = '\n'
  · subst hfeed
    exact .inl ⟨'n', rfl, rfl, by decide⟩
  by_cases hreturn : c = '\r'
  · subst hreturn
    exact .inl ⟨'r', rfl, rfl, by decide⟩
  by_cases htab : c = '\t'
  · subst htab
    exact .inl ⟨'t', rfl, rfl, by decide⟩
  right
  simp only [beq_iff_eq, Bool.and_eq_true, htick, hslash, hopen, hfeed, hreturn, htab, if_false]
  by_cases hlow : c.toNat < 0x20
  · exact .inl ⟨hlow, if_pos hlow⟩
  · exact .inr ⟨if_neg hlow, htick, hslash, fun hc hnext => hopen ⟨hc, hnext⟩⟩

theorem isWritten_templateChar (c : Char) (next : Option Char) :
    IsWritten c (templateChar c next) := by
  rcases templateChar_cases c next with ⟨e, hw, hstands, he⟩ | ⟨hlow, hw⟩ | ⟨hw, -, hslash, -⟩
  · have hmarks : ∀ e ∈ ['`', '\\', '$', 'n', 'r', 't'], e ≠ '\r' ∧ e ≠ 'x' ∧ e ≠ 'u' := by simp
    obtain ⟨hr, hx, hu⟩ := hmarks e he
    rw [hw]
    exact .letter hstands hr hx hu
  · rw [hw]
    exact isWritten_hex4 (by omega)
  · rw [hw]
    exact .plain hslash

/-- A text of a template is read back. -/
theorem unescapeChars_escapeTemplateChars (cs rest : List Char) :
    unescapeChars (escapeTemplateChars cs ++ rest) = cs ++ unescapeChars rest := by
  induction cs with
  | nil => rfl
  | cons c cs ih =>
    rw [escapeTemplateChars_cons, List.append_assoc, (isWritten_templateChar c _).read, ih,
      List.cons_append]

end Text

/-! ### Names -/

namespace Token

variable {c : Char} {cs rest : List Char}

/-- Only a word is an identifier. -/
theorem startsIdent_of_extent (h : (extent c cs).1 = .ident) :
    startsIdent c = true ∧ (extent c cs).2 = runLength continuesIdent cs := by
  by_cases hstart : startsIdent c = true
  · refine ⟨hstart, ?_⟩
    unfold extent
    rw [if_pos hstart]
  · exfalso
    unfold extent at h
    rw [if_neg hstart] at h
    split at h
    · cases h
    split at h
    · -- a number is a number literal, big or not
      dsimp only at h
      unfold numberExtent at h
      dsimp only at h
      split_ifs at h
    split at h
    · dsimp only at h
      split at h <;> cases h
    split at h
    case h_5 => split at h <;> cases h
    case h_9 => split at h <;> cases h
    case h_10 =>
      dsimp only at h
      unfold punctuation? at h
      split at h <;> cases h
    all_goals cases h

theorem eq_of_joinGarbage {l : Lexeme} {ls : List Lexeme} (hl : l.kind ≠ .garbage)
    (h : joinGarbage ls = [l]) : ls = [l] := by
  cases ls with
  | nil => cases h
  | cons m ls =>
    rw [joinGarbage] at h
    split at h
    · obtain rfl := (List.cons.inj h).1
      exact absurd rfl hl
    · obtain ⟨rfl, hnil⟩ := List.cons.inj h
      cases ls with
      | nil => rfl
      | cons n ls =>
        rw [joinGarbage] at hnil
        split at hnil <;> cases hnil

/-- A template is not cut into a single identifier. -/
theorem cut_tick_ne {w : List Char} : cut ('`' :: rest) ≠ [⟨.ident, w⟩] := by
  intro h
  rw [cut, dif_pos rfl] at h
  split at h
  · cases h
  · -- the last piece of it is no identifier
    rename_i stop hstop
    have hlast : ∀ l : Lexeme, l ∈ [(⟨.ident, w⟩ : Lexeme)] → l.kind = .ident := by simp
    rw [← h] at hlast
    have hkind := hlast _ (List.mem_append_right _ List.mem_cons_self)
    dsimp only at hkind
    split at hkind <;> cases hkind

/-- A text that is a single identifier is cut as one, and all of it goes on as identifiers do. -/
theorem cut_of_lex {name : String} {t : Token} (h : lex name = [t]) (ht : t.kind = .ident) :
    cut name.toList = [⟨.ident, name.toList⟩] ∧ ∀ c ∈ name.toList, continuesIdent c = true := by
  have hlexemes : ∃ w, lexemes name.toList = [⟨.ident, w⟩] := by
    rw [lex] at h
    cases hls : lexemes name.toList with
    | nil =>
      rw [hls] at h
      cases h
    | cons l ls =>
      rw [hls, place] at h
      obtain ⟨rfl, hnil⟩ := List.cons.inj h
      cases ls with
      | nil => exact ⟨l.chars, by rw [← ht]⟩
      | cons m ls => cases hnil
  obtain ⟨w, hw⟩ := hlexemes
  have hcut : cut name.toList = [⟨.ident, name.toList⟩] := by
    have hsingle : cut name.toList = [⟨.ident, w⟩] := by
      unfold lexemes at hw
      split at hw
      · cases (List.cons.inj hw).1
      · exact eq_of_joinGarbage (by simp) hw
    have hwhole := (cuts_cut name.toList).1
    rw [hsingle, List.flatMap_singleton] at hwhole
    rw [hsingle, ← hwhole]
  refine ⟨hcut, ?_⟩
  generalize name.toList = cs at hcut
  cases cs with
  | nil => simp
  | cons c rest =>
    have htick : c ≠ '`' := by
      rintro rfl
      exact cut_tick_ne hcut
    rw [cut_cons htick] at hcut
    obtain ⟨hkind, hchars⟩ := Lexeme.mk.inj (List.cons.inj hcut).1
    obtain ⟨hstart, hrun⟩ := startsIdent_of_extent hkind
    -- the run of characters that go on with the identifier is all that stands behind the first one
    have hall : rest.takeWhile continuesIdent = rest := by
      have htake := (List.cons.inj hchars).2
      rw [hrun, runLength] at htake
      rwa [← List.prefix_iff_eq_take.1 (List.takeWhile_prefix _)] at htake
    intro d hd
    rcases List.mem_cons.1 hd with rfl | hd
    · rw [continuesIdent, hstart, Bool.true_or]
    · exact List.takeWhile_eq_self_iff.1 hall d hd

end Token

/-! ### Scanning -/

namespace Template

open Text (encode encode_append encode_cons escapeTemplateChars)

variable {f d : Char} {cs w : List Char} {us : List UInt8}

/-- What a text is written as starts with a brace only if the text does. -/
theorem head?_escapeTemplateChars (hcs : cs.head? ≠ some '{') (hus : us.head? ≠ some (ascii '{')) :
    (encode (escapeTemplateChars cs) ++ us).head? ≠ some (ascii '{') := by
  cases cs with
  | nil => exact hus
  | cons c cs =>
    intro hhead
    rw [Text.escapeTemplateChars_cons] at hhead
    rcases Text.templateChar_cases c cs.head? with ⟨e, hw, -, -⟩ | ⟨-, hw⟩ | ⟨hw, -, -, -⟩
    · rw [hw] at hhead
      exact absurd (Text.eq_of_head?_encode (by decide) hhead) (by decide)
    · rw [hw] at hhead
      exact absurd (Text.eq_of_head?_encode (by decide) hhead) (by decide)
    · rw [hw] at hhead
      have hc := Text.eq_of_head?_encode (by decide) hhead
      exact hcs (congrArg some hc)

/-- A text is passed over as it is written, unless a brace follows. -/
theorem passes_escapeTemplateChars (cs : List Char) (hus : us.head? ≠ some (ascii '{')) :
    Passes (encode (escapeTemplateChars cs)) us := by
  induction cs with
  | nil => exact .nil
  | cons c cs ih =>
    rw [Text.escapeTemplateChars_cons, encode_append]
    refine Passes.append ?_ ih
    rcases Text.templateChar_cases c cs.head? with ⟨e, hw, -, he⟩ | ⟨-, hw⟩ | ⟨hw, htick, hslash, hopen⟩
    · have hbytes : ∀ e ∈ ['`', '\\', '$', 'n', 'r', 't'], encode ['\\', e] = [ascii '\\', ascii e] := by
        simp only [List.forall_mem_cons, List.not_mem_nil, false_imp_iff, implies_true, and_true]
        decide
      rw [hw, hbytes e he]
      exact .escape _ _
    · rw [hw]
      refine Passes.append (p := [ascii '\\', ascii 'u']) (.escape _ _) (.chars fun d hd => ?_)
      have hne (mark : Char) (hmark : mark.isAlphanum = false) : d ≠ mark :=
        (Text.hex_hex4 _).ne_of_mem hd hmark
      exact ⟨hne '\\' rfl, hne '`' rfl, hne '$' rfl⟩
    · rw [hw, encode_cons]
      refine Passes.append (.char hslash htick fun hc => ?_) .nil
      exact head?_escapeTemplateChars (hopen hc) hus

/-- A name is passed over on the way to the brace behind it. -/
theorem codeEnd?_name {i : Nat} (h : ∀ c ∈ cs, Token.continuesIdent c = true) (zs : List UInt8) :
    codeEnd? .code 0 i (encode cs ++ ascii '}' :: zs) = some (i + (encode cs).length) := by
  have hmarks : ∀ mark ∈ codeMarks, Token.continuesIdent mark = false := by
    simp only [codeMarks, List.forall_mem_cons, List.not_mem_nil, false_imp_iff, implies_true, and_true]
    decide
  rw [codeEnd?_chars, codeEnd?, if_neg (by decide), if_pos (by decide), Text.length_encode]
  exact fun c hc hmark => Bool.false_ne_true ((hmarks c hmark).symm.trans (h c hc))

/-! ### Cutting -/

/-- What stands behind a text of a template: names in dollar braces, each with the text behind it, and
the closing backtick. -/
def behind : List (String × String) → List Char
  | [] => ['`']
  | (name, text) :: more =>
    '$' :: '{' :: (name.toList ++ '}' :: (escapeTemplateChars text.toList ++ behind more))

/-- The text is cut as a single identifier, and goes on as identifiers do. -/
structure IsName (name : String) : Prop where
  cut : Token.cut name.toList = [⟨.ident, name.toList⟩]
  continues : ∀ c ∈ name.toList, Token.continuesIdent c = true

section Written

variable {more : List (String × String)} {name text : String} {stop start i : Nat}

theorem head?_behind (more : List (String × String)) :
    (encode (behind more)).head? ≠ some (ascii '{') := by
  cases more with
  | nil => decide
  | cons p more =>
    intro hhead
    rw [behind, ← List.append_nil (encode _)] at hhead
    exact absurd (Text.eq_of_head?_encode (by decide) hhead) (by decide)

/-- Both scans pass over the text that stands first. -/
theorem passes_front (cs : List Char) (more : List (String × String)) :
    Passes (encode (escapeTemplateChars cs)) (encode (behind more)) :=
  passes_escapeTemplateChars cs (head?_behind more)

theorem encode_behind_cons (name text : String) (more : List (String × String)) :
    encode (behind ((name, text) :: more)) = ascii '$' :: ascii '{' :: (encode name.toList ++
      ascii '}' :: encode (escapeTemplateChars text.toList ++ behind more)) := by
  rw [behind, encode_cons, encode_cons, encode_append, encode_cons]
  rfl

/-- The first scan ends at the closing backtick. -/
theorem bodyEnd?_behind (hnames : ∀ p ∈ more, IsName p.1) (cs : List Char) (i : Nat) :
    bodyEnd? i (encode (escapeTemplateChars cs ++ behind more)) =
      some (i + Text.bytes (escapeTemplateChars cs ++ behind more)) := by
  induction more generalizing cs i with
  | nil =>
    have htick : encode (behind []) = [ascii '`'] := rfl
    rw [encode_append, (passes_front cs []).body, htick, bodyEnd?, if_neg (by decide),
      if_pos (by decide), Text.length_encode, Text.bytes_append]
    rfl
  | cons p more ih =>
    obtain ⟨name, text⟩ := p
    obtain ⟨hname, hmore⟩ := List.forall_mem_cons.1 hnames
    have hbytes : Text.bytes (behind ((name, text) :: more)) =
        Text.bytes name.toList + 3 + Text.bytes (escapeTemplateChars text.toList ++ behind more) := by
      rw [← Text.length_encode, encode_behind_cons]
      simp only [List.length_cons, List.length_append, Text.length_encode]
      omega
    rw [encode_append, (passes_front cs _).body, encode_behind_cons,
      bodyEnd?_opened rfl fun zs => codeEnd?_name hname.continues zs, ih hmore,
      Text.bytes_append (escapeTemplateChars cs), hbytes]
    simp only [Text.length_encode]
    congr 1
    omega

/-- Behind the last text the second scan finds nothing. -/
theorem split_behind_nil (stop start i : Nat) (cs : List Char) :
    split stop start i (encode (escapeTemplateChars cs ++ behind [])) = ⟨[], start⟩ := by
  have htick : encode (behind []) = [ascii '`'] := rfl
  rw [encode_append, (passes_front cs []).pieces, htick, split, if_neg (by decide), if_neg (by decide),
    split]

/-- Behind any other text it finds the name, and goes on behind that. -/
theorem split_behind_cons (hname : IsName name) (stop start i : Nat) (cs : List Char) (text : String)
    (more : List (String × String)) {opened close : Nat}
    (hopened : opened = i + Text.bytes (escapeTemplateChars cs) + 2)
    (hclose : close = opened + Text.bytes name.toList) :
    split stop start i (encode (escapeTemplateChars cs ++ behind ((name, text) :: more))) =
      ⟨⟨start, opened, some close⟩ ::
        (split stop close (close + 1) (encode (escapeTemplateChars text.toList ++ behind more))).spans,
        (split stop close (close + 1)
          (encode (escapeTemplateChars text.toList ++ behind more))).last⟩ := by
  rw [encode_append, (passes_front cs _).pieces, encode_behind_cons, ← List.cons_append,
    split_opened rfl fun zs => codeEnd?_name hname.continues zs, Text.length_encode,
    Text.length_encode, ← hopened, ← hclose]

/-- So it finds a substitution exactly if one was written. -/
theorem isEmpty_spans_split (hnames : ∀ p ∈ more, IsName p.1) (stop start i : Nat) (cs : List Char) :
    (split stop start i (encode (escapeTemplateChars cs ++ behind more))).spans.isEmpty =
      more.isEmpty := by
  cases more with
  | nil =>
    rw [split_behind_nil]
    rfl
  | cons p more =>
    have hname := hnames p List.mem_cons_self
    rw [split_behind_cons hname _ _ _ _ _ _ rfl rfl]
    rfl

/-! ### Pieces -/

/-- The pieces of a template that is open in front of a text, and the names between them. Every piece has
the mark in front of its text with it, and the mark behind. -/
def parts (opening closing : Kind) (front : Char) (text : String) :
    List (String × String) → List Lexeme
  | [] => [⟨closing, front :: (escapeTemplateChars text.toList ++ ['`'])⟩]
  | (name, next) :: more =>
    ⟨opening, front :: (escapeTemplateChars text.toList ++ ['$', '{'])⟩ :: ⟨.ident, name.toList⟩ ::
      parts .templateMiddle .templateTail '}' next more

/-- The pieces that the second scan finds are those that were written, and what stands between them are
the names. -/
theorem lexemes_split {cs : List Char} (hnames : ∀ p ∈ more, IsName p.1) (pre : List Char)
    {front : Char} (hfront : front.utf8Size = 1) (text : String) (n : Nat) (closing : Kind)
    (hcs : cs = pre ++ front :: (escapeTemplateChars text.toList ++ behind more)) :
    (split (Text.bytes cs) (Text.bytes pre) (Text.bytes pre + 1)
      (encode (escapeTemplateChars text.toList ++ behind more))).lexemes cs (Text.bytes cs) n
        (if more.isEmpty then closing else .templateTail) =
      parts (if n == 0 then .templateHead else .templateMiddle) closing front text more := by
  induction more generalizing pre front text n closing with
  | nil =>
    have hmid := Text.between_append_mid pre (front :: (escapeTemplateChars text.toList ++ ['`'])) []
    rw [List.append_nil, ← Text.bytes_append] at hmid
    rw [split_behind_nil, hcs, behind, parts, Pieces.lexemes, List.zipIdx_nil, List.flatMap_nil]
    exact congrArg (fun w => [(⟨closing, w⟩ : Lexeme)]) hmid
  | cons p more ih =>
    obtain ⟨name, next⟩ := p
    obtain ⟨hname, hmore⟩ := List.forall_mem_cons.1 hnames
    -- the piece in front of the name ends where the name starts, and the next one where it ends
    generalize hpiece : front :: (escapeTemplateChars text.toList ++ ['$', '{']) = piece
    have hcs' : cs = pre ++ piece ++ name.toList ++
        '}' :: (escapeTemplateChars next.toList ++ behind more) := by
      rw [hcs, ← hpiece]
      simp [behind]
    have hopened : Text.bytes (pre ++ piece) =
        Text.bytes pre + 1 + Text.bytes (escapeTemplateChars text.toList) + 2 := by
      have hsizes : '$'.utf8Size = 1 ∧ '{'.utf8Size = 1 := by decide
      simp only [← hpiece, Text.bytes, Text.bytes_append, hfront]
      omega
    have hfirst : Text.between (Text.bytes pre) (Text.bytes (pre ++ piece)) cs = piece := by
      have hmid := Text.between_append_mid pre piece
        (name.toList ++ '}' :: (escapeTemplateChars next.toList ++ behind more))
      rwa [← Text.bytes_append, ← List.append_assoc, ← List.append_assoc, ← hcs'] at hmid
    have hsecond : Text.between (Text.bytes (pre ++ piece))
        (Text.bytes (pre ++ piece ++ name.toList)) cs = name.toList := by
      have hmid := Text.between_append_mid (pre ++ piece) name.toList
        ('}' :: (escapeTemplateChars next.toList ++ behind more))
      rwa [← Text.bytes_append, ← List.append_assoc, ← hcs'] at hmid
    have hrest := ih hmore (pre ++ piece ++ name.toList) rfl next (n + 1) .templateTail hcs'
    rw [ite_self] at hrest
    rw [split_behind_cons hname _ _ _ _ _ _ hopened (Text.bytes_append _ _), Pieces.lexemes_cons,
      Span.close, Option.getD_some, hfirst, hsecond, hname.cut, parts, hpiece]
    exact congrArg (fun ls => _ :: _ :: ls) hrest

end Written

end Template

/-! ### Reading -/

/-- A piece of a template stands for the text that it was written from. -/
theorem templateText_piece {front : Char} (hfront : front = '`' ∨ front = '}') (text : String)
    {back : List Char} (hback : back = ['`'] ∨ back = ['$', '{']) :
    Literal.templateText (String.ofList (front :: (Text.escapeTemplateChars text.toList ++ back))) =
      text := by
  have hbody : ((Text.stripStart? (String.ofList
        (front :: (Text.escapeTemplateChars text.toList ++ back))) "`").or
      (Text.stripStart? (String.ofList
        (front :: (Text.escapeTemplateChars text.toList ++ back))) "\x7d")) =
      some (String.ofList (Text.escapeTemplateChars text.toList) ++ String.ofList back) := by
    rw [← String.ofList_append]
    rcases hfront with rfl | rfl <;> simp [Text.stripStart?]
  have hread := Text.unescapeChars_escapeTemplateChars text.toList []
  rw [Text.unescapeChars, List.append_nil, List.append_nil] at hread
  have hraw : Literal.templateRaw (String.ofList
      (front :: (Text.escapeTemplateChars text.toList ++ back))) =
      String.ofList (Text.escapeTemplateChars text.toList) := by
    rw [Literal.templateRaw, hbody, Option.getD_some]
    rcases hback with rfl | rfl
    · have hnone : Text.stripSuffix? (String.ofList (Text.escapeTemplateChars text.toList) ++
          String.ofList ['`']) "$\x7b" = none :=
        Text.stripSuffix?_append_eq_none (by decide) (by decide)
      have hsome : Text.stripSuffix? (String.ofList (Text.escapeTemplateChars text.toList) ++
          String.ofList ['`']) "`" = some _ := Text.stripSuffix?_eq_some.2 rfl
      rw [hnone, hsome]
      rfl
    · have hsome : Text.stripSuffix? (String.ofList (Text.escapeTemplateChars text.toList) ++
          String.ofList ['$', '{']) "$\x7b" = some _ := Text.stripSuffix?_eq_some.2 rfl
      rw [hsome]
      rfl
  rw [Literal.templateText, hraw, Text.unescape, String.toList_ofList, hread, String.ofList_toList]

namespace Token

open Template (IsName behind parts)

variable {more : List (String × String)}

/-- A template is cut into the pieces that it was written from, with the names between them. -/
theorem cut_template (hnames : ∀ p ∈ more, IsName p.1) (text : String) :
    cut ('`' :: (Text.escapeTemplateChars text.toList ++ behind more)) =
      parts .templateHead .noSubstitutionTemplate '`' text more := by
  generalize hrest : Text.escapeTemplateChars text.toList ++ behind more = rest
  have hend : Template.bodyEnd? 1 (Text.encode rest) = some (Text.bytes ('`' :: rest)) := by
    rw [← hrest]
    exact Template.bodyEnd?_behind hnames text.toList 1
  have htake : (Text.encode rest).take (Text.bytes ('`' :: rest) - 1) = Text.encode rest := by
    have hsize : Text.bytes ('`' :: rest) - 1 = (Text.encode rest).length := by
      rw [Text.length_encode, Text.bytes]
      exact Nat.add_sub_cancel_left ..
    rw [hsize, List.take_length]
  have hdrop : Text.dropBytes (Text.bytes ('`' :: rest)) ('`' :: rest) = [] := by
    have h := Text.dropBytes_append ('`' :: rest) []
    rwa [List.append_nil] at h
  have htick : '`'.utf8Size = 1 := rfl
  have hparts := Template.lexemes_split hnames [] htick text 0 .noSubstitutionTemplate rfl
  rw [List.nil_append, hrest] at hparts
  have hempty : (Template.split (Text.bytes ('`' :: rest)) 0 1 (Text.encode rest)).spans.isEmpty =
      more.isEmpty := by
    rw [← hrest]
    exact Template.isEmpty_spans_split hnames _ _ _ _
  rw [cut_tick hend, htake, hdrop, cut, hempty, List.append_nil]
  exact hparts

/-! ### Tokens -/

/-- A token by what it stands for: a name by itself, and a piece of a template by the text that is
written in it. -/
def standsFor (t : Token) : Kind × String :=
  (t.kind, if t.kind = .ident then t.text else Literal.templateText t.text)

/-- The texts of a template by the kinds of their pieces, and the names between them. -/
def reading (opening closing : Kind) (text : String) : List (String × String) → List (Kind × String)
  | [] => [(closing, text)]
  | (name, next) :: more =>
    (opening, text) :: (.ident, name) :: reading .templateMiddle .templateTail next more

theorem map_standsFor_parts {opening closing : Kind} (hopening : opening ≠ .ident)
    (hclosing : closing ≠ .ident) {front : Char} (hfront : front = '`' ∨ front = '\x7d')
    (text : String) (more : List (String × String)) (start : Nat) :
    (place start (parts opening closing front text more)).map standsFor =
      reading opening closing text more := by
  induction more generalizing opening closing front text start with
  | nil =>
    rw [parts, place, place, List.map_singleton, standsFor, reading]
    dsimp only
    rw [if_neg hclosing, templateText_piece hfront text (.inl rfl)]
  | cons p more ih =>
    obtain ⟨name, next⟩ := p
    rw [parts, place, place, List.map_cons, List.map_cons, standsFor, standsFor, reading]
    dsimp only
    rw [if_neg hopening, templateText_piece hfront text (.inr rfl), if_pos rfl, String.ofList_toList,
      ih (by simp) (by simp) (.inr rfl)]

theorem garbage_not_mem_parts {opening closing : Kind} (hopening : opening ≠ .garbage)
    (hclosing : closing ≠ .garbage) (front : Char) (text : String) (more : List (String × String)) :
    ∀ l ∈ parts opening closing front text more, l.kind ≠ .garbage := by
  induction more generalizing opening closing front text with
  | nil =>
    intro l hl
    rw [parts, List.mem_singleton] at hl
    rw [hl]
    exact hclosing
  | cons p more ih =>
    rw [parts]
    exact List.forall_mem_cons.2 ⟨hopening, List.forall_mem_cons.2
      ⟨by simp, ih (by simp) (by simp) '\x7d' p.2⟩⟩

end Token

/-- A template as it is written: a text, and then names in dollar braces, each with the text behind
it. -/
def Template.written (text : String) (more : List (String × String)) : String :=
  "`" ++ Text.escapeTemplate text ++ String.join (more.map fun (name, next) =>
    "$\x7b" ++ name ++ "\x7d" ++ Text.escapeTemplate next) ++ "`"

theorem Template.toList_written (text : String) (more : List (String × String)) :
    (Template.written text more).toList =
      '`' :: (Text.escapeTemplateChars text.toList ++ Template.behind more) := by
  have hbehind : (String.join (more.map fun (name, next) =>
      "$\x7b" ++ name ++ "\x7d" ++ Text.escapeTemplate next)).toList ++ ['`'] =
        Template.behind more := by
    induction more with
    | nil => rfl
    | cons p more ih =>
      rw [Template.behind, ← ih, List.map_cons, String.join_cons]
      simp [Text.escapeTemplate]
  rw [← hbehind, Template.written]
  simp [Text.escapeTemplate]

namespace Token

open Template (IsName parts)

/-- A template that is written from texts, with names that are single identifiers between them, is cut
into nothing but its pieces and these names, and every piece stands for the text that it was written
from. -/
theorem lex_template (text : String) (more : List (String × String))
    (hnames : ∀ p ∈ more, ∃ t, lex p.1 = [t] ∧ t.kind = .ident) :
    (lex (Template.written text more)).map standsFor =
      reading .templateHead .noSubstitutionTemplate text more := by
  have hcut : ∀ p ∈ more, IsName p.1 := by
    intro p hp
    obtain ⟨t, hlex, ht⟩ := hnames p hp
    obtain ⟨hcut, hcontinues⟩ := cut_of_lex hlex ht
    exact ⟨hcut, hcontinues⟩
  have hlexemes : lexemes (Template.written text more).toList =
      parts .templateHead .noSubstitutionTemplate '`' text more := by
    rw [Template.toList_written]
    unfold lexemes
    split
    · rename_i hmark
      exact absurd (List.cons.inj hmark).1 (by decide)
    · rw [cut_template hcut,
        joinGarbage_eq (garbage_not_mem_parts (by simp) (by simp) '`' text more)]
  rw [lex, hlexemes]
  exact map_standsFor_parts (by simp) (by simp) (.inl rfl) text more 0

/-- Texts that end in a dollar sign, or start with a brace, are read back. -/
theorem lex_template_dollar :
    (∀ p ∈ [("x", "\x7b`\\"), ("y$", "$")], ∃ t, lex p.1 = [t] ∧ t.kind = .ident) ∧
      (lex (Template.written "a$" [("x", "\x7b`\\"), ("y$", "$")])).map standsFor =
        [(.templateHead, "a$"), (.ident, "x"), (.templateMiddle, "\x7b`\\"), (.ident, "y$"),
          (.templateTail, "$")] := by
  have hnames : ∀ p ∈ [("x", "\x7b`\\"), ("y$", "$")], ∃ t, lex p.1 = [t] ∧ t.kind = .ident := by
    simp only [List.forall_mem_cons, List.not_mem_nil, false_imp_iff, implies_true, and_true]
    exact ⟨⟨⟨.ident, 0, "x"⟩, by cbv, rfl⟩, ⟨⟨.ident, 0, "y$"⟩, by cbv, rfl⟩⟩
  exact ⟨hnames, lex_template "a$" _ hnames⟩

end Token

end DeclKit

/-
Words side by side.

When blanks are left out, words stand side by side, and at each place the lexer takes as much as it can.
Whether it takes more than the word shows in the characters behind it: a word goes on in letters
and digits, a number as `numberGoesOn` tells, and of the marks a point, an equals sign, a slash and a
number sign may be the beginning of something longer. Everything else ends by itself. So words side by side
are cut into the same words exactly if none of them goes on.
-/
import DeclKit.Proofs.Token.Number
import DeclKit.Proofs.Token.Substitution

set_option autoImplicit false

namespace DeclKit.Token

open Kind

variable {c : Char} {cs rest : List Char} {k : Kind} {l : Lexeme} {ls ws : List Lexeme} {n : Nat}

/-! ## What goes on -/

/-- The lexer takes more than the word, where `rest` stands behind it. -/
def absorbs (l : Lexeme) (rest : List Char) : Bool :=
  match l.kind with
  | numberLiteral => numberGoesOn l.chars rest
  | dot => rest.head?.any Char.isDigit || ['.', '.'].isPrefixOf rest
  | equals => rest.head? == some '>'
  | slash => rest.head? == some '/' || (rest.head? == some '*' && (blockExtent? rest.tail).isSome)
  | operator => l.chars == ['#'] && rest.head? == some '!'
  | k => k.isIdentifierLike && rest.head?.any continuesIdent

/-- Nothing goes on at the end of the text. -/
theorem absorbs_nil (l : Lexeme) : absorbs l [] = false := by
  unfold absorbs
  split
  · unfold numberGoesOn
    split
    · exact Bool.and_false _
    · by_cases hzero : l.chars = ['0']
      · rw [hzero]
        rfl
      · simp [hzero, exponentLength]
  · rfl
  · rfl
  · rfl
  · exact Bool.and_false _
  · exact Bool.and_false _

/-! ## Words -/

/-- The words that the lexer cuts off: identifiers and reserved words, numbers, the marks that may be the
beginning of something longer, and whatever ends by itself. -/
inductive Whole : Lexeme → Prop where
  | word {c : Char} {cs : List Char} : startsIdent c = true → (∀ d ∈ cs, continuesIdent d = true) →
      Whole ⟨(Kind.keyword? (String.ofList (c :: cs))).getD ident, c :: cs⟩
  | number {c : Char} {cs : List Char} : NumberText (c :: cs) → Whole ⟨numberLiteral, c :: cs⟩
  | dot : Whole ⟨.dot, ['.']⟩
  | equals : Whole ⟨.equals, ['=']⟩
  | slash : Whole ⟨.slash, ['/']⟩
  | hash : Whole ⟨operator, ['#']⟩
  | ended {l : Lexeme} : (∀ rest, absorbs l rest = false) →
      (∀ rest, cut (l.chars ++ rest) = l :: cut rest) → Whole l

theorem cut_of_extent (hc : c ≠ '`') (h : extent c (cs ++ rest) = (k, cs.length)) :
    cut (c :: cs ++ rest) = ⟨k, c :: cs⟩ :: cut rest := by
  rw [List.cons_append, cut_cons hc, h, List.take_left, List.drop_left]

theorem extent_of_cut (hc : c ≠ '`') (hrest : rest ≠ [])
    (h : (cut (c :: cs ++ rest)).head? = some ⟨k, c :: cs⟩) :
    extent c (cs ++ rest) = (k, cs.length) := by
  rw [List.cons_append, cut_cons hc] at h
  obtain ⟨hkind, hchars⟩ := Lexeme.mk.inj (Option.some.inj h)
  have hlength := congrArg List.length (List.cons.inj hchars).2
  have hpos := List.length_pos_iff.2 hrest
  rw [List.length_take, List.length_append] at hlength
  exact Prod.ext hkind (by dsimp only; omega)

/-- The word is cut off where it does not go on, and something else where it does. -/
structure Settled (l : Lexeme) (rest : List Char) : Prop where
  cut : absorbs l rest = false → cut (l.chars ++ rest) = l :: Token.cut rest
  other : absorbs l rest = true → (Token.cut (l.chars ++ rest)).head? ≠ some l

theorem Settled.of_extent (hc : c ≠ '`')
    (h : extent c (cs ++ rest) = (k, cs.length) ↔ absorbs ⟨k, c :: cs⟩ rest = false) :
    Settled ⟨k, c :: cs⟩ rest where
  cut hgoes := cut_of_extent hc (h.2 hgoes)
  other hgoes hhead := by
    have hrest : rest ≠ [] := by
      rintro rfl
      rw [absorbs_nil] at hgoes
      cases hgoes
    rw [h.1 (extent_of_cut hc hrest hhead)] at hgoes
    cases hgoes

theorem extent_word (hc : startsIdent c = true) (hcs : ∀ d ∈ cs, continuesIdent d = true)
    (rest : List Char) : extent c (cs ++ rest) =
      ((Kind.keyword? (String.ofList (c :: cs))).getD ident, cs.length) ↔
        rest.head?.any continuesIdent = false := by
  rw [← runLength_eq_zero]
  unfold extent
  rw [if_pos hc, runLength_behind hcs]
  constructor
  · intro h
    have hlength := (Prod.mk.inj h).2
    omega
  · intro h
    dsimp only
    rw [h, Nat.add_zero, List.take_left]

theorem absorbs_word (s : String) (cs rest : List Char) :
    absorbs ⟨(Kind.keyword? s).getD ident, cs⟩ rest = rest.head?.any continuesIdent := by
  unfold Kind.keyword?
  split <;> rfl

theorem head?_ne (h : ∀ more, cs = c :: more → False) : cs.head? ≠ some c := by
  intro hhead
  obtain ⟨more, hmore⟩ := List.head?_eq_some_iff.1 hhead
  exact h more hmore

/-- A point is the beginning of three points, or of a number. -/
theorem extent_dot (rest : List Char) :
    extent '.' rest = (dot, 0) ↔ absorbs ⟨dot, ['.']⟩ rest = false := by
  show _ ↔ (rest.head?.any Char.isDigit || ['.', '.'].isPrefixOf rest) = false
  unfold extent
  rw [if_neg (by decide), if_neg (by decide), if_neg (by decide), if_neg (by decide)]
  split
  case h_4 => simp
  case h_5 d more hdots _ =>
    split
    · rename_i hd
      simp [hd]
    · rename_i hd
      have hprefix : ¬['.', '.'] <+: d :: more := by
        rintro ⟨tail, heq⟩
        obtain ⟨hpoint, htail⟩ := List.cons.inj heq
        exact hdots tail hpoint.symm htail.symm
      rw [← List.isPrefixOf_iff_prefix, Bool.not_eq_true] at hprefix
      simp [hd, hprefix]
  case h_10 _ hdigit _ _ _ _ =>
    obtain rfl := List.head?_eq_none_iff.1 (Option.eq_none_iff_forall_ne_some.2 fun d =>
      head?_ne fun more => hdigit d more rfl)
    simp [punctuation?]
  all_goals contradiction

/-- An equals sign is the beginning of an arrow. -/
theorem extent_equals (rest : List Char) :
    extent '=' rest = (equals, 0) ↔ absorbs ⟨equals, ['=']⟩ rest = false := by
  show _ ↔ (rest.head? == some '>') = false
  unfold extent
  rw [if_neg (by decide), if_neg (by decide), if_neg (by decide), if_neg (by decide)]
  split
  case h_6 => simp
  case h_10 harrow _ _ _ =>
    simp [punctuation?, head?_ne fun more => harrow more rfl]
  all_goals contradiction

/-- A slash is the beginning of a comment. -/
theorem extent_slash (rest : List Char) :
    extent '/' rest = (slash, 0) ↔ absorbs ⟨slash, ['/']⟩ rest = false := by
  show _ ↔ (rest.head? == some '/' ||
    (rest.head? == some '*' && (blockExtent? rest.tail).isSome)) = false
  unfold extent
  rw [if_neg (by decide), if_neg (by decide), if_neg (by decide), if_neg (by decide)]
  split
  case h_8 => simp
  case h_9 more =>
    split
    · rename_i hblock
      simp [hblock]
    · rename_i hblock
      simp [hblock]
  case h_10 hline hblock =>
    simp [punctuation?, head?_ne fun more => hline more rfl, head?_ne fun more => hblock more rfl]
  all_goals contradiction

/-- A number sign is the beginning of a line that is skipped. -/
theorem extent_hash (rest : List Char) :
    extent '#' rest = (operator, 0) ↔ absorbs ⟨operator, ['#']⟩ rest = false := by
  show _ ↔ (rest.head? == some '!') = false
  unfold extent
  rw [if_neg (by decide), if_neg (by decide), if_neg (by decide), if_neg (by decide)]
  split
  case h_7 => simp
  case h_10 hshebang _ _ =>
    simp [punctuation?, head?_ne fun more => hshebang more rfl]
  all_goals contradiction

theorem Whole.settled (h : Whole l) (rest : List Char) : Settled l rest := by
  cases h with
  | word hc hcs =>
    refine .of_extent ?_ ?_
    · rintro rfl
      cases hc
    · rw [absorbs_word]
      exact extent_word hc hcs rest
  | number hnumber => exact .of_extent hnumber.ne_tick (hnumber.extent_iff rest)
  | dot => exact .of_extent (by decide) (extent_dot rest)
  | equals => exact .of_extent (by decide) (extent_equals rest)
  | slash => exact .of_extent (by decide) (extent_slash rest)
  | hash => exact .of_extent (by decide) (extent_hash rest)
  | ended hgoes hcut =>
    exact ⟨fun _ => hcut rest, fun h => by rw [hgoes] at h; cases h⟩

/-! ## Where words come from -/

/-- A mark that is the beginning of nothing longer ends by itself, and so do an arrow and three points. -/
theorem Whole.mark (hc : c ≠ '`') (hgoes : ∀ rest, absorbs ⟨k, c :: cs⟩ rest = false)
    (hextent : ∀ rest, extent c (cs ++ rest) = (k, cs.length)) : Whole ⟨k, c :: cs⟩ :=
  .ended hgoes fun rest => cut_of_extent hc (hextent rest)

theorem whole_punctuation (h : punctuation? c = some k) : Whole ⟨k, [c]⟩ := by
  unfold punctuation? at h
  split at h
  case h_13 => exact Option.some.inj h ▸ .dot
  case h_14 => exact Option.some.inj h ▸ .equals
  case h_20 => exact Option.some.inj h ▸ .slash
  case h_26 => exact Option.some.inj h ▸ .hash
  case h_27 => cases h
  all_goals exact Option.some.inj h ▸ .mark (by decide) (fun _ => rfl) fun _ => rfl

/-- A string that is closed is closed whatever stands behind it. -/
theorem stringExtent_take {quote : Char} (hquote : quote ≠ '\\')
    (h : stringExtent quote cs = (n, true)) :
    (cs.take n).length = n ∧ 0 < n ∧ ∀ rest, stringExtent quote (cs.take n ++ rest) = (n, true) := by
  fun_induction stringExtent quote cs generalizing n with
  | case1 => cases h
  | case2 rest m closed hrest ih =>
    obtain ⟨rfl, rfl⟩ := Prod.mk.inj h
    obtain ⟨hlength, -, hall⟩ := ih hrest
    refine ⟨by simp [hlength], Nat.succ_pos _, fun more => ?_⟩
    rw [List.take_succ_cons, List.take_succ_cons, List.take_succ_cons, List.cons_append,
      List.cons_append, List.cons_append, stringExtent, hall]
  | case3 d rest hline m closed hrest ih =>
    obtain ⟨rfl, rfl⟩ := Prod.mk.inj h
    obtain ⟨hlength, hpos, hall⟩ := ih hrest
    refine ⟨by simp [hlength], Nat.succ_pos _, fun more => ?_⟩
    rw [List.take_succ_cons, List.take_succ_cons, List.cons_append, List.cons_append, stringExtent, hall]
    -- the string goes on behind the character, with what has stood there
    intro tail hd htail
    obtain ⟨m, rfl⟩ := Nat.exists_eq_add_of_lt hpos
    cases rest with
    | nil => cases hrest
    | cons e rest =>
      rw [Nat.zero_add, List.take_succ_cons, List.cons_append] at htail
      exact hline rest hd (by rw [(List.cons.inj htail).1])
  | case4 c rest _ _ hc =>
    obtain ⟨rfl, -⟩ := Prod.mk.inj h
    have hback : c ≠ '\\' := fun hback => hquote (hback ▸ (beq_iff_eq.1 hc).symm)
    refine ⟨rfl, Nat.one_pos, fun more => ?_⟩
    rw [List.take_succ_cons, List.take_zero, List.singleton_append, stringExtent, if_pos hc]
    · exact fun _ hc _ => hback hc
    · exact fun _ _ hc _ => hback hc
  | case5 c rest _ hslashes hc hline m closed hrest ih =>
    obtain ⟨rfl, rfl⟩ := Prod.mk.inj h
    obtain ⟨hlength, hpos, hall⟩ := ih hrest
    have hback : c ≠ '\\' := by
      rintro rfl
      cases rest with
      | nil => cases hrest
      | cons d rest => exact hslashes d rest rfl rfl
    refine ⟨by simp [hlength], Nat.succ_pos _, fun more => ?_⟩
    rw [List.take_succ_cons, List.cons_append, stringExtent, if_neg hc, if_pos hline, hall]
    · exact fun _ hc _ => hback hc
    · exact fun _ _ hc _ => hback hc
  | case6 => cases h

theorem whole_string {quote : Char} (hquote : quote = '"' ∨ quote = '\'')
    (h : stringExtent quote cs = (n, true)) : Whole ⟨stringLiteral, quote :: cs.take n⟩ := by
  have hmark : quote ≠ '\\' ∧ quote ≠ '`' := by obtain rfl | rfl := hquote <;> decide
  obtain ⟨hlength, -, hclosed⟩ := stringExtent_take hmark.1 h
  refine .mark hmark.2 (fun _ => rfl) fun rest => ?_
  have hextent (cs : List Char) : extent quote cs =
      (if (stringExtent quote cs).2 then stringLiteral else garbage, (stringExtent quote cs).1) := by
    obtain rfl | rfl := hquote <;> rfl
  rw [hextent, hclosed, hlength]
  rfl

theorem whole_number (hc : c.isDigit = true) (cs : List Char) :
    Whole ⟨(extent c cs).1, c :: cs.take (extent c cs).2⟩ := by
  have hpos := numberExtent_pos hc cs
  rw [extent_digit hc]
  obtain ⟨n, hnumber, htext⟩ | ⟨n, hnumber, htext⟩ := numberText_take hc cs
  · rw [hnumber] at hpos ⊢
    rw [List.take_cons hpos] at htext
    exact .number htext
  · rw [hnumber] at hpos ⊢
    rw [List.take_cons hpos] at htext
    exact .mark (by rintro rfl; cases hc) (fun _ => rfl) htext.extent_eq

/-- What is cut off and is neither trivia nor garbage is a word. -/
theorem whole_extent (htrivia : (extent c cs).1.isTrivia = false)
    (hgarbage : (extent c cs).1 ≠ garbage) : Whole ⟨(extent c cs).1, c :: cs.take (extent c cs).2⟩ := by
  by_cases hdigit : c.isDigit = true
  · exact whole_number hdigit cs
  revert htrivia hgarbage
  unfold extent
  split
  · rename_i hc
    exact fun _ _ => .word hc fun d hd => of_mem_take_runLength hd
  split
  · exact fun htrivia _ => by cases htrivia
  split
  · rename_i hquote
    rw [Bool.or_eq_true, beq_iff_eq, beq_iff_eq] at hquote
    split
    rename_i n closed hstring
    cases closed with
    | false => exact fun _ hgarbage => absurd rfl hgarbage
    | true => exact fun _ _ => whole_string hquote hstring
  split
  case h_4 => exact fun _ _ => .mark (by decide) (fun _ => rfl) fun _ => rfl
  case h_5 d more _ _ =>
    split
    · rename_i hd
      intro _ _
      dsimp only
      rw [Nat.add_assoc, Nat.add_comm, List.take_succ_cons, List.take_add]
      exact .number (.point hd (forall_take_runLength _ _) (exponentText_take _))
    · exact fun _ _ => .dot
  case h_6 => exact fun _ _ => .mark (by decide) (fun _ => rfl) fun _ => rfl
  case h_9 =>
    split
    · exact fun htrivia _ => by cases htrivia
    · exact fun _ _ => .slash
  case h_10 =>
    intro _ hgarbage
    cases hmark : punctuation? c with
    | none =>
      rw [hmark] at hgarbage
      exact absurd rfl hgarbage
    | some k => exact whole_punctuation hmark
  all_goals exact fun htrivia _ => by cases htrivia

/-- A template without substitutions is one word. -/
theorem cut_template_plain {stop : Nat} (h : Template.bodyEnd? 1 (Text.encode cs) = some stop)
    (hspans : (Template.split stop 0 1 ((Text.encode cs).take (stop - 1))).spans = []) :
    cut ('`' :: cs) = ⟨noSubstitutionTemplate, Text.between 0 stop ('`' :: cs)⟩ ::
      cut (Text.dropBytes stop ('`' :: cs)) := by
  obtain ⟨hfit, -⟩ := Template.pieces_fit h
  have hcut := cut_tick h
  generalize Template.split stop 0 1 ((Text.encode cs).take (stop - 1)) = p at hspans hfit hcut
  obtain ⟨spans, last⟩ := p
  obtain rfl : spans = [] := hspans
  obtain rfl : last = 0 := hfit.1
  exact hcut

theorem whole_template {stop : Nat} (h : Template.bodyEnd? 1 (Text.encode cs) = some stop)
    (hspans : (Template.split stop 0 1 ((Text.encode cs).take (stop - 1))).spans = []) :
    Whole ⟨noSubstitutionTemplate, Text.between 0 stop ('`' :: cs)⟩ := by
  obtain ⟨xs, ys, hbytes, rfl, hscan⟩ := Template.bodyEnd?_ends h
  obtain ⟨us, c, vs, rfl, rfl, hc⟩ := Text.encode_ascii hbytes (by decide)
  -- the scan reads no further than the closing backtick, whatever stands behind it
  have hsize : 1 + (Text.encode us).length + 1 = Text.bytes ('`' :: (us ++ [c])) := by
    have hone : c.utf8Size = 1 := by
      rw [← String.length_utf8EncodeChar, hc]
      rfl
    rw [Text.length_encode, Text.bytes, Text.bytes_append, Text.bytes, hone]
    rfl
  have hgroup (rest : List Char) : '`' :: (us ++ c :: rest) = '`' :: (us ++ [c]) ++ rest := by simp
  have hbetween (rest : List Char) :
      Text.between 0 (1 + (Text.encode us).length + 1) ('`' :: (us ++ c :: rest)) =
        '`' :: (us ++ [c]) := by
    have hmid := Text.between_append_mid [] ('`' :: (us ++ [c])) rest
    rwa [List.nil_append, Text.bytes, Nat.zero_add, ← hsize, ← hgroup] at hmid
  have hencode (rest : List Char) : Text.encode (us ++ c :: rest) =
      Text.encode us ++ Template.ascii '`' :: Text.encode rest := by
    rw [Text.encode_append, Text.encode_cons, hc]
    rfl
  have htake (rest : List Char) :
      (Text.encode (us ++ c :: rest)).take (1 + (Text.encode us).length + 1 - 1) =
        Text.encode us ++ [Template.ascii '`'] := by
    rw [hencode, List.append_cons]
    exact List.take_left' (by rw [List.length_append, List.length_singleton]; omega)
  rw [hbetween]
  refine .ended (fun _ => rfl) fun rest => ?_
  have hend : Template.bodyEnd? 1 (Text.encode (us ++ c :: rest)) =
      some (1 + (Text.encode us).length + 1) := by
    rw [hencode, hscan]
  have hcut := cut_template_plain hend (by rw [htake, ← htake vs, hspans])
  rw [hbetween, hgroup, hsize, Text.dropBytes_append] at hcut
  exact hcut

/-- Every word of a text is one of these, but for garbage and the pieces of templates with
substitutions. -/
theorem everywhere_whole : Everywhere fun l => l.kind.isTrivia = false → l.kind ≠ garbage →
    isPiece l.kind = false → Whole l where
  other k cs hk _ hgarbage hpiece := by
    obtain rfl | rfl | rfl | rfl := hk
    · exact absurd rfl hgarbage
    all_goals cases hpiece
  template _ _ h hspans _ _ _ := whole_template h hspans
  front _ _ _ htrivia hgarbage _ := whole_extent htrivia hgarbage
  mark htrivia := by cases htrivia

/-! ## Side by side -/

/-- None of the words goes on in those behind it. -/
def apart : List Lexeme → Bool
  | [] => true
  | l :: ls => !absorbs l (ls.flatMap (·.chars)) && apart ls

/-- Words side by side are cut into these words exactly if none of them goes on. -/
theorem cut_eq_iff_apart (h : ∀ l ∈ ws, Whole l) :
    cut (ws.flatMap (·.chars)) = ws ↔ apart ws = true := by
  induction ws with
  | nil =>
    rw [List.flatMap_nil, cut]
    exact iff_of_true rfl rfl
  | cons l ls ih =>
    obtain ⟨hl, hls⟩ := List.forall_mem_cons.1 h
    have hsettled := hl.settled (ls.flatMap (·.chars))
    rw [List.flatMap_cons, apart, Bool.and_eq_true, Bool.not_eq_true', ← ih hls]
    constructor
    · intro hcut
      have hgoes : absorbs l (ls.flatMap (·.chars)) = false := by
        refine Bool.eq_false_iff.2 fun hgoes => hsettled.other hgoes ?_
        rw [hcut, List.head?_cons]
      rw [hsettled.cut hgoes] at hcut
      exact ⟨hgoes, (List.cons.inj hcut).2⟩
    · rintro ⟨hgoes, hcut⟩
      rw [hsettled.cut hgoes, hcut]

/-- Dotted names keep apart, a reserved word runs into the name behind it. -/
example : apart [⟨ident, ['a']⟩, ⟨.dot, ['.']⟩, ⟨ident, ['b']⟩] = true ∧
    apart [⟨kwNew, ['n', 'e', 'w']⟩, ⟨ident, ['a']⟩] = false := by
  decide

/-- Lexemes that are left out take characters with them. -/
theorem Cuts.filter_eq {p : Lexeme → Bool} (h : Cuts cs ls)
    (hsame : (ls.filter p).flatMap (·.chars) = cs) : ls.filter p = ls := by
  refine List.filter_eq_self.2 fun l hl => ?_
  by_contra hp
  obtain ⟨us, vs, rfl⟩ := List.append_of_mem hl
  have hless (ms : List Lexeme) :=
    ((List.filter_sublist (p := p) (l := ms)).flatMap (·.chars)).length_le
  have hus := hless us
  have hvs := hless vs
  have hpos := List.length_pos_iff.2 (h.2 l hl)
  have hlength := congrArg List.length (hsame.trans h.1.symm)
  rw [List.filter_append, List.filter_cons_of_neg hp] at hlength
  simp only [List.flatMap_append, List.flatMap_cons, List.length_append] at hlength
  omega

/-- A text that words make up side by side has these words exactly if none of them goes on and the first
does not start with a byte-order mark. -/
theorem lex_eq_iff_apart (h : ∀ l ∈ ws, Whole l ∧ l.kind.isTrivia = false ∧ l.kind ≠ garbage) :
    wordsIn (lex (String.ofList (ws.flatMap (·.chars)))) = ws ↔
      apart ws = true ∧ (ws.flatMap (·.chars)).head? ≠ some '\uFEFF' := by
  rw [← cut_eq_iff_apart fun l hl => (h l hl).1, lex, wordsIn_place, wordsAmong,
    String.toList_ofList]
  have hcuts := cuts_lexemes (ws.flatMap (·.chars))
  have hgarbage : ∀ l ∈ ws, l.kind ≠ garbage := fun l hl => (h l hl).2.2
  have htrivia : ws.filter (!·.kind.isTrivia) = ws :=
    List.filter_eq_self.2 fun l hl => by rw [(h l hl).2.1]; rfl
  constructor
  · intro hwords
    -- no trivia can be among the lexemes, since the words are the whole text
    have hall : lexemes (ws.flatMap (·.chars)) = ws :=
      (hcuts.filter_eq (by rw [hwords])).symm.trans hwords
    unfold lexemes at hall
    split at hall
    · have hblank := (h ⟨whitespace, ['\uFEFF']⟩ (hall ▸ List.mem_cons_self)).2.1
      cases hblank
    · rename_i hmark
      have hcut : joinGarbage (cut (ws.flatMap (·.chars))) = cut (ws.flatMap (·.chars)) :=
        joinGarbage_eq_self (by rw [hall]; exact hgarbage)
      refine ⟨hcut.symm.trans hall, fun hfirst => ?_⟩
      obtain ⟨more, hmore⟩ := List.head?_eq_some_iff.1 hfirst
      exact hmark more hmore
  · rintro ⟨hcut, hmark⟩
    have hlexemes : lexemes (ws.flatMap (·.chars)) = ws := by
      unfold lexemes
      split
      · rename_i hfirst
        exact absurd (congrArg List.head? hfirst) hmark
      · rw [hcut, joinGarbage_eq hgarbage]
    rw [hlexemes, htrivia]

end DeclKit.Token

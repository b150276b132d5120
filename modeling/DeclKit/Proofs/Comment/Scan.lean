/-
Reading trivia twice.

The locator of comments goes over the characters in front of a declaration on its own, without the
tokens that the lexer has cut them into. Where it reads a token as the lexer did, it goes on right behind
it, and it has found a comment when the token is one and a line end has come before. So over a gap of
such tokens it finds the comments among them, in their order.
-/
import DeclKit.Comment
import DeclKit.Proofs.Token.Lexer
import Mathlib.Data.String.Basic
import Mathlib.Tactic.SplitIfs

set_option autoImplicit false

namespace DeclKit

/-! ## The characters of trivia -/

namespace Token

/-- What the characters of a lexeme of a kind are, if it is trivia. The whole of a block comment is known
from its characters, whatever follows them. -/
def ShowsTrivia (k : Kind) (cs : List Char) : Prop :=
  match k with
  | .whitespace => (∀ c ∈ cs, isInlineBlank c = true) ∨ cs = ['\uFEFF']
  | .newline => cs = ['\n'] ∨ cs = ['\r'] ∨ cs = ['\r', '\n']
  | .lineComment => ∃ body, cs = '/' :: '/' :: body ∧ ∀ c ∈ body, isInLine c = true
  | .blockComment => ∃ body, cs = '/' :: '*' :: body ∧
      ∀ after, Comment.blockLength (body ++ after) = body.length
  | .shebang => ∃ body, cs = '#' :: '!' :: body ∧ ∀ c ∈ body, isInLine c = true
  | _ => True

theorem showsTrivia_of_not {k : Kind} (h : k.isTrivia = false) (cs : List Char) :
    ShowsTrivia k cs := by
  unfold ShowsTrivia
  split <;> trivial

/-- A word is no trivia, reserved or not. -/
theorem word_kind (s : String) : ((Kind.keyword? s).getD .ident).isTrivia = false := by
  unfold Kind.keyword?
  split <;> rfl

theorem take_runLength (p : Char → Bool) (cs : List Char) :
    cs.take (runLength p cs) = cs.takeWhile p :=
  (List.prefix_iff_eq_take.1 (List.takeWhile_prefix p)).symm

/-- A run of characters has the property that it is a run of. -/
theorem of_mem_take_runLength {p : Char → Bool} {cs : List Char} {c : Char}
    (hc : c ∈ cs.take (runLength p cs)) : p c = true := by
  rw [take_runLength] at hc
  exact List.all_eq_true.1 List.all_takeWhile c hc

/-- A block comment that is closed ends where the lexer has found its end. -/
theorem blockLength_of_blockExtent? {rest : List Char} {n : Nat} (h : blockExtent? rest = some n) :
    0 < n ∧ (rest.take n).length = n ∧ ∀ cs, Comment.blockLength (rest.take n ++ cs) = n := by
  induction rest using blockExtent?.induct generalizing n with
  | case1 => cases h
  | case2 rest =>
    obtain rfl := Option.some.inj h
    exact ⟨Nat.two_pos, rfl, fun cs => rfl⟩
  | case3 c rest hopen ih =>
    rw [blockExtent?] at h
    · obtain ⟨m, hm, rfl⟩ := Option.map_eq_some_iff.1 h
      obtain ⟨hpos, hlen, hblock⟩ := ih hm
      refine ⟨Nat.succ_pos m, by rw [List.take_succ_cons, List.length_cons, hlen], fun cs => ?_⟩
      rw [List.take_succ_cons, List.cons_append, Comment.blockLength, hblock]
      -- what follows the character here follows it in the text too
      intro tail hstar htail
      cases rest with
      | nil => cases hm
      | cons d rest =>
        rw [← Nat.sub_one_add_one (Nat.ne_of_gt hpos), List.take_succ_cons, List.cons_append] at htail
        obtain ⟨rfl, -⟩ := List.cons.inj htail
        exact hopen rest hstar rfl
    · exact hopen

theorem everywhere_showsTrivia : Everywhere fun l => ShowsTrivia l.kind l.chars where
  other k cs hk := by
    refine showsTrivia_of_not ?_ cs
    rcases hk with rfl | rfl | rfl | rfl <;> rfl
  template _ _ _ _ := showsTrivia_of_not rfl _
  mark := .inr rfl
  front c cs hc := by
    clear hc
    unfold extent
    split
    · exact showsTrivia_of_not (word_kind _) _
    split
    · rename_i hblank
      refine .inl fun d hd => ?_
      rcases List.mem_cons.1 hd with rfl | hd
      · exact hblank
      · exact of_mem_take_runLength hd
    split
    · exact showsTrivia_of_not (numberExtent_kind _).1 _
    split
    · refine showsTrivia_of_not ?_ _
      dsimp only
      split <;> rfl
    split
    · exact .inl rfl
    · exact .inr (.inr rfl)
    · exact .inr (.inl rfl)
    · exact showsTrivia_of_not rfl _
    · split <;> exact showsTrivia_of_not rfl _
    · exact showsTrivia_of_not rfl _
    · rename_i rest _ _ _ _
      refine ⟨rest.take (runLength isInLine rest), ?_, fun d hd => of_mem_take_runLength hd⟩
      rw [Nat.add_comm, List.take_succ_cons]
    · rename_i rest _ _ _ _
      refine ⟨rest.take (runLength isInLine rest), ?_, fun d hd => of_mem_take_runLength hd⟩
      rw [Nat.add_comm, List.take_succ_cons]
    · rename_i rest _ _ _ _
      split
      · rename_i n hn
        obtain ⟨-, hlen, hblock⟩ := blockLength_of_blockExtent? hn
        refine ⟨rest.take n, ?_, fun cs => by rw [hblock, hlen]⟩
        rw [Nat.add_comm, List.take_succ_cons]
      · exact showsTrivia_of_not rfl _
    · exact showsTrivia_of_not (punctuation_kind _).1 _

/-- The characters of a token that is trivia. -/
theorem showsTrivia_of_mem_lex {text : String} {t : Token} (ht : t ∈ lex text) :
    ShowsTrivia t.kind t.text.toList :=
  everywhere_showsTrivia.lex ht

/-- A text that starts with `#!` starts with that line. -/
theorem lex_shebang {text : String} {rest : List Char} (h : text.toList = '#' :: '!' :: rest) :
    ∃ t ts, lex text = t :: ts ∧ t.kind = .shebang := by
  have hextent : extent '#' ('!' :: rest) = (.shebang, 1 + runLength isInLine rest) := rfl
  have hcut : cut ('#' :: '!' :: rest) = ⟨.shebang, '#' :: ('!' :: rest).take (1 + runLength isInLine rest)⟩ ::
      cut (('!' :: rest).drop (1 + runLength isInLine rest)) := by
    rw [cut, dif_neg (by decide), hextent]
  rw [lex, h, lexemes, hcut]
  · rw [joinGarbage]
    exact ⟨_, _, rfl, rfl⟩
  · exact fun _ hmark => absurd (List.cons.inj hmark).1 (by decide)

end Token

namespace Comment

open Token (Tiles)

variable {pos : Nat} {leading : Bool} {found : List Comment} {body cs : List Char}

/-! ## Reading characters -/

theorem isSeparator_iff {c : Char} : isSeparator c = true ↔ c = '\u2028' ∨ c = '\u2029' := by
  rw [isSeparator, Bool.or_eq_true, beq_iff_eq, beq_iff_eq]
  exact or_congr (Char.toNat_inj (d := '\u2028')) (Char.toNat_inj (d := '\u2029'))

theorem isInlineBlank_iff {c : Char} :
    Token.isInlineBlank c = true ↔ c = ' ' ∨ c = '\t' ∨ c = '\x0b' ∨ c = '\x0c' := by
  simp only [Token.isInlineBlank, Bool.or_eq_true, beq_iff_eq, or_assoc]
  exact or_congr_right (or_congr_right
    (or_congr (Char.toNat_inj (d := '\x0b')) (Char.toNat_inj (d := '\x0c'))))

theorem endsLine_iff {c : Char} :
    endsLine c = true ↔ c = '\n' ∨ c = '\r' ∨ c = '\u2028' ∨ c = '\u2029' := by
  rw [endsLine, Bool.or_eq_true, Bool.or_eq_true, beq_iff_eq, beq_iff_eq, isSeparator_iff, or_assoc]

/-- A character that the locator passes over is blank. -/
theorem isBlank_of_passed {c : Char} (h : endsLine c = true ∨ Token.isInlineBlank c = true) :
    Text.isBlank c = true := by
  rw [endsLine_iff, isInlineBlank_iff] at h
  rcases h with (rfl | rfl | rfl | rfl) | (rfl | rfl | rfl | rfl) <;> cbv

/-- A character that opens no comment is passed over, or ends the scan. -/
theorem scan_char {c : Char} (hslash : c ≠ '/') :
    scan pos leading found (c :: cs) =
      if endsLine c then scan (pos + c.utf8Size) true (noteBreak found) cs
      else if c == ' ' || c == '\t' || c.toNat == 0xb || c.toNat == 0xc then
        scan (pos + c.utf8Size) leading found cs
      else if 0x80 ≤ c.toNat && Text.isBlank c then scan (pos + c.utf8Size) leading found cs
      else found := by
  rw [scan]
  · exact fun _ h => absurd h hslash
  · exact fun _ h => absurd h hslash

theorem scan_blank {c : Char} (hc : Token.isInlineBlank c = true) :
    scan pos leading found (c :: cs) = scan (pos + c.utf8Size) leading found cs := by
  have hends : endsLine c = false := by
    rcases isInlineBlank_iff.1 hc with rfl | rfl | rfl | rfl <;> decide
  have hslash : c ≠ '/' := by
    rintro rfl
    exact absurd hc (by decide)
  rw [scan_char hslash, hends, if_neg Bool.false_ne_true]
  exact if_pos hc

theorem scan_blanks (hbody : ∀ c ∈ body, Token.isInlineBlank c = true) :
    scan pos leading found (body ++ cs) = scan (pos + Text.bytes body) leading found cs := by
  induction body generalizing pos with
  | nil => rfl
  | cons c body ih =>
    rw [List.cons_append, scan_blank (hbody c List.mem_cons_self),
      ih fun d hd => hbody d (List.mem_cons_of_mem c hd), Text.bytes, Nat.add_assoc]

theorem scan_lineEnd {c : Char} (hc : endsLine c = true) :
    scan pos leading found (c :: cs) = scan (pos + c.utf8Size) true (noteBreak found) cs := by
  have hslash : c ≠ '/' := by
    rintro rfl
    exact absurd hc (by decide)
  rw [scan_char hslash, if_pos hc]

theorem bytes_opening {c : Char} (hc : c.utf8Size = 1) :
    Text.bytes ('/' :: c :: body) = 2 + Text.bytes body := by
  rw [Text.bytes, Text.bytes, hc, ← Nat.add_assoc]
  rfl

/-- A line with its end behind it. -/
theorem takeWhile_line (hbody : ∀ c ∈ body, endsLine c = false)
    (hcs : ∀ c, cs.head? = some c → endsLine c = true) :
    (body ++ cs).takeWhile (!endsLine ·) = body := by
  rw [List.takeWhile_append_of_pos fun c hc => by rw [hbody c hc]; rfl]
  cases cs with
  | nil => exact List.append_nil body
  | cons c cs =>
    rw [List.takeWhile_cons, hcs c rfl]
    exact List.append_nil body

theorem scan_line (hbody : ∀ c ∈ body, endsLine c = false)
    (hcs : ∀ c, cs.head? = some c → endsLine c = true) :
    scan pos leading found ('/' :: '/' :: (body ++ cs)) =
      let stop := pos + Text.bytes ('/' :: '/' :: body)
      scan stop leading (if leading then ⟨.line, pos, stop, false⟩ :: found else found) cs := by
  rw [scan, takeWhile_line hbody hcs, List.take_left' rfl, List.drop_left' rfl]
  rw [bytes_opening rfl, Nat.add_assoc]

theorem scan_block (hbody : blockLength (body ++ cs) = body.length) :
    scan pos leading found ('/' :: '*' :: (body ++ cs)) =
      let stop := pos + Text.bytes ('/' :: '*' :: body)
      scan stop leading (if leading then ⟨.block, pos, stop, false⟩ :: found else found) cs := by
  rw [scan, hbody, List.take_left' rfl, List.drop_left' rfl]
  rw [bytes_opening rfl, Nat.add_assoc]

theorem scan_stop {c : Char} (hslash : c ≠ '/') (hblank : Text.isBlank c = false) :
    scan pos leading found (c :: cs) = found := by
  rw [scan_char hslash, if_neg, if_neg, if_neg]
  · rw [hblank, Bool.and_false]
    exact Bool.false_ne_true
  · exact fun h => Bool.false_ne_true (hblank ▸ isBlank_of_passed (.inr h))
  · exact fun h => Bool.false_ne_true (hblank ▸ isBlank_of_passed (.inl h))

/-! ## Reading tokens -/

/-- Form and range of a comment. -/
def place (c : Comment) : CommentKind × Nat × Nat := (c.kind, c.start, c.stop)

/-- Form and range of a token that is a comment. -/
def placeOf (t : Token) : CommentKind × Nat × Nat :=
  (if t.kind == .lineComment then .line else .block, t.start, t.stop)

/-- The comments of a gap from where comments lead: from the front, or behind the first line end. -/
def leadingTokens (leading : Bool) (ts : List Token) : List Token :=
  (if leading then ts else ts.dropWhile (·.kind != .newline)).filter (·.kind.isComment)

/-- The characters of tokens that stand side by side. -/
def chars (ts : List Token) : List Char := ts.flatMap (·.text.toList)

/-- The locator reads a token of trivia as the lexer does, if the characters `after` follow. It does not
know of a byte-order mark, nor of a line that starts with `#!`, and to it a line ends at a separator and
nowhere but at a line end. -/
structure Legible (t : Token) (after : List Char) : Prop where
  shows : Token.ShowsTrivia t.kind t.text.toList
  isTrivia : t.kind.isTrivia = true
  unmarked : t.text ≠ "\uFEFF"
  not_shebang : t.kind ≠ .shebang
  line : t.kind = .lineComment → t.text.toList.any isSeparator = false ∧
    ∀ c, after.head? = some c → endsLine c = true

/-- The locator reads all tokens of a gap as the lexer does, if the characters `after` follow. -/
def LegibleAll : List Token → List Char → Prop
  | [], _ => True
  | t :: ts, after => Legible t (chars ts ++ after) ∧ LegibleAll ts after

theorem chars_append (ts us : List Token) : chars (ts ++ us) = chars ts ++ chars us :=
  List.flatMap_append

theorem toList_join_text (ts : List Token) : (String.join (ts.map Token.text)).toList = chars ts := by
  induction ts with
  | nil => rfl
  | cons t ts ih => rw [List.map_cons, String.join_cons, String.toList_append, ih, chars, chars,
      List.flatMap_cons]

/-- Tokens that lie side by side have as many bytes as they cover. -/
theorem stop_eq_bytes {a b : Nat} {ts : List Token} (h : Tiles a b ts) :
    b = a + Text.bytes (chars ts) := by
  rw [h.size_eq, ← toList_join_text, ← Text.utf8ByteSize_ofList, String.ofList_toList]

theorem map_place_noteBreak (found : List Comment) :
    (noteBreak found).map place = found.map place := by
  cases found <;> rfl

theorem stop_eq (t : Token) : t.stop = t.start + Text.bytes t.text.toList := by
  rw [Token.stop, ← Text.utf8ByteSize_ofList, String.ofList_toList]

/-- Within a line and without separators nothing ends it. -/
theorem endsLine_eq_false {c : Char} (hline : Token.isInLine c = true) (hsep : ¬isSeparator c = true) :
    endsLine c = false := by
  rw [Token.isInLine, Bool.and_eq_true, bne_iff_ne, bne_iff_ne] at hline
  rw [endsLine, Bool.eq_false_iff.2 hsep, beq_false_of_ne hline.1, beq_false_of_ne hline.2]
  rfl

theorem leadingTokens_cons (leading : Bool) (t : Token) (ts : List Token) :
    leadingTokens leading (t :: ts) =
      (if leading && t.kind.isComment then [t] else []) ++
        leadingTokens (leading || t.kind == .newline) ts := by
  unfold leadingTokens
  cases leading with
  | true => cases h : t.kind.isComment <;> simp [h]
  | false =>
    cases h : t.kind == .newline with
    | true =>
      have hkind := eq_of_beq h
      simp [hkind, Kind.isComment]
    | false => simp [bne, h]

/-- Over a line end the locator goes on with comments leading. -/
theorem scan_newline (h : body = ['\n'] ∨ body = ['\r'] ∨ body = ['\r', '\n']) :
    ∃ found', scan pos leading found (body ++ cs) = scan (pos + Text.bytes body) true found' cs ∧
      found'.map place = found.map place := by
  rcases h with rfl | rfl | rfl
  · exact ⟨_, scan_lineEnd rfl, map_place_noteBreak found⟩
  · exact ⟨_, scan_lineEnd rfl, map_place_noteBreak found⟩
  · refine ⟨noteBreak (noteBreak found), ?_, by rw [map_place_noteBreak, map_place_noteBreak]⟩
    exact (scan_lineEnd rfl).trans (scan_lineEnd rfl)

/-- What has been found behind a comment. -/
theorem map_place_found {t : Token} {kind : CommentKind} (hcomment : t.kind.isComment = true)
    (hplace : placeOf t = (kind, t.start, t.stop)) :
    (if leading then ⟨kind, t.start, t.stop, false⟩ :: found else found).map place =
      (if leading && t.kind.isComment then [placeOf t] else []) ++ found.map place := by
  rw [hcomment, hplace]
  cases leading <;> rfl

/-- Over a token that it reads as the lexer does the locator goes to its end, and finds it if it is a
comment that leads. -/
theorem scan_token {t : Token} {after : List Char} (h : Legible t after) (leading : Bool)
    (found : List Comment) :
    ∃ found', scan t.start leading found (t.text.toList ++ after) =
        scan t.stop (leading || t.kind == .newline) found' after ∧
      found'.map place =
        (if leading && t.kind.isComment then [placeOf t] else []) ++ found.map place := by
  have hshows := h.shows
  have htrivia := h.isTrivia
  have hstays (hne : t.kind ≠ .newline) : (leading || t.kind == .newline) = leading := by
    rw [beq_false_of_ne hne, Bool.or_false]
  have hplain (hno : t.kind.isComment = false) : (leading && t.kind.isComment) = false := by
    rw [hno, Bool.and_false]
  unfold Token.ShowsTrivia at hshows
  split at hshows
  case h_1 hk =>
    have hblank : ∀ c ∈ t.text.toList, Token.isInlineBlank c = true :=
      hshows.resolve_right fun hmark => h.unmarked (String.toList_inj.1 hmark)
    refine ⟨found, ?_, ?_⟩
    · rw [scan_blanks hblank, stop_eq, hstays (by rw [hk]; decide)]
    · rw [hplain (by rw [hk]; rfl)]
      rfl
  case h_2 hk =>
    obtain ⟨found', hscan, hplace⟩ := scan_newline hshows
    refine ⟨found', ?_, ?_⟩
    · rw [hscan, stop_eq, hk, beq_self_eq_true, Bool.or_true]
    · rw [hplace, hplain (by rw [hk]; rfl)]
      rfl
  case h_3 hk =>
    obtain ⟨body, hbody, hin⟩ := hshows
    obtain ⟨hsep, hafter⟩ := h.line hk
    have hends : ∀ c ∈ body, endsLine c = false := fun c hc => endsLine_eq_false (hin c hc)
      (List.any_eq_false.1 hsep c (hbody ▸ List.mem_cons_of_mem _ (List.mem_cons_of_mem _ hc)))
    refine ⟨if leading then ⟨.line, t.start, t.stop, false⟩ :: found else found, ?_,
      map_place_found (by rw [hk]; rfl) (by rw [placeOf, hk]; rfl)⟩
    rw [hbody, List.cons_append, List.cons_append, scan_line hends hafter, hstays (by rw [hk]; decide),
      stop_eq, hbody]
  case h_4 hk =>
    obtain ⟨body, hbody, hclosed⟩ := hshows
    refine ⟨if leading then ⟨.block, t.start, t.stop, false⟩ :: found else found, ?_,
      map_place_found (by rw [hk]; rfl) (by rw [placeOf, hk]; rfl)⟩
    rw [hbody, List.cons_append, List.cons_append, scan_block (hclosed after),
      hstays (by rw [hk]; decide), stop_eq, hbody]
  case h_5 hk => exact absurd hk h.not_shebang
  case h_6 =>
    -- no other kind is trivia
    unfold Kind.isTrivia at htrivia
    split at htrivia <;> contradiction

/-- Over a gap that it reads as the lexer does the locator finds the comments that lead. -/
theorem scan_tokens {a b : Nat} {ts : List Token} {after : List Char} (ht : Tiles a b ts)
    (h : LegibleAll ts after) (leading : Bool) (found : List Comment) :
    ∃ leading' found', scan a leading found (chars ts ++ after) = scan b leading' found' after ∧
      found'.map place = ((leadingTokens leading ts).map placeOf).reverse ++ found.map place := by
  induction ts generalizing a leading found with
  | nil =>
    obtain rfl : a = b := ht
    exact ⟨leading, found, rfl, by cases leading <;> rfl⟩
  | cons t ts ih =>
    obtain ⟨rfl, -, hts⟩ := ht
    obtain ⟨found1, hscan1, hplace1⟩ := scan_token h.1 leading found
    obtain ⟨leading2, found2, hscan2, hplace2⟩ := ih hts h.2 (leading || t.kind == .newline) found1
    refine ⟨leading2, found2, ?_, ?_⟩
    · rw [chars, List.flatMap_cons, List.append_assoc, ← chars, hscan1, hscan2]
    · rw [hplace2, hplace1, leadingTokens_cons, List.map_append, List.reverse_append, List.append_assoc]
      cases leading && t.kind.isComment <;> rfl

/-- What the locator finds in a gap, when what follows is neither blank nor a slash. -/
theorem scan_gap {a b : Nat} {ts : List Token} {c : Char} {after : List Char} (ht : Tiles a b ts)
    (h : LegibleAll ts (c :: after)) (hslash : c ≠ '/') (hblank : Text.isBlank c = false)
    (leading : Bool) :
    (scan a leading [] (chars ts ++ c :: after)).reverse.map place =
      (leadingTokens leading ts).map placeOf := by
  obtain ⟨leading', found, hscan, hplace⟩ := scan_tokens ht h leading []
  rw [hscan, scan_stop hslash hblank, List.map_reverse, hplace, List.map_nil, List.append_nil,
    List.reverse_reverse]

/-! ## Where the locator starts -/

/-- The part of a text behind its first characters. -/
theorem slice_append (us cs : List Char) :
    Text.slice (String.ofList (us ++ cs)) (Text.bytes us) (String.ofList (us ++ cs)).utf8ByteSize =
      String.ofList cs := by
  have hmid := Text.slice_append_mid us cs []
  rwa [List.append_nil, ← Text.bytes_append, ← Text.utf8ByteSize_ofList (us ++ cs)] at hmid

/-- How many characters are passed over before the scan starts. -/
def passed (start : Nat) (cs : List Char) : Nat :=
  match start, cs with
  | 0, '#' :: '!' :: _ => (cs.takeWhile (!endsLine ·)).length
  | _, _ => 0

theorem leading_of_split {text : String} (us : List Char) (htext : text.toList = us ++ cs) :
    Comment.leading text (Text.bytes us) =
      (scan (Text.bytes us + Text.bytes (cs.take (passed (Text.bytes us) cs))) (Text.bytes us == 0) []
        (cs.drop (passed (Text.bytes us) cs))).reverse := by
  obtain rfl : text = String.ofList (us ++ cs) := by rw [← htext, String.ofList_toList]
  have hmin : min (Text.bytes us) (String.ofList (us ++ cs)).utf8ByteSize = Text.bytes us := by
    rw [Text.utf8ByteSize_ofList, Text.bytes_append]
    exact Nat.min_eq_left (Nat.le_add_right _ _)
  rw [Comment.leading]
  simp only [hmin, slice_append, String.toList_ofList]
  rfl

/-- The scan starts at once, unless a line that starts the file with `#!` is passed over. -/
theorem leading_eq {text : String} {us : List Char} (htext : text.toList = us ++ cs)
    (hhash : us = [] → ∀ rest, cs ≠ '#' :: '!' :: rest) :
    Comment.leading text (Text.bytes us) =
      (scan (Text.bytes us) (Text.bytes us == 0) [] cs).reverse := by
  have hpassed : passed (Text.bytes us) cs = 0 := by
    unfold passed
    split
    · rename_i rest hzero
      refine absurd rfl (hhash ?_ rest)
      exact Decidable.byContradiction fun hne => Nat.ne_of_gt (Text.bytes_pos hne) hzero
    · rfl
  rw [leading_of_split us htext, hpassed, List.take_zero, List.drop_zero]
  rfl

/-- A line that starts a file with `#!` is passed over up to its end. -/
theorem leading_shebang {text : String} (htext : text.toList = '#' :: '!' :: (body ++ cs))
    (hbody : ∀ c ∈ body, endsLine c = false) (hcs : ∀ c, cs.head? = some c → endsLine c = true) :
    Comment.leading text 0 = (scan (Text.bytes ('#' :: '!' :: body)) true [] cs).reverse := by
  have hpassed : passed 0 ('#' :: '!' :: (body ++ cs)) = ('#' :: '!' :: body).length := by
    have htake := takeWhile_line hbody hcs
    rw [passed, List.takeWhile_cons_of_pos rfl, List.takeWhile_cons_of_pos rfl, htake]
  have hsplit := leading_of_split [] htext
  rw [Text.bytes, hpassed, ← List.cons_append, ← List.cons_append, List.take_left' rfl,
    List.drop_left' rfl, Nat.zero_add] at hsplit
  exact hsplit

end Comment

end DeclKit

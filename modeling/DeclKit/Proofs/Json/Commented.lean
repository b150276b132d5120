/-
JSON with comments, cleaned.

A stretch that is blanked out starts and ends between characters, because the scan begins and ends one
next to an ASCII byte only. So the cleaned bytes are those of a text again, whatever the text, and the
bytes of line ends are where they were.

Which stretches there are is read off the pieces of a text: blanks, strings, comments, commas and other
characters. The scan goes over a whole piece at a time, with the last comma in mind, and a comma goes
exactly when the first piece behind it that is neither blank nor comment is a closing bracket.
-/
import DeclKit.Json.Commented
import DeclKit.Proofs.Text.Offset

set_option autoImplicit false

namespace DeclKit.Json

open Text (Splits bytes bytes_append encode encode_append encode_cons encode_cons_ascii length_encode
  not_mem_encode not_mem_of_utf8EncodeChar not_mem_utf8EncodeChar splits_append utf8ByteSize_eq_bytes)

variable {cs us vs ms : List Char} {bs p : List UInt8} {b : UInt8} {c : Char} {i n : Nat}
  {comma : Option Nat} {inside : Inside} {r : Stretch}

/-! ## Blanking out a part of a text -/

/-- Characters with a space for each of their bytes, line ends apart. -/
def blanked (cs : List Char) : List Char :=
  cs.flatMap fun c => if c == '\n' || c == '\r' then [c] else List.replicate c.utf8Size ' '

theorem bytes_replicate_space (n : Nat) : bytes (List.replicate n ' ') = n := by
  induction n with
  | zero => rfl
  | succ n ih =>
    rw [List.replicate_succ, bytes, ih, show (' ' : Char).utf8Size = 1 from rfl, Nat.add_comm]

theorem encode_replicate_space (n : Nat) :
    encode (List.replicate n ' ') = List.replicate n ' '.toUInt8 := by
  induction n with
  | zero => rfl
  | succ n ih => rw [List.replicate_succ, encode_cons, ih, List.replicate_succ]; rfl

theorem bytes_blanked (cs : List Char) : bytes (blanked cs) = bytes cs := by
  induction cs with
  | nil => rfl
  | cons c cs ih =>
    rw [blanked, List.flatMap_cons, bytes_append, ← blanked, ih, bytes]
    split
    · rfl
    · rw [bytes_replicate_space]

/-- No byte of a character that ends no line is a line end. -/
theorem isLineEnd_of_mem (h : (c == '\n' || c == '\r') = false)
    (hb : b ∈ String.utf8EncodeChar c) : isLineEnd b = false := by
  rw [Bool.or_eq_false_iff] at h
  rw [isLineEnd, Bool.or_eq_false_iff, beq_eq_false_iff_ne, beq_eq_false_iff_ne]
  constructor
  · rintro rfl
    exact beq_eq_false_iff_ne.1 h.1 (Text.eq_of_toUInt8_mem (by decide) hb)
  · rintro rfl
    exact beq_eq_false_iff_ne.1 h.2 (Text.eq_of_toUInt8_mem (by decide) hb)

theorem encode_blanked (cs : List Char) :
    encode (blanked cs) = (encode cs).map fun b => if isLineEnd b then b else ' '.toUInt8 := by
  induction cs with
  | nil => rfl
  | cons c cs ih =>
    rw [blanked, List.flatMap_cons, encode_append, ← blanked, ih, encode_cons, List.map_append]
    congr 1
    split
    · rename_i h
      rcases Bool.or_eq_true_iff.1 h with h | h
      · rw [eq_of_beq h]; rfl
      · rw [eq_of_beq h]; rfl
    · rename_i h
      have hspaces : ∀ b ∈ String.utf8EncodeChar c,
          (if isLineEnd b then b else ' '.toUInt8) = ' '.toUInt8 := fun b hb => by
        rw [isLineEnd_of_mem (by simpa using h) hb]
        rfl
      rw [encode_replicate_space, List.map_congr_left hspaces, List.map_const',
        String.length_utf8EncodeChar]

/-- Only the bytes between the two ends of a stretch are blanked out. -/
theorem blankOut_append (xs ys zs : List UInt8) :
    blankOut (xs ++ (ys ++ zs)) ⟨xs.length, xs.length + ys.length⟩ =
      xs ++ ((ys.map fun b => if isLineEnd b then b else ' '.toUInt8) ++ zs) := by
  refine List.ext_getElem? fun n => ?_
  rw [blankOut, List.getElem?_mapIdx]
  rcases Nat.lt_or_ge n xs.length with hn | hn
  · rw [List.getElem?_append_left hn, List.getElem?_append_left hn]
    simp [Nat.not_le.2 hn]
  · rw [List.getElem?_append_right hn, List.getElem?_append_right hn]
    rcases Nat.lt_or_ge (n - xs.length) ys.length with hm | hm
    · rw [List.getElem?_append_left hm, List.getElem?_append_left (by simpa using hm),
        List.getElem?_map]
      refine congrArg (Option.map · _) (funext fun b => ?_)
      have hlt : n < xs.length + ys.length := by omega
      cases isLineEnd b <;> simp [hn, hlt]
    · rw [List.getElem?_append_right hm, List.getElem?_append_right (by simpa using hm),
        List.length_map]
      have hge : ¬n < xs.length + ys.length := by omega
      simp [hge]

/-- Blanking out whole characters leaves characters. -/
theorem blankOut_encode (us ms vs : List Char) :
    blankOut (encode (us ++ (ms ++ vs))) ⟨bytes us, bytes us + bytes ms⟩ =
      encode (us ++ (blanked ms ++ vs)) := by
  rw [encode_append, encode_append, ← length_encode us, ← length_encode ms, blankOut_append,
    encode_append, encode_append, encode_blanked]

theorem length_blankOut (bs : List UInt8) (r : Stretch) : (blankOut bs r).length = bs.length :=
  List.length_mapIdx

/-- Line ends stay, and none is made. -/
theorem getElem?_blankOut_eq_lineEnd (hb : isLineEnd b = true) :
    (blankOut bs r)[n]? = some b ↔ bs[n]? = some b := by
  have hspace : ' '.toUInt8 ≠ b := by
    rintro rfl
    exact absurd hb (by decide)
  rw [blankOut, List.getElem?_mapIdx]
  cases bs[n]? with
  | none => simp
  | some x =>
    rw [Option.map_some, Option.some_inj, Option.some_inj]
    split
    · rename_i h
      have hx : isLineEnd x = false := by
        simp only [Bool.and_eq_true, Bool.not_eq_true'] at h
        exact h.2
      refine ⟨fun h => absurd h hspace, ?_⟩
      rintro rfl
      exact absurd hb (by simp [hx])
    · rfl

theorem length_foldl_blankOut (rs : List Stretch) (bs : List UInt8) :
    (rs.foldl blankOut bs).length = bs.length := by
  induction rs generalizing bs with
  | nil => rfl
  | cons r rs ih => rw [List.foldl_cons, ih, length_blankOut]

theorem getElem?_foldl_blankOut_eq_lineEnd (hb : isLineEnd b = true) (rs : List Stretch)
    (bs : List UInt8) : (rs.foldl blankOut bs)[n]? = some b ↔ bs[n]? = some b := by
  induction rs generalizing bs with
  | nil => exact Iff.rfl
  | cons r rs ih => rw [List.foldl_cons, ih, getElem?_blankOut_eq_lineEnd hb]

/-! ## The ends of the stretches -/

/-- Blanking out a part keeps the offsets between characters. -/
theorem splits_blanked (h : Splits (us ++ (ms ++ vs)) n) : Splits (us ++ (blanked ms ++ vs)) n := by
  simp only [splits_append] at h ⊢
  rcases h with h | ⟨m, ⟨xs, ys, rfl, rfl⟩ | ⟨k, hk, rfl⟩, rfl⟩
  · exact .inl h
  · refine .inr ⟨_, .inl ⟨blanked xs, blanked ys, List.flatMap_append, bytes_blanked xs⟩, rfl⟩
  · exact .inr ⟨_, .inr ⟨k, hk, rfl⟩, by rw [bytes_blanked]⟩

/-- Next to an ASCII byte there are offsets between characters on both sides. -/
theorem splits_of_drop (h : (encode cs).drop i = b :: bs) (hb : b < 0x80) :
    Splits cs i ∧ Splits cs (i + 1) := by
  have hsome : ((encode cs).drop i).head? = some b := by rw [h]; rfl
  have hlt : i < (encode cs).length := by
    rw [List.head?_drop] at hsome
    exact (List.getElem?_eq_some_iff.1 hsome).1
  have hparts : encode cs = (encode cs).take i ++ b :: bs := by rw [← h, List.take_append_drop]
  have hsplits := Text.splits_of_ascii hparts hb
  rwa [List.length_take_of_le (Nat.le_of_lt hlt)] at hsplits

theorem lt_of_drop (h : (encode cs).drop i = b :: bs) : i < bytes cs := by
  rw [← length_encode, ← Nat.not_le]
  intro hle
  rw [List.drop_of_length_le hle] at h
  cases h

/-- The bytes behind the next one, and behind the one after it. -/
theorem drop_of_drop (h : (encode cs).drop i = b :: bs) :
    (encode cs).drop (i + 1) = bs ∧ (encode cs).drop (i + 2) = bs.drop 1 := by
  rw [← List.drop_drop, ← List.drop_drop, h]
  exact ⟨rfl, rfl⟩

/-- A comment that is being scanned started between characters. -/
def Inside.Begun (cs : List Char) (i : Nat) : Inside → Prop
  | .values | .string => True
  | .line start | .block start => Splits cs start ∧ i ≤ bytes cs

/-- Every stretch starts and stops between characters. -/
theorem splits_of_mem_stretches (hrest : (encode cs).drop i = bs)
    (hcomma : ∀ k, comma = some k → Splits cs k ∧ Splits cs (k + 1)) (hbegun : inside.Begun cs i) :
    ∀ r ∈ stretches inside comma i bs, Splits cs r.start ∧ Splits cs r.stop := by
  have hnone : ∀ k, none = some k → Splits cs k ∧ Splits cs (k + 1) := fun k hk => nomatch hk
  have hend {start i : Nat} (h : (encode cs).drop i = []) (hbegun : Splits cs start ∧ i ≤ bytes cs) :
      ∀ r ∈ [(⟨start, i⟩ : Stretch)], Splits cs r.start ∧ Splits cs r.stop := by
    have hi : i = bytes cs := by
      have := List.drop_eq_nil_iff.1 h
      rw [length_encode] at this
      omega
    rw [List.forall_mem_singleton, hi]
    exact ⟨hbegun.1, Text.splits_bytes cs⟩
  have hcomment {start : Char} {b : UInt8} {i : Nat} {bs : List UInt8}
      (h : (b == '/'.toUInt8 && bs.head? == some start.toUInt8) = true)
      (hrest : (encode cs).drop i = b :: bs) : Splits cs i ∧ i + 2 ≤ bytes cs := by
    obtain ⟨hb, hbs⟩ := Bool.and_eq_true_iff.1 h
    obtain ⟨ds, rfl⟩ := List.head?_eq_some_iff.1 (eq_of_beq hbs)
    rw [eq_of_beq hb] at hrest
    exact ⟨(splits_of_drop hrest (by decide)).1, lt_of_drop (drop_of_drop hrest).1⟩
  fun_induction stretches inside comma i bs with
  | case1 comma i start => exact hend hrest hbegun
  | case2 comma i start => exact hend hrest hbegun
  | case3 => exact fun r hr => absurd hr List.not_mem_nil
  | case4 comma i b bs _ ih => exact ih (drop_of_drop hrest).1 hnone trivial
  | case5 comma i b bs _ h ih => exact ih (drop_of_drop hrest).2 hcomma (hcomment h hrest)
  | case6 comma i b bs _ _ h ih => exact ih (drop_of_drop hrest).2 hcomma (hcomment h hrest)
  | case7 comma i b bs _ _ _ h ih =>
    refine ih (drop_of_drop hrest).1 (fun k hk => ?_) trivial
    obtain rfl := Option.some.inj hk
    rw [eq_of_beq h] at hrest
    exact splits_of_drop hrest (by decide)
  | case8 comma i b bs _ _ _ _ _ ih =>
    refine List.forall_mem_append.2 ⟨?_, ih (drop_of_drop hrest).1 hnone trivial⟩
    cases comma with
    | none => exact fun r hr => absurd hr List.not_mem_nil
    | some k => exact List.forall_mem_singleton.2 (hcomma k rfl)
  | case9 comma i b bs _ _ _ _ _ _ ih => exact ih (drop_of_drop hrest).1 hcomma trivial
  | case10 comma i b bs _ _ _ _ _ _ ih => exact ih (drop_of_drop hrest).1 hnone trivial
  | case11 comma i b bs _ ih => exact ih (drop_of_drop hrest).2 hcomma trivial
  | case12 comma i b bs _ _ ih => exact ih (drop_of_drop hrest).1 hcomma trivial
  | case13 comma i b bs _ _ ih => exact ih (drop_of_drop hrest).1 hcomma trivial
  | case14 comma i b bs start h ih =>
    refine List.forall_mem_cons.2 ⟨⟨hbegun.1, ?_⟩, ih (drop_of_drop hrest).1 hcomma trivial⟩
    rw [eq_of_beq h] at hrest
    exact (splits_of_drop hrest (by decide)).1
  | case15 comma i b bs start _ ih =>
    exact ih (drop_of_drop hrest).1 hcomma ⟨hbegun.1, lt_of_drop hrest⟩
  | case16 comma i b bs start h ih =>
    refine List.forall_mem_cons.2 ⟨⟨hbegun.1, ?_⟩, ih (drop_of_drop hrest).2 hcomma trivial⟩
    obtain ⟨ds, rfl⟩ := List.head?_eq_some_iff.1 (eq_of_beq (Bool.and_eq_true_iff.1 h).2)
    exact (splits_of_drop (drop_of_drop hrest).1 (by decide)).2
  | case17 comma i b bs start _ ih =>
    exact ih (drop_of_drop hrest).1 hcomma ⟨hbegun.1, lt_of_drop hrest⟩

/-- Blanking out stretches between characters one after another leaves characters. -/
theorem exists_foldl_blankOut {rs : List Stretch}
    (h : ∀ r ∈ rs, Splits cs r.start ∧ Splits cs r.stop) :
    ∃ ds, rs.foldl blankOut (encode cs) = encode ds := by
  induction rs generalizing cs with
  | nil => exact ⟨cs, rfl⟩
  | cons r rs ih =>
    rw [List.forall_mem_cons] at h
    obtain ⟨⟨hstart, hstop⟩, hrs⟩ := h
    rw [List.foldl_cons]
    rcases Nat.le_total r.start r.stop with hle | hle
    · obtain ⟨us, ys, rfl, hus⟩ := hstart
      obtain ⟨ms, vs, rfl, hms⟩ := hstop.behind (hus ▸ hle)
      have hr : r = ⟨bytes us, bytes us + bytes ms⟩ := by rw [hms, hus]
      rw [hr, blankOut_encode]
      exact ih fun r hr => ⟨splits_blanked (hrs r hr).1, splits_blanked (hrs r hr).2⟩
    · have hsame : blankOut (encode cs) r = encode cs := by
        refine List.ext_getElem? fun n => ?_
        have hnot : ¬(r.start ≤ n ∧ n < r.stop) := by omega
        rw [blankOut, List.getElem?_mapIdx]
        simp [← Bool.decide_and, hnot]
      rw [hsame]
      exact ih hrs

theorem fromUTF8?_encode (cs : List Char) :
    String.fromUTF8? (encode cs).toByteArray = some (String.ofList cs) := by
  have hvalid : (encode cs).toByteArray.IsValidUTF8 := ByteArray.isValidUTF8_utf8Encode
  rw [String.fromUTF8?, dif_pos hvalid]
  rfl

theorem decode_encode (cs : List Char) : Text.decode (encode cs) = String.ofList cs := by
  rw [Text.decode, fromUTF8?_encode, Option.getD_some]

/-- The byte order mark in front of a text. -/
def mark (cs : List Char) : List Char := if cs.head? == some '\ufeff' then ['\ufeff'] else []

theorem bytes_mark (text : String) : bytes (mark text.toList) = markLength text := by
  rw [mark, markLength]
  split
  · rfl
  · rfl

theorem exists_append_mark (cs : List Char) : ∃ vs, cs = mark cs ++ vs := by
  rw [mark]
  split
  · rename_i h
    obtain ⟨vs, rfl⟩ := List.head?_eq_some_iff.1 (eq_of_beq h)
    exact ⟨vs, rfl⟩
  · exact ⟨cs, rfl⟩

/-! ## Pieces of a text -/

/-- What stands in a string: characters that end neither it nor its line, and escaped ones. -/
inductive Quotable : List Char → Prop where
  | nil : Quotable []
  | plain {c : Char} {cs : List Char} : c ≠ '"' → c ≠ '\\' → c ≠ '\n' → Quotable cs → Quotable (c :: cs)
  | escape {c : Char} {cs : List Char} : c ≠ '\n' → Quotable cs → Quotable ('\\' :: c :: cs)

/-- A piece of a text. Brackets and braces are among the other characters. -/
inductive Piece where
  | blank (c : Char)
  | string (body : List Char)
  | line (body : List Char)
  | block (body : List Char)
  | comma
  | other (c : Char)
deriving DecidableEq

def asciiBlanks : List Char := [' ', '\t', '\n', '\x0c', '\r']

namespace Piece

def chars : Piece → List Char
  | .blank c | .other c => [c]
  | .string body => '"' :: (body ++ ['"'])
  | .line body => '/' :: '/' :: body
  | .block body => '/' :: '*' :: (body ++ ['*', '/'])
  | .comma => [',']

/-- The piece is whole, and `rest` behind it. A line comment goes up to a line feed or the end. -/
def Complete (rest : List Piece) : Piece → Prop
  | .blank c => c ∈ asciiBlanks
  | .string body => Quotable body
  | .line body => '\n' ∉ body ∧ (rest = [] ∨ rest.head? = some (.blank '\n'))
  | .block body => ¬['*', '/'] <:+: body
  | .comma => True
  | .other c => c ∉ '"' :: '/' :: ',' :: asciiBlanks

/-- What may stand between a comma and a bracket. -/
def isGap : Piece → Bool
  | .blank _ | .line _ | .block _ => true
  | _ => false

def isCloser : Piece → Bool
  | .other c => c == '}' || c == ']'
  | _ => false

end Piece

/-- A text of pieces. -/
def written (ps : List Piece) : List Char := ps.flatMap Piece.chars

/-- Every piece is whole. -/
def Complete : List Piece → Prop
  | [] => True
  | p :: ps => p.Complete ps ∧ Complete ps

/-- The first piece that is neither blank nor comment is a closing bracket. -/
def closes (ps : List Piece) : Bool := (ps.dropWhile Piece.isGap).head?.any Piece.isCloser

/-- What cleaning leaves of a piece with `rest` behind it. -/
def Piece.cleaned (rest : List Piece) : Piece → List Char
  | .line body => blanked (Piece.line body).chars
  | .block body => blanked (Piece.block body).chars
  | .comma => if closes rest then [' '] else [',']
  | p => p.chars

/-- What cleaning leaves of a text of pieces. -/
def cleaned : List Piece → List Char
  | [] => []
  | p :: ps => p.cleaned ps ++ cleaned ps

/-! ## The scan over a piece -/

theorem stretches_blank (h : c ∈ asciiBlanks) :
    stretches .values comma i (encode (c :: vs)) =
      stretches .values comma (i + bytes [c]) (encode vs) := by
  simp only [asciiBlanks, List.mem_cons, List.not_mem_nil, or_false] at h
  rcases h with rfl | rfl | rfl | rfl | rfl
  all_goals
    rw [encode_cons_ascii (by decide), stretches]
    rfl

theorem stretches_string_append {ds : List UInt8}
    (h : '"'.toUInt8 ∉ bs ∧ '\\'.toUInt8 ∉ bs ∧ '\n'.toUInt8 ∉ bs) :
    stretches .string comma i (bs ++ ds) = stretches .string comma (i + bs.length) ds := by
  induction bs generalizing i with
  | nil => rfl
  | cons b bs ih =>
    simp only [List.mem_cons, not_or] at h
    obtain ⟨⟨hquote, hquotes⟩, ⟨hslash, hslashes⟩, hfeed, hfeeds⟩ := h
    rw [List.cons_append, stretches, if_neg (by simpa using Ne.symm hslash),
      if_neg (by simpa using ⟨Ne.symm hquote, Ne.symm hfeed⟩), ih ⟨hquotes, hslashes, hfeeds⟩,
      List.length_cons]
    congr 1
    omega

theorem stretches_line_append {ds : List UInt8} {start : Nat} (h : '\n'.toUInt8 ∉ bs) :
    stretches (.line start) comma i (bs ++ ds) = stretches (.line start) comma (i + bs.length) ds := by
  induction bs generalizing i with
  | nil => rfl
  | cons b bs ih =>
    obtain ⟨hfeed, hfeeds⟩ := not_or.1 (List.mem_cons.not.1 h)
    rw [List.cons_append, stretches, if_neg (by simpa using Ne.symm hfeed), ih hfeeds,
      List.length_cons]
    congr 1
    omega

theorem stretches_block_append {ds : List UInt8} {start : Nat} (h : '*'.toUInt8 ∉ bs) :
    stretches (.block start) comma i (bs ++ ds) =
      stretches (.block start) comma (i + bs.length) ds := by
  induction bs generalizing i with
  | nil => rfl
  | cons b bs ih =>
    obtain ⟨hstar, hstars⟩ := not_or.1 (List.mem_cons.not.1 h)
    rw [List.cons_append, stretches, if_neg (by simpa using fun h => absurd h (Ne.symm hstar)),
      ih hstars, List.length_cons]
    congr 1
    omega

/-- In a string the scan goes on to the quote at the end. -/
theorem stretches_quotable (h : Quotable us) :
    stretches .string none i (encode (us ++ '"' :: vs)) =
      stretches .values none (i + bytes us + 1) (encode vs) := by
  induction h generalizing i with
  | nil => rw [List.nil_append, encode_cons_ascii (by decide), stretches]; rfl
  | @plain c us hquote hslash hfeed _ ih =>
    rw [List.cons_append, encode_cons, stretches_string_append, ih, String.length_utf8EncodeChar,
      bytes]
    · congr 1
      omega
    · exact ⟨not_mem_utf8EncodeChar (by decide) hquote, not_mem_utf8EncodeChar (by decide) hslash,
        not_mem_utf8EncodeChar (by decide) hfeed⟩
  | @escape c us _ _ ih =>
    -- the first byte behind the backslash is passed over, and no other one of the character is ASCII
    rw [List.cons_append, List.cons_append, encode_cons_ascii (by decide), stretches,
      if_pos (by decide), encode_cons]
    obtain ⟨b, bs, hc⟩ := List.exists_cons_of_ne_nil (String.utf8EncodeChar_ne_nil (c := c))
    have hlength : bs.length + 1 = c.utf8Size := by
      rw [← String.length_utf8EncodeChar, hc, List.length_cons]
    rw [hc, List.cons_append, List.drop_one, List.tail_cons, stretches_string_append, ih, bytes, bytes]
    · congr 1
      rw [show ('\\' : Char).utf8Size = 1 from rfl]
      omega
    · exact ⟨not_mem_of_utf8EncodeChar hc (by decide), not_mem_of_utf8EncodeChar hc (by decide),
        not_mem_of_utf8EncodeChar hc (by decide)⟩

theorem stretches_string (h : Quotable us) :
    stretches .values comma i (encode ((Piece.string us).chars ++ vs)) =
      stretches .values none (i + bytes (Piece.string us).chars) (encode vs) := by
  rw [Piece.chars, List.cons_append, List.append_assoc, encode_cons_ascii (by decide), stretches,
    if_pos (by decide), List.singleton_append, stretches_quotable h]
  congr 1
  rw [bytes, bytes_append]
  exact Nat.add_assoc _ _ _ ▸ Nat.add_assoc _ _ _ ▸ rfl

/-- A line comment goes, and what is behind it is scanned with the same comma in mind. -/
theorem stretches_line (h : '\n' ∉ us) (hvs : vs = [] ∨ vs.head? = some '\n') :
    stretches .values comma i (encode ((Piece.line us).chars ++ vs)) =
      ⟨i, i + bytes (Piece.line us).chars⟩ ::
        stretches .values comma (i + bytes (Piece.line us).chars) (encode vs) := by
  have hlength : i + bytes (Piece.line us).chars = i + 2 + (encode us).length := by
    rw [length_encode, Piece.chars, bytes, bytes, ← Nat.add_assoc, ← Nat.add_assoc]
    rfl
  have hstart : stretches .values comma i (encode ((Piece.line us).chars ++ vs)) =
      stretches (.line i) comma (i + 2) (encode (us ++ vs)) := by
    rw [Piece.chars, List.cons_append, List.cons_append, encode_cons_ascii (by decide),
      encode_cons_ascii (by decide), stretches]
    rfl
  rw [hlength, hstart, encode_append, stretches_line_append (not_mem_encode (by decide) h)]
  rcases hvs with rfl | hvs
  · rw [show encode [] = [] from rfl, stretches, stretches]
    · exact fun _ h => Inside.noConfusion h
    · exact fun _ h => Inside.noConfusion h
  · obtain ⟨vs, rfl⟩ := List.head?_eq_some_iff.1 hvs
    rw [stretches_blank (by decide), encode_cons_ascii (by decide), stretches]
    rfl

/-- In a block comment the scan goes on to the end of it. -/
theorem stretches_block_body {start : Nat} (h : ¬['*', '/'] <:+: us) :
    stretches (.block start) comma i (encode (us ++ '*' :: '/' :: vs)) =
      ⟨start, i + bytes us + 2⟩ :: stretches .values comma (i + bytes us + 2) (encode vs) := by
  induction us generalizing i with
  | nil =>
    rw [List.nil_append, encode_cons_ascii (by decide), encode_cons_ascii (by decide), stretches]
    rfl
  | cons c us ih =>
    have hrest := ih (i := i + c.utf8Size) fun hinfix => h (List.infix_cons hinfix)
    rw [Nat.add_assoc i, ← bytes] at hrest
    rw [List.cons_append]
    by_cases hc : c = '*'
    · subst hc
      have hhead : (encode (us ++ '*' :: '/' :: vs)).head? ≠ some '/'.toUInt8 := by
        cases us with
        | nil =>
          rw [List.nil_append, encode_cons_ascii (by decide), List.head?_cons]
          exact fun hd => absurd (Option.some.inj hd) (by decide)
        | cons d us =>
          intro hd
          rw [List.cons_append, ← List.append_nil (encode _)] at hd
          rw [Text.eq_of_head?_encode (by decide) hd] at h
          exact h ⟨[], us, rfl⟩
      rw [encode_cons_ascii (by decide), stretches, if_neg (by simpa using hhead)]
      exact hrest
    · rw [encode_cons, stretches_block_append (not_mem_utf8EncodeChar (by decide) hc),
        String.length_utf8EncodeChar]
      exact hrest

/-- A block comment goes, and what is behind it is scanned with the same comma in mind. -/
theorem stretches_block (h : ¬['*', '/'] <:+: us) :
    stretches .values comma i (encode ((Piece.block us).chars ++ vs)) =
      ⟨i, i + bytes (Piece.block us).chars⟩ ::
        stretches .values comma (i + bytes (Piece.block us).chars) (encode vs) := by
  have hlength : i + bytes (Piece.block us).chars = i + 2 + bytes us + 2 := by
    rw [Piece.chars, bytes, bytes, bytes_append, ← Nat.add_assoc, ← Nat.add_assoc, ← Nat.add_assoc]
    rfl
  rw [hlength, Piece.chars, List.cons_append, List.cons_append, List.append_assoc,
    encode_cons_ascii (by decide), encode_cons_ascii (by decide), stretches]
  exact stretches_block_body h

/-- The characters at which the scan does something. -/
def marking : List Char := '"' :: '/' :: ',' :: '}' :: ']' :: asciiBlanks

theorem stretches_values_append {ds : List UInt8} (hne : bs ≠ [])
    (h : ∀ b ∈ bs, b ∉ marking.map Char.toUInt8) :
    stretches .values comma i (bs ++ ds) = stretches .values none (i + bs.length) ds := by
  induction bs generalizing comma i with
  | nil => exact absurd rfl hne
  | cons b bs ih =>
    obtain ⟨hb, hbs⟩ := List.forall_mem_cons.1 h
    have hstep : stretches .values comma i (b :: (bs ++ ds)) =
        stretches .values none (i + 1) (bs ++ ds) := by
      simp only [marking, asciiBlanks, List.map_cons, List.map_nil, List.mem_cons, List.not_mem_nil,
        not_or] at hb
      rw [stretches]
      simp [hb, isAsciiBlank]
    rw [List.cons_append, hstep]
    cases bs with
    | nil => rfl
    | cons d bs =>
      rw [ih (List.cons_ne_nil d bs) hbs, List.length_cons (a := b)]
      congr 1
      omega

/-- Another character ends the search for a bracket, and a closing bracket ends it with the comma
found. -/
theorem stretches_other (h : c ∉ '"' :: '/' :: ',' :: asciiBlanks) :
    stretches .values comma i (encode (c :: vs)) =
      (if (Piece.other c).isCloser then commaStretch comma else []) ++
        stretches .values none (i + bytes [c]) (encode vs) := by
  by_cases hcloser : (Piece.other c).isCloser
  · rw [if_pos hcloser]
    rcases Bool.or_eq_true_iff.1 hcloser with hc | hc
    all_goals
      rw [eq_of_beq hc, encode_cons_ascii (by decide), stretches]
      rfl
  · rw [if_neg hcloser, encode_cons, stretches_values_append String.utf8EncodeChar_ne_nil,
      String.length_utf8EncodeChar]
    · rfl
    · rintro b hb hmem
      obtain ⟨d, hd, rfl⟩ := List.mem_map.1 hmem
      have hascii : ∀ d ∈ marking, d.toNat < 0x80 := by simp [marking, asciiBlanks]
      obtain rfl := Text.eq_of_toUInt8_mem (hascii d hd) hb
      simp only [Piece.isCloser, marking, List.mem_cons] at hcloser h hd
      simp_all

/-! ## The scan over all pieces -/

/-- The offset is that of a comma in the first characters, and blanking it out gives the second ones. -/
inductive Pending : Option Nat → List Char → List Char → Prop where
  | none (us : List Char) : Pending none us us
  | some (us vs : List Char) : Pending (some (bytes us)) (us ++ ',' :: vs) (us ++ ' ' :: vs)

namespace Pending

variable {us us' : List Char}

theorem append (h : Pending comma us us') (vs : List Char) : Pending comma (us ++ vs) (us' ++ vs) := by
  cases h with
  | none => exact none _
  | some xs ys =>
    rw [List.append_assoc, List.append_assoc]
    exact some xs (ys ++ vs)

theorem bytes_eq (h : Pending comma us us') : bytes us' = bytes us := by
  cases h with
  | none => rfl
  | some xs ys => rw [bytes_append, bytes_append]; rfl

theorem foldl_blankOut (h : Pending comma us us') (vs : List Char) :
    (commaStretch comma).foldl blankOut (encode (us ++ vs)) = encode (us' ++ vs) := by
  cases h with
  | none => rfl
  | some xs ys =>
    rw [List.append_assoc, List.append_assoc]
    exact blankOut_encode xs [','] (ys ++ vs)

end Pending

@[simp] theorem written_cons (q : Piece) (ps : List Piece) :
    written (q :: ps) = q.chars ++ written ps := List.flatMap_cons

/-- Of a text of pieces the scan leaves what cleaning leaves of each, and the comma in mind goes if the
pieces go on with a closing bracket. -/
theorem foldl_stretches {ps : List Piece} {us us' : List Char} (h : Complete ps)
    (hcomma : Pending comma us us') :
    (stretches .values comma (bytes us) (encode (written ps))).foldl blankOut
        (encode (us ++ written ps)) =
      encode ((if closes ps then us' else us) ++ cleaned ps) := by
  induction ps generalizing comma us us' with
  | nil =>
    rw [show encode (written []) = [] from rfl, stretches]
    · rfl
    · exact fun _ h => Inside.noConfusion h
    · exact fun _ h => Inside.noConfusion h
  | cons q ps ih =>
    obtain ⟨hq, hps⟩ := h
    -- behind a blank or a comment the comma is still in mind, behind other pieces it is not
    have hkeep (ms : List Char) :
        (stretches .values comma (bytes us + bytes ms) (encode (written ps))).foldl blankOut
            (encode (us ++ (ms ++ written ps))) =
          encode ((if closes ps then us' else us) ++ (ms ++ cleaned ps)) := by
      rw [← bytes_append, ← List.append_assoc, ih hps (hcomma.append ms), ← List.append_assoc]
      split
      · rfl
      · rfl
    have hdrop (us ms : List Char) :
        (stretches .values none (bytes us + bytes ms) (encode (written ps))).foldl blankOut
            (encode (us ++ (ms ++ written ps))) = encode (us ++ (ms ++ cleaned ps)) := by
      rw [← bytes_append, ← List.append_assoc, ih hps (.none _), ite_self, List.append_assoc]
    rw [written_cons, cleaned]
    cases q with
    | blank c =>
      have hcloses : closes (.blank c :: ps) = closes ps := rfl
      rw [hcloses, Piece.chars, List.singleton_append, stretches_blank hq]
      exact hkeep [c]
    | string body =>
      have hcloses : closes (.string body :: ps) = false := rfl
      rw [hcloses, if_neg Bool.false_ne_true, stretches_string hq]
      exact hdrop us _
    | line body =>
      have hcloses : closes (.line body :: ps) = closes ps := rfl
      have hbehind : written ps = [] ∨ (written ps).head? = some '\n' := by
        rcases hq.2 with rfl | hfeed
        · exact .inl rfl
        · obtain ⟨qs, rfl⟩ := List.head?_eq_some_iff.1 hfeed
          exact .inr rfl
      rw [hcloses, stretches_line hq.1 hbehind, List.foldl_cons, blankOut_encode,
        ← bytes_blanked (Piece.line body).chars]
      exact hkeep _
    | block body =>
      have hcloses : closes (.block body :: ps) = closes ps := rfl
      rw [hcloses, stretches_block hq, List.foldl_cons, blankOut_encode,
        ← bytes_blanked (Piece.block body).chars]
      exact hkeep _
    | comma =>
      have hcloses : closes (.comma :: ps) = false := rfl
      have hstep : stretches .values comma (bytes us) (encode (',' :: written ps)) =
          stretches .values (some (bytes us)) (bytes us + 1) (encode (written ps)) := by
        rw [encode_cons_ascii (by decide), stretches]
        rfl
      have hrest := ih hps (.some us [])
      rw [bytes_append, List.append_assoc] at hrest
      rw [hcloses, if_neg Bool.false_ne_true, Piece.chars, List.singleton_append, hstep]
      refine hrest.trans ?_
      rw [Piece.cleaned]
      split
      · rw [List.append_assoc]
      · rw [List.append_assoc]
    | other c =>
      have hcloses : closes (.other c :: ps) = (Piece.other c).isCloser := rfl
      rw [hcloses, Piece.chars, List.singleton_append, stretches_other hq, List.foldl_append,
        ← List.singleton_append]
      split
      · rw [hcomma.foldl_blankOut, ← hcomma.bytes_eq]
        exact hdrop us' [c]
      · exact hdrop us [c]

/-! ## The cleaned text -/

theorem exists_cleanBytes (text : String) : ∃ ds, cleanBytes text = encode ds := by
  rw [cleanBytes]
  refine exists_foldl_blankOut (List.forall_mem_cons.2 ⟨⟨Text.splits_zero _, ?_⟩, ?_⟩)
  · obtain ⟨vs, h⟩ := exists_append_mark text.toList
    exact ⟨_, vs, h, bytes_mark text⟩
  · exact splits_of_mem_stretches rfl (fun k hk => nomatch hk) trivial

theorem encode_clean (text : String) : encode (clean text).toList = cleanBytes text := by
  obtain ⟨ds, h⟩ := exists_cleanBytes text
  rw [clean, h, decode_encode, String.toList_ofList]

/-- Of a text of pieces cleaning leaves what it leaves of each. -/
theorem clean_written {text : String} {ps : List Piece} (h : Complete ps)
    (htext : text.toList = mark text.toList ++ written ps) :
    (clean text).toList = blanked (mark text.toList) ++ cleaned ps := by
  have hmark : blankOut (encode text.toList) ⟨0, markLength text⟩ =
      encode (blanked (mark text.toList) ++ written ps) := by
    have hblank := blankOut_encode [] (mark text.toList) (written ps)
    rwa [List.nil_append, List.nil_append, ← htext, bytes_mark, bytes, Nat.zero_add] at hblank
  have hbehind : (encode text.toList).drop (markLength text) = encode (written ps) := by
    rw [htext, encode_append, ← bytes_mark, ← length_encode, List.drop_left]
  have hclean : cleanBytes text = encode (blanked (mark text.toList) ++ cleaned ps) := by
    have hpieces := foldl_stretches h (.none (blanked (mark text.toList)))
    rw [bytes_blanked, bytes_mark, ite_self] at hpieces
    rw [cleanBytes, List.foldl_cons, hmark, hbehind]
    exact hpieces
  rw [clean, hclean, decode_encode, String.toList_ofList]

/-- Whatever the text, the cleaned bytes are those of a text of the same length with the same line ends
at the same offsets. If the text is a byte order mark, or none, and complete pieces, then just the mark,
the comments and the commas before a closing bracket are blanked out. -/
theorem clean_exact (text : String) :
    String.fromUTF8? (cleanBytes text).toByteArray = some (clean text) ∧
    (clean text).utf8ByteSize = text.utf8ByteSize ∧
    (∀ (n : Nat) (b : UInt8), isLineEnd b = true →
      ((encode (clean text).toList)[n]? = some b ↔ (encode text.toList)[n]? = some b)) ∧
    ∀ ps, Complete ps → text.toList = mark text.toList ++ written ps →
      (clean text).toList = blanked (mark text.toList) ++ cleaned ps := by
  refine ⟨?_, ?_, fun n b hb => ?_, fun ps h htext => clean_written h htext⟩
  · rw [← encode_clean, fromUTF8?_encode, String.ofList_toList]
  · rw [utf8ByteSize_eq_bytes, utf8ByteSize_eq_bytes, ← length_encode, ← length_encode, encode_clean,
      cleanBytes, length_foldl_blankOut]
  · rw [encode_clean, cleanBytes, getElem?_foldl_blankOut_eq_lineEnd hb]

theorem clean_exact_trailing :
    let ps : List Piece := [.other '[', .string ['\\', '"', ','], .comma, .line ['é', '\r'],
      .blank '\n', .other ']']
    let text := String.ofList ('\ufeff' :: written ps)
    Complete ps ∧ text.toList = mark text.toList ++ written ps ∧ isLineEnd '\r'.toUInt8 = true ∧
      (clean text).toList = "   [\"\\\",\"     \r\n]".toList ∧
      (encode (clean text).toList)[14]? = some '\r'.toUInt8 := by
  intro ps text
  have hstring : Quotable ['\\', '"', ','] :=
    .escape (by decide) (.plain (by decide) (by decide) (by decide) .nil)
  have hps : Complete ps :=
    ⟨by simp [Piece.Complete, asciiBlanks], hstring, trivial, ⟨by decide, .inr rfl⟩,
      by simp [Piece.Complete, asciiBlanks], by simp [Piece.Complete, asciiBlanks], trivial⟩
  have htext : text.toList = mark text.toList ++ written ps := by
    rw [String.toList_ofList]
    rfl
  have h := clean_exact text
  refine ⟨hps, htext, by decide, (h.2.2.2 ps hps htext).trans ?_, (h.2.2.1 _ _ (by decide)).2 ?_⟩
  · rw [String.toList_ofList]
    decide
  · rw [String.toList_ofList]
    decide

end DeclKit.Json

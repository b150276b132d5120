/-
Substitutions of templates and the braces in them.

Where a substitution ends is found by a scan of bytes, before what stands in it is lexed. Lexeme by
lexeme the scan keeps count of the braces that are open: it passes over strings, block comments and
further templates as the lexer does, and counts a brace where the lexer sees one. So at the brace that
it ends with, as many braces have been closed as opened.

There are three places where the two do not go together. To the lexer a lone carriage return ends a line
comment, a number sign with an exclamation mark starts a comment anywhere, and a backslash takes a
carriage return with its line feed. To the scan they do not.
-/
import DeclKit.Proofs.Grammar.Cutting
import DeclKit.Proofs.Token.Lexer
import Mathlib

set_option autoImplicit false

namespace DeclKit.Template

open Text (encode encode_append encode_cons)

variable {c : Char} {cs : List Char} {p us zs : List UInt8} {b : UInt8} {bs : List UInt8}
  {inside : Inside} {depth i n : Nat}

/-! ## Scans from another offset -/

mutual

/-- The first scan answers with offsets that count from where it starts. -/
theorem bodyEnd?_add (k i : Nat) (bs : List UInt8) :
    bodyEnd? (k + i) bs = (bodyEnd? i bs).map (k + ·) := by
  match bs with
  | [] => rw [bodyEnd?, bodyEnd?]; rfl
  | b :: bs =>
    rw [bodyEnd?, bodyEnd?]
    split
    · exact bodyEnd?_add k (i + 2) (bs.drop 1)
    split
    · rfl
    split
    · rw [Nat.add_assoc, codeEnd?_add]
      cases h : codeEnd? .code 0 (i + 2) (bs.drop 1) with
      | none => rfl
      | some close =>
        dsimp only [Option.map_some]
        rw [Nat.add_assoc, bodyEnd?_add, Nat.add_sub_add_left]
    · exact bodyEnd?_add k (i + 1) bs
termination_by bs.length

/-- So does the scan of a substitution. -/
theorem codeEnd?_add (k : Nat) (inside : Inside) (depth i : Nat) (bs : List UInt8) :
    codeEnd? inside depth (k + i) bs = (codeEnd? inside depth i bs).map (k + ·) := by
  match inside, bs with
  | inside, [] => rw [codeEnd?, codeEnd?]; rfl
  | .code, b :: bs =>
    rw [codeEnd?, codeEnd?]
    split
    · exact codeEnd?_add k .code (depth + 1) (i + 1) bs
    split
    · rfl
    split
    · exact codeEnd?_add k .code (depth - 1) (i + 1) bs
    split
    · exact codeEnd?_add k (.quoted b) depth (i + 1) bs
    split
    · rw [Nat.add_assoc, bodyEnd?_add]
      cases h : bodyEnd? (i + 1) bs with
      | none => rfl
      | some stop =>
        dsimp only [Option.map_some]
        rw [codeEnd?_add, Nat.add_sub_add_left]
    split
    · exact codeEnd?_add k .lineComment depth (i + 2) (bs.drop 1)
    split
    · exact codeEnd?_add k .blockComment depth (i + 2) (bs.drop 1)
    · exact codeEnd?_add k .code depth (i + 1) bs
  | .quoted quote, b :: bs =>
    rw [codeEnd?, codeEnd?]
    split
    · exact codeEnd?_add k .code depth (i + 1) bs
    split
    · exact codeEnd?_add k (.quoted quote) depth (i + 2) (bs.drop 1)
    · exact codeEnd?_add k (.quoted quote) depth (i + 1) bs
  | .lineComment, b :: bs =>
    rw [codeEnd?, codeEnd?]
    split
    · exact codeEnd?_add k .code depth (i + 1) bs
    · exact codeEnd?_add k .lineComment depth (i + 1) bs
  | .blockComment, b :: bs =>
    rw [codeEnd?, codeEnd?]
    split
    · exact codeEnd?_add k .code depth (i + 2) (bs.drop 1)
    · exact codeEnd?_add k .blockComment depth (i + 1) bs
termination_by bs.length

end

theorem le_codeEnd? (h : codeEnd? inside depth i bs = some n) : i ≤ n := by
  obtain ⟨xs, ys, -, rfl, -⟩ := codeEnd?_ends h
  omega

/-- Only in code, with no brace open, a scan ends where it starts. -/
theorem codeEnd?_here (h : codeEnd? inside depth i (ascii '}' :: zs) = some i) :
    inside = .code ∧ depth = 0 := by
  have hlater : ∀ inside depth k us, codeEnd? inside depth (i + (k + 1)) us ≠ some i := by
    intro inside depth k us h
    exact absurd (le_codeEnd? h) (by omega)
  have hopen : ¬(ascii '}' == ascii '{') = true := by decide
  cases inside with
  | code =>
    refine ⟨rfl, Decidable.byContradiction fun hdepth => ?_⟩
    rw [codeEnd?, if_neg hopen, if_neg (by simpa using hdepth), if_pos (by decide)] at h
    exact hlater _ _ 0 _ h
  | quoted quote =>
    rw [codeEnd?] at h
    split at h
    · exact absurd h (hlater _ _ 0 _)
    split at h
    · exact absurd h (hlater _ _ 1 _)
    · exact absurd h (hlater _ _ 0 _)
  | lineComment =>
    rw [codeEnd?, if_neg (by decide)] at h
    exact absurd h (hlater _ _ 0 _)
  | blockComment =>
    rw [codeEnd?, if_neg (by simp [ascii])] at h
    exact absurd h (hlater _ _ 0 _)

/-! ## What the scan of a substitution passes over -/

theorem codeEnd?_lineComment (us : List UInt8) (h : '\n' ∉ cs) :
    codeEnd? .lineComment depth i (encode cs ++ us) =
      codeEnd? .lineComment depth (i + Text.bytes cs) us := by
  have hbytes : ∀ b ∈ encode cs, b ≠ ascii '\n' := by
    rintro b hb rfl
    exact Text.not_mem_encode (by decide) h hb
  rw [← Text.length_encode]
  generalize encode cs = p at hbytes
  induction p generalizing i with
  | nil => rfl
  | cons b p ih =>
    obtain ⟨hb, hp⟩ := List.forall_mem_cons.1 hbytes
    rw [List.cons_append, codeEnd?, if_neg (by simpa using hb), ih hp, List.length_cons,
      Nat.add_assoc, Nat.add_comm 1]

theorem codeEnd?_blockComment_append (us : List UInt8) (h : ascii '*' ∉ p) :
    codeEnd? .blockComment depth i (p ++ us) = codeEnd? .blockComment depth (i + p.length) us := by
  induction p generalizing i with
  | nil => rfl
  | cons b p ih =>
    have hb : ¬b = ascii '*' := fun hb => h (hb ▸ List.mem_cons_self)
    rw [List.cons_append, codeEnd?, if_neg (by simp [hb]), ih fun hp => h (List.mem_cons_of_mem b hp),
      List.length_cons, Nat.add_assoc, Nat.add_comm 1]

/-- In a block comment the scan goes on to where the lexer finds the end of it, and else to the end of the
text. -/
theorem codeEnd?_blockComment (hus : us.head? ≠ some (ascii '/')) :
    codeEnd? .blockComment depth i (encode cs ++ us) =
      match Token.blockExtent? cs with
      | some n => codeEnd? .code depth (i + Text.bytes (cs.take n)) (encode (cs.drop n) ++ us)
      | none => codeEnd? .blockComment depth (i + Text.bytes cs) us := by
  fun_induction Token.blockExtent? cs generalizing i with
  | case1 => rfl
  | case2 rest =>
    have hstar : encode ('*' :: '/' :: rest) = ascii '*' :: ascii '/' :: encode rest := rfl
    rw [hstar, List.cons_append, List.cons_append, codeEnd?, if_pos (by simp), List.drop_one,
      List.tail_cons]
    rfl
  | case3 c rest hnot ih =>
    have hstep : codeEnd? .blockComment depth i (encode (c :: rest) ++ us) =
        codeEnd? .blockComment depth (i + c.utf8Size) (encode rest ++ us) := by
      by_cases hc : c = '*'
      · subst hc
        have hhead : (encode rest ++ us).head? ≠ some (ascii '/') := by
          cases rest with
          | nil => exact hus
          | cons d rest =>
            exact fun hhead => hnot rest rfl
              (congrArg (· :: rest) (Text.eq_of_head?_encode (by decide) hhead))
        have hstar : encode ('*' :: rest) = ascii '*' :: encode rest := rfl
        rw [hstar, List.cons_append, codeEnd?, if_neg (by simpa using hhead)]
        rfl
      · rw [encode_cons, List.append_assoc, codeEnd?_blockComment_append, String.length_utf8EncodeChar]
        exact fun hmem => hc (eq_of_ascii_mem (by decide) hmem)
    rw [hstep, ih]
    cases Token.blockExtent? rest with
    | none => simp only [Option.map_none, Text.bytes, Nat.add_assoc]
    | some n =>
      simp only [Option.map_some, List.take_succ_cons, List.drop_succ_cons, Text.bytes, Nat.add_assoc]

theorem codeEnd?_quoted_append {quote : UInt8} (us : List UInt8)
    (h : ∀ b ∈ p, b ≠ quote ∧ b ≠ ascii '\n' ∧ b ≠ ascii '\\') :
    codeEnd? (.quoted quote) depth i (p ++ us) =
      codeEnd? (.quoted quote) depth (i + p.length) us := by
  induction p generalizing i with
  | nil => rfl
  | cons b p ih =>
    obtain ⟨⟨hquote, hfeed, hslash⟩, hp⟩ := List.forall_mem_cons.1 h
    rw [List.cons_append, codeEnd?, if_neg (by simp [hquote, hfeed]), if_neg (by simpa using hslash),
      ih hp, List.length_cons, Nat.add_assoc, Nat.add_comm 1]

/-- In a string that the lexer finds closed the scan goes on to the end of it, if no backslash takes a
carriage return with its line feed. -/
theorem codeEnd?_quoted {quote : Char} (hquote : quote = '"' ∨ quote = '\'')
    (h : Token.stringExtent quote cs = (n, true)) (hplain : ¬['\\', '\r', '\n'] <:+: cs.take n)
    (us : List UInt8) :
    codeEnd? (.quoted (ascii quote)) depth i (encode cs ++ us) =
      codeEnd? .code depth (i + Text.bytes (cs.take n)) (encode (cs.drop n) ++ us) := by
  have hmark : ¬(ascii '\\' == ascii quote || ascii '\\' == ascii '\n') = true ∧
      ascii quote < 0x80 ∧ quote.toNat < 0x80 := by
    rcases hquote with rfl | rfl
    · decide
    · decide
  obtain ⟨hslash, hbyte, hlow⟩ := hmark
  fun_induction Token.stringExtent quote cs generalizing i n with
  | case1 => cases h
  | case2 rest m closed _ ih =>
    obtain ⟨rfl, -⟩ := Prod.mk.inj h
    exact absurd ⟨[], rest.take m, rfl⟩ hplain
  | case3 d rest _ m closed hrest ih =>
    obtain ⟨rfl, rfl⟩ := Prod.mk.inj h
    -- the first byte behind the backslash is passed over, and no other one of the character is ASCII
    obtain ⟨b, bs, hd⟩ := List.exists_cons_of_ne_nil (String.utf8EncodeChar_ne_nil (c := d))
    have hpass : ∀ x ∈ bs, x ≠ ascii quote ∧ x ≠ ascii '\n' ∧ x ≠ ascii '\\' := by
      intro x hx
      refine ⟨?_, ?_, ?_⟩
      · rintro rfl
        exact Text.not_mem_of_utf8EncodeChar hd hbyte hx
      · rintro rfl
        exact Text.not_mem_of_utf8EncodeChar hd (by decide) hx
      · rintro rfl
        exact Text.not_mem_of_utf8EncodeChar hd (by decide) hx
    have hchars : encode ('\\' :: d :: rest) = ascii '\\' :: b :: (bs ++ encode rest) := by
      rw [Text.encode_cons_ascii (by decide), encode_cons, hd]
      rfl
    have htail : ¬['\\', '\r', '\n'] <:+: rest.take m := fun hinfix =>
      hplain (List.infix_cons (List.infix_cons hinfix))
    rw [hchars, List.cons_append, codeEnd?, if_neg hslash, if_pos (by decide), List.cons_append,
      List.drop_one, List.tail_cons, List.append_assoc, codeEnd?_quoted_append _ hpass,
      ih hrest htail, List.take_succ_cons, List.take_succ_cons, List.drop_succ_cons,
      List.drop_succ_cons, Text.bytes, Text.bytes, ← String.length_utf8EncodeChar d, hd,
      List.length_cons, show ('\\' : Char).utf8Size = 1 from rfl]
    congr 1
    omega
  | case4 c rest _ _ hc =>
    obtain ⟨rfl, -⟩ := Prod.mk.inj h
    obtain rfl := eq_of_beq hc
    have hchars : encode (c :: rest) = ascii c :: encode rest := Text.encode_cons_ascii hlow
    have hsize : Text.bytes ((c :: rest).take 1) = 1 := by
      have hone : encode [c] = [ascii c] := Text.encode_cons_ascii hlow
      rw [← Text.length_encode]
      exact congrArg List.length hone
    rw [hchars, List.cons_append, codeEnd?, if_pos (by simp), hsize]
    rfl
  | case5 c rest _ hslashes hc hline m closed hrest ih =>
    obtain ⟨rfl, rfl⟩ := Prod.mk.inj h
    have htail : ¬['\\', '\r', '\n'] <:+: rest.take m := fun hinfix => hplain (List.infix_cons hinfix)
    have hback : c ≠ '\\' := by
      rintro rfl
      cases rest with
      | nil => cases hrest
      | cons d rest => exact hslashes d rest rfl rfl
    have hfeed : c ≠ '\n' := by
      rintro rfl
      cases hline
    have hpass : ∀ b ∈ String.utf8EncodeChar c, b ≠ ascii quote ∧ b ≠ ascii '\n' ∧ b ≠ ascii '\\' := by
      intro b hb
      refine ⟨?_, ?_, ?_⟩
      · rintro rfl
        exact hc (beq_iff_eq.2 (eq_of_ascii_mem hlow hb))
      · rintro rfl
        exact hfeed (eq_of_ascii_mem (by decide) hb)
      · rintro rfl
        exact hback (eq_of_ascii_mem (by decide) hb)
    rw [encode_cons, List.append_assoc, codeEnd?_quoted_append _ hpass, ih hrest htail,
      List.take_succ_cons, List.drop_succ_cons, Text.bytes, String.length_utf8EncodeChar, Nat.add_assoc]
  | case6 => cases h

/-! ## What the scan of a substitution has passed over -/

/-- The closing brace of a span has been found, between characters. -/
theorem Fits.brace {cs : List Char} {stop start last : Nat} {spans : List Span} {s : Span}
    (h : Fits cs stop start spans last) (hs : s ∈ spans) :
    ∃ close, s.brace? = some close ∧ s.stop ≤ close ∧ Text.Splits cs close := by
  induction spans generalizing start with
  | nil => exact absurd hs List.not_mem_nil
  | cons t ss ih =>
    obtain ⟨-, -, -, close, hbrace, hle, hclose, hrest⟩ := h
    rcases List.mem_cons.1 hs with rfl | hs
    · exact ⟨close, hbrace, hle, hclose⟩
    · exact ih hrest hs

/-- It is the end of the scan that starts where the substitution does. -/
theorem brace?_of_mem_split {stop start i : Nat} {bs : List UInt8} {s : Span}
    (hfound : ∀ s ∈ (split stop start i bs).spans, ∃ close, s.brace? = some close)
    (hs : s ∈ (split stop start i bs).spans) :
    i + 2 ≤ s.stop ∧ s.brace? = codeEnd? .code 0 s.stop (bs.drop (s.stop - i)) := by
  fun_induction split stop start i bs with
  | case1 => exact absurd hs List.not_mem_nil
  | case2 start i b bs _ ih =>
    obtain ⟨hle, hbrace⟩ := ih hfound hs
    have hdrop : s.stop - i = 1 + (s.stop - (i + 2)) + 1 := by omega
    rw [hdrop, List.drop_succ_cons, ← List.drop_drop, ← hbrace]
    exact ⟨by omega, rfl⟩
  | case3 start i b bs _ _ span close more ih =>
    obtain ⟨⟨found, hspan⟩, hmore⟩ := List.forall_mem_cons.1 hfound
    rcases List.mem_cons.1 hs with rfl | hs
    · have hdrop : i + 2 - i = 2 := Nat.add_sub_cancel_left ..
      rw [hdrop, List.drop_succ_cons]
      exact ⟨Nat.le_refl _, rfl⟩
    · have hclose : close = found := by
        rw [show close = span.close stop from rfl, Span.close, hspan, Option.getD_some]
      have hle := le_codeEnd? hspan
      obtain ⟨hlater, hbrace⟩ := ih hmore hs
      have hdrop : s.stop - i = close - i + (s.stop - (close + 1)) + 1 := by omega
      rw [hdrop, List.drop_succ_cons, ← List.drop_drop, ← hbrace]
      exact ⟨by omega, rfl⟩
  | case4 start i b bs _ _ ih =>
    obtain ⟨hle, hbrace⟩ := ih hfound hs
    have hdrop : s.stop - i = s.stop - (i + 1) + 1 := by omega
    rw [hdrop, List.drop_succ_cons, ← hbrace]
    exact ⟨by omega, rfl⟩

/-- What stands in a substitution is what the scan for its end has passed over. -/
theorem codeEnd?_span {rest : List Char} {stop : Nat} {s : Span}
    (h : bodyEnd? 1 (encode rest) = some stop)
    (hs : s ∈ (split stop 0 1 ((encode rest).take (stop - 1))).spans) :
    let code := Text.between s.stop (s.close stop) ('`' :: rest)
    ∃ zs, codeEnd? .code 0 s.stop (encode code ++ ascii '}' :: zs) =
      some (s.stop + Text.bytes code) := by
  obtain ⟨hfit, -⟩ := pieces_fit h
  obtain ⟨-, hstop, -⟩ := hfit.mem (Text.splits_zero _) hs
  obtain ⟨close, hbrace, hle, hclose⟩ := hfit.brace hs
  have hfound (t : Span) (ht : t ∈ (split stop 0 1 ((encode rest).take (stop - 1))).spans) :
      ∃ close, t.brace? = some close := by
    obtain ⟨close, hbrace, -⟩ := hfit.brace ht
    exact ⟨close, hbrace⟩
  obtain ⟨hpos, hscan⟩ := brace?_of_mem_split hfound hs
  rw [hbrace] at hscan
  obtain ⟨xs, ys, hbytes, hend, hends⟩ := codeEnd?_ends hscan.symm
  -- the bytes up to the brace are those of the characters between the two offsets
  obtain ⟨us, vs, hcs, hus⟩ := hstop
  rw [hcs] at hclose
  obtain ⟨ms, ws, rfl, hms⟩ := hclose.behind (hus ▸ hle)
  have hcode : Text.between s.stop (s.close stop) ('`' :: rest) = ms := by
    rw [hcs, Span.close, hbrace, Option.getD_some, ← hms, ← hus, Text.between_append_mid]
  have hxs : xs = encode ms := by
    have hdrop : (encode rest).drop (s.stop - 1) = encode ms ++ encode ws := by
      have hall : (encode ('`' :: rest)).drop s.stop = encode ms ++ encode ws := by
        rw [hcs, encode_append, encode_append, ← hus, ← Text.length_encode, List.drop_left]
      rw [← hall, Text.encode_cons_ascii (by decide), show s.stop = s.stop - 1 + 1 by omega,
        List.drop_succ_cons, Nat.add_sub_cancel]
    rw [List.drop_take, hdrop] at hbytes
    have hfront : xs <+: encode ms ++ encode ws :=
      (List.prefix_append xs _).trans (hbytes ▸ List.take_prefix _ _)
    rw [List.prefix_iff_eq_take.1 hfront, List.take_left']
    rw [Text.length_encode]
    omega
  refine ⟨[], ?_⟩
  rw [hcode, ← hxs, hends, ← Text.length_encode, ← hxs, hend]
  rfl

end DeclKit.Template

namespace DeclKit.Token

open Template (codeMarks)

variable {c d : Char} {cs rest : List Char} {p : Char → Bool} {n m : Nat}

/-! ## Lexemes without marks -/

/-- None of the first characters is one at which the scan of a substitution does something. -/
def Unmarked (n : Nat) (cs : List Char) : Prop := ∀ d ∈ cs.take n, d ∉ codeMarks

theorem Unmarked.zero (cs : List Char) : Unmarked 0 cs := by
  rw [Unmarked, List.take_zero]
  exact fun _ h => absurd h List.not_mem_nil

theorem Unmarked.cons (hc : c ∉ codeMarks) (h : Unmarked n cs) : Unmarked (n + 1) (c :: cs) := by
  rw [Unmarked, List.take_succ_cons]
  exact List.forall_mem_cons.2 ⟨hc, h⟩

theorem Unmarked.add (h : Unmarked n cs) (h' : Unmarked m (cs.drop n)) : Unmarked (n + m) cs := by
  rw [Unmarked, List.take_add]
  exact List.forall_mem_append.2 ⟨h, h'⟩

theorem unmarked_runLength (hp : ∀ d ∈ codeMarks, p d = false) (cs : List Char) :
    Unmarked (runLength p cs) cs := by
  have htake : cs.take (runLength p cs) = cs.takeWhile p :=
    (List.prefix_iff_eq_take.1 (List.takeWhile_prefix p)).symm
  rw [Unmarked, htake]
  exact fun d hd hmark => Bool.false_ne_true
    ((hp d hmark).symm.trans (List.all_eq_true.1 List.all_takeWhile d hd))

theorem forall_codeMarks {P : Char → Prop} (h : P '{' ∧ P '}' ∧ P '"' ∧ P '\'' ∧ P '`' ∧ P '/') :
    ∀ d ∈ codeMarks, P d := by
  simpa [codeMarks] using h

theorem not_mem_codeMarks (hp : ∀ d ∈ codeMarks, p d = false) (h : p c = true) : c ∉ codeMarks :=
  fun hmark => Bool.false_ne_true ((hp c hmark).symm.trans h)

theorem isDigit_codeMarks : ∀ d ∈ codeMarks, d.isDigit = false := forall_codeMarks (by decide)

theorem isDigitPart_codeMarks : ∀ d ∈ codeMarks, isDigitPart d = false := forall_codeMarks (by decide)

theorem unmarked_exponentLength (cs : List Char) : Unmarked (exponentLength cs) cs := by
  have hsign : ∀ d ∈ codeMarks, (d == '+' || d == '-') = false := forall_codeMarks (by decide)
  have hmark : ∀ d ∈ codeMarks, (d == 'e' || d == 'E') = false := forall_codeMarks (by decide)
  unfold exponentLength
  split
  · rename_i e s rest
    split
    · rename_i he
      have he := not_mem_codeMarks hmark he
      split
      · rename_i hs
        rw [Nat.add_comm]
        exact ((unmarked_runLength isDigitPart_codeMarks rest).cons
          (not_mem_codeMarks isDigit_codeMarks hs)).cons he
      split
      · rename_i hs
        have hs := not_mem_codeMarks hsign hs
        split
        · rename_i d more
          split
          · rename_i hd
            rw [Nat.add_comm]
            exact (((unmarked_runLength isDigitPart_codeMarks more).cons
              (not_mem_codeMarks isDigit_codeMarks hd)).cons hs).cons he
          · exact .zero _
        · exact .zero _
      · exact .zero _
    · exact .zero _
  · exact .zero _

theorem unmarked_decimalLength (cs : List Char) : Unmarked (decimalLength cs) cs := by
  rw [decimalLength]
  refine ((unmarked_runLength isDigitPart_codeMarks cs).add ?_).add (unmarked_exponentLength _)
  split
  · rename_i more hdot
    rw [hdot, Nat.add_comm]
    exact (unmarked_runLength isDigitPart_codeMarks more).cons (by decide)
  · exact .zero _

theorem unmarked_radixLength (cs : List Char) : Unmarked (radixLength cs).1 cs := by
  have hhex : ∀ d ∈ codeMarks, isHexPart d = false := forall_codeMarks (by decide)
  have hoctal : ∀ d ∈ codeMarks, ('0' ≤ d && d ≤ '7' || d == '_') = false := forall_codeMarks (by decide)
  have hbinary : ∀ d ∈ codeMarks, (d == '0' || d == '1' || d == '_') = false :=
    forall_codeMarks (by decide)
  have hmark {a b m : Char} (h : (m == a || m == b) = true) (ha : a ∉ codeMarks) (hb : b ∉ codeMarks) :
      m ∉ codeMarks := by
    rcases Bool.or_eq_true_iff.1 h with h | h
    · exact eq_of_beq h ▸ ha
    · exact eq_of_beq h ▸ hb
  unfold radixLength
  split
  · rename_i mark rest
    split
    rename_i digits big hdigits
    split
    · exact .zero _
    · rename_i hne
      have hrest : Unmarked digits rest ∧ mark ∉ codeMarks := by
        split_ifs at hdigits with hx ho hb
        · obtain ⟨rfl, -⟩ := Prod.mk.inj hdigits
          exact ⟨unmarked_runLength hhex rest, hmark hx (by decide) (by decide)⟩
        · obtain ⟨rfl, -⟩ := Prod.mk.inj hdigits
          exact ⟨unmarked_runLength hoctal rest, hmark ho (by decide) (by decide)⟩
        · obtain ⟨rfl, -⟩ := Prod.mk.inj hdigits
          exact ⟨unmarked_runLength hbinary rest, hmark hb (by decide) (by decide)⟩
        · obtain ⟨rfl, -⟩ := Prod.mk.inj hdigits
          exact absurd rfl hne
      exact (hrest.1.cons hrest.2).cons (by decide)
  · exact .zero _

theorem unmarked_numberExtent (cs : List Char) : Unmarked (numberExtent cs).2 cs := by
  unfold numberExtent
  split
  rename_i marked big hmarked
  have hmarks : Unmarked marked cs := by
    have h := unmarked_radixLength cs
    rwa [hmarked] at h
  have hdigits : Unmarked (if marked == 0 then runLength isDigitPart cs else marked) cs := by
    split
    · exact unmarked_runLength isDigitPart_codeMarks cs
    · exact hmarks
  generalize (if marked == 0 then runLength isDigitPart cs else marked) = digits at hdigits ⊢
  dsimp only
  split_ifs with hbig
  · obtain ⟨rest, hrest⟩ := List.head?_eq_some_iff.1 (eq_of_beq (Bool.and_eq_true_iff.1 hbig).2)
    refine hdigits.add ?_
    rw [hrest]
    exact (Unmarked.zero rest).cons (by decide)
  · exact unmarked_decimalLength cs
  · exact hmarks

/-! ## Braces -/

open Kind

variable {k : Kind} {ls ms : List Lexeme}

def isBrace (k : Kind) : Bool := k == braceOpen || k == braceClose

/-- A piece of a template with substitutions. -/
def isPiece (k : Kind) : Bool := k == .templateHead || k == .templateMiddle || k == .templateTail

/-- What a lexeme is to the scan of a substitution, by the kind that the lexer finds. -/
inductive Scanned : Kind → Char → List Char → Nat → Prop where
  | garbage {c : Char} {rest : List Char} {n : Nat} : Scanned garbage c rest n
  | unmarked {k : Kind} {c : Char} {rest : List Char} {n : Nat} : isBrace k = false ∧ isPiece k = false →
      c ∉ codeMarks → Unmarked n rest → Scanned k c rest n
  | shebang {rest : List Char} {n : Nat} : Scanned shebang '#' rest n
  | braceOpen {rest : List Char} : Scanned braceOpen '{' rest 0
  | braceClose {rest : List Char} : Scanned braceClose '}' rest 0
  | string {quote : Char} {rest : List Char} {n : Nat} : quote = '"' ∨ quote = '\'' →
      stringExtent quote rest = (n, true) → Scanned stringLiteral quote rest n
  | lineComment {rest : List Char} :
      Scanned lineComment '/' ('/' :: rest) (1 + runLength isInLine rest)
  | blockComment {rest : List Char} {n : Nat} : blockExtent? rest = some n →
      Scanned blockComment '/' ('*' :: rest) (1 + n)
  | openComment {rest : List Char} : blockExtent? rest = none → Scanned slash '/' ('*' :: rest) 0
  | slash {rest : List Char} : rest.head? ≠ some '/' → rest.head? ≠ some '*' → Scanned slash '/' rest 0

theorem keyword?_inert (s : String) : isBrace ((Kind.keyword? s).getD ident) = false ∧
    isPiece ((Kind.keyword? s).getD ident) = false := by
  unfold Kind.keyword?
  split <;> exact ⟨rfl, rfl⟩

theorem numberExtent_inert (cs : List Char) :
    isBrace (numberExtent cs).1 = false ∧ isPiece (numberExtent cs).1 = false := by
  unfold numberExtent
  dsimp only
  split_ifs <;> exact ⟨rfl, rfl⟩

theorem scanned_punctuation? (hline : c = '/' → rest.head? ≠ some '/')
    (hblock : c = '/' → rest.head? ≠ some '*') :
    Scanned ((punctuation? c).getD garbage) c rest 0 := by
  have hmark (k : Kind) (hk : isBrace k = false ∧ isPiece k = false) {d : Char} (hd : d ∉ codeMarks) :
      Scanned k d rest 0 := .unmarked hk hd (.zero rest)
  unfold punctuation?
  split
  case h_5 => exact .braceOpen
  case h_6 => exact .braceClose
  case h_20 => exact .slash (hline rfl) (hblock rfl)
  case h_27 => exact .garbage
  all_goals exact hmark _ ⟨rfl, rfl⟩ (by decide)

/-- Every lexeme is one of these. -/
theorem scanned_extent (c : Char) (rest : List Char) :
    Scanned (extent c rest).1 c rest (extent c rest).2 := by
  have hword : ∀ d ∈ codeMarks, continuesIdent d = false := forall_codeMarks (by decide)
  have hstart : ∀ d ∈ codeMarks, startsIdent d = false := forall_codeMarks (by decide)
  have hblank : ∀ d ∈ codeMarks, isInlineBlank d = false := forall_codeMarks (by decide)
  unfold extent
  split
  · rename_i h
    exact .unmarked (keyword?_inert _) (not_mem_codeMarks hstart h) (unmarked_runLength hword rest)
  split
  · rename_i h
    exact .unmarked ⟨rfl, rfl⟩ (not_mem_codeMarks hblank h) (unmarked_runLength hblank rest)
  split
  · rename_i h
    refine .unmarked (numberExtent_inert _) (not_mem_codeMarks isDigit_codeMarks h) ?_
    have hnumber := unmarked_numberExtent (c :: rest)
    dsimp only
    cases hn : (numberExtent (c :: rest)).2 with
    | zero => exact .zero rest
    | succ n =>
      rw [hn, Unmarked, List.take_succ_cons] at hnumber
      exact (List.forall_mem_cons.1 hnumber).2
  split
  · rename_i hquote
    rw [Bool.or_eq_true, beq_iff_eq, beq_iff_eq] at hquote
    split
    rename_i n closed hstring
    cases closed with
    | false => exact .garbage
    | true => exact .string hquote hstring
  split
  case h_1 => exact .unmarked ⟨rfl, rfl⟩ (by decide) (.zero _)
  case h_2 => exact .unmarked ⟨rfl, rfl⟩ (by decide) ((Unmarked.zero _).cons (by decide))
  case h_3 => exact .unmarked ⟨rfl, rfl⟩ (by decide) (.zero _)
  case h_4 =>
    exact .unmarked ⟨rfl, rfl⟩ (by decide) (((Unmarked.zero _).cons (by decide)).cons (by decide))
  case h_5 =>
    rename_i more _ _ _ _ _
    split
    · rename_i hd
      refine .unmarked ⟨rfl, rfl⟩ (by decide) ?_
      have hdigits := (unmarked_runLength isDigitPart_codeMarks more).cons
        (not_mem_codeMarks isDigit_codeMarks hd)
      rw [Nat.add_comm] at hdigits
      refine hdigits.add ?_
      rw [Nat.add_comm, List.drop_succ_cons]
      exact unmarked_exponentLength _
    · exact .unmarked ⟨rfl, rfl⟩ (by decide) (.zero _)
  case h_6 => exact .unmarked ⟨rfl, rfl⟩ (by decide) ((Unmarked.zero _).cons (by decide))
  case h_7 => exact .shebang
  case h_8 => exact .lineComment
  case h_9 =>
    split
    · rename_i hblock
      exact .blockComment hblock
    · rename_i hblock
      exact .openComment hblock
  case h_10 hline hblock =>
    refine scanned_punctuation? ?_ ?_
    · rintro rfl hhead
      obtain ⟨more, rfl⟩ := List.head?_eq_some_iff.1 hhead
      exact hline more rfl rfl
    · rintro rfl hhead
      obtain ⟨more, rfl⟩ := List.head?_eq_some_iff.1 hhead
      exact hblock more rfl rfl

theorem infix_lexemes {spans : List Template.Span} {last : Nat} {s : Template.Span} (hs : s ∈ spans)
    (cs : List Char) (stop i : Nat) (closing : Kind) :
    cut (Text.between s.stop (s.close stop) cs) <:+:
      (⟨spans, last⟩ : Template.Pieces).lexemes cs stop i closing := by
  induction spans generalizing i with
  | nil => exact absurd hs List.not_mem_nil
  | cons t ss ih =>
    rw [Template.Pieces.lexemes_cons]
    rcases List.mem_cons.1 hs with rfl | hs
    · exact List.infix_cons (List.prefix_append _ _).isInfix
    · exact List.infix_cons ((ih hs (i + 1)).trans (List.suffix_append _ _).isInfix)

/-- How many braces are open behind the lexemes, `n` of them in front; none if more are closed than have
been opened. -/
def openAfter : Nat → List Lexeme → Option Nat
  | n, [] => some n
  | n, l :: ls =>
    if l.kind = braceOpen then openAfter (n + 1) ls
    else if l.kind = braceClose then if n = 0 then none else openAfter (n - 1) ls
    else openAfter n ls

theorem openAfter_cons {l : Lexeme} (h : isBrace l.kind = false) (n : Nat) (ls : List Lexeme) :
    openAfter n (l :: ls) = openAfter n ls := by
  rw [isBrace, Bool.or_eq_false_iff, beq_eq_false_iff_ne, beq_eq_false_iff_ne] at h
  rw [openAfter, if_neg h.1, if_neg h.2]

/-- The scan of a substitution takes the lexemes for what the lexer takes them. -/
structure Alike (ls : List Lexeme) : Prop where
  /-- The scan sees nothing in a comment that a number sign and an exclamation mark start. -/
  shebang : ∀ l ∈ ls, l.kind = .shebang → ∀ c ∈ l.chars, c ∉ codeMarks
  /-- In no string a backslash takes a carriage return with its line feed. -/
  string : ∀ l ∈ ls, l.kind = stringLiteral → ¬['\\', '\r', '\n'] <:+: l.chars
  /-- No lone carriage return ends a line comment. -/
  comment : ∀ us l m vs, ls = us ++ l :: m :: vs → l.kind = .lineComment → m.chars ≠ ['\r']

theorem Alike.of_infix (h : Alike ms) (hls : ls <:+: ms) : Alike ls where
  shebang l hl := h.shebang l (hls.mem hl)
  string l hl := h.string l (hls.mem hl)
  comment := by
    rintro us l m vs rfl
    obtain ⟨xs, ys, rfl⟩ := hls
    refine h.comment (xs ++ us) l m (vs ++ ys) ?_
    simp

open Template (ascii codeEnd?)
open Text (encode)

variable {depth i : Nat} {zs : List UInt8}

theorem extent_return {vs : List Char} (h : vs.head? ≠ some '\n') : extent '\r' vs = (newline, 0) := by
  unfold extent
  rw [if_neg (by decide), if_neg (by decide), if_neg (by decide), if_neg (by decide)]
  split
  all_goals first | rfl | contradiction

/-- At the end of a line the scan of a line comment is back in code. -/
theorem codeEnd?_lineEnd (hhead : ∀ d ∈ cs.head?, isInLine d = false)
    (hreturn : ∀ vs, cs = '\r' :: vs → vs.head? = some '\n')
    (hend : codeEnd? .lineComment depth i (encode cs ++ ascii '}' :: zs) = some (i + Text.bytes cs)) :
    codeEnd? .code depth i (encode cs ++ ascii '}' :: zs) = some (i + Text.bytes cs) := by
  cases cs with
  | nil => exact absurd (Template.codeEnd?_here hend).1 (by decide)
  | cons d vs =>
    have hd : d = '\n' ∨ d = '\r' := by
      have hd := hhead d rfl
      rw [isInLine, Bool.and_eq_false_iff, bne_eq_false_iff_eq, bne_eq_false_iff_eq] at hd
      exact hd
    have hfeed (j : Nat) (vs : List Char) :
        codeEnd? .code depth j (encode ('\n' :: vs) ++ ascii '}' :: zs) =
          codeEnd? .lineComment depth j (encode ('\n' :: vs) ++ ascii '}' :: zs) := by
      rw [Text.encode_cons_ascii (by decide), List.cons_append, codeEnd?, codeEnd?]
      rfl
    rcases hd with rfl | rfl
    · rw [hfeed, hend]
    · obtain ⟨vs, rfl⟩ := List.head?_eq_some_iff.1 (hreturn vs rfl)
      have hcode : codeEnd? .code depth i (encode ('\r' :: '\n' :: vs) ++ ascii '}' :: zs) =
          codeEnd? .code depth (i + 1) (encode ('\n' :: vs) ++ ascii '}' :: zs) := by
        rw [Text.encode_cons_ascii (by decide), List.cons_append, codeEnd?]
        rfl
      have hcomment : codeEnd? .lineComment depth i (encode ('\r' :: '\n' :: vs) ++ ascii '}' :: zs) =
          codeEnd? .lineComment depth (i + 1) (encode ('\n' :: vs) ++ ascii '}' :: zs) := by
        rw [Text.encode_cons_ascii (by decide), List.cons_append, codeEnd?]
        rfl
      rw [hcode, hfeed, ← hcomment, hend]

/-- The scan goes over a lexeme, with the braces open behind it that the lexer sees open. -/
theorem Scanned.step {n : Nat} (hs : Scanned k c rest n) (hk : k ≠ .garbage)
    (halike : Alike (⟨k, c :: rest.take n⟩ :: cut (rest.drop n)))
    (hend : codeEnd? .code depth i (encode (c :: rest) ++ ascii '}' :: zs) =
      some (i + Text.bytes (c :: rest))) :
    ∃ depth', (∀ ls, openAfter depth (⟨k, c :: rest.take n⟩ :: ls) = openAfter depth' ls) ∧
      codeEnd? .code depth' (i + Text.bytes (c :: rest.take n))
        (encode (rest.drop n) ++ ascii '}' :: zs) = some (i + Text.bytes (c :: rest)) := by
  have hparts : encode (c :: rest) ++ ascii '}' :: zs =
      encode (c :: rest.take n) ++ (encode (rest.drop n) ++ ascii '}' :: zs) := by
    rw [← List.append_assoc, ← Text.encode_append, List.cons_append, List.take_append_drop]
  have hslash : (ascii '}' :: zs).head? ≠ some (ascii '/') := fun h =>
    absurd (Option.some.inj h) (by decide)
  cases hs with
  | garbage => exact absurd rfl hk
  | unmarked hbrace hc hrest =>
    rw [hparts, Template.codeEnd?_chars _ (List.forall_mem_cons.2 ⟨hc, hrest⟩)] at hend
    exact ⟨depth, openAfter_cons hbrace.1 depth, hend⟩
  | shebang =>
    rw [hparts, Template.codeEnd?_chars _ (halike.shebang _ List.mem_cons_self rfl)] at hend
    exact ⟨depth, openAfter_cons rfl depth, hend⟩
  | braceOpen =>
    rw [Text.encode_cons_ascii (by decide), List.cons_append, codeEnd?, if_pos (by decide)] at hend
    exact ⟨depth + 1, fun ls => rfl, hend⟩
  | braceClose =>
    rw [Text.encode_cons_ascii (by decide), List.cons_append, codeEnd?, if_neg (by decide)] at hend
    split at hend
    · have hpos := Text.bytes_pos (List.cons_ne_nil '}' rest)
      have heq := Option.some.inj hend
      omega
    · rename_i hdepth
      rw [if_pos (by decide)] at hend
      refine ⟨depth - 1, fun ls => ?_, hend⟩
      have hne : depth ≠ 0 := by
        rintro rfl
        exact hdepth rfl
      exact if_neg hne
  | string hquote hclosed =>
    have hplain : ¬['\\', '\r', '\n'] <:+: rest.take n := fun hinfix =>
      halike.string _ List.mem_cons_self rfl (List.infix_cons hinfix)
    have hstart : codeEnd? .code depth i (encode (c :: rest) ++ ascii '}' :: zs) =
        codeEnd? (.quoted (ascii c)) depth (i + 1) (encode rest ++ ascii '}' :: zs) := by
      rcases hquote with rfl | rfl
      · rw [Text.encode_cons_ascii (by decide), List.cons_append, codeEnd?]
        rfl
      · rw [Text.encode_cons_ascii (by decide), List.cons_append, codeEnd?]
        rfl
    have hsize : c.utf8Size = 1 := by
      rcases hquote with rfl | rfl
      · rfl
      · rfl
    rw [hstart, Template.codeEnd?_quoted hquote hclosed hplain] at hend
    rw [Text.bytes, hsize, ← Nat.add_assoc]
    exact ⟨depth, openAfter_cons rfl depth, hend⟩
  | @lineComment rest =>
    have htake : rest.take (runLength isInLine rest) = rest.takeWhile isInLine :=
      (List.prefix_iff_eq_take.1 (List.takeWhile_prefix _)).symm
    have hfeed : '\n' ∉ rest.takeWhile isInLine := fun hmem =>
      Bool.false_ne_true (List.all_eq_true.1 List.all_takeWhile '\n' hmem)
    have hstart : codeEnd? .code depth i (encode ('/' :: '/' :: rest) ++ ascii '}' :: zs) =
        codeEnd? .lineComment depth (i + 2) (encode rest ++ ascii '}' :: zs) := by
      rw [Text.encode_cons_ascii (by decide), Text.encode_cons_ascii (by decide), List.cons_append,
        List.cons_append, codeEnd?]
      rfl
    have hrest : encode rest = encode (rest.takeWhile isInLine) ++ encode (rest.dropWhile isInLine) := by
      rw [← Text.encode_append, List.takeWhile_append_dropWhile]
    have hsize : i + Text.bytes ('/' :: '/' :: rest) =
        i + Text.bytes ('/' :: '/' :: rest.takeWhile isInLine) +
          Text.bytes (rest.dropWhile isInLine) := by
      have hbytes := Text.bytes_append (rest.takeWhile isInLine) (rest.dropWhile isInLine)
      rw [List.takeWhile_append_dropWhile] at hbytes
      simp only [Text.bytes, hbytes]
      omega
    have hstop : i + 2 + Text.bytes (rest.takeWhile isInLine) =
        i + Text.bytes ('/' :: '/' :: rest.takeWhile isInLine) := by
      rw [Text.bytes, Text.bytes, show ('/' : Char).utf8Size = 1 from rfl]
      omega
    rw [hstart, hrest, List.append_assoc, Template.codeEnd?_lineComment _ hfeed, hstop, hsize] at hend
    rw [Nat.add_comm 1, List.take_succ_cons, List.drop_succ_cons, htake, drop_runLength] at halike ⊢
    refine ⟨depth, openAfter_cons rfl depth,
      hsize ▸ codeEnd?_lineEnd (fun d hd => ?_) (fun vs hvs => ?_) hend⟩
    · have hnot := List.head?_dropWhile_not isInLine rest
      rw [Option.mem_def.1 hd] at hnot
      exact hnot
    · -- a lone carriage return would be the next lexeme
      refine Decidable.byContradiction fun hnext => ?_
      rw [hvs, cut_cons (by decide)] at halike
      refine halike.comment [] _ _ _ rfl rfl ?_
      rw [extent_return hnext, List.take_zero]
  | @blockComment rest n hblock =>
    have hstart : codeEnd? .code depth i (encode ('/' :: '*' :: rest) ++ ascii '}' :: zs) =
        codeEnd? .blockComment depth (i + 2) (encode rest ++ ascii '}' :: zs) := by
      rw [Text.encode_cons_ascii (by decide), Text.encode_cons_ascii (by decide), List.cons_append,
        List.cons_append, codeEnd?]
      rfl
    have hstop : i + 2 + Text.bytes (rest.take n) = i + Text.bytes ('/' :: '*' :: rest.take n) := by
      rw [Text.bytes, Text.bytes, show ('/' : Char).utf8Size = 1 from rfl,
        show ('*' : Char).utf8Size = 1 from rfl]
      omega
    rw [hstart, Template.codeEnd?_blockComment hslash, hblock] at hend
    rw [Nat.add_comm 1, List.take_succ_cons, List.drop_succ_cons, ← hstop]
    exact ⟨depth, openAfter_cons rfl depth, hend⟩
  | @openComment rest hblock =>
    have hstart : codeEnd? .code depth i (encode ('/' :: '*' :: rest) ++ ascii '}' :: zs) =
        codeEnd? .blockComment depth (i + 2) (encode rest ++ ascii '}' :: zs) := by
      rw [Text.encode_cons_ascii (by decide), Text.encode_cons_ascii (by decide), List.cons_append,
        List.cons_append, codeEnd?]
      rfl
    have hstop : i + 2 + Text.bytes rest = i + Text.bytes ('/' :: '*' :: rest) := by
      rw [Text.bytes, Text.bytes, show ('/' : Char).utf8Size = 1 from rfl,
        show ('*' : Char).utf8Size = 1 from rfl]
      omega
    rw [hstart, Template.codeEnd?_blockComment hslash, hblock] at hend
    dsimp only at hend
    rw [hstop] at hend
    exact absurd (Template.codeEnd?_here hend).1 (by decide)
  | slash hline hblock =>
    have hhead {mark : Char} (hmark : mark.toNat < 0x80) (hbrace : ascii '}' ≠ ascii mark)
        (hrest : rest.head? ≠ some mark) :
        (encode rest ++ ascii '}' :: zs).head? ≠ some (ascii mark) := by
      cases rest with
      | nil => exact fun h => hbrace (Option.some.inj h)
      | cons d rest => exact fun h => hrest (congrArg some (Text.eq_of_head?_encode hmark h))
    have hclose : ('/'.toUInt8 == ascii '}') = false := by decide
    have hstart : codeEnd? .code depth i (encode ('/' :: rest) ++ ascii '}' :: zs) =
        codeEnd? .code depth (i + 1) (encode rest ++ ascii '}' :: zs) := by
      rw [Text.encode_cons_ascii (by decide), List.cons_append, codeEnd?, if_neg (by decide),
        if_neg (by simp only [hclose, Bool.false_and, Bool.false_eq_true, not_false_eq_true]),
        if_neg (by decide), if_neg (by decide), if_neg (by decide),
        if_neg (by simpa using fun _ => hhead (by decide) (by decide) hline),
        if_neg (by simpa using fun _ => hhead (by decide) (by decide) hblock)]
    rw [hstart] at hend
    exact ⟨depth, openAfter_cons rfl depth, hend⟩

theorem openAfter_append (n : Nat) (ls ms : List Lexeme) :
    openAfter n (ls ++ ms) = (openAfter n ls).bind (openAfter · ms) := by
  induction ls generalizing n with
  | nil => rfl
  | cons l ls ih =>
    rw [List.cons_append, openAfter, openAfter]
    split
    · exact ih _
    split
    · split
      · rfl
      · exact ih _
    · exact ih _

/-- Braces that are open in front stay open. -/
theorem openAfter_add {n m : Nat} (h : openAfter n ls = some m) (k : Nat) :
    openAfter (k + n) ls = some (k + m) := by
  induction ls generalizing n with
  | nil =>
    obtain rfl := Option.some.inj h
    rfl
  | cons l ls ih =>
    rw [openAfter] at h ⊢
    split at h
    · rw [if_pos ‹_›, Nat.add_assoc]
      exact ih h
    split at h
    · split at h
      · cases h
      · rename_i hopen hclose hn
        rw [if_neg hopen, if_pos hclose, if_neg (by omega), Nat.add_sub_assoc (by omega)]
        exact ih h
    · rename_i hopen hclose
      rw [if_neg hopen, if_neg hclose]
      exact ih h

/-- A template leaves as many braces open as there were, if each of its substitutions does. -/
theorem openAfter_pieces {spans : List Template.Span} {last stop : Nat} {closing : Kind}
    (hclosing : isBrace closing = false)
    (h : ∀ s ∈ spans, openAfter 0 (cut (Text.between s.stop (s.close stop) cs)) = some 0) (i n : Nat) :
    openAfter n ((⟨spans, last⟩ : Template.Pieces).lexemes cs stop i closing) = some n := by
  induction spans generalizing i with
  | nil => exact openAfter_cons (l := ⟨closing, _⟩) hclosing n []
  | cons s ss ih =>
    obtain ⟨hs, hss⟩ := List.forall_mem_cons.1 h
    have hpiece : isBrace (if i == 0 then Kind.templateHead else .templateMiddle) = false := by
      split <;> rfl
    rw [Template.Pieces.lexemes_cons, openAfter_cons hpiece, openAfter_append]
    have hcode := openAfter_add hs n
    rw [Nat.add_zero] at hcode
    rw [hcode]
    exact ih hss (i + 1)

/-- If a scan ends behind the text, as many braces are closed in it as are open in front of it and in it. -/
theorem openAfter_cut (hgarbage : ∀ l ∈ cut cs, l.kind ≠ garbage) (halike : Alike (cut cs))
    (hend : codeEnd? .code depth i (encode cs ++ ascii '}' :: zs) = some (i + Text.bytes cs)) :
    openAfter depth (cut cs) = some 0 := by
  induction cs using cut.induct generalizing depth i zs with
  | case1 =>
    obtain ⟨-, rfl⟩ := Template.codeEnd?_here hend
    rw [cut]
    rfl
  | case2 rest h =>
    rw [cut, dif_pos rfl] at hgarbage
    split at hgarbage
    · exact absurd rfl (hgarbage _ List.mem_cons_self)
    · rename_i stop hstop
      rw [h] at hstop
      cases hstop
  | case3 rest stop h p ihcode =>
    rename_i ihrest
    obtain ⟨closing, hlast, hcut⟩ : ∃ closing, isBrace closing = false ∧ cut ('`' :: rest) =
        p.lexemes ('`' :: rest) stop 0 closing ++ cut (Text.dropBytes stop ('`' :: rest)) :=
      ⟨_, by split <;> rfl, cut_tick h⟩
    rw [hcut] at hgarbage halike ⊢
    -- the scan has gone over the template to the code behind it
    obtain ⟨xs, ys, hbytes, hstop, hscan⟩ := Template.bodyEnd?_ends h
    have hnested (us : List UInt8) :
        Template.bodyEnd? (i + 1) (xs ++ ascii '`' :: us) = some (i + stop) := by
      rw [Template.bodyEnd?_add, hscan]
      rfl
    obtain ⟨us, vs, hparts, hus⟩ := (Template.pieces_fit h).2
    have hdrop : Text.dropBytes stop ('`' :: rest) = vs := by
      rw [hparts, ← hus, Text.dropBytes_append]
    have hys : ys = encode vs := by
      have hall : encode us ++ encode vs = (ascii '`' :: (xs ++ [ascii '`'])) ++ ys := by
        rw [← Text.encode_append, ← hparts, Text.encode_cons_ascii (by decide), hbytes]
        simp [ascii, Char.toUInt8]
      refine (List.append_inj_right hall ?_).symm
      rw [Text.length_encode, hus, hstop]
      simp
      omega
    have hsize : i + Text.bytes ('`' :: rest) = i + stop + Text.bytes vs := by
      rw [hparts, Text.bytes_append, hus, Nat.add_assoc]
    have hbehind : codeEnd? .code depth (i + stop) (encode vs ++ ascii '}' :: zs) =
        some (i + stop + Text.bytes vs) := by
      rw [← hsize, ← hend, Text.encode_cons_ascii (by decide), hbytes, hys, List.cons_append,
        List.append_assoc, List.cons_append]
      exact (Template.codeEnd?_nested (by omega) hnested _).symm
    rw [hdrop] at hgarbage halike ihrest ⊢
    rw [openAfter_append, openAfter_pieces hlast fun s hs => ?_]
    · exact ihrest (fun l hl => hgarbage l (List.mem_append_right _ hl))
        (halike.of_infix (List.suffix_append _ _).isInfix) hbehind
    · have hpart : cut (Text.between s.stop (s.close stop) ('`' :: rest)) <:+:
          p.lexemes ('`' :: rest) stop 0 closing ++ cut vs :=
        (infix_lexemes hs _ _ _ _).trans (List.prefix_append _ _).isInfix
      obtain ⟨zs, hscanned⟩ := Template.codeEnd?_span h hs
      exact ihcode s hs (fun l hl => hgarbage l (hpart.mem hl)) (halike.of_infix hpart) hscanned
  | case4 c rest hc kind n hext ih =>
    rw [cut_cons hc, hext] at hgarbage halike ⊢
    have hscanned := scanned_extent c rest
    rw [hext] at hscanned
    obtain ⟨hkind, hrest⟩ := List.forall_mem_cons.1 hgarbage
    obtain ⟨depth', hopen, hnext⟩ := hscanned.step hkind halike hend
    have hsize : i + Text.bytes (c :: rest) =
        i + Text.bytes (c :: rest.take n) + Text.bytes (rest.drop n) := by
      rw [Nat.add_assoc, ← Text.bytes_append, List.cons_append, List.take_append_drop]
    rw [hopen]
    exact ih hrest (halike.of_infix (List.suffix_cons _ _).isInfix) (hsize ▸ hnext)

/-! ## Balanced substitutions -/

def countKind (k : Kind) (ls : List Lexeme) : Nat := ls.countP (·.kind == k)

/-- There are as many closing braces as opening ones, and nowhere more have been closed than opened. -/
structure Balanced (ls : List Lexeme) : Prop where
  opened : ∀ n, countKind braceClose (ls.take n) ≤ countKind braceOpen (ls.take n)
  closed : countKind braceOpen ls = countKind braceClose ls

theorem countKind_of_openAfter {n m : Nat} (h : openAfter n ls = some m) :
    (∀ k, countKind braceClose (ls.take k) ≤ n + countKind braceOpen (ls.take k)) ∧
      n + countKind braceOpen ls = m + countKind braceClose ls := by
  have hkinds : braceOpen ≠ braceClose := by decide
  induction ls generalizing n with
  | nil =>
    obtain rfl := Option.some.inj h
    exact ⟨fun k => by simp [countKind], rfl⟩
  | cons l ls ih =>
    have hstep {p : Nat} (hp : openAfter p ls = some m)
        (hl : p + countKind braceClose [l] = n + countKind braceOpen [l])
        (hpos : countKind braceClose [l] ≤ n + countKind braceOpen [l]) :
        (∀ k, countKind braceClose ((l :: ls).take k) ≤ n + countKind braceOpen ((l :: ls).take k)) ∧
          n + countKind braceOpen (l :: ls) = m + countKind braceClose (l :: ls) := by
      have hcons (k : Kind) (ls : List Lexeme) :
          countKind k (l :: ls) = countKind k [l] + countKind k ls := by
        rw [countKind, ← List.singleton_append, List.countP_append]
        rfl
      obtain ⟨hopened, hclosed⟩ := ih hp
      refine ⟨fun k => ?_, ?_⟩
      · cases k with
        | zero => simp [countKind]
        | succ k =>
          have hk := hopened k
          rw [List.take_succ_cons, hcons, hcons braceOpen]
          omega
      · rw [hcons, hcons braceClose]
        omega
    rw [openAfter] at h
    split at h
    · rename_i hkind
      exact hstep h (by simp [countKind, hkind]) (by simp [countKind, hkind])
    split at h
    · rename_i hkind
      split at h
      · cases h
      · exact hstep h (by simp [countKind, hkind]; omega) (by simp [countKind, hkind]; omega)
    · rename_i hopen hclose
      exact hstep h (by simp [countKind, hopen, hclose]) (by simp [countKind, hopen, hclose])

theorem balanced_of_openAfter (h : openAfter 0 ls = some 0) : Balanced ls := by
  obtain ⟨hopened, hclosed⟩ := countKind_of_openAfter h
  refine ⟨fun n => ?_, ?_⟩
  · have hn := hopened n
    rwa [Nat.zero_add] at hn
  · rwa [Nat.zero_add, Nat.zero_add] at hclosed

/-- The lexemes up to the next piece of a template that is open in front of them, when as many further
templates are open as `level` says; none if there is no such piece. -/
def substitution? (level : Nat) : List Lexeme → Option (List Lexeme)
  | [] => none
  | l :: ls =>
    if l.kind = .templateHead then (substitution? (level + 1) ls).map (l :: ·)
    else if l.kind = .templateMiddle ∨ l.kind = .templateTail then
      if level = 0 then some []
      else (substitution? (if l.kind = .templateTail then level - 1 else level) ls).map (l :: ·)
    else (substitution? level ls).map (l :: ·)

/-- A substitution starts behind the lexeme. -/
def Opens (l : Lexeme) : Prop := l.kind = .templateHead ∨ l.kind = .templateMiddle

/-- The lexemes are balanced if the scan takes them for what they are. -/
def Sound (ls : List Lexeme) : Prop := (∀ l ∈ ls, l.kind ≠ garbage) → Alike ls → Balanced ls

/-- Behind every lexeme that opens a substitution, a sound one is found. -/
def SoundWithin (ls : List Lexeme) : Prop :=
  ∀ us l vs, ls = us ++ l :: vs → Opens l → ∃ ms, substitution? 0 vs = some ms ∧ Sound ms

theorem substitution?_append {level : Nat} (h : substitution? level ls = some ms) (vs : List Lexeme) :
    substitution? level (ls ++ vs) = some ms := by
  induction ls generalizing level ms with
  | nil => cases h
  | cons l ls ih =>
    have hstep {level : Nat} (h : (substitution? level ls).map (l :: ·) = some ms) :
        (substitution? level (ls ++ vs)).map (l :: ·) = some ms := by
      obtain ⟨ns, hns, rfl⟩ := Option.map_eq_some_iff.1 h
      rw [ih hns, Option.map_some]
    rw [substitution?] at h
    rw [List.cons_append, substitution?]
    split_ifs at h ⊢
    · exact hstep h
    · exact h
    · exact hstep h
    · exact hstep h
    · exact hstep h

theorem mem_of_mem_substitution? {level : Nat} {m : Lexeme} (h : substitution? level ls = some ms)
    (hm : m ∈ ms) : m ∈ ls := by
  induction ls generalizing level ms with
  | nil => cases h
  | cons l ls ih =>
    have hstep {level : Nat} (h : (substitution? level ls).map (l :: ·) = some ms) : m ∈ l :: ls := by
      obtain ⟨ns, hns, rfl⟩ := Option.map_eq_some_iff.1 h
      rcases List.mem_cons.1 hm with rfl | hm
      · exact List.mem_cons_self
      · exact List.mem_cons_of_mem l (ih hns hm)
    rw [substitution?] at h
    split_ifs at h
    · exact hstep h
    · obtain rfl := Option.some.inj h
      exact absurd hm List.not_mem_nil
    · exact hstep h
    · exact hstep h
    · exact hstep h

theorem SoundWithin.append (h : SoundWithin ls) (h' : SoundWithin ms) : SoundWithin (ls ++ ms) := by
  intro us l vs hsplit hl
  rcases List.append_eq_append_iff.1 hsplit with ⟨ws, rfl, hms⟩ | ⟨ws, hls, hvs⟩
  · exact h' ws l vs hms hl
  · cases ws with
    | nil => exact h' [] l vs hvs.symm hl
    | cons w ws =>
      obtain ⟨rfl, rfl⟩ := List.cons.inj hvs
      obtain ⟨ns, hns, hsound⟩ := h us _ ws hls hl
      exact ⟨ns, substitution?_append hns ms, hsound⟩

theorem SoundWithin.cons {l : Lexeme} (h : SoundWithin ls)
    (hl : Opens l → ∃ ms, substitution? 0 ls = some ms ∧ Sound ms) : SoundWithin (l :: ls) := by
  intro us m vs hsplit hm
  cases us with
  | nil =>
    obtain ⟨rfl, rfl⟩ := List.cons.inj hsplit
    exact hl hm
  | cons u us => exact h us m vs (List.cons.inj hsplit).2 hm

/-- Every template that is opened in the lexemes is closed in them, and the substitutions are sound. -/
structure Nested (ls : List Lexeme) : Prop where
  passed : ∀ level ms, substitution? level (ls ++ ms) = (substitution? level ms).map (ls ++ ·)
  sound : SoundWithin ls

theorem Nested.nil : Nested [] :=
  ⟨fun level ms => by simp, fun us l vs h => by simp at h⟩

theorem Nested.append (h : Nested ls) (h' : Nested ms) : Nested (ls ++ ms) := by
  refine ⟨fun level ns => ?_, h.sound.append h'.sound⟩
  rw [List.append_assoc, h.passed, h'.passed, Option.map_map]
  exact congrArg (Option.map · _) (funext fun ns => (List.append_assoc ls ms ns).symm)

theorem Nested.single {l : Lexeme} (hpiece : isPiece l.kind = false) : Nested [l] := by
  have hl : l.kind ≠ .templateHead ∧ l.kind ≠ .templateMiddle ∧ l.kind ≠ .templateTail := by
    simpa [isPiece, and_assoc] using hpiece
  refine ⟨fun level ms => ?_, SoundWithin.cons Nested.nil.sound fun hopens => ?_⟩
  · rw [List.singleton_append, substitution?, if_neg hl.1, if_neg (by simp [hl])]
    rfl
  · exact absurd hopens (by simp [Opens, hl])

/-- What stands behind a piece of a template, up to the end of the template. -/
structure Remainder (ls : List Lexeme) : Prop where
  passed : ∀ level ms, substitution? (level + 1) (ls ++ ms) = (substitution? level ms).map (ls ++ ·)
  first : ∃ ms, substitution? 0 ls = some ms ∧ Sound ms
  sound : SoundWithin ls

theorem substitution?_piece {code : List Lexeme} (h : Nested code) {l : Lexeme}
    (hl : l.kind = .templateMiddle ∨ l.kind = .templateTail) (ls : List Lexeme) :
    substitution? 0 (code ++ l :: ls) = some code := by
  have hhead : l.kind ≠ .templateHead := by
    rcases hl with hl | hl
    · rw [hl]; decide
    · rw [hl]; decide
  rw [h.passed, substitution?, if_neg hhead, if_pos hl, if_pos rfl, Option.map_some, List.append_nil]

theorem Remainder.tail {code : List Lexeme} (h : Nested code) (hcode : Sound code) {l : Lexeme}
    (hl : l.kind = .templateTail) : Remainder (code ++ [l]) := by
  refine ⟨fun level ms => ?_, ⟨code, substitution?_piece h (.inr hl) [], hcode⟩, ?_⟩
  · rw [List.append_assoc, h.passed, List.singleton_append, substitution?, if_neg (by simp [hl]),
      if_pos (.inr hl), if_neg (Nat.succ_ne_zero level), if_pos hl, Option.map_map]
    exact congrArg (Option.map · _) (funext fun ns => (List.append_assoc code [l] ns).symm)
  · exact h.sound.append
      (SoundWithin.cons Nested.nil.sound fun hopens => absurd hopens (by simp [Opens, hl]))

theorem Remainder.middle {code : List Lexeme} (h : Nested code) (hcode : Sound code) {l : Lexeme}
    (hl : l.kind = .templateMiddle) (hls : Remainder ls) : Remainder (code ++ l :: ls) := by
  refine ⟨fun level ms => ?_, ⟨code, substitution?_piece h (.inl hl) ls, hcode⟩, ?_⟩
  · rw [List.append_assoc, h.passed, List.cons_append, substitution?, if_neg (by simp [hl]),
      if_pos (.inl hl), if_neg (Nat.succ_ne_zero level), if_neg (by simp [hl]), hls.passed,
      Option.map_map, Option.map_map]
    exact congrArg (Option.map · _) (funext fun ns => (List.append_assoc code (l :: ls) ns).symm)
  · exact h.sound.append (hls.sound.cons fun _ => hls.first)

theorem Nested.template {l : Lexeme} (hl : l.kind = .templateHead) (hls : Remainder ls) :
    Nested (l :: ls) := by
  refine ⟨fun level ms => ?_, hls.sound.cons fun _ => hls.first⟩
  rw [List.cons_append, substitution?, if_pos hl, hls.passed, Option.map_map]
  rfl

/-- The pieces of a template behind the first one. -/
theorem remainder_pieces {stop last : Nat} (s : Template.Span) (spans : List Template.Span)
    (h : ∀ t ∈ s :: spans, Nested (cut (Text.between t.stop (t.close stop) cs)) ∧
      Sound (cut (Text.between t.stop (t.close stop) cs))) (i : Nat) :
    Remainder (cut (Text.between s.stop (s.close stop) cs) ++
      (⟨spans, last⟩ : Template.Pieces).lexemes cs stop (i + 1) .templateTail) := by
  induction spans generalizing s i with
  | nil =>
    obtain ⟨hnested, hsound⟩ := h s List.mem_cons_self
    exact .tail hnested hsound rfl
  | cons t ss ih =>
    obtain ⟨⟨hnested, hsound⟩, hrest⟩ := List.forall_mem_cons.1 h
    rw [Template.Pieces.lexemes_cons]
    exact .middle hnested hsound rfl (ih t hrest (i + 1))

theorem Scanned.isPiece {n : Nat} (h : Scanned k c rest n) : Token.isPiece k = false := by
  cases h with
  | unmarked h => exact h.2
  | _ => rfl

theorem nested_cut (cs : List Char) : Nested (cut cs) := by
  induction cs using cut.induct with
  | case1 =>
    rw [cut]
    exact .nil
  | case2 rest h =>
    rw [cut, dif_pos rfl]
    split
    · exact .single rfl
    · rename_i stop hstop
      rw [h] at hstop
      cases hstop
  | case3 rest stop h p ihcode =>
    rename_i ihrest
    have hcode (s : Template.Span) (hs : s ∈ p.spans) :
        Nested (cut (Text.between s.stop (s.close stop) ('`' :: rest))) ∧
          Sound (cut (Text.between s.stop (s.close stop) ('`' :: rest))) := by
      obtain ⟨zs, hscanned⟩ := Template.codeEnd?_span h hs
      exact ⟨ihcode s hs, fun hgarbage halike =>
        balanced_of_openAfter (openAfter_cut hgarbage halike hscanned)⟩
    have hcut : cut ('`' :: rest) = p.lexemes ('`' :: rest) stop 0
        (if p.spans.isEmpty then .noSubstitutionTemplate else .templateTail) ++ _ := cut_tick h
    rw [hcut]
    refine Nested.append ?_ ihrest
    clear hcut
    clear_value p
    obtain ⟨spans, last⟩ := p
    cases spans with
    | nil => exact .single rfl
    | cons s spans =>
      rw [Template.Pieces.lexemes_cons]
      exact .template rfl (remainder_pieces s spans hcode 0)
  | case4 c rest hc kind n hext ih =>
    rw [cut_cons hc, ← List.singleton_append]
    refine Nested.append (.single (scanned_extent c rest).isPiece) ?_
    rw [hext]
    exact ih

/-! ## Tokens -/

theorem map_lexeme_place (start : Nat) (ls : List Lexeme) : (place start ls).map lexeme = ls := by
  induction ls generalizing start with
  | nil => rfl
  | cons l ls ih => rw [place, List.map_cons, ih, lexeme, String.toList_ofList]

theorem map_lexeme_lex (text : String) : (lex text).map lexeme = lexemes text.toList :=
  map_lexeme_place 0 _

/-- Garbage that is joined is still garbage. -/
theorem joinGarbage_eq_self (h : ∀ l ∈ joinGarbage ls, l.kind ≠ garbage) : joinGarbage ls = ls := by
  induction ls with
  | nil => rfl
  | cons l ls ih =>
    by_cases hl : l.kind = garbage
    · rw [joinGarbage] at h
      split at h
      · exact absurd rfl (h _ List.mem_cons_self)
      · exact absurd hl (h _ List.mem_cons_self)
    · rw [joinGarbage_cons hl] at h ⊢
      rw [ih (List.forall_mem_cons.1 h).2]

theorem nested_lexemes (h : ∀ l ∈ lexemes cs, l.kind ≠ garbage) : Nested (lexemes cs) := by
  unfold lexemes at h ⊢
  split at h
  · rename_i rest
    rw [joinGarbage_eq_self (List.forall_mem_cons.1 h).2, ← List.singleton_append]
    exact Nested.append (.single rfl) (nested_cut rest)
  · rw [joinGarbage_eq_self h]
    exact nested_cut cs

/-- In a text without garbage a substitution follows every piece of a template but the last, up to the next
piece of the same template, and its braces are balanced if the scan that has looked for its end takes the
lexemes in it for what they are. -/
theorem substitution_balanced (text : String) (hgarbage : ∀ t ∈ lex text, t.kind ≠ garbage)
    (us : List Lexeme) (l : Lexeme) (vs : List Lexeme) (hsplit : (lex text).map lexeme = us ++ l :: vs)
    (hl : Opens l) : ∃ ms, substitution? 0 vs = some ms ∧ (Alike ms → Balanced ms) := by
  have hlexemes : ∀ l ∈ lexemes text.toList, l.kind ≠ garbage := by
    intro l hmem
    rw [← map_lexeme_lex] at hmem
    obtain ⟨t, ht, rfl⟩ := List.mem_map.1 hmem
    exact hgarbage t ht
  rw [map_lexeme_lex] at hsplit
  obtain ⟨ms, hms, hsound⟩ := (nested_lexemes hlexemes).sound us l vs hsplit hl
  refine ⟨ms, hms, hsound fun m hm => hlexemes m ?_⟩
  rw [hsplit]
  exact List.mem_append_right us (List.mem_cons_of_mem l (mem_of_mem_substitution? hms hm))

/-- A brace in a string is none to the scan either. -/
theorem substitution_balanced_quoted :
    let code : List Lexeme := [⟨braceOpen, ['{']⟩, ⟨ident, ['a']⟩, ⟨colon, [':']⟩,
      ⟨stringLiteral, ['"', '}', '"']⟩, ⟨braceClose, ['}']⟩]
    let vs := code ++ [⟨.templateTail, ['}', '`']⟩]
    (∀ t ∈ lex "`$\x7b\x7ba:\"\x7d\"\x7d\x7d`", t.kind ≠ garbage) ∧
      (lex "`$\x7b\x7ba:\"\x7d\"\x7d\x7d`").map lexeme =
        [] ++ ⟨.templateHead, ['`', '$', '{']⟩ :: vs ∧
      Opens ⟨.templateHead, ['`', '$', '{']⟩ ∧ substitution? 0 vs = some code ∧ Alike code ∧
      Balanced code := by
  intro code vs
  have hlexemes : (lex "`$\x7b\x7ba:\"\x7d\"\x7d\x7d`").map lexeme =
      ⟨.templateHead, ['`', '$', '{']⟩ :: vs := by
    have htext : "`$\x7b\x7ba:\"\x7d\"\x7d\x7d`".toList =
        ['`', '$', '{', '{', 'a', ':', '"', '}', '"', '}', '}', '`'] := by cbv
    have hend : Template.bodyEnd? 1 (encode ['$', '{', '{', 'a', ':', '"', '}', '"', '}', '}', '`']) =
        some 12 := by cbv
    have hcut : cut ['`', '$', '{', '{', 'a', ':', '"', '}', '"', '}', '}', '`'] =
        ⟨.templateHead, ['`', '$', '{']⟩ :: vs := by
      rw [cut_tick hend]
      cbv
    rw [map_lexeme_lex, htext]
    exact (congrArg joinGarbage hcut).trans (joinGarbage_eq (by decide))
  have hgarbage : ∀ t ∈ lex "`$\x7b\x7ba:\"\x7d\"\x7d\x7d`", t.kind ≠ garbage := by
    intro t ht
    have hall : ∀ l ∈ (⟨.templateHead, ['`', '$', '{']⟩ :: vs : List Lexeme), l.kind ≠ garbage := by
      decide
    exact hall t.lexeme (hlexemes ▸ List.mem_map_of_mem ht)
  have halike : Alike code := by
    have hcomment : ∀ l ∈ code, l.kind ≠ .lineComment := by decide
    refine ⟨by decide, by decide, fun us l m vs hcode hl => ?_⟩
    exact absurd hl (hcomment l (hcode ▸ List.mem_append_right us List.mem_cons_self))
  have hcode : substitution? 0 vs = some code := by decide
  have hopens : Opens ⟨.templateHead, ['`', '$', '{']⟩ := .inl rfl
  obtain ⟨ms, hms, hbalanced⟩ := substitution_balanced _ hgarbage [] _ vs hlexemes hopens
  obtain rfl := Option.some.inj (hcode.symm.trans hms)
  exact ⟨hgarbage, hlexemes, hopens, hcode, halike, hbalanced halike⟩

end DeclKit.Token

/-
The two scans of a template agree.

The first scan runs over everything behind the opening backtick, the second over the bytes up to the
closing one, and the second has to find the end of every substitution where the first one passed it.
That is so because a scan never looks behind the byte at which it ends: from the same bytes up to
there it ends in the same place, whatever comes next. The bytes a scan reads need not be the beginnings
of characters, since a backslash may take a part of a character with it. But wherever a piece is cut
there is an ASCII byte, so pieces are cut between characters.
-/
import DeclKit.Proofs.Text.Offset
import DeclKit.Token.Template

set_option autoImplicit false

namespace DeclKit.Template

variable {scan scan' : Nat → List UInt8 → Option Nat} {mark b : UInt8} {bs xs : List UInt8}
  {extra i n : Nat}

/-! ## A scan reads no further than its end -/

/-- The scan from offset `i` ends at the byte `mark`, `extra` bytes behind which its answer `n` lies,
and would do so whatever stood behind that byte. -/
def Ends (scan : Nat → List UInt8 → Option Nat) (mark : UInt8) (extra i : Nat) (bs : List UInt8)
    (n : Nat) : Prop :=
  ∃ xs ys, bs = xs ++ mark :: ys ∧ n = i + xs.length + extra ∧
    ∀ zs, scan i (xs ++ mark :: zs) = some n

/-- A scan that ends at the very first byte. -/
theorem Ends.here (h : ∀ zs, scan i (mark :: zs) = some (i + extra)) :
    Ends scan mark extra i (mark :: bs) (i + extra) :=
  ⟨[], bs, rfl, rfl, h⟩

/-- A scan ends where the scan ends that it goes on with behind some first bytes. It may look at one
byte more to decide that. -/
theorem Ends.behind {p : List UInt8} {j : Nat} (hj : j = i + p.length)
    (h : Ends scan' mark extra j bs n)
    (hs : ∀ us, us.head? = bs.head? → scan i (p ++ us) = scan' j us) :
    Ends scan mark extra i (p ++ bs) n := by
  obtain ⟨us, ys, rfl, rfl, hus⟩ := h
  refine ⟨p ++ us, ys, (List.append_assoc ..).symm, by rw [List.length_append]; omega,
    fun zs => ?_⟩
  rw [List.append_assoc, hs, hus]
  cases us <;> rfl

/-- A scan that goes on behind its first byte. -/
theorem Ends.step (h : Ends scan' mark extra (i + 1) bs n)
    (hs : ∀ us, us.head? = bs.head? → scan i (b :: us) = scan' (i + 1) us) :
    Ends scan mark extra i (b :: bs) n :=
  Ends.behind (p := [b]) rfl h hs

/-- A scan that takes the second byte with the first one. -/
theorem Ends.skip (h : Ends scan' mark extra (i + 2) (bs.drop 1) n)
    (hs : ∀ us, us.head? = bs.head? → scan i (b :: us) = scan' (i + 2) (us.drop 1)) :
    Ends scan mark extra i (b :: bs) n := by
  cases bs with
  | nil =>
    obtain ⟨us, ys, hus, -⟩ := h
    cases us <;> cases hus
  | cons c bs => exact Ends.behind (p := [b, c]) rfl h fun us _ => hs (c :: us) rfl

theorem drop_behind (xs us : List UInt8) {k : Nat} (h : k = xs.length + 1) :
    (xs ++ mark :: us).drop k = us := by
  rw [List.append_cons]
  exact List.drop_left' (by rw [h, List.length_append, List.length_singleton])

/-- What opens a substitution and what stands behind it, when the end of the substitution is found. -/
theorem opened {close : Nat} (hopen : (b == ascii '$' && bs.head? == some (ascii '{')) = true)
    (h : Ends (codeEnd? .code 0) (ascii '}') 0 (i + 2) (bs.drop 1) close) :
    b = ascii '$' ∧ ∃ xs ys, bs = ascii '{' :: (xs ++ ascii '}' :: ys) ∧
      close = i + 2 + xs.length ∧
      ∀ zs, codeEnd? .code 0 (i + 2) (xs ++ ascii '}' :: zs) = some close := by
  obtain ⟨xs, ys, hbs, hclose, hscan⟩ := h
  rw [Bool.and_eq_true, beq_iff_eq, beq_iff_eq] at hopen
  refine ⟨hopen.1, xs, ys, ?_, hclose, hscan⟩
  cases bs with
  | nil => simp at hopen
  | cons c bs =>
    obtain rfl := Option.some.inj hopen.2
    exact congrArg (ascii '{' :: ·) hbs

/-- The first scan goes on behind a substitution. -/
theorem bodyEnd?_opened {close : Nat} (hclose : close = i + 2 + xs.length)
    (hscan : ∀ zs, codeEnd? .code 0 (i + 2) (xs ++ ascii '}' :: zs) = some close)
    (us : List UInt8) :
    bodyEnd? i (ascii '$' :: ascii '{' :: (xs ++ ascii '}' :: us)) = bodyEnd? (close + 1) us := by
  have hdrop : (ascii '{' :: xs ++ ascii '}' :: us).drop (close - i) = us :=
    drop_behind _ us (by rw [List.length_cons]; omega)
  rw [bodyEnd?, if_neg (by decide), if_neg (by decide), if_pos (by simp), List.drop_one,
    List.tail_cons, hscan]
  exact congrArg (bodyEnd? (close + 1)) hdrop

/-- The scan of a substitution goes on behind a template in it. -/
theorem codeEnd?_nested {depth stop : Nat} (hstop : stop = i + 1 + xs.length + 1)
    (hscan : ∀ zs, bodyEnd? (i + 1) (xs ++ ascii '`' :: zs) = some stop) (us : List UInt8) :
    codeEnd? .code depth i (ascii '`' :: (xs ++ ascii '`' :: us)) =
      codeEnd? .code depth stop us := by
  have hbrace : (ascii '`' == ascii '}') = false := by decide
  rw [codeEnd?, if_neg (by decide), if_neg (by simp [hbrace]), if_neg (by decide),
    if_neg (by decide), if_pos (by decide), hscan]
  exact congrArg (codeEnd? .code depth stop) (drop_behind _ us (by omega))

mutual

/-- The first scan ends at the closing backtick, whatever stands behind it. -/
theorem bodyEnd?_ends {i n : Nat} {bs : List UInt8} (h : bodyEnd? i bs = some n) :
    Ends bodyEnd? (ascii '`') 1 i bs n := by
  match bs with
  | [] => simp [bodyEnd?] at h
  | b :: bs =>
    rw [bodyEnd?] at h
    split at h
    · rename_i hb
      exact (bodyEnd?_ends h).skip fun us _ => by rw [bodyEnd?, if_pos hb]
    split at h
    · rename_i hesc hb
      obtain rfl := Option.some.inj h
      obtain rfl := eq_of_beq hb
      exact Ends.here fun zs => by rw [bodyEnd?, if_neg hesc, if_pos hb]
    split at h
    · rename_i hesc htick hopen
      split at h
      · simp at h
      · -- the scan of the substitution ends at its brace, and this one goes on behind that
        rename_i close hclose
        obtain ⟨rfl, xs, ys, rfl, hcl, hscan⟩ := opened hopen (codeEnd?_ends hclose)
        rw [← List.cons_append, drop_behind _ _ (by rw [List.length_cons]; omega)] at h
        rw [List.append_cons, ← List.cons_append, ← List.cons_append]
        refine Ends.behind ?_ (bodyEnd?_ends h) fun us _ => ?_
        · simp only [List.length_cons, List.length_append, List.length_nil]
          omega
        · rw [List.cons_append, List.cons_append, ← List.append_cons, bodyEnd?_opened hcl hscan]
    · rename_i hesc htick hopen
      exact (bodyEnd?_ends h).step fun us hus => by
        rw [bodyEnd?, if_neg hesc, if_neg htick, if_neg (by rw [hus]; exact hopen)]
termination_by bs.length

/-- The scan of a substitution ends at its closing brace, whatever stands behind it. -/
theorem codeEnd?_ends {inside : Inside} {depth i n : Nat} {bs : List UInt8}
    (h : codeEnd? inside depth i bs = some n) :
    Ends (codeEnd? inside depth) (ascii '}') 0 i bs n := by
  match inside, bs with
  | _, [] => simp [codeEnd?] at h
  | .code, b :: bs =>
    rw [codeEnd?] at h
    split at h
    · rename_i hb
      exact (codeEnd?_ends h).step fun us _ => by rw [codeEnd?, if_pos hb]
    split at h
    · rename_i hopen hb
      obtain rfl := Option.some.inj h
      obtain rfl := eq_of_beq (Bool.and_eq_true_iff.1 hb).1
      exact Ends.here fun zs => by rw [codeEnd?, if_neg hopen, if_pos hb]; rfl
    split at h
    · rename_i hopen hlast hb
      exact (codeEnd?_ends h).step fun us _ => by
        rw [codeEnd?, if_neg hopen, if_neg hlast, if_pos hb]
    split at h
    · rename_i hopen hlast hclose hb
      exact (codeEnd?_ends h).step fun us _ => by
        rw [codeEnd?, if_neg hopen, if_neg hlast, if_neg hclose, if_pos hb]
    split at h
    · rename_i hopen hlast hclose hquote hb
      split at h
      · simp at h
      · -- a template in the substitution, behind which the scan goes on
        rename_i stop hstop
        obtain rfl := eq_of_beq hb
        obtain ⟨xs, ys, rfl, hst, hscan⟩ := bodyEnd?_ends hstop
        rw [drop_behind _ _ (by omega)] at h
        rw [List.append_cons, ← List.cons_append]
        refine Ends.behind ?_ (codeEnd?_ends h) fun us _ => ?_
        · simp only [List.length_cons, List.length_append, List.length_nil]
          omega
        · rw [List.cons_append, ← List.append_cons, codeEnd?_nested hst hscan]
    split at h
    · rename_i hopen hlast hclose hquote htick hb
      exact (codeEnd?_ends h).skip fun us hus => by
        rw [codeEnd?, if_neg hopen, if_neg hlast, if_neg hclose, if_neg hquote, if_neg htick, hus,
          if_pos hb]
    split at h
    · rename_i hopen hlast hclose hquote htick hline hb
      exact (codeEnd?_ends h).skip fun us hus => by
        rw [codeEnd?, if_neg hopen, if_neg hlast, if_neg hclose, if_neg hquote, if_neg htick, hus,
          if_neg hline, if_pos hb]
    · rename_i hopen hlast hclose hquote htick hline hb
      exact (codeEnd?_ends h).step fun us hus => by
        rw [codeEnd?, if_neg hopen, if_neg hlast, if_neg hclose, if_neg hquote, if_neg htick, hus,
          if_neg hline, if_neg hb]
  | .quoted quote, b :: bs =>
    rw [codeEnd?] at h
    split at h
    · rename_i hb
      exact (codeEnd?_ends h).step fun us _ => by rw [codeEnd?, if_pos hb]
    split at h
    · rename_i hend hb
      exact (codeEnd?_ends h).skip fun us _ => by rw [codeEnd?, if_neg hend, if_pos hb]
    · rename_i hend hb
      exact (codeEnd?_ends h).step fun us _ => by rw [codeEnd?, if_neg hend, if_neg hb]
  | .lineComment, b :: bs =>
    rw [codeEnd?] at h
    split at h
    · rename_i hb
      exact (codeEnd?_ends h).step fun us _ => by rw [codeEnd?, if_pos hb]
    · rename_i hb
      exact (codeEnd?_ends h).step fun us _ => by rw [codeEnd?, if_neg hb]
  | .blockComment, b :: bs =>
    rw [codeEnd?] at h
    split at h
    · rename_i hb
      exact (codeEnd?_ends h).skip fun us hus => by rw [codeEnd?, hus, if_pos hb]
    · rename_i hb
      exact (codeEnd?_ends h).step fun us hus => by rw [codeEnd?, hus, if_neg hb]
termination_by bs.length

end

theorem lt_bodyEnd? (h : bodyEnd? i bs = some n) : i < n := by
  obtain ⟨xs, ys, -, hn, -⟩ := bodyEnd?_ends h
  omega

/-! ## The second scan finds the same pieces -/

/-- The spans of a template from offset `start` on and its closing text, which starts at `last` and
ends at `stop`: none of the pieces is empty, each starts where the substitution before it was found to
end, and they are cut between characters of the text. -/
def Fits (cs : List Char) (stop : Nat) : Nat → List Span → Nat → Prop
  | start, [], last => last = start ∧ last < stop
  | start, s :: ss, last =>
    s.start = start ∧ start < s.stop ∧ Text.Splits cs s.stop ∧
      ∃ close, s.brace? = some close ∧ s.stop ≤ close ∧ Text.Splits cs close ∧
        Fits cs stop close ss last

theorem Fits.lt {cs : List Char} {stop start last : Nat} {spans : List Span}
    (h : Fits cs stop start spans last) : start < stop := by
  induction spans generalizing start with
  | nil => exact h.1 ▸ h.2
  | cons s ss ih =>
    obtain ⟨-, hlt, -, close, -, hle, -, hrest⟩ := h
    exact Nat.lt_of_lt_of_le hlt (Nat.le_of_lt (Nat.lt_of_le_of_lt hle (ih hrest)))

/-- The closing text starts between characters and is not empty. -/
theorem Fits.closing {cs : List Char} {stop start last : Nat} {spans : List Span}
    (hstart : Text.Splits cs start) (h : Fits cs stop start spans last) :
    Text.Splits cs last ∧ last < stop := by
  induction spans generalizing start with
  | nil => exact ⟨h.1 ▸ hstart, h.2⟩
  | cons s ss ih =>
    obtain ⟨-, -, -, close, -, -, hclose, hrest⟩ := h
    exact ih hclose hrest

/-- The literal text of a span is cut between characters and is not empty. -/
theorem Fits.mem {cs : List Char} {stop start last : Nat} {spans : List Span} {s : Span}
    (hstart : Text.Splits cs start) (h : Fits cs stop start spans last) (hs : s ∈ spans) :
    Text.Splits cs s.start ∧ Text.Splits cs s.stop ∧ s.start < s.stop := by
  induction spans generalizing start with
  | nil => exact absurd hs List.not_mem_nil
  | cons t ss ih =>
    obtain ⟨ht, hlt, hstop, close, -, -, hclose, hrest⟩ := h
    rcases List.mem_cons.1 hs with rfl | hs
    · exact ⟨ht ▸ hstart, hstop, ht ▸ hlt⟩
    · exact ih hclose hrest hs

theorem take_cons {stop : Nat} (h : i < stop) (b : UInt8) (bs : List UInt8) :
    (b :: bs).take (stop - i) = b :: bs.take (stop - (i + 1)) := by
  rw [show stop - i = stop - (i + 1) + 1 by omega, List.take_succ_cons]

theorem take_behind (xs us : List UInt8) {k : Nat} (h : xs.length < k) :
    (xs ++ mark :: us).take k = xs ++ mark :: us.take (k - (xs.length + 1)) := by
  rw [List.take_append, List.take_of_length_le (Nat.le_of_lt h), take_cons h]

/-- The second scan cuts at a substitution where the first one passed it. -/
theorem split_opened {start stop close : Nat} (hclose : close = i + 2 + xs.length)
    (hscan : ∀ zs, codeEnd? .code 0 (i + 2) (xs ++ ascii '}' :: zs) = some close)
    (us : List UInt8) :
    split stop start i (ascii '$' :: (ascii '{' :: xs ++ ascii '}' :: us)) =
      ⟨⟨start, i + 2, some close⟩ :: (split stop close (close + 1) us).spans,
        (split stop close (close + 1) us).last⟩ := by
  have hdrop : (ascii '{' :: xs ++ ascii '}' :: us).drop (close - i) = us :=
    drop_behind _ us (by rw [List.length_cons]; omega)
  have hfound : codeEnd? .code 0 (i + 2) ((ascii '{' :: xs ++ ascii '}' :: us).drop 1) =
      some close := hscan us
  rw [split, if_neg (by decide), if_pos (by simp)]
  simp only [hfound, Span.close, Option.getD_some, hdrop]

/-- A template whose end the first scan has found is cut into pieces that fit. -/
theorem split_fits {cs : List Char} {p bs : List UInt8} {start stop i : Nat}
    (hcs : Text.encode cs = p ++ bs) (hi : p.length = i) (hstart : start < i)
    (h : bodyEnd? i bs = some stop) :
    Fits cs stop start (split stop start i (bs.take (stop - i))).spans
      (split stop start i (bs.take (stop - i))).last := by
  match bs with
  | [] => simp [bodyEnd?] at h
  | b :: bs =>
    have hlt := lt_bodyEnd? h
    rw [take_cons hlt]
    rw [bodyEnd?] at h
    split at h
    · rename_i hb
      cases bs with
      | nil => simp [bodyEnd?] at h
      | cons c bs =>
        have hnext := lt_bodyEnd? h
        rw [take_cons (i := i + 1) (by omega), split, if_pos hb]
        exact split_fits (p := p ++ [b, c]) (by simpa using hcs) (by simp [hi]) (by omega) h
    split at h
    · rename_i hesc hb
      obtain rfl := Option.some.inj h
      obtain rfl := eq_of_beq hb
      rw [Nat.sub_self, List.take_zero, split, if_neg hesc, if_neg (by simp), split]
      exact ⟨rfl, Nat.lt_succ_of_lt hstart⟩
    split at h
    · rename_i hesc htick hopen
      split at h
      · simp at h
      · rename_i close hclose
        obtain ⟨rfl, xs, ys, rfl, hcl, hscan⟩ := opened hopen (codeEnd?_ends hclose)
        have hlen : (ascii '{' :: xs).length = close - (i + 1) := by
          rw [List.length_cons]
          omega
        rw [← List.cons_append, drop_behind _ _ (by omega)] at h
        have hnext := lt_bodyEnd? h
        rw [← List.cons_append, take_behind _ _ (by omega), split_opened hcl hscan,
          show stop - (i + 1) - ((ascii '{' :: xs).length + 1) = stop - (close + 1) by omega]
        -- both cuts are next to a brace, the second one in front of it
        have hfront := (Text.splits_of_ascii (p := p ++ [ascii '$']) (by simpa using hcs)
          (by decide)).2
        have hback := (Text.splits_of_ascii (p := p ++ ascii '$' :: ascii '{' :: xs)
          (by simpa using hcs) (by decide)).1
        refine ⟨rfl, Nat.lt_add_right 2 hstart, ?_, close, rfl, ?_, ?_, ?_⟩
        · simpa [hi] using hfront
        · exact hcl ▸ Nat.le_add_right _ _
        · rwa [show (p ++ ascii '$' :: ascii '{' :: xs).length = close by simp; omega] at hback
        · exact split_fits (p := p ++ ascii '$' :: ascii '{' :: (xs ++ [ascii '}']))
            (by simpa using hcs) (by simp; omega) (Nat.lt_succ_self _) h
    · rename_i hesc htick hopen
      have hnext := lt_bodyEnd? h
      rw [split, if_neg hesc, if_neg ?_]
      · exact split_fits (p := p ++ [b]) (by simpa using hcs) (by simp [hi]) (by omega) h
      · rw [List.head?_take, if_neg (by omega)]
        exact hopen
termination_by bs.length

/-- The offset that the first scan answers with lies between characters. -/
theorem splits_bodyEnd? {cs : List Char} {p : List UInt8} {stop : Nat}
    (hcs : Text.encode cs = p ++ bs) (hi : p.length = i) (h : bodyEnd? i bs = some stop) :
    Text.Splits cs stop := by
  obtain ⟨xs, ys, rfl, rfl, -⟩ := bodyEnd?_ends h
  have hmark := (Text.splits_of_ascii (p := p ++ xs) (by simpa using hcs) (by decide)).2
  rwa [List.length_append, hi] at hmark

/-- The pieces of a template fit together behind its opening backtick. -/
theorem pieces_fit {cs : List Char} {stop : Nat} (h : bodyEnd? 1 (Text.encode cs) = some stop) :
    let p := split stop 0 1 ((Text.encode cs).take (stop - 1))
    Fits ('`' :: cs) stop 0 p.spans p.last ∧ Text.Splits ('`' :: cs) stop :=
  have hcs : Text.encode ('`' :: cs) = [ascii '`'] ++ Text.encode cs := rfl
  ⟨split_fits hcs rfl Nat.zero_lt_one h, splits_bodyEnd? hcs rfl h⟩

/-! ## What is passed over

A byte of a character beyond ASCII is no mark of the scans, so they pass over all characters but
backslashes, backticks and dollar signs that open a substitution, and over a backslash with what it takes
with it. The scan of a substitution passes over whatever neither opens nor closes anything. -/

open Text (encode encode_append encode_cons)

variable {c d : Char} {p q us : List UInt8}

theorem eq_of_ascii_mem (hd : d.toNat < 0x80) (h : ascii d ∈ String.utf8EncodeChar c) : c = d :=
  Text.eq_of_toUInt8_mem hd h

/-- Both scans pass over the bytes `p` when the bytes `us` stand behind them. -/
structure Passes (p us : List UInt8) : Prop where
  body : ∀ i, bodyEnd? i (p ++ us) = bodyEnd? (i + p.length) us
  pieces : ∀ stop start i, split stop start i (p ++ us) = split stop start (i + p.length) us

namespace Passes

theorem nil : Passes [] us := ⟨fun _ => rfl, fun _ _ _ => rfl⟩

theorem append (h : Passes p (q ++ us)) (h' : Passes q us) : Passes (p ++ q) us := by
  constructor
  · intro i
    rw [List.append_assoc, h.body, h'.body, List.length_append, Nat.add_assoc]
  · intro stop start i
    rw [List.append_assoc, h.pieces, h'.pieces, List.length_append, Nat.add_assoc]

/-- A backslash takes the next byte with it. -/
theorem escape (b : UInt8) (us : List UInt8) : Passes [ascii '\\', b] us := by
  constructor
  · intro i
    rw [List.cons_append, bodyEnd?, if_pos (by decide)]
    rfl
  · intro stop start i
    rw [List.cons_append, split, if_pos (by decide)]
    rfl

theorem byte (hslash : b ≠ ascii '\\') (htick : b ≠ ascii '`')
    (hopen : b = ascii '$' → us.head? ≠ some (ascii '{')) : Passes [b] us := by
  have hclosed : ¬(b == ascii '$' && us.head? == some (ascii '{')) = true := by
    simpa using hopen
  constructor
  · intro i
    rw [List.singleton_append, bodyEnd?, if_neg (by simpa using hslash),
      if_neg (by simpa using htick), if_neg hclosed]
    rfl
  · intro stop start i
    rw [List.singleton_append, split, if_neg (by simpa using hslash), if_neg hclosed]
    rfl

theorem bytes (h : ∀ b ∈ p, b ≠ ascii '\\' ∧ b ≠ ascii '`' ∧ b ≠ ascii '$') : Passes p us := by
  induction p with
  | nil => exact nil
  | cons b p ih =>
    obtain ⟨⟨hslash, htick, hdollar⟩, hp⟩ := List.forall_mem_cons.1 h
    exact append (p := [b]) (byte hslash htick fun hb => absurd hb hdollar) (ih hp)

/-- A character that is no mark of templates is passed over, and a dollar sign unless it opens a
substitution. -/
theorem char (hslash : c ≠ '\\') (htick : c ≠ '`')
    (hopen : c = '$' → us.head? ≠ some (ascii '{')) : Passes (String.utf8EncodeChar c) us := by
  by_cases hdollar : c = '$'
  · subst hdollar
    exact byte (by decide) (by decide) fun _ => hopen rfl
  · apply bytes
    intro b hb
    refine ⟨?_, ?_, ?_⟩
    · rintro rfl
      exact hslash (eq_of_ascii_mem (by decide) hb)
    · rintro rfl
      exact htick (eq_of_ascii_mem (by decide) hb)
    · rintro rfl
      exact hdollar (eq_of_ascii_mem (by decide) hb)

theorem chars {cs : List Char} (h : ∀ c ∈ cs, c ≠ '\\' ∧ c ≠ '`' ∧ c ≠ '$') :
    Passes (encode cs) us := by
  induction cs with
  | nil => exact nil
  | cons c cs ih =>
    obtain ⟨⟨hslash, htick, hdollar⟩, hcs⟩ := List.forall_mem_cons.1 h
    rw [encode_cons]
    exact (char hslash htick fun hc => absurd hc hdollar).append (ih hcs)

end Passes

/-- The characters at which the scan of a substitution does something. -/
def codeMarks : List Char := ['{', '}', '"', '\'', '`', '/']

/-- The scan of a substitution passes over bytes that neither open nor close anything. -/
theorem codeEnd?_passes {depth i : Nat} (us : List UInt8) (h : ∀ b ∈ p, b ∉ codeMarks.map ascii) :
    codeEnd? .code depth i (p ++ us) = codeEnd? .code depth (i + p.length) us := by
  induction p generalizing i with
  | nil => rfl
  | cons b p ih =>
    obtain ⟨hb, hp⟩ := List.forall_mem_cons.1 h
    simp only [codeMarks, List.map_cons, List.map_nil, List.mem_cons, List.not_mem_nil, or_false,
      not_or, ← beq_eq_false_iff_ne] at hb
    rw [List.cons_append, codeEnd?]
    simp only [hb, Bool.false_and, Bool.or_self, Bool.false_eq_true, if_false]
    rw [ih hp, List.length_cons, Nat.add_assoc, Nat.add_comm 1]

theorem codeEnd?_chars {cs : List Char} {depth i : Nat} (us : List UInt8)
    (h : ∀ c ∈ cs, c ∉ codeMarks) :
    codeEnd? .code depth i (encode cs ++ us) = codeEnd? .code depth (i + Text.bytes cs) us := by
  have hascii : ∀ d ∈ codeMarks, d.toNat < 0x80 := by simp [codeMarks]
  rw [← Text.length_encode]
  refine codeEnd?_passes us fun b hb hmark => ?_
  obtain ⟨c, hc, hb⟩ := List.mem_flatMap.1 hb
  obtain ⟨d, hd, rfl⟩ := List.mem_map.1 hmark
  exact h c hc (eq_of_ascii_mem (hascii d hd) hb ▸ hd)

end DeclKit.Template

/-
Byte offsets that lie between characters.

A byte offset splits a text where the bytes before it are those of whole characters. The lexer finds
such offsets by looking at bytes: next to an ASCII byte there is always one, because no longer
character has an ASCII byte in its encoding. At such offsets the parts of a text are cut as they are
counted, so that neighbouring parts put together are the part from the first to the last.
-/
import DeclKit.Text.Offset
import Mathlib.Data.String.Basic

set_option autoImplicit false

namespace DeclKit.Text

variable {cs us vs : List Char} {a b c : Nat}

/-! ## Counting bytes -/

@[simp] theorem bytes_append (us vs : List Char) : bytes (us ++ vs) = bytes us + bytes vs := by
  induction us with
  | nil => simp [bytes]
  | cons c us ih => simp only [List.cons_append, bytes, ih, Nat.add_assoc]

theorem encode_cons (c : Char) (cs : List Char) :
    encode (c :: cs) = String.utf8EncodeChar c ++ encode cs := List.flatMap_cons

theorem encode_append (us vs : List Char) : encode (us ++ vs) = encode us ++ encode vs :=
  List.flatMap_append

theorem length_encode (cs : List Char) : (encode cs).length = bytes cs := by
  induction cs with
  | nil => rfl
  | cons c cs ih => rw [encode_cons, List.length_append, String.length_utf8EncodeChar, ih, bytes]

theorem bytes_pos (h : cs ≠ []) : 0 < bytes cs := by
  cases cs with
  | nil => exact absurd rfl h
  | cons c cs => exact Nat.lt_of_lt_of_le c.utf8Size_pos (Nat.le_add_right _ _)

theorem utf8ByteSize_ofList (cs : List Char) : (String.ofList cs).utf8ByteSize = bytes cs := by
  induction cs with
  | nil => rfl
  | cons c cs ih =>
    rw [String.ofList_cons, String.utf8ByteSize_append, String.utf8ByteSize_singleton, ih]
    rfl

theorem utf8ByteSize_eq_bytes (s : String) : s.utf8ByteSize = bytes s.toList := by
  rw [← utf8ByteSize_ofList, String.ofList_toList]

/-! ## Offsets between characters -/

/-- The byte offset lies between two characters of the text, or at one of its ends. -/
def Splits (cs : List Char) (n : Nat) : Prop := ∃ us vs, cs = us ++ vs ∧ bytes us = n

theorem splits_zero (cs : List Char) : Splits cs 0 := ⟨[], cs, rfl, rfl⟩

theorem splits_bytes (cs : List Char) : Splits cs (bytes cs) := ⟨cs, [], (List.append_nil cs).symm, rfl⟩

theorem splits_append {n : Nat} :
    Splits (us ++ vs) n ↔ Splits us n ∨ ∃ m, Splits vs m ∧ n = bytes us + m := by
  constructor
  · rintro ⟨xs, ys, h, rfl⟩
    rcases List.append_eq_append_iff.1 h with ⟨zs, rfl, rfl⟩ | ⟨zs, rfl, rfl⟩
    · exact .inr ⟨_, ⟨zs, ys, rfl, rfl⟩, bytes_append us zs⟩
    · exact .inl ⟨xs, zs, rfl, rfl⟩
  · rintro (⟨xs, ys, rfl, rfl⟩ | ⟨_, ⟨xs, ys, rfl, rfl⟩, rfl⟩)
    · exact ⟨xs, ys ++ vs, List.append_assoc _ _ _, rfl⟩
    · exact ⟨us ++ xs, ys, (List.append_assoc _ _ _).symm, bytes_append us xs⟩

/-- An encoding of a character that has an ASCII byte has no other byte. -/
theorem utf8EncodeChar_of_ascii {c : Char} {b : UInt8} (hb : b ∈ String.utf8EncodeChar c)
    (hlt : b < 0x80) : String.utf8EncodeChar c = [b] := by
  have high : ∀ {x y : UInt8}, 0x80 ≤ y → b ≠ x ||| y := fun hy h =>
    absurd (UInt8.lt_of_lt_of_le hlt hy) (UInt8.not_lt.2 (h ▸ UInt8.right_le_or))
  rcases Char.utf8Size_eq c with hc | hc | hc | hc
  · rw [String.utf8EncodeChar_eq_singleton hc] at hb ⊢
    rw [List.mem_singleton.1 hb]
  · rw [String.utf8EncodeChar_eq_cons_cons hc] at hb
    simp only [List.mem_cons, List.not_mem_nil, or_false] at hb
    rcases hb with hb | hb
    · exact absurd hb (high (by decide))
    · exact absurd hb (high (by decide))
  · rw [String.utf8EncodeChar_eq_cons_cons_cons hc] at hb
    simp only [List.mem_cons, List.not_mem_nil, or_false] at hb
    rcases hb with hb | hb | hb
    · exact absurd hb (high (by decide))
    · exact absurd hb (high (by decide))
    · exact absurd hb (high (by decide))
  · rw [String.utf8EncodeChar_eq_cons_cons_cons_cons hc] at hb
    simp only [List.mem_cons, List.not_mem_nil, or_false] at hb
    rcases hb with hb | hb | hb | hb
    · exact absurd hb (high (by decide))
    · exact absurd hb (high (by decide))
    · exact absurd hb (high (by decide))
    · exact absurd hb (high (by decide))

theorem toNat_toUInt8 {c : Char} (hc : c.toNat < 0x80) : c.toUInt8.toNat = c.toNat := by
  have hval : c.val.toNat < 0x80 := hc
  rw [Char.toUInt8, UInt32.toNat_toUInt8]
  exact Nat.mod_eq_of_lt (by omega)

/-- Of all characters only an ASCII character itself is encoded with its byte. -/
theorem eq_of_toUInt8_mem {c d : Char} (hd : d.toNat < 0x80)
    (h : d.toUInt8 ∈ String.utf8EncodeChar c) : c = d := by
  have hlow : d.toUInt8 < 0x80 := by
    rw [UInt8.lt_iff_toNat_lt, toNat_toUInt8 hd]
    exact hd
  have hall := utf8EncodeChar_of_ascii h hlow
  have hone : c.utf8Size = 1 := by
    rw [← String.length_utf8EncodeChar, hall]
    rfl
  have hc : c.toNat < 0x80 := by
    have hle := Char.utf8Size_eq_one_iff.1 hone
    rw [UInt32.le_iff_toNat_le] at hle
    exact Nat.lt_succ_of_le hle
  rw [String.utf8EncodeChar_eq_singleton hone] at hall
  have hbyte : c.toUInt8 = d.toUInt8 := List.singleton_inj.1 hall
  rw [← Char.toNat_inj, ← toNat_toUInt8 hc, ← toNat_toUInt8 hd, hbyte]

theorem not_mem_utf8EncodeChar {c d : Char} (hd : d.toNat < 0x80) (h : c ≠ d) :
    d.toUInt8 ∉ String.utf8EncodeChar c := fun hmem => h (eq_of_toUInt8_mem hd hmem)

theorem not_mem_encode {d : Char} (hd : d.toNat < 0x80) (h : d ∉ cs) : d.toUInt8 ∉ encode cs := by
  rw [encode, List.mem_flatMap]
  rintro ⟨c, hc, hmem⟩
  exact h (eq_of_toUInt8_mem hd hmem ▸ hc)

/-- Behind the first byte of a character there is no ASCII byte. -/
theorem not_mem_of_utf8EncodeChar {c : Char} {b d : UInt8} {bs : List UInt8}
    (hc : String.utf8EncodeChar c = b :: bs) (hd : d < 0x80) : d ∉ bs := fun hmem => by
  have hone := utf8EncodeChar_of_ascii (c := c) (hc ▸ List.mem_cons_of_mem b hmem) hd
  rw [hc] at hone
  rw [(List.cons.inj hone).2] at hmem
  exact List.not_mem_nil hmem

theorem encode_cons_ascii {c : Char} (hc : c.toNat < 0x80) :
    encode (c :: cs) = c.toUInt8 :: encode cs := by
  have hone : c.utf8Size = 1 :=
    Char.utf8Size_eq_one_iff.2 (UInt32.le_iff_toNat_le.2 (Nat.le_of_lt_succ hc))
  rw [encode_cons, String.utf8EncodeChar_eq_singleton hone]
  rfl

/-- A text starts with the byte of an ASCII character only if it starts with that character. -/
theorem eq_of_head?_encode {c d : Char} {bs : List UInt8} (hd : d.toNat < 0x80)
    (h : (encode (c :: cs) ++ bs).head? = some d.toUInt8) : c = d := by
  rw [encode_cons, List.append_assoc, List.head?_append_of_ne_nil _ String.utf8EncodeChar_ne_nil] at h
  exact eq_of_toUInt8_mem hd (List.mem_of_head? h)

/-- An ASCII byte of an encoded text is a character of its own. -/
theorem encode_ascii {xs ys : List UInt8} {b : UInt8} (h : encode cs = xs ++ b :: ys)
    (hb : b < 0x80) :
    ∃ us c vs, cs = us ++ c :: vs ∧ encode us = xs ∧ String.utf8EncodeChar c = [b] := by
  induction cs generalizing xs with
  | nil => exact absurd h.symm (by simp [encode])
  | cons c cs ih =>
    rw [encode, List.flatMap_cons] at h
    rcases List.append_eq_append_iff.1 h with ⟨ws, hxs, hrest⟩ | ⟨ws, hc, hrest⟩
    · obtain ⟨us, d, vs, rfl, rfl, hd⟩ := ih hrest
      exact ⟨c :: us, d, vs, rfl, by rw [hxs, encode, List.flatMap_cons]; rfl, hd⟩
    · cases ws with
      | nil =>
        have hcs : encode cs = [] ++ b :: ys := hrest.symm
        obtain ⟨us, d, vs, rfl, hus, hd⟩ := ih hcs
        refine ⟨c :: us, d, vs, rfl, ?_, hd⟩
        rw [encode, List.flatMap_cons, ← encode, hus, hc]
        simp
      | cons w ws =>
        obtain ⟨rfl, hws⟩ := List.cons.inj hrest
        have hone := utf8EncodeChar_of_ascii (hc ▸ List.mem_append_right xs List.mem_cons_self) hb
        refine ⟨[], c, cs, rfl, ?_, hone⟩
        cases xs with
        | nil => rfl
        | cons x xs => simp [hone] at hc

/-- There is an offset between characters on both sides of an ASCII byte. -/
theorem splits_of_ascii {p ys : List UInt8} {b : UInt8} (h : encode cs = p ++ b :: ys)
    (hb : b < 0x80) : Splits cs p.length ∧ Splits cs (p.length + 1) := by
  obtain ⟨us, c, vs, rfl, rfl, hc⟩ := encode_ascii h hb
  have hone : c.utf8Size = 1 := by rw [← String.length_utf8EncodeChar, hc]; rfl
  refine ⟨⟨us, c :: vs, rfl, (length_encode us).symm⟩, us ++ [c], vs, by simp, ?_⟩
  rw [bytes_append, length_encode]
  simp [bytes, hone]

/-! ## Cutting at such offsets -/

theorem takeBytes_append (us vs : List Char) : takeBytes (bytes us) (us ++ vs) = us := by
  induction us with
  | nil =>
    cases vs with
    | nil => rfl
    | cons c vs =>
      have := c.utf8Size_pos
      rw [List.nil_append, bytes, takeBytes, if_neg (by omega)]
  | cons c us ih =>
    rw [List.cons_append, bytes, takeBytes, if_pos (Nat.le_add_right _ _), Nat.add_sub_cancel_left,
      ih]

theorem dropBytes_append (us vs : List Char) : dropBytes (bytes us) (us ++ vs) = vs := by
  induction us with
  | nil =>
    cases vs with
    | nil => rfl
    | cons c vs =>
      have := c.utf8Size_pos
      rw [List.nil_append, bytes, dropBytes, if_neg (by omega)]
  | cons c us ih =>
    rw [List.cons_append, bytes, dropBytes, if_pos (Nat.le_add_right _ _), Nat.add_sub_cancel_left,
      ih]

/-- An offset behind the first part of a text splits the second one. -/
theorem Splits.behind {n : Nat} (h : Splits (us ++ vs) n) (hn : bytes us ≤ n) :
    ∃ ms ws, vs = ms ++ ws ∧ bytes us + bytes ms = n := by
  obtain ⟨xs, ys, h, rfl⟩ := h
  rcases List.append_eq_append_iff.1 h with ⟨ms, rfl, rfl⟩ | ⟨ms, rfl, rfl⟩
  · exact ⟨ms, ys, rfl, (bytes_append us ms).symm⟩
  · -- the offset is where the first part ends
    have hms : ms = [] := by
      refine Decidable.byContradiction fun hne => ?_
      have := bytes_pos hne
      rw [bytes_append] at hn
      omega
    subst hms
    exact ⟨[], vs, rfl, by simp [bytes]⟩

theorem between_append_mid (us ms vs : List Char) :
    between (bytes us) (bytes us + bytes ms) (us ++ (ms ++ vs)) = ms := by
  rw [between, dropBytes_append, Nat.add_sub_cancel_left, takeBytes_append]

/-- The same part, cut from the text itself. -/
theorem slice_append_mid (us ms vs : List Char) :
    slice (String.ofList (us ++ (ms ++ vs))) (bytes us) (bytes us + bytes ms) = String.ofList ms := by
  have hlen (xs : List Char) : String.utf8Len xs = bytes xs := by
    rw [← String.utf8ByteSize_ofList, utf8ByteSize_ofList]
  have hvalid := String.extract_of_valid us ms vs
  rw [hlen, hlen, List.append_assoc] at hvalid
  exact hvalid

/-- Neighbouring parts of a text put together. -/
theorem between_append (ha : Splits cs a) (hb : Splits cs b) (hc : Splits cs c) (hab : a ≤ b)
    (hbc : b ≤ c) : between a b cs ++ between b c cs = between a c cs := by
  obtain ⟨us, vs, rfl, rfl⟩ := ha
  obtain ⟨ms, ws, rfl, rfl⟩ := hb.behind hab
  rw [← List.append_assoc] at hc
  obtain ⟨ns, zs, rfl, hn⟩ := hc.behind (by rw [bytes_append]; exact hbc)
  rw [bytes_append] at hn
  have hbc : between (bytes us + bytes ms) c (us ++ (ms ++ (ns ++ zs))) = ns := by
    rw [← bytes_append, ← List.append_assoc, ← hn, ← bytes_append us ms, between_append_mid]
  have hac : between (bytes us) c (us ++ (ms ++ (ns ++ zs))) = ms ++ ns := by
    rw [← List.append_assoc ms, ← hn, Nat.add_assoc, ← bytes_append ms ns, between_append_mid]
  rw [between_append_mid, hbc, hac]

theorem between_ne_nil (ha : Splits cs a) (hb : Splits cs b) (hab : a < b) :
    between a b cs ≠ [] := by
  obtain ⟨us, vs, rfl, rfl⟩ := ha
  obtain ⟨ms, ws, rfl, rfl⟩ := hb.behind (Nat.le_of_lt hab)
  rw [between_append_mid]
  rintro rfl
  exact absurd hab (Nat.lt_irrefl _)

/-- The text up to an offset, and what is behind it. -/
theorem between_zero_append (hb : Splits cs b) : between 0 b cs ++ dropBytes b cs = cs := by
  obtain ⟨us, vs, rfl, rfl⟩ := hb
  rw [dropBytes_append]
  have h := between_append_mid [] us vs
  simp only [bytes, Nat.zero_add, List.nil_append] at h
  rw [h]

/-! ## Endings -/

/-- A text is left exactly when it stands in front of the ending. -/
theorem stripSuffix?_eq_some {s ending stem : String} :
    stripSuffix? s ending = some stem ↔ s = stem ++ ending := by
  simp only [stripSuffix?, ← String.toList_inj, String.toList_append]
  constructor
  · intro h
    split at h
    · rename_i hsuffix
      obtain ⟨front, hfront⟩ := List.isSuffixOf_iff_suffix.1 hsuffix
      obtain rfl := Option.some.inj h
      rw [← hfront, List.length_append, Nat.add_sub_cancel, List.take_left' rfl, String.toList_ofList]
    · cases h
  · intro h
    rw [h, if_pos (List.isSuffixOf_iff_suffix.2 (List.suffix_append _ _)), List.length_append,
      Nat.add_sub_cancel, List.take_left' rfl, String.ofList_toList]

/-- Two endings of one text, of which neither ends the other, exclude each other. -/
theorem stripSuffix?_append_eq_none {stem a b : String} (hab : ¬a.toList <:+ b.toList)
    (hba : ¬b.toList <:+ a.toList) : stripSuffix? (stem ++ a) b = none := by
  rw [Option.eq_none_iff_forall_ne_some]
  intro x hx
  have heq := congrArg String.toList (stripSuffix?_eq_some.1 hx)
  rw [String.toList_append, String.toList_append] at heq
  have hb : b.toList <:+ stem.toList ++ a.toList := heq ▸ List.suffix_append _ _
  exact (List.suffix_or_suffix_of_suffix (List.suffix_append _ _) hb).elim hab hba

end DeclKit.Text

/-
Offsets as lines and columns.

The line starts of a text are zero and the offsets behind its line ends, in increasing order. So the
line of an offset is the last one that starts at or before it, and the column counts the characters from
there up to the offset, or up to the character that the offset is inside of. Two offsets of one line are
told apart by their columns if both are between characters, since every character has a code unit.
-/
import DeclKit.Proofs.Text.Offset
import DeclKit.Text.Lines
import Mathlib

set_option autoImplicit false

namespace DeclKit.Text

variable {cs us vs : List Char} {c : Char} {a b k m n s : Nat}

/-! ## Line ends -/

/-- A line ends just before the offset: with a line feed, with a carriage return that no line feed
follows, or with the two together. -/
inductive EndsLine (cs : List Char) : Nat → Prop where
  | feed {us vs : List Char} : cs = us ++ '\n' :: vs → EndsLine cs (bytes us + 1)
  | lone {us vs : List Char} : cs = us ++ '\r' :: vs → vs.head? ≠ some '\n' →
      EndsLine cs (bytes us + 1)
  | pair {us vs : List Char} : cs = us ++ '\r' :: '\n' :: vs → EndsLine cs (bytes us + 2)

/-- A line starts at the offset: it is the first one, or the line before ends there. -/
def StartsLine (cs : List Char) (n : Nat) : Prop := n = 0 ∨ EndsLine cs n

theorem not_endsLine_nil : ¬EndsLine [] n := by
  rintro (h | ⟨h, -⟩ | h) <;> simp at h

/-- A line ends with the first character, with the first two, or further on. -/
theorem endsLine_cons : EndsLine (c :: cs) n ↔
    (c = '\n' ∧ n = 1 ∨ c = '\r' ∧ cs.head? ≠ some '\n' ∧ n = 1 ∨
      c = '\r' ∧ cs.head? = some '\n' ∧ n = 2) ∨ ∃ m, EndsLine cs m ∧ n = c.utf8Size + m := by
  constructor
  · rintro (@⟨_ | ⟨d, us⟩, vs, h⟩ | @⟨_ | ⟨d, us⟩, vs, h, hvs⟩ | @⟨_ | ⟨d, us⟩, vs, h⟩)
    all_goals obtain ⟨rfl, rfl⟩ := List.cons.inj h
    · exact .inl (.inl ⟨rfl, rfl⟩)
    · exact .inr ⟨_, .feed rfl, Nat.add_assoc _ _ _⟩
    · exact .inl (.inr (.inl ⟨rfl, hvs, rfl⟩))
    · exact .inr ⟨_, .lone rfl hvs, Nat.add_assoc _ _ _⟩
    · exact .inl (.inr (.inr ⟨rfl, rfl, rfl⟩))
    · exact .inr ⟨_, .pair rfl, Nat.add_assoc _ _ _⟩
  · rintro ((⟨rfl, rfl⟩ | ⟨rfl, hcs, rfl⟩ | ⟨rfl, hcs, rfl⟩) | ⟨m, hm, rfl⟩)
    · exact @EndsLine.feed _ [] cs rfl
    · exact @EndsLine.lone _ [] cs rfl hcs
    · obtain ⟨vs, rfl⟩ := List.head?_eq_some_iff.1 hcs
      exact @EndsLine.pair _ [] vs rfl
    · obtain @⟨us, vs, rfl⟩ | @⟨us, vs, rfl, hvs⟩ | @⟨us, vs, rfl⟩ := hm
      · exact Nat.add_assoc _ _ _ ▸ @EndsLine.feed _ (c :: us) vs rfl
      · exact Nat.add_assoc _ _ _ ▸ @EndsLine.lone _ (c :: us) vs rfl hvs
      · exact Nat.add_assoc _ _ _ ▸ @EndsLine.pair _ (c :: us) vs rfl

/-- A carriage return and a line feed end one line. -/
theorem endsLine_pair :
    EndsLine ('\r' :: '\n' :: cs) n ↔ n = 2 ∨ ∃ m, EndsLine cs m ∧ n = 2 + m := by
  have hsize : ('\r' : Char).utf8Size = 1 ∧ ('\n' : Char).utf8Size = 1 := by decide
  rw [endsLine_cons]
  constructor
  · rintro ((⟨h, -⟩ | ⟨-, h, -⟩ | ⟨-, -, rfl⟩) | ⟨k, hk, rfl⟩)
    · exact absurd h (by decide)
    · exact absurd rfl h
    · exact .inl rfl
    · rw [endsLine_cons] at hk
      obtain (⟨-, rfl⟩ | ⟨h, -⟩ | ⟨h, -⟩) | ⟨m, hm, rfl⟩ := hk
      · exact .inl rfl
      · exact absurd h (by decide)
      · exact absurd h (by decide)
      · exact .inr ⟨m, hm, by omega⟩
  · rintro (rfl | ⟨m, hm, rfl⟩)
    · exact .inl (.inr (.inr ⟨rfl, rfl, rfl⟩))
    · refine .inr ⟨1 + m, endsLine_cons.2 (.inr ⟨m, hm, by rw [hsize.2]⟩), by omega⟩

/-- Any other character in front ends a line by itself or not at all. -/
theorem endsLine_single (h : c = '\r' → cs.head? ≠ some '\n') :
    EndsLine (c :: cs) n ↔
      ((c = '\r' ∨ c = '\n') ∧ n = c.utf8Size) ∨ ∃ m, EndsLine cs m ∧ n = c.utf8Size + m := by
  have hsize : ('\r' : Char).utf8Size = 1 ∧ ('\n' : Char).utf8Size = 1 := by decide
  rw [endsLine_cons]
  refine or_congr_left ⟨?_, ?_⟩
  · rintro (⟨rfl, rfl⟩ | ⟨rfl, -, rfl⟩ | ⟨hc, hcs, -⟩)
    · exact ⟨.inr rfl, hsize.2.symm⟩
    · exact ⟨.inl rfl, hsize.1.symm⟩
    · exact absurd hcs (h hc)
  · rintro ⟨rfl | rfl, rfl⟩
    · exact .inr (.inl ⟨rfl, h rfl, hsize.1⟩)
    · exact .inl ⟨rfl, hsize.2⟩

/-- A place in the rest of a text, counted from where the rest starts or from before. -/
theorem exists_behind {P : Nat → Prop} {pos k : Nat} : (∃ m, P m ∧ n = pos + k + m) ↔
    ∃ m, (∃ l, P l ∧ m = k + l) ∧ n = pos + m := by
  constructor
  · rintro ⟨m, hm, rfl⟩
    exact ⟨k + m, ⟨m, hm, rfl⟩, Nat.add_assoc _ _ _⟩
  · rintro ⟨_, ⟨m, hm, rfl⟩, rfl⟩
    exact ⟨m, hm, (Nat.add_assoc _ _ _).symm⟩

/-- The breaks that are found are the line ends. -/
theorem mem_lineBreaks {pos : Nat} : n ∈ lineBreaks pos cs ↔ ∃ m, EndsLine cs m ∧ n = pos + m := by
  fun_induction lineBreaks pos cs with
  | case1 => simp [not_endsLine_nil]
  | case2 pos cs ih =>
    simp only [List.mem_cons, ih, endsLine_pair, exists_behind, or_and_right, exists_or,
      exists_eq_left]
  | case3 pos c cs hpair next hbreak ih =>
    have hbreak : c = '\r' ∨ c = '\n' := by simpa using hbreak
    have hlone : c = '\r' → cs.head? ≠ some '\n' := by
      rintro rfl hcs
      obtain ⟨vs, rfl⟩ := List.head?_eq_some_iff.1 hcs
      exact hpair vs rfl rfl
    simp only [List.mem_cons, ih, endsLine_single hlone, next, exists_behind, or_and_right, exists_or,
      hbreak, true_and, exists_eq_left]
  | case4 pos c cs hpair next hbreak ih =>
    have hbreak : ¬(c = '\r' ∨ c = '\n') := by simpa using hbreak
    have hlone : c = '\r' → cs.head? ≠ some '\n' := fun hc => absurd (.inl hc) hbreak
    simp only [ih, endsLine_single hlone, next, exists_behind, hbreak, false_and, false_or]

/-- The breaks are in increasing order, and behind where the text starts. -/
theorem pairwise_lineBreaks (pos : Nat) (cs : List Char) :
    (pos :: lineBreaks pos cs).Pairwise (· < ·) := by
  have hskip {l : List Nat} {a b : Nat} (h : (b :: l).Pairwise (· < ·)) (hab : a < b) :
      (a :: l).Pairwise (· < ·) ∧ (a :: b :: l).Pairwise (· < ·) := by
    have hall : ∀ x ∈ b :: l, a < x := List.forall_mem_cons.2
      ⟨hab, fun x hx => Nat.lt_trans hab (List.rel_of_pairwise_cons h hx)⟩
    exact ⟨List.pairwise_cons.2 ⟨(List.forall_mem_cons.1 hall).2, h.of_cons⟩,
      List.pairwise_cons.2 ⟨hall, h⟩⟩
  fun_induction lineBreaks pos cs with
  | case1 pos => exact List.pairwise_singleton _ _
  | case2 pos cs ih => exact (hskip ih (by omega)).2
  | case3 pos c cs _ next _ ih => exact (hskip ih (Nat.lt_add_of_pos_right c.utf8Size_pos)).2
  | case4 pos c cs _ next _ ih => exact (hskip ih (Nat.lt_add_of_pos_right c.utf8Size_pos)).1

theorem EndsLine.splits (h : EndsLine cs n) : Splits cs n := by
  obtain @⟨us, vs, rfl⟩ | @⟨us, vs, rfl, -⟩ | @⟨us, vs, rfl⟩ := h
  · exact ⟨us ++ ['\n'], vs, by simp, by rw [bytes_append]; rfl⟩
  · exact ⟨us ++ ['\r'], vs, by simp, by rw [bytes_append]; rfl⟩
  · exact ⟨us ++ ['\r', '\n'], vs, by simp, by rw [bytes_append]; rfl⟩

theorem StartsLine.splits (h : StartsLine cs n) : Splits cs n :=
  h.elim (fun hn => hn ▸ splits_zero cs) EndsLine.splits

theorem Splits.le_bytes (h : Splits cs n) : n ≤ bytes cs := by
  obtain ⟨us, vs, rfl, rfl⟩ := h
  rw [bytes_append]
  exact Nat.le_add_right _ _

/-! ## Columns -/

theorem units_append (us vs : List Char) : units (us ++ vs) = units us + units vs := by
  induction us with
  | nil => exact (Nat.zero_add _).symm
  | cons c us ih => rw [List.cons_append, units, units, ih, Nat.add_assoc]

theorem charUnits_pos (c : Char) : 0 < charUnits c := by
  unfold charUnits
  split <;> decide

theorem units_pos (h : cs ≠ []) : 0 < units cs := by
  cases cs with
  | nil => exact absurd rfl h
  | cons c cs => exact Nat.lt_of_lt_of_le (charUnits_pos c) (Nat.le_add_right _ _)

/-- A character has no more code units than bytes. -/
theorem charUnits_le_utf8Size (c : Char) : charUnits c ≤ c.utf8Size := by
  unfold charUnits
  split
  · exact c.utf8Size_pos
  · rename_i hlarge
    -- a character of one byte is far below the ones of two code units
    refine Nat.succ_le_of_lt (Nat.lt_of_le_of_ne c.utf8Size_pos fun hone => hlarge ?_)
    have hle := UInt32.le_iff_toNat_le.1 (Char.utf8Size_eq_one_iff.1 hone.symm)
    exact Nat.lt_of_le_of_lt hle (by decide)

theorem units_le_bytes (cs : List Char) : units cs ≤ bytes cs := by
  induction cs with
  | nil => exact Nat.le_refl 0
  | cons c cs ih => exact Nat.add_le_add (charUnits_le_utf8Size c) ih

/-- Of two texts, one at the front of the other, the units tell whether they are the same. -/
theorem eq_of_prefix_of_units_eq (h : us <+: vs) (hunits : units us = units vs) : us = vs := by
  obtain ⟨ws, rfl⟩ := h
  rw [units_append] at hunits
  have hws : ws = [] := by
    by_contra hne
    have := units_pos hne
    omega
  rw [hws, List.append_nil]

theorem takeBytes_append_dropBytes (n : Nat) (cs : List Char) :
    takeBytes n cs ++ dropBytes n cs = cs := by
  induction cs generalizing n with
  | nil => rfl
  | cons c cs ih =>
    rw [takeBytes, dropBytes]
    split
    · rw [List.cons_append, ih]
    · rfl

/-- What is taken are as many whole characters as fit. -/
theorem bytes_takeBytes_le (n : Nat) (cs : List Char) : bytes (takeBytes n cs) ≤ n ∧
    ∀ c ∈ (dropBytes n cs).head?, n < bytes (takeBytes n cs) + c.utf8Size := by
  induction cs generalizing n with
  | nil => exact ⟨Nat.zero_le n, nofun⟩
  | cons d cs ih =>
    rw [takeBytes, dropBytes]
    split
    · rename_i hd
      obtain ⟨hle, hhead⟩ := ih (n - d.utf8Size)
      refine ⟨by rw [bytes]; omega, fun c hc => ?_⟩
      have := hhead c hc
      rw [bytes]
      omega
    · rename_i hd
      refine ⟨Nat.zero_le n, fun c hc => ?_⟩
      obtain rfl := Option.some.inj hc
      rw [bytes, Nat.zero_add]
      exact Nat.lt_of_not_le hd

theorem prefix_takeBytes (h : m ≤ n) (cs : List Char) : takeBytes m cs <+: takeBytes n cs := by
  induction cs generalizing m n with
  | nil => exact List.prefix_refl _
  | cons c cs ih =>
    rw [takeBytes]
    split
    · rw [takeBytes, if_pos (by omega)]
      exact (List.prefix_cons_inj c).2 (ih (Nat.sub_le_sub_right h _))
    · exact List.nil_prefix

/-! ## Lines -/

/-- In an increasing list the numbers up to a bound are those at the front. -/
theorem le_iff_lt_length_takeWhile {l : List Nat} (h : l.Pairwise (· < ·)) {i : Nat}
    (hi : l[i]? = some s) : s ≤ n ↔ i < (l.takeWhile (· ≤ n)).length := by
  induction l generalizing i with
  | nil => cases hi
  | cons x l ih =>
    by_cases hx : x ≤ n
    · rw [List.takeWhile_cons_of_pos (by simpa using hx), List.length_cons]
      cases i with
      | zero =>
        obtain rfl := Option.some.inj hi
        exact iff_of_true hx (Nat.succ_pos _)
      | succ i => rw [ih h.of_cons hi, Nat.succ_lt_succ_iff]
    · rw [List.takeWhile_cons_of_neg (by simpa using hx)]
      have hle : x ≤ s := by
        rcases List.mem_cons.1 (List.mem_of_getElem? hi) with rfl | hs
        · exact Nat.le_refl _
        · exact Nat.le_of_lt (List.rel_of_pairwise_cons h hs)
      exact iff_of_false (fun hs => hx (Nat.le_trans hle hs)) (Nat.not_lt_zero i)

namespace LineIndex

variable {text : String} {line offset : Nat}

/-- The starts that are found are the line starts. -/
theorem mem_starts : s ∈ (ofText text).starts ↔ StartsLine text.toList s := by
  rw [ofText, List.mem_toArray, List.mem_cons, mem_lineBreaks, StartsLine]
  simp only [Nat.zero_add, exists_eq_right']

theorem pairwise_starts (text : String) : (ofText text).starts.toList.Pairwise (· < ·) :=
  pairwise_lineBreaks 0 text.toList

theorem startsLine_of_start? (h : (ofText text).start? line = some s) :
    StartsLine text.toList s := mem_starts.1 (Array.mem_of_getElem? h)

/-- The lines up to the one of an offset are those that start at or before it. -/
theorem start_le_iff (h : (ofText text).start? line = some s) :
    s ≤ n ↔ line ≤ (ofText text).lineOf n := by
  rw [start?, ← Array.getElem?_toList] at h
  have hfirst : (ofText text).starts.toList[0]? = some 0 := rfl
  have hpos := (le_iff_lt_length_takeWhile (pairwise_starts text) hfirst).1 (Nat.zero_le n)
  rw [le_iff_lt_length_takeWhile (pairwise_starts text) h, lineOf]
  omega

/-- The line of an offset is there. -/
theorem exists_start? (text : String) (n : Nat) :
    ∃ s, (ofText text).start? ((ofText text).lineOf n) = some s ∧ s ≤ n := by
  have hfirst : (ofText text).starts.toList[0]? = some 0 := rfl
  have hpos := (le_iff_lt_length_takeWhile (pairwise_starts text) hfirst).1 (Nat.zero_le n)
  have hlength := (List.takeWhile_prefix (l := (ofText text).starts.toList) (· ≤ n)).length_le
  obtain ⟨s, hs⟩ : ∃ s, (ofText text).start? ((ofText text).lineOf n) = some s := by
    rw [start?, ← Array.getElem?_toList, lineOf, ← Option.isSome_iff_exists, isSome_getElem?]
    omega
  exact ⟨s, hs, (start_le_iff hs).2 (Nat.le_refl _)⟩

theorem lineOf_mono (text : String) {a b : Nat} (h : a ≤ b) :
    (ofText text).lineOf a ≤ (ofText text).lineOf b := by
  obtain ⟨s, hs, hsa⟩ := exists_start? text a
  exact (start_le_iff hs).1 (Nat.le_trans hsa h)

/-- A line starts no earlier than at its number, since each line before it has a character. -/
theorem le_start (h : (ofText text).start? line = some s) : line ≤ s := by
  induction line generalizing s with
  | zero => exact Nat.zero_le s
  | succ line ih =>
    rw [start?, ← Array.getElem?_toList] at h
    obtain ⟨hlt, rfl⟩ := List.getElem?_eq_some_iff.1 h
    have hbefore : line < (ofText text).starts.toList.length := Nat.lt_of_succ_lt hlt
    have hle := ih (s := (ofText text).starts.toList[line]) (by
      rw [start?, ← Array.getElem?_toList, List.getElem?_eq_getElem hbefore])
    exact Nat.lt_of_le_of_lt hle
      (List.pairwise_iff_getElem.1 (pairwise_starts text) _ _ hbefore hlt (Nat.lt_succ_self _))

/-! ## Positions -/

theorem position_line (text : String) (offset : Nat) :
    ((ofText text).position text offset).line =
      (ofText text).lineOf (min offset text.utf8ByteSize) := rfl

/-- The text before and behind the start of the line of an offset, and the column in it. -/
theorem exists_position (text : String) (offset : Nat) : ∃ us ws,
    text.toList = us ++ ws ∧ bytes us ≤ min offset text.utf8ByteSize ∧
    (ofText text).start? ((ofText text).position text offset).line = some (bytes us) ∧
    ((ofText text).position text offset).column =
      units (takeBytes (min offset text.utf8ByteSize - bytes us) ws) := by
  obtain ⟨s, hs, hle⟩ := exists_start? text (min offset text.utf8ByteSize)
  obtain ⟨us, ws, htext, rfl⟩ := (startsLine_of_start? hs).splits
  refine ⟨us, ws, htext, hle, hs, ?_⟩
  have hsize : text.utf8ByteSize = bytes us + bytes ws := by
    rw [← String.ofList_toList (s := text), utf8ByteSize_ofList, htext, bytes_append]
  have hslice : slice text (bytes us) text.utf8ByteSize = String.ofList ws := by
    have hmid := slice_append_mid us ws []
    rwa [List.append_nil, ← htext, String.ofList_toList, ← hsize] at hmid
  rw [position]
  simp only [hs, Option.getD_some, hslice, String.toList_ofList]

/-- The text of a line up to an offset in it: it ends at the offset, or before the character that the
offset is inside of. -/
theorem exists_parts (text : String) (offset : Nat) : ∃ us ms vs,
    text.toList = us ++ ms ++ vs ∧
    (ofText text).start? ((ofText text).position text offset).line = some (bytes us) ∧
    bytes (us ++ ms) ≤ min offset text.utf8ByteSize ∧
    (∀ c ∈ vs.head?, min offset text.utf8ByteSize < bytes (us ++ ms) + c.utf8Size) ∧
    ((ofText text).position text offset).column = units ms := by
  obtain ⟨us, ws, htext, hle, hstart, hcolumn⟩ := exists_position text offset
  obtain ⟨hfit, hhead⟩ := bytes_takeBytes_le (min offset text.utf8ByteSize - bytes us) ws
  refine ⟨us, _, dropBytes (min offset text.utf8ByteSize - bytes us) ws, ?_, hstart, ?_,
    fun c hc => ?_, hcolumn⟩
  · rw [List.append_assoc, takeBytes_append_dropBytes, htext]
  · rw [bytes_append]
    omega
  · have := hhead c hc
    rw [bytes_append]
    omega

/-- Neither number of a position is past the offset. -/
theorem line_add_column_le (text : String) (offset : Nat) :
    ((ofText text).position text offset).line + ((ofText text).position text offset).column ≤
      min offset text.utf8ByteSize := by
  obtain ⟨us, ms, vs, -, hstart, hle, -, hcolumn⟩ := exists_parts text offset
  rw [bytes_append] at hle
  rw [hcolumn]
  exact Nat.le_trans (Nat.add_le_add (le_start hstart) (units_le_bytes ms)) hle

/-- Two positions of one line come from one start, behind which their characters are taken. -/
theorem exists_same_start {a b : Nat}
    (h : ((ofText text).position text a).line = ((ofText text).position text b).line) : ∃ us ws,
    text.toList = us ++ ws ∧ bytes us ≤ min a text.utf8ByteSize ∧
    bytes us ≤ min b text.utf8ByteSize ∧
    ((ofText text).position text a).column =
      units (takeBytes (min a text.utf8ByteSize - bytes us) ws) ∧
    ((ofText text).position text b).column =
      units (takeBytes (min b text.utf8ByteSize - bytes us) ws) := by
  obtain ⟨us, ws, htext, hle, hstart, hcolumn⟩ := exists_position text a
  obtain ⟨us', ws', htext', hle', hstart', hcolumn'⟩ := exists_position text b
  rw [h, hstart'] at hstart
  have hbytes : bytes us' = bytes us := Option.some.inj hstart
  have hws : ws' = ws := by
    rw [← dropBytes_append us ws, ← htext, ← hbytes, htext', dropBytes_append]
  rw [hbytes] at hle'
  rw [hbytes, hws] at hcolumn'
  exact ⟨us, ws, htext, hle, hle', hcolumn, hcolumn'⟩

/-- Later offsets have later positions, or the same one. -/
theorem position_mono (text : String) {a b : Nat} (h : a ≤ b) :
    ((ofText text).position text a).line < ((ofText text).position text b).line ∨
      ((ofText text).position text a).line = ((ofText text).position text b).line ∧
        ((ofText text).position text a).column ≤ ((ofText text).position text b).column := by
  have hmin : min a text.utf8ByteSize ≤ min b text.utf8ByteSize := by omega
  refine (Nat.lt_or_eq_of_le (lineOf_mono text hmin)).imp_right fun hline => ⟨hline, ?_⟩
  obtain ⟨us, ws, -, -, -, ha, hb⟩ := exists_same_start hline
  obtain ⟨more, hmore⟩ := prefix_takeBytes (Nat.sub_le_sub_right hmin (bytes us)) ws
  rw [ha, hb, ← hmore, units_append]
  exact Nat.le_add_right _ _

/-- Up to an offset between characters all bytes are taken. -/
theorem bytes_takeBytes_of_splits (h : Splits (us ++ vs) n) (hn : bytes us ≤ n) :
    bytes (takeBytes (n - bytes us) vs) = n - bytes us := by
  obtain ⟨ms, ws, rfl, rfl⟩ := h.behind hn
  rw [Nat.add_sub_cancel_left, takeBytes_append]

/-- Offsets between characters are told apart by their positions. -/
theorem position_injective {a b : Nat} (ha : Splits text.toList a) (hb : Splits text.toList b)
    (h : (ofText text).position text a = (ofText text).position text b) : a = b := by
  have hsize {n : Nat} (hn : Splits text.toList n) : min n text.utf8ByteSize = n := by
    have hle := hn.le_bytes
    rw [← utf8ByteSize_ofList, String.ofList_toList] at hle
    exact Nat.min_eq_left hle
  obtain ⟨us, ws, htext, hua, hub, hca, hcb⟩ := exists_same_start (congrArg Position.line h)
  rw [hsize ha] at hua hca
  rw [hsize hb] at hub hcb
  rw [htext] at ha hb
  have hunits : units (takeBytes (a - bytes us) ws) = units (takeBytes (b - bytes us) ws) := by
    rw [← hca, ← hcb, h]
  have htaken : takeBytes (a - bytes us) ws = takeBytes (b - bytes us) ws := by
    obtain hab | hba := Nat.le_total a b
    · exact eq_of_prefix_of_units_eq (prefix_takeBytes (Nat.sub_le_sub_right hab _) ws) hunits
    · exact (eq_of_prefix_of_units_eq (prefix_takeBytes (Nat.sub_le_sub_right hba _) ws)
        hunits.symm).symm
  have hlength := congrArg bytes htaken
  rw [bytes_takeBytes_of_splits ha hua, bytes_takeBytes_of_splits hb hub] at hlength
  omega

/-- A line starts between two offsets when the second one is on a later line. -/
theorem spansLines_iff {a b : Nat} : (ofText text).spansLines a b = true ↔
    (ofText text).lineOf a < (ofText text).lineOf b := by
  rw [spansLines, Array.any_eq_true]
  constructor
  · rintro ⟨i, hi, hs⟩
    obtain ⟨ha, hb⟩ := Bool.and_eq_true_iff.1 hs
    have hstart : (ofText text).start? i = some (ofText text).starts[i] :=
      Array.getElem?_eq_getElem hi
    have hai := mt (start_le_iff hstart).2 (Nat.not_le_of_lt (of_decide_eq_true ha))
    have hbi := (start_le_iff hstart).1 (of_decide_eq_true hb)
    omega
  · intro hlt
    obtain ⟨s, hs, hsb⟩ := exists_start? text b
    obtain ⟨hi, hget⟩ := Array.getElem?_eq_some_iff.1 hs
    have hsa : a < s := Nat.lt_of_not_le fun hle => Nat.not_le_of_lt hlt ((start_le_iff hs).1 hle)
    exact ⟨_, hi, by rw [hget, decide_eq_true hsa, decide_eq_true hsb]; rfl⟩

/-- The lines of a text start where they do by what ends a line, in increasing order, and no start is
past the end. The line of an offset is the last one that starts at or before it, and the column counts
the characters from that start up to the offset, or up to the character that it is inside of; there
always is such a part of the text, and the numbers are no larger than the offset. Later offsets have
later positions or the same one, and different offsets between characters have different ones. Some
line starts behind one offset and up to another exactly if the second one is on a later line. -/
theorem position_exact (text : String) :
    (∀ s, s ∈ (ofText text).starts ↔ StartsLine text.toList s) ∧
    (ofText text).starts.toList.Pairwise (· < ·) ∧
    (∀ s ∈ (ofText text).starts, s ≤ text.utf8ByteSize) ∧
    (∀ offset,
      let n := min offset text.utf8ByteSize
      let p := (ofText text).position text offset
      (∀ line s, (ofText text).start? line = some s → (s ≤ n ↔ line ≤ p.line)) ∧
      (∃ us ms vs, text.toList = us ++ ms ++ vs ∧ (ofText text).start? p.line = some (bytes us) ∧
        bytes (us ++ ms) ≤ n ∧ (∀ c ∈ vs.head?, n < bytes (us ++ ms) + c.utf8Size) ∧
        p.column = units ms) ∧
      p.line + p.column ≤ n) ∧
    (∀ a b, a ≤ b →
      let p := (ofText text).position text a
      let q := (ofText text).position text b
      p.line < q.line ∨ p.line = q.line ∧ p.column ≤ q.column) ∧
    (∀ a b, Splits text.toList a → Splits text.toList b →
      (ofText text).position text a = (ofText text).position text b → a = b) ∧
    ∀ a b, a ≤ b → b ≤ text.utf8ByteSize →
      ((ofText text).spansLines a b = true ↔
        ((ofText text).position text a).line < ((ofText text).position text b).line) := by
  refine ⟨fun s => mem_starts, pairwise_starts text, fun s hs => ?_, fun offset => ?_,
    fun a b hab => position_mono text hab, fun a b ha hb h => position_injective ha hb h,
    fun a b hab hb => ?_⟩
  · have hle := (mem_starts.1 hs).splits.le_bytes
    rwa [← utf8ByteSize_ofList, String.ofList_toList] at hle
  · exact ⟨fun line s hs => start_le_iff hs, exists_parts text offset,
      line_add_column_le text offset⟩
  · rw [position_line, position_line, Nat.min_eq_left (Nat.le_trans hab hb), Nat.min_eq_left hb]
    exact spansLines_iff

/-- An offset inside of a character and one between the two characters of a line end. -/
theorem position_exact_inside :
    StartsLine "a\r\n😀\rb".toList 3 ∧
    ((ofText "a\r\n😀\rb").spansLines 2 5 = true ↔
      ((ofText "a\r\n😀\rb").position "a\r\n😀\rb" 2).line <
        ((ofText "a\r\n😀\rb").position "a\r\n😀\rb" 5).line) ∧
    (ofText "a\r\n😀\rb").position "a\r\n😀\rb" 2 = ⟨0, 2⟩ ∧
    (ofText "a\r\n😀\rb").position "a\r\n😀\rb" 5 = ⟨1, 0⟩ := by
  obtain ⟨hstarts, -, -, -, -, -, hspans⟩ := position_exact "a\r\n😀\rb"
  have hthree : (ofText "a\r\n😀\rb").starts = #[0, 3, 8] := by cbv
  refine ⟨(hstarts 3).1 ?_, hspans 2 5 (by decide) (by decide), by cbv, by cbv⟩
  rw [hthree]
  simp

end LineIndex

end DeclKit.Text

/-
Byte offsets into a text.

Positions are offsets into the UTF-8 encoding; columns count UTF-16 code units. Both are measures of
a list of characters, so that what holds of a text can be shown by recursion on its characters.
Replacing every occurrence of a pattern, from left to right and without overlaps, is such a recursion too.
-/

set_option autoImplicit false

namespace DeclKit.Text

/-- UTF-16 code units of a character. -/
def charUnits (c : Char) : Nat := if c.toNat < 0x10000 then 1 else 2

/-- UTF-16 code units of a list of characters. -/
def units : List Char → Nat
  | [] => 0
  | c :: cs => charUnits c + units cs

/-- UTF-8 bytes of a list of characters. -/
def bytes : List Char → Nat
  | [] => 0
  | c :: cs => c.utf8Size + bytes cs

/-- The UTF-8 encoding of a list of characters. -/
def encode (cs : List Char) : List UInt8 := cs.flatMap String.utf8EncodeChar

/-- UTF-8 bytes of several texts. -/
def totalBytes : List String → Nat
  | [] => 0
  | s :: ss => s.utf8ByteSize + totalBytes ss

/-- The characters that end at or before byte `n`. A character that byte `n` cuts is left out. -/
def takeBytes (n : Nat) : List Char → List Char
  | [] => []
  | c :: cs => if c.utf8Size ≤ n then c :: takeBytes (n - c.utf8Size) cs else []

/-- What is left after `takeBytes n`. -/
def dropBytes (n : Nat) : List Char → List Char
  | [] => []
  | c :: cs => if c.utf8Size ≤ n then dropBytes (n - c.utf8Size) cs else c :: cs

/-- The characters between two byte offsets. -/
def between (start stop : Nat) (cs : List Char) : List Char :=
  takeBytes (stop - start) (dropBytes start cs)

theorem length_takeBytes_le (n : Nat) (cs : List Char) : (takeBytes n cs).length ≤ cs.length := by
  induction cs generalizing n with
  | nil => exact Nat.le_refl _
  | cons c cs ih =>
    simp only [takeBytes]
    split
    · exact Nat.succ_le_succ (ih _)
    · exact Nat.zero_le _

theorem length_dropBytes_le (n : Nat) (cs : List Char) : (dropBytes n cs).length ≤ cs.length := by
  induction cs generalizing n with
  | nil => exact Nat.le_refl _
  | cons c cs ih =>
    simp only [dropBytes]
    split
    · exact Nat.le_succ_of_le (ih _)
    · exact Nat.le_refl _

/-- Behind an ASCII character and further on there are fewer characters than with it. -/
theorem length_dropBytes_lt {n : Nat} {c : Char} {cs : List Char} (hn : 0 < n)
    (hc : c.utf8Size = 1) : (dropBytes n (c :: cs)).length < (c :: cs).length := by
  rw [dropBytes, if_pos (by omega)]
  exact Nat.lt_succ_of_le (length_dropBytes_le _ _)

theorem length_between_lt {a b : Nat} {c : Char} {cs : List Char} (ha : 0 < a)
    (hc : c.utf8Size = 1) : (between a b (c :: cs)).length < (c :: cs).length :=
  Nat.lt_of_le_of_lt (length_takeBytes_le _ _) (length_dropBytes_lt ha hc)

/-- The part of a text between two byte offsets. -/
def slice (s : String) (start stop : Nat) : String :=
  String.Pos.Raw.extract s ⟨start⟩ ⟨stop⟩

/-- Whether a byte offset lies between two characters, or at an end, of the text. -/
def isBoundary (s : String) (offset : Nat) : Bool :=
  String.Pos.Raw.isValid s ⟨offset⟩

/-- A text repeated. -/
def repeated (n : Nat) (s : String) : String :=
  String.join (List.replicate n s)

/-- The text without a given ending, if it ends so. -/
def stripSuffix? (s ending : String) : Option String :=
  let cs := s.toList
  let es := ending.toList
  if es.isSuffixOf cs then some (String.ofList (cs.take (cs.length - es.length))) else none

/-- The text without a given beginning, if it begins so. -/
def stripStart? (s beginning : String) : Option String :=
  let cs := s.toList
  let bs := beginning.toList
  if bs.isPrefixOf cs then some (String.ofList (cs.drop bs.length)) else none

/-- The order of texts by their UTF-8 bytes, which is the order by code points. -/
def compareText (a b : String) : Ordering := compare a b

/-! ## Replacing -/

/-- Replaces each occurrence of a non-empty pattern. -/
def replaceAll (pattern replacement : List Char) (text : List Char) : List Char :=
  match text with
  | [] => []
  | c :: cs =>
    if !pattern.isEmpty && pattern.isPrefixOf (c :: cs) then
      replacement ++ replaceAll pattern replacement (cs.drop (pattern.length - 1))
    else c :: replaceAll pattern replacement cs
termination_by text.length

/-- Replaces each occurrence of a non-empty pattern in a text. -/
def replace (pattern replacement text : String) : String :=
  String.ofList (replaceAll pattern.toList replacement.toList text.toList)

end DeclKit.Text

/-
Where the pieces of a template literal end.

A template is literal text with substitutions between a dollar brace and its closing brace. What
stands inside a substitution is lexed on its own, so the first question is where it ends: braces nest,
and quotes, comments and further templates hide the braces inside them.

Templates are scanned twice, byte by byte. The first scan finds the closing backtick in whatever
follows the opening one; the second cuts the bytes up to there into pieces and looks for the end of
each substitution once more. Places are byte offsets, and `i` is that of the first byte given.
-/

set_option autoImplicit false

namespace DeclKit.Template

/-- The byte of an ASCII character. -/
def ascii (c : Char) : UInt8 := c.val.toUInt8

/-- What a place in a substitution is inside of. -/
inductive Inside where
  | code
  /-- A quoted string, which a line feed ends too. -/
  | quoted (quote : UInt8)
  | lineComment
  | blockComment
deriving DecidableEq, Repr

mutual

/-- The offset just after the backtick that closes a template, of which the opening backtick has been
read; `none` when nothing closes it. A backslash takes the next byte with it, which may be a part of a
character. -/
def bodyEnd? (i : Nat) : List UInt8 → Option Nat
  | [] => none
  | b :: bs =>
    if b == ascii '\\' then bodyEnd? (i + 2) (bs.drop 1)
    else if b == ascii '`' then some (i + 1)
    else if b == ascii '$' && bs.head? == some (ascii '{') then
      match codeEnd? .code 0 (i + 2) (bs.drop 1) with
      | none => none
      | some close => bodyEnd? (close + 1) (bs.drop (close - i))
    else bodyEnd? (i + 1) bs
termination_by bs => bs.length

/-- The offset of the brace that closes a substitution, in which `depth` braces are open. -/
def codeEnd? (inside : Inside) (depth : Nat) (i : Nat) : List UInt8 → Option Nat
  | [] => none
  | b :: bs =>
    match inside with
    | .code =>
      if b == ascii '{' then codeEnd? .code (depth + 1) (i + 1) bs
      else if b == ascii '}' && depth == 0 then some i
      else if b == ascii '}' then codeEnd? .code (depth - 1) (i + 1) bs
      else if b == ascii '"' || b == ascii '\'' then codeEnd? (.quoted b) depth (i + 1) bs
      else if b == ascii '`' then
        match bodyEnd? (i + 1) bs with
        | none => none
        | some stop => codeEnd? .code depth stop (bs.drop (stop - (i + 1)))
      else if b == ascii '/' && bs.head? == some (ascii '/') then
        codeEnd? .lineComment depth (i + 2) (bs.drop 1)
      else if b == ascii '/' && bs.head? == some (ascii '*') then
        codeEnd? .blockComment depth (i + 2) (bs.drop 1)
      else codeEnd? .code depth (i + 1) bs
    | .quoted quote =>
      if b == quote || b == ascii '\n' then codeEnd? .code depth (i + 1) bs
      else if b == ascii '\\' then codeEnd? inside depth (i + 2) (bs.drop 1)
      else codeEnd? inside depth (i + 1) bs
    | .lineComment =>
      if b == ascii '\n' then codeEnd? .code depth (i + 1) bs
      else codeEnd? inside depth (i + 1) bs
    | .blockComment =>
      if b == ascii '*' && bs.head? == some (ascii '/') then
        codeEnd? .code depth (i + 2) (bs.drop 1)
      else codeEnd? inside depth (i + 1) bs
termination_by bs => bs.length

end

/-- A stretch of literal text with the dollar brace that ends it, and the substitution behind it. -/
structure Span where
  start : Nat
  stop : Nat
  /-- Where the closing brace of the substitution was found. -/
  brace? : Option Nat
deriving DecidableEq, Repr

/-- A template cut at its substitutions: its spans, and where the closing text starts. Every piece but
the first starts with the brace that closes the substitution before it. -/
structure Pieces where
  spans : List Span
  last : Nat
deriving DecidableEq, Repr

/-- Where a substitution ends in a template that ends at `stop`: at its closing brace, and without
one just before the end of the template. -/
def Span.close (stop : Nat) (s : Span) : Nat := s.brace?.getD (stop - 1)

/-- Cuts a template that ends at `stop`, in a piece that starts at `start`. The bytes are those of the
template that are left. -/
def split (stop start i : Nat) : List UInt8 → Pieces
  | [] => ⟨[], start⟩
  | b :: bs =>
    if b == ascii '\\' then split stop start (i + 2) (bs.drop 1)
    else if b == ascii '$' && bs.head? == some (ascii '{') then
      let span : Span := ⟨start, i + 2, codeEnd? .code 0 (i + 2) (bs.drop 1)⟩
      let close := span.close stop
      let more := split stop close (close + 1) (bs.drop (close - i))
      ⟨span :: more.spans, more.last⟩
    else split stop start (i + 1) bs
termination_by bs => bs.length

/-! ## Terminating

The lexer goes on with what stands behind a template and inside its substitutions. Both are shorter
than the template with what follows it, because no offset of theirs is zero. -/

theorem bodyEnd?_pos {i n : Nat} {bs : List UInt8} (h : bodyEnd? i bs = some n) : 0 < n := by
  match bs with
  | [] => simp [bodyEnd?] at h
  | b :: bs =>
    rw [bodyEnd?] at h
    split at h
    · exact bodyEnd?_pos h
    · split at h
      · simp only [Option.some.injEq] at h
        omega
      · split at h
        · split at h
          · simp at h
          · exact bodyEnd?_pos h
        · exact bodyEnd?_pos h
termination_by bs.length

theorem Span.stop_pos {stop start i : Nat} {bs : List UInt8} {s : Span}
    (h : s ∈ (split stop start i bs).spans) : 0 < s.stop := by
  fun_induction split stop start i bs with
  | case1 => simp at h
  | case2 start i b bs _ ih => exact ih h
  | case3 start i b bs _ _ span close more ih =>
    rcases List.mem_cons.1 h with rfl | h
    · exact Nat.succ_pos _
    · exact ih h
  | case4 start i b bs _ _ ih => exact ih h

end DeclKit.Template

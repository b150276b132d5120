/-
The comments that lead a statement.

The tokens between the full start of a statement and the statement are its gap. They lie side by side,
they are the last ones before it, and behind a token all of them are trivia. Where the locator reads
each of them as the lexer does, it finds the comments among them: at the start of the file all, and behind
a token those that come after the first line end.

It does not read all trivia as the lexer does, nor does it stop at every token. What it has to meet
instead is said by `Node.Plain`.
-/
import DeclKit.Proofs.Comment.Scan
import DeclKit.Proofs.Symbol.Account
import DeclKit.Proofs.Trivia.File

set_option autoImplicit false

namespace DeclKit

open DeclKit.Tree Token Comment

/-! ## Leaves -/

mutual

/-- The tokens among the leaves of a tree are its tokens. -/
theorem Tree.filterMap_leafRow : ∀ t : Tree, t.leafRow.filterMap id = t.tokens
  | .token _ => rfl
  | .node _ _ _ [] => rfl
  | .node _ _ _ (c :: cs) => by
    rw [leafRow, List.filterMap_append, Tree.filterMap_leafRow c, Tree.filterMap_leafRowOfList cs]
    rfl

theorem Tree.filterMap_leafRowOfList :
    ∀ ts : List Tree, (leafRowOfList ts).filterMap id = tokensOfList ts
  | [] => rfl
  | t :: ts => by
    rw [leafRowOfList, List.filterMap_append, Tree.filterMap_leafRow t,
      Tree.filterMap_leafRowOfList ts]
    rfl

end

theorem Tree.leafRowOfList_append (xs ys : List Tree) :
    leafRowOfList (xs ++ ys) = leafRowOfList xs ++ leafRowOfList ys := by
  induction xs with
  | nil => rfl
  | cons x xs ih => rw [List.cons_append, leafRowOfList, ih, leafRowOfList, List.append_assoc]

theorem Tree.leafRow_node {k : Kind} {a b : Nat} {cs : List Tree} (h : cs ≠ []) :
    leafRow (.node k a b cs) = leafRowOfList cs := by
  cases cs with
  | nil => exact absurd rfl h
  | cons c cs => rfl

/-- The last stop of a reversed row is that of a token with nothing but trivia behind it. -/
theorem Node.lastStop_eq (row : List (Option Token)) :
    lastStop row = 0 ∨ ∃ gap t before, row.filterMap id = gap ++ t :: before ∧
      (∀ u ∈ gap, u.kind.isTrivia = true) ∧ t.stop = lastStop row := by
  induction row with
  | nil => exact .inl rfl
  | cons leaf row ih =>
    cases leaf with
    | none => exact .inl rfl
    | some t =>
      rw [lastStop]
      split
      · rename_i htrivia
        refine ih.imp_right ?_
        rintro ⟨gap, u, before, hrow, hgap, hstop⟩
        refine ⟨t :: gap, u, before, ?_, ?_, hstop⟩
        · exact congrArg (t :: ·) hrow
        · exact List.forall_mem_cons.2 ⟨htrivia, hgap⟩
      · exact .inr ⟨[], t, row.filterMap id, rfl, fun _ h => absurd h List.not_mem_nil, rfl⟩

/-! ## Gaps -/

/-- The tokens between the full start of a node and the node. -/
def Node.gap (n : Node) (text : String) : List Token :=
  (lex text).filter fun t => n.fullStart ≤ t.start && t.stop ≤ n.start

/-- Of tokens that lie side by side those between two offsets that bound some of them. -/
theorem filter_between {a p q b : Nat} {xs gs ys : List Token} (hx : Tiles a p xs)
    (hg : Tiles p q gs) (hy : Tiles q b ys) :
    (xs ++ (gs ++ ys)).filter (fun t => p ≤ t.start && t.stop ≤ q) = gs := by
  have hbefore : xs.filter (fun t => p ≤ t.start && t.stop ≤ q) = [] := by
    refine List.filter_eq_nil_iff.2 fun t ht => ?_
    have := hx.mem ht
    simp only [Bool.and_eq_true, decide_eq_true_eq]
    omega
  have hwithin : gs.filter (fun t => p ≤ t.start && t.stop ≤ q) = gs := by
    refine List.filter_eq_self.2 fun t ht => ?_
    have := hg.mem ht
    simp only [Bool.and_eq_true, decide_eq_true_eq]
    omega
  have hbehind : ys.filter (fun t => p ≤ t.start && t.stop ≤ q) = [] := by
    refine List.filter_eq_nil_iff.2 fun t ht => ?_
    have := hy.mem ht
    simp only [Bool.and_eq_true, decide_eq_true_eq]
    omega
  rw [List.filter_append, List.filter_append, hbefore, hwithin, hbehind, List.append_nil]
  rfl

section Gap

variable {source : SourceId} {limits : Limits} {text : String} {f : ParsedFile} {n : Node}

/-- The full start of a part is zero, or the end of a token before it with nothing but trivia between
the two. -/
theorem fullStart_spec {k : Kind} {a b m m' : Nat} {xs : List Tree} {c : Tree} (ys : List Tree)
    (hxs : CoversAll a m xs) (hc : Covers m m' c) :
    Node.fullStart ⟨c, [.node k a b (xs ++ c :: ys)]⟩ = 0 ∨
      ∃ before t gap, tokensOfList xs = before ++ t :: gap ∧ (∀ u ∈ gap, u.kind.isTrivia = true) ∧
        t.stop = Node.fullStart ⟨c, [.node k a b (xs ++ c :: ys)]⟩ := by
  unfold Node.fullStart
  split
  · rename_i first rest hfirst
    have hstart : first.start = m := by
      have htiles := hc.tiles
      rw [← filterMap_leafRow, show c.leafRow = some first :: rest from hfirst] at htiles
      exact htiles.1
    -- the leaves up to the first of the part are those of the parts before it
    have hrow : (Node.file ⟨c, [.node k a b (xs ++ c :: ys)]⟩).leafRow.takeWhile
        (fun l => !l.any (·.start == first.start)) = leafRowOfList xs := by
      have hleaves : (Node.file ⟨c, [.node k a b (xs ++ c :: ys)]⟩).leafRow =
          leafRowOfList xs ++ some first :: (rest ++ leafRowOfList ys) := by
        refine (leafRow_node (by simp)).trans ?_
        rw [leafRowOfList_append, leafRowOfList, show c.leafRow = some first :: rest from hfirst]
        rfl
      rw [hleaves, List.takeWhile_append_of_pos, List.takeWhile_cons_of_neg, List.append_nil]
      · simp
      · intro l hl
        cases l with
        | none => rfl
        | some t =>
          have hmem : t ∈ tokensOfList xs := by
            rw [← filterMap_leafRowOfList]
            exact List.mem_filterMap.2 ⟨some t, hl, rfl⟩
          have := hxs.tiles.mem hmem
          simp only [Option.any_some, Bool.not_eq_true', beq_eq_false_iff_ne]
          omega
    rw [hrow]
    refine (Node.lastStop_eq _).imp_right ?_
    rintro ⟨gap, t, before, hsplit, hgap, hstop⟩
    refine ⟨before.reverse, t, gap.reverse, ?_, fun u hu => hgap u (List.mem_reverse.1 hu), hstop⟩
    rw [List.filterMap_reverse, filterMap_leafRowOfList] at hsplit
    rw [← List.reverse_inj, hsplit]
    simp
  · exact .inl rfl

/-- Where the gap in front of a statement lies: between what comes before it and the statement. Behind a
token that is no trivia it is trivia throughout. -/
theorem gap_spec (h : parseWith source limits text = .ok f) (hn : n ∈ (Node.mk f.tree []).children) :
    ∃ before after, lex text = before ++ (n.gap text ++ (n.tree.tokens ++ after)) ∧
      Tiles 0 n.fullStart before ∧ Tiles n.fullStart n.start (n.gap text) ∧
      (n.fullStart ≠ 0 → ∀ t ∈ n.gap text, t.kind.isTrivia = true) := by
  obtain ⟨⟨cs, hroot⟩, htokens, hcovers, -⟩ := parseWith_spec h
  obtain ⟨c, hc, rfl⟩ := List.mem_map.1 hn
  replace hc : c ∈ cs := by
    have := (List.mem_filter.1 hc).1
    rwa [hroot] at this
  obtain ⟨xs, ys, rfl⟩ := List.append_of_mem hc
  rw [hroot] at hcovers htokens
  obtain ⟨m, hxs, m', hchild, hys⟩ := coversAll_append.1 hcovers.2.2
  have hstart : Node.start ⟨c, [f.tree]⟩ = m := hchild.start_eq
  have hlex : lex text = tokensOfList xs ++ (c.tokens ++ tokensOfList ys) := by
    rw [← htokens, Tree.tokens, tokensOfList_append, tokensOfList]
  have hbehind : Tiles m text.utf8ByteSize (c.tokens ++ tokensOfList ys) :=
    tiles_append.2 ⟨m', hchild.tiles, hys.tiles⟩
  have hfull := fullStart_spec (k := .root) (b := text.utf8ByteSize) ys hxs hchild
  rw [← hroot] at hfull
  -- the tokens before the statement are split at its full start
  have hsplit : ∃ before gap, tokensOfList xs = before ++ gap ∧
      Tiles 0 (Node.fullStart ⟨c, [f.tree]⟩) before ∧ Tiles (Node.fullStart ⟨c, [f.tree]⟩) m gap ∧
      (Node.fullStart ⟨c, [f.tree]⟩ ≠ 0 → ∀ t ∈ gap, t.kind.isTrivia = true) := by
    have hall := hxs.tiles
    rcases hfull with hzero | ⟨before, t, gap, hxs', hgap, hstop⟩
    · rw [hzero]
      exact ⟨[], tokensOfList xs, rfl, rfl, hall, fun hne => absurd rfl hne⟩
    · rw [hxs', List.append_cons, tiles_append] at hall
      obtain ⟨p, hbefore, hrest⟩ := hall
      obtain ⟨-, -, -, -, hp⟩ := tiles_append.1 hbefore
      obtain rfl := hp.symm.trans hstop
      exact ⟨before ++ [t], gap, by rw [hxs', List.append_cons], hbefore, hrest, fun _ => hgap⟩
  obtain ⟨before, gap, hxs', hbefore, hgap, htrivia⟩ := hsplit
  have hgap' : Node.gap ⟨c, [f.tree]⟩ text = gap := by
    rw [Node.gap, hlex, hxs', List.append_assoc, hstart]
    exact filter_between hbefore hgap hbehind
  rw [hgap', hstart]
  exact ⟨before, tokensOfList ys, by rw [hlex, hxs', List.append_assoc], hbefore, hgap, htrivia⟩

end Gap

/-! ## Gaps that are read alike -/

/-- A gap of trivia that the lexer and the locator read alike from token to token. The locator knows no
byte-order mark, ends lines at separators too, and ends them at line ends only; and in a template the
lexer ends a line with the substitution. -/
structure Readable (ts : List Token) : Prop where
  shows : ∀ t ∈ ts, ShowsTrivia t.kind t.text.toList
  isTrivia : ∀ t ∈ ts, t.kind.isTrivia = true
  unmarked : ∀ t ∈ ts, t.text ≠ "\uFEFF"
  line : ∀ t ∈ ts, t.kind = .lineComment ∨ t.kind = .shebang →
    t.text.toList.any isSeparator = false ∧ ∃ u ∈ ts, u.start = t.stop ∧ u.kind = .newline

section Readable

variable {a b : Nat} {t : Token} {ts : List Token}

theorem Readable.tail (h : Readable (t :: ts)) (ht : Tiles a b (t :: ts)) : Readable ts := by
  refine ⟨fun u hu => h.shows u (List.mem_cons_of_mem t hu),
    fun u hu => h.isTrivia u (List.mem_cons_of_mem t hu),
    fun u hu => h.unmarked u (List.mem_cons_of_mem t hu), fun u hu hk => ?_⟩
  obtain ⟨hsep, v, hv, hstart, hnewline⟩ := h.line u (List.mem_cons_of_mem t hu) hk
  refine ⟨hsep, v, ?_, hstart, hnewline⟩
  -- what follows a token of the rest is in the rest
  refine (List.mem_cons.1 hv).resolve_left ?_
  rintro rfl
  have := ht.2.2.mem hu
  have := ht.2.1
  have := ht.1
  omega

/-- A line comment or the line at the start of a file has a line end behind it. -/
theorem Readable.endsLine_next (h : Readable (t :: ts)) (ht : Tiles a b (t :: ts))
    (hk : t.kind = .lineComment ∨ t.kind = .shebang) (after : List Char) :
    ∀ c, (chars ts ++ after).head? = some c → endsLine c = true := by
  obtain ⟨-, v, hv, hstart, hnewline⟩ := h.line t List.mem_cons_self hk
  have hmem : v ∈ ts := by
    refine (List.mem_cons.1 hv).resolve_left ?_
    rintro rfl
    have := ht.2.1
    have := ht.1
    omega
  cases ts with
  | nil => exact absurd hmem List.not_mem_nil
  | cons u us =>
    obtain ⟨rfl, -, hu, hlt, hus⟩ := ht
    -- the next token is the one that starts where this one ends
    obtain rfl : v = u := by
      refine (List.mem_cons.1 hmem).resolve_right fun hv => ?_
      have := hus.mem hv
      omega
    have hshows := h.shows v (List.mem_cons_of_mem t List.mem_cons_self)
    rw [hnewline] at hshows
    intro c hc
    rw [chars, List.flatMap_cons] at hc
    rcases hshows with hs | hs | hs
    all_goals
      rw [hs] at hc
      obtain rfl := Option.some.inj hc
      rfl

/-- The locator reads the gap as the lexer does, unless it starts with a line that is passed over. -/
theorem Readable.legibleAll (h : Readable ts) (ht : Tiles a b ts)
    (hhash : ∀ t ∈ ts, t.kind ≠ .shebang) (after : List Char) : LegibleAll ts after := by
  induction ts generalizing a with
  | nil => trivial
  | cons t ts ih =>
    refine ⟨⟨h.shows t List.mem_cons_self, h.isTrivia t List.mem_cons_self,
      h.unmarked t List.mem_cons_self, hhash t List.mem_cons_self, fun hk => ?_⟩,
      ih (h.tail ht) ht.2.2 fun u hu => hhash u (List.mem_cons_of_mem t hu)⟩
    exact ⟨(h.line t List.mem_cons_self (.inl hk)).1, h.endsLine_next ht (.inl hk) after⟩

/-- A line that starts with `#!` at the start of a file only is the first token there. -/
theorem shebang_first (ht : Tiles a b ts) (hhash : ∀ u ∈ ts, u.kind = .shebang → u.start = 0)
    (hmem : t ∈ ts) (hk : t.kind = .shebang) :
    ∃ us, ts = t :: us ∧ a = 0 ∧ ∀ u ∈ us, u.kind ≠ .shebang := by
  cases ts with
  | nil => exact absurd hmem List.not_mem_nil
  | cons u us =>
    have hstart := ht.1
    have hlt := ht.2.1
    have hrest : ∀ v ∈ us, v.kind ≠ .shebang := fun v hv hkv => by
      have := ht.2.2.mem hv
      have := hhash v (List.mem_cons_of_mem u hv) hkv
      omega
    obtain rfl : t = u := (List.mem_cons.1 hmem).resolve_right fun hv => hrest t hv hk
    exact ⟨us, rfl, by rw [← hstart]; exact hhash t List.mem_cons_self hk, hrest⟩

/-- Behind the line that is passed over at the start of a file the gap is read as the lexer does. -/
theorem Readable.leading_shebang {text : String} {c : Char} {after : List Char}
    (h : Readable (t :: ts)) (ht : Tiles 0 b (t :: ts)) (hk : t.kind = .shebang)
    (hhash : ∀ u ∈ ts, u.kind ≠ .shebang) (htext : text.toList = chars (t :: ts) ++ c :: after)
    (hslash : c ≠ '/') (hblank : Text.isBlank c = false) :
    (Comment.leading text 0).map Comment.place =
      (leadingTokens true (t :: ts)).map Comment.placeOf := by
  have hshows := h.shows t List.mem_cons_self
  rw [hk] at hshows
  obtain ⟨body, hbody, hin⟩ := hshows
  obtain ⟨hsep, -⟩ := h.line t List.mem_cons_self (.inr hk)
  have hends : ∀ d ∈ body, endsLine d = false := fun d hd => endsLine_eq_false (hin d hd)
    (List.any_eq_false.1 hsep d (hbody ▸ List.mem_cons_of_mem _ (List.mem_cons_of_mem _ hd)))
  have hsplit : text.toList = '#' :: '!' :: (body ++ (chars ts ++ c :: after)) := by
    rw [htext, chars, List.flatMap_cons, hbody, List.append_assoc]
    rfl
  have hstop : Text.bytes ('#' :: '!' :: body) = t.stop := by
    rw [stop_eq, ht.1, Nat.zero_add, hbody]
  rw [Comment.leading_shebang hsplit hends (h.endsLine_next ht (.inr hk) _), hstop,
    scan_gap ht.2.2 ((h.tail ht).legibleAll ht.2.2 hhash _) hslash hblank, leadingTokens_cons, hk]
  rfl

end Readable

/-! ## The comments before a statement -/

/-- What stands before a node, and the node itself, are read alike by the lexer and the locator. Where
comments are looked for from the start of the file, only trivia are before the node; the gap holds no
byte-order mark, and a line starts with `#!` at the start of the file only; lines hold no separators, and
end in the gap; and the node does not start with what the locator takes for trivia. -/
structure Node.Plain (n : Node) (text : String) : Prop where
  alone : n.fullStart = 0 → ∀ t ∈ n.gap text, t.kind.isTrivia = true
  unmarked : ∀ t ∈ n.gap text, t.text ≠ "\uFEFF"
  hash : ∀ t ∈ n.gap text, t.kind = .shebang → t.start = 0
  line : ∀ t ∈ n.gap text, t.kind = .lineComment ∨ t.kind = .shebang →
    t.text.toList.any isSeparator = false ∧
      ∃ u ∈ n.gap text, u.start = t.stop ∧ u.kind = .newline
  first : ∃ c cs, n.tree.text.toList = c :: cs ∧ c ≠ '/' ∧ Text.isBlank c = false

section Plain

variable {source : SourceId} {limits : Limits} {text : String} {f : ParsedFile} {n : Node}

/-- A statement is not the line at the start of a file that is passed over, since it starts at a word. -/
theorem no_shebang (h : parseWith source limits text = .ok f) (hn : n ∈ (Node.mk f.tree []).children)
    {after : List Token} (hlex : lex text = n.gap text ++ (n.tree.tokens ++ after))
    (hne : n.tree.tokens ≠ []) (hhash : ∀ t ∈ n.gap text, t.kind ≠ .shebang) (rest : List Char) :
    text.toList ≠ '#' :: '!' :: rest := by
  intro htext
  obtain ⟨t, ts, hhead, hk⟩ := lex_shebang htext
  rw [hlex] at hhead
  cases hgap : n.gap text with
  | cons u us =>
    rw [hgap] at hhead hhash
    obtain rfl := (List.cons.inj hhead).1
    exact hhash u List.mem_cons_self hk
  | nil =>
    rw [hgap, List.nil_append] at hhead
    obtain ⟨u, us, hu⟩ := List.exists_cons_of_ne_nil hne
    rw [hu] at hhead
    obtain rfl := (List.cons.inj hhead).1
    obtain ⟨⟨cs, hroot⟩, -⟩ := parseWith_spec h
    have hparent : n.parent? = some ⟨f.tree, []⟩ := by
      obtain ⟨c, -, rfl⟩ := List.mem_map.1 hn
      rfl
    have hword := (parseWith_timely h (mem_descendants_of_children hn) _ hparent).resolve_left (by
      rw [Node.kind, hroot]
      exact Bool.false_ne_true) u (by rw [hu]; rfl)
    rw [hk] at hword
    cases hword

/-- In front of a plain statement the locator of comments agrees with the lexer: the comments that lead
it are the comment tokens between its full start and the statement, in their order and with their ranges,
and if the full start is not the start of the file those that come after the first line end. -/
theorem leading_eq_comments (h : parseWith source limits text = .ok f)
    (hn : n ∈ (Node.mk f.tree []).children) (hplain : n.Plain text) :
    (Comment.leading text n.fullStart).map Comment.place =
      ((if n.fullStart = 0 then n.gap text else (n.gap text).dropWhile (·.kind != .newline)).filter
        (·.kind.isComment)).map Comment.placeOf := by
  obtain ⟨before, after, hlex, hbefore, hgap, htrivia⟩ := gap_spec h hn
  have hreadable : Readable (n.gap text) := by
    refine ⟨fun t ht => showsTrivia_of_mem_lex (List.mem_filter.1 ht).1, fun t ht => ?_,
      hplain.unmarked, hplain.line⟩
    by_cases hzero : n.fullStart = 0
    · exact hplain.alone hzero t ht
    · exact htrivia hzero t ht
  obtain ⟨c, cs, hfirst, hslash, hblank⟩ := hplain.first
  have hchars : chars n.tree.tokens = c :: cs := by rw [← toList_join_text, ← hfirst, Tree.text]
  have htext : text.toList =
      chars before ++ (chars (n.gap text) ++ c :: (cs ++ chars after)) := by
    have hjoin := congrArg String.toList (join_text_lex text)
    rw [toList_join_text, hlex, chars_append, chars_append, chars_append, hchars] at hjoin
    exact hjoin.symm
  have hfull : n.fullStart = Text.bytes (chars before) := by
    rw [stop_eq_bytes hbefore, Nat.zero_add]
  have hleading : leadingTokens (n.fullStart == 0) (n.gap text) = (if n.fullStart = 0 then n.gap text
      else (n.gap text).dropWhile (·.kind != .newline)).filter (·.kind.isComment) := by
    simp only [leadingTokens, beq_iff_eq]
  rw [← hleading]
  by_cases hhash : ∀ t ∈ n.gap text, t.kind ≠ .shebang
  · have hscan := leading_eq htext fun hnil rest hrest => by
      have hnone : before = [] := by
        rw [hnil] at hfull
        rw [hfull] at hbefore
        exact hbefore.eq_nil
      refine no_shebang h hn (by rw [hlex, hnone]; rfl) ?_ hhash rest (by rw [htext, hnil, hrest]; rfl)
      intro hempty
      rw [hempty] at hchars
      cases hchars
    rw [hfull, hscan, ← hfull]
    exact scan_gap hgap (hreadable.legibleAll hgap hhash _) hslash hblank _
  · -- the line at the start of the file is the first token of the gap
    simp only [not_forall, not_not] at hhash
    obtain ⟨t, ht, hk⟩ := hhash
    obtain ⟨us, hfirst, hzero, hrest⟩ := shebang_first hgap hplain.hash ht hk
    rw [hzero] at hgap hbefore ⊢
    obtain rfl := hbefore.eq_nil
    rw [hfirst] at hgap hreadable htext ⊢
    exact hreadable.leading_shebang hgap hk hrest htext hslash hblank

/-- The comment behind a statement trails it, the one on the line below leads the next statement. -/
theorem leading_eq_comments_second :
    ∃ f n, parseWith ⟨0⟩ .standard "type A = 1; // a\n// b\ntype B = 2;" = .ok f ∧
      n ∈ (Node.mk f.tree []).children ∧ n.Plain "type A = 1; // a\n// b\ntype B = 2;" ∧
      n.fullStart = 11 ∧
      (Comment.leading "type A = 1; // a\n// b\ntype B = 2;" 11).map Comment.place =
        [(.line, 17, 21)] := by
  have hlex : lex "type A = 1; // a\n// b\ntype B = 2;" =
      [⟨.ident, 0, "type"⟩, ⟨.whitespace, 4, " "⟩, ⟨.ident, 5, "A"⟩, ⟨.whitespace, 6, " "⟩,
        ⟨.equals, 7, "="⟩, ⟨.whitespace, 8, " "⟩, ⟨.numberLiteral, 9, "1"⟩, ⟨.semicolon, 10, ";"⟩,
        ⟨.whitespace, 11, " "⟩, ⟨.lineComment, 12, "// a"⟩, ⟨.newline, 16, "\n"⟩,
        ⟨.lineComment, 17, "// b"⟩, ⟨.newline, 21, "\n"⟩, ⟨.ident, 22, "type"⟩,
        ⟨.whitespace, 26, " "⟩, ⟨.ident, 27, "B"⟩, ⟨.whitespace, 28, " "⟩, ⟨.equals, 29, "="⟩,
        ⟨.whitespace, 30, " "⟩, ⟨.numberLiteral, 31, "2"⟩, ⟨.semicolon, 32, ";"⟩] := by
    cbv
  have hfound : (parseWith ⟨0⟩ .standard "type A = 1; // a\n// b\ntype B = 2;").toOption.any
      (fun f => (Node.mk f.tree []).children.any fun n => n.fullStart == 11 && n.start == 22 &&
        n.tree.text == "type B = 2;") = true := by
    rw [parseWith, Parser.State.afterFile, Parser.State.start, hlex]
    decide +kernel
  cases hf : parseWith ⟨0⟩ .standard "type A = 1; // a\n// b\ntype B = 2;" with
  | error e =>
    rw [hf] at hfound
    cases hfound
  | ok f =>
    rw [hf] at hfound
    obtain ⟨n, hn, hall⟩ := List.any_eq_true.1 hfound
    simp only [Bool.and_eq_true, beq_iff_eq] at hall
    obtain ⟨⟨hfull, hstart⟩, htext⟩ := hall
    have hgap : n.gap "type A = 1; // a\n// b\ntype B = 2;" =
        [⟨.whitespace, 11, " "⟩, ⟨.lineComment, 12, "// a"⟩, ⟨.newline, 16, "\n"⟩,
          ⟨.lineComment, 17, "// b"⟩, ⟨.newline, 21, "\n"⟩] := by
      rw [Node.gap, hlex, hfull, hstart]
      decide
    have hplain : n.Plain "type A = 1; // a\n// b\ntype B = 2;" := by
      refine ⟨fun hzero => ?_, ?_, ?_, ?_, 't', "ype B = 2;".toList, by rw [htext]; rfl,
        by decide, by cbv⟩
      · rw [hfull] at hzero
        cases hzero
      all_goals rw [hgap]
      · decide
      · decide
      · intro t ht hk
        simp only [List.mem_cons, List.not_mem_nil, or_false] at ht
        rcases ht with rfl | rfl | rfl | rfl | rfl
        · exact absurd hk (by decide)
        · exact ⟨by decide, ⟨.newline, 16, "\n"⟩, by simp, rfl, rfl⟩
        · exact absurd hk (by decide)
        · exact ⟨by decide, ⟨.newline, 21, "\n"⟩, by simp, rfl, rfl⟩
        · exact absurd hk (by decide)
    refine ⟨f, n, rfl, hn, hplain, hfull, ?_⟩
    have hcomments := leading_eq_comments hf hn hplain
    rw [hgap, hfull] at hcomments
    rw [hcomments]
    decide

end Plain

end DeclKit

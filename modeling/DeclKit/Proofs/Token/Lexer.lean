/-
The tokens of a text are the text.

Every lexeme has characters, and the lexemes put together are the text they were cut from. For most
lexemes that is how they are cut: some first characters, and then the rest. A template is the exception,
since its pieces and its substitutions are taken by byte offset from the template as a whole; that
these offsets fit together is what the two scans of a template agree on. The tokens are the lexemes
placed one behind the other, so they tile the text, and a reserved word among them has its own text.
-/
import DeclKit.Proofs.Token.Template
import DeclKit.Proofs.Tree.Cover
import DeclKit.Token.Lexer
import Mathlib.Data.List.Basic

set_option autoImplicit false

namespace DeclKit

namespace Token

variable {cs us vs : List Char} {ls ms : List Lexeme}

/-! ## Lexemes that make up a text -/

/-- The lexemes put together are the characters, and none of them is empty. -/
def Cuts (cs : List Char) (ls : List Lexeme) : Prop :=
  ls.flatMap (·.chars) = cs ∧ ∀ l ∈ ls, l.chars ≠ []

theorem cuts_nil : Cuts [] [] := ⟨rfl, by simp⟩

theorem Cuts.append (h : Cuts us ls) (h' : Cuts vs ms) : Cuts (us ++ vs) (ls ++ ms) := by
  refine ⟨by rw [List.flatMap_append, h.1, h'.1], fun l hl => ?_⟩
  rcases List.mem_append.1 hl with hl | hl
  · exact h.2 l hl
  · exact h'.2 l hl

theorem Cuts.cons {k : Kind} (hus : us ≠ []) (h : Cuts vs ls) :
    Cuts (us ++ vs) (⟨k, us⟩ :: ls) := by
  have hone : Cuts us [⟨k, us⟩] := ⟨by simp, by simpa using hus⟩
  exact hone.append h

/-- Lexemes of several stretches make up these stretches put together. -/
theorem cuts_flatMap {α : Type} {xs : List α} {f : α → List Char} {g : α → List Lexeme}
    (h : ∀ x ∈ xs, Cuts (f x) (g x)) : Cuts (xs.flatMap f) (xs.flatMap g) := by
  induction xs with
  | nil => exact cuts_nil
  | cons x xs ih =>
    rw [List.flatMap_cons, List.flatMap_cons]
    exact (h x List.mem_cons_self).append (ih fun y hy => h y (List.mem_cons_of_mem x hy))

/-! ## Templates -/

/-- The stretches of a template, pieces and substitutions in turn, put together. -/
theorem flatMap_spans {start stop last : Nat} {spans : List Template.Span}
    (hstop : Text.Splits cs stop) (hstart : Text.Splits cs start)
    (h : Template.Fits cs stop start spans last) :
    spans.flatMap (fun s => Text.between s.start s.stop cs ++
        Text.between s.stop (s.close stop) cs) ++ Text.between last stop cs =
      Text.between start stop cs := by
  induction spans generalizing start with
  | nil =>
    obtain ⟨rfl, -⟩ := h
    rfl
  | cons s ss ih =>
    obtain ⟨rfl, hlt, hs, close, hbrace, hle, hclose, hrest⟩ := h
    have hfound : s.close stop = close := by rw [Template.Span.close, hbrace, Option.getD_some]
    rw [List.flatMap_cons, List.append_assoc, ih hclose hrest, hfound, List.append_assoc,
      Text.between_append hs hclose hstop hle (Nat.le_of_lt hrest.lt),
      Text.between_append hstart hs hstop (Nat.le_of_lt hlt)
        (Nat.le_trans hle (Nat.le_of_lt hrest.lt))]

/-- Going through members with their proofs and their places is going through them with their places. -/
theorem flatMap_attach_zipIdx {α β : Type} (xs : List α) (f : α → Nat → List β) :
    xs.attach.zipIdx.flatMap (fun x => f x.1.1 x.2) = xs.zipIdx.flatMap fun x => f x.1 x.2 := by
  have h : xs.attach.zipIdx.map (Prod.map Subtype.val id) = xs.zipIdx := by
    rw [← List.zipIdx_map, List.attach_map_subtype_val]
  conv => rhs; rw [← h, List.flatMap_map]
  rfl

end Token

namespace Template

/-- The lexemes of the pieces that a template has been split into, the first of them being the `n`-th
piece of the template. -/
def Pieces.lexemes (p : Pieces) (cs : List Char) (stop n : Nat) (closing : Kind) : List Lexeme :=
  (p.spans.zipIdx n).flatMap (fun (s, i) =>
    ⟨if i == 0 then .templateHead else .templateMiddle, Text.between s.start s.stop cs⟩ ::
      Token.cut (Text.between s.stop (s.close stop) cs)) ++
    [⟨closing, Text.between p.last stop cs⟩]

theorem Pieces.lexemes_cons (s : Span) (ss : List Span) (last : Nat) (cs : List Char) (stop n : Nat)
    (closing : Kind) :
    (⟨s :: ss, last⟩ : Pieces).lexemes cs stop n closing =
      ⟨if n == 0 then .templateHead else .templateMiddle, Text.between s.start s.stop cs⟩ ::
        (Token.cut (Text.between s.stop (s.close stop) cs) ++
          (⟨ss, last⟩ : Pieces).lexemes cs stop (n + 1) closing) := by
  simp [Pieces.lexemes, List.zipIdx_cons]

end Template

namespace Token

variable {cs us vs : List Char} {ls ms : List Lexeme}

/-- A template is cut into its pieces with what stands between them, and then into what stands behind it. -/
theorem cut_tick {rest : List Char} {stop : Nat}
    (h : Template.bodyEnd? 1 (Text.encode rest) = some stop) :
    let p := Template.split stop 0 1 ((Text.encode rest).take (stop - 1))
    cut ('`' :: rest) =
      p.lexemes ('`' :: rest) stop 0
        (if p.spans.isEmpty then .noSubstitutionTemplate else .templateTail) ++
        cut (Text.dropBytes stop ('`' :: rest)) := by
  intro p
  rw [cut, dif_pos rfl]
  split
  · rename_i hnone
    rw [h] at hnone
    cases hnone
  · rename_i stop' hstop
    obtain rfl : stop = stop' := Option.some.inj (h.symm.trans hstop)
    rw [Template.Pieces.lexemes, List.append_assoc, List.singleton_append]
    exact congrArg (· ++ _) (flatMap_attach_zipIdx _ fun (s : Template.Span) (i : Nat) =>
      (⟨if i == 0 then .templateHead else .templateMiddle,
        Text.between s.start s.stop ('`' :: rest)⟩ : Lexeme) ::
          cut (Text.between s.stop (s.close stop) ('`' :: rest)))

/-! ## Texts -/

/-- Cutting a text gives lexemes that make it up. -/
theorem cuts_cut (cs : List Char) : Cuts cs (cut cs) := by
  fun_induction cut cs with
  | case1 => exact cuts_nil
  | case2 rest h =>
    have hall := cuts_nil.cons (k := .garbage) (List.cons_ne_nil '`' rest)
    rwa [List.append_nil] at hall
  | case3 rest stop h p last body ihcode ihrest =>
    -- the code of each substitution is cut by induction, its pieces are not empty
    obtain ⟨hfit, hstop⟩ := Template.pieces_fit h
    have hzero := Text.splits_zero ('`' :: rest)
    obtain ⟨hlast, hlt⟩ := hfit.closing hzero
    have hbody : Cuts (p.spans.flatMap fun s => Text.between s.start s.stop ('`' :: rest) ++
        Text.between s.stop (s.close stop) ('`' :: rest)) body := by
      rw [← List.zipIdx_map_fst 0 p.spans, List.flatMap_map, ← flatMap_attach_zipIdx p.spans
        fun s _ => Text.between s.start s.stop ('`' :: rest) ++
          Text.between s.stop (s.close stop) ('`' :: rest)]
      refine cuts_flatMap ?_
      rintro ⟨⟨s, hmem⟩, i⟩ -
      obtain ⟨hs, ht, hst⟩ := hfit.mem hzero hmem
      exact (ihcode s hmem).cons (Text.between_ne_nil hs ht hst)
    have hall := hbody.append (ihrest.cons (k := last) (Text.between_ne_nil hlast hstop hlt))
    rwa [← List.append_assoc, flatMap_spans hstop hzero hfit, Text.between_zero_append hstop] at hall
  | case4 c rest hc kind n hext ih =>
    have hcons := ih.cons (k := kind) (List.cons_ne_nil c (rest.take n))
    rwa [List.cons_append, List.take_append_drop] at hcons

/-- Joining garbage changes neither the text nor that every lexeme has characters. -/
theorem Cuts.joinGarbage (h : Cuts cs ls) : Cuts cs (joinGarbage ls) := by
  induction ls generalizing cs with
  | nil => exact h
  | cons l ls ih =>
    obtain ⟨rfl, hne⟩ := h
    have hl := hne l List.mem_cons_self
    have hls := ih ⟨rfl, fun m hm => hne m (List.mem_cons_of_mem l hm)⟩
    rw [Token.joinGarbage]
    split
    · rename_i more rest _ hjoin
      rw [hjoin] at hls
      refine ⟨?_, fun m hm => ?_⟩
      · rw [List.flatMap_cons, List.flatMap_cons, ← hls.1, List.flatMap_cons, List.append_assoc]
      · rcases List.mem_cons.1 hm with rfl | hm
        · exact List.append_ne_nil_of_left_ne_nil hl _
        · exact hls.2 m (List.mem_cons_of_mem _ hm)
    · exact hls.cons (k := l.kind) hl

/-- The lexemes of a text make it up. -/
theorem cuts_lexemes (cs : List Char) : Cuts cs (lexemes cs) := by
  unfold lexemes
  split
  · rename_i rest
    exact (cuts_cut rest).joinGarbage.cons (List.cons_ne_nil '\uFEFF' [])
  · exact (cuts_cut cs).joinGarbage

/-! ## What holds of every lexeme -/

/-- A property that is kept however a text is cut: it holds of garbage and of the pieces of templates with
substitutions, whatever their characters are, of templates without substitutions, of what stands at the
front of a text, and of a byte-order mark. -/
structure Everywhere (P : Lexeme → Prop) : Prop where
  other : ∀ k cs, k = .garbage ∨ k = .templateHead ∨ k = .templateMiddle ∨ k = .templateTail → P ⟨k, cs⟩
  template : ∀ cs stop, Template.bodyEnd? 1 (Text.encode cs) = some stop →
    (Template.split stop 0 1 ((Text.encode cs).take (stop - 1))).spans = [] →
      P ⟨.noSubstitutionTemplate, Text.between 0 stop ('`' :: cs)⟩
  front : ∀ c cs, c ≠ '`' → P ⟨(extent c cs).1, c :: cs.take (extent c cs).2⟩
  mark : P ⟨.whitespace, ['\uFEFF']⟩

section Everywhere

variable {P : Lexeme → Prop}

theorem Everywhere.cut (h : Everywhere P) (cs : List Char) : ∀ l ∈ Token.cut cs, P l := by
  fun_induction Token.cut cs with
  | case1 => exact fun _ hl => absurd hl List.not_mem_nil
  | case2 rest hend =>
    intro l hl
    rw [List.mem_singleton.1 hl]
    exact h.other _ _ (.inl rfl)
  | case3 rest stop hend p last body ihcode ihrest =>
    intro l hl
    rcases List.mem_append.1 hl with hl | hl
    · obtain ⟨⟨⟨s, hs⟩, i⟩, -, hl⟩ := List.mem_flatMap.1 hl
      rcases List.mem_cons.1 hl with rfl | hl
      · refine h.other _ _ ?_
        split
        · exact .inr (.inl rfl)
        · exact .inr (.inr (.inl rfl))
      · exact ihcode s hs l hl
    · rcases List.mem_cons.1 hl with rfl | hl
      · cases hspans : p.spans with
        | nil =>
          -- the only piece of the template starts where the template does
          obtain ⟨hfit, -⟩ := Template.pieces_fit hend
          change Template.Fits _ _ _ p.spans p.last at hfit
          rw [hspans] at hfit
          simp only [last, hspans, List.isEmpty_nil, hfit.1]
          exact h.template rest stop hend hspans
        | cons s ss =>
          refine h.other _ _ (.inr (.inr (.inr ?_)))
          simp only [last, hspans, List.isEmpty_cons, Bool.false_eq_true, dif_neg not_false]
      · exact ihrest l hl
  | case4 c rest hc kind n hext ih =>
    intro l hl
    rcases List.mem_cons.1 hl with rfl | hl
    · have hfront := h.front c rest hc
      rwa [hext] at hfront
    · exact ih l hl

theorem Everywhere.joinGarbage (h : Everywhere P) (hls : ∀ l ∈ ls, P l) :
    ∀ l ∈ Token.joinGarbage ls, P l := by
  induction ls with
  | nil => exact hls
  | cons m ls ih =>
    have hrest := ih fun l hl => hls l (List.mem_cons_of_mem m hl)
    intro l hl
    rw [Token.joinGarbage] at hl
    split at hl
    · rename_i more rest _ hjoin
      rcases List.mem_cons.1 hl with rfl | hl
      · exact h.other _ _ (.inl rfl)
      · exact hrest l (hjoin ▸ List.mem_cons_of_mem _ hl)
    · rcases List.mem_cons.1 hl with rfl | hl
      · exact hls _ List.mem_cons_self
      · exact hrest l hl

theorem Everywhere.lexemes (h : Everywhere P) (cs : List Char) : ∀ l ∈ Token.lexemes cs, P l := by
  unfold Token.lexemes
  split
  · intro l hl
    rcases List.mem_cons.1 hl with rfl | hl
    · exact h.mark
    · exact h.joinGarbage (h.cut _) l hl
  · exact h.joinGarbage (h.cut _)

/-- What holds of every lexeme holds of every token of a text. -/
theorem Everywhere.lex (h : Everywhere P) {text : String} {t : Token} (ht : t ∈ Token.lex text) :
    P ⟨t.kind, t.text.toList⟩ := by
  have hplace : ∀ (ls : List Lexeme) (start : Nat), (∀ l ∈ ls, P l) → t ∈ place start ls →
      P ⟨t.kind, t.text.toList⟩ := by
    intro ls
    induction ls with
    | nil => exact fun _ _ ht => absurd ht List.not_mem_nil
    | cons l ls ih =>
      intro start hls ht
      rcases List.mem_cons.1 ht with rfl | ht
      · rw [String.toList_ofList]
        exact hls l List.mem_cons_self
      · exact ih _ (fun m hm => hls m (List.mem_cons_of_mem l hm)) ht
  exact hplace _ _ (h.lexemes _) ht

end Everywhere

/-- The kind of a number is neither trivia nor a reserved word. -/
theorem numberExtent_kind (cs : List Char) :
    (numberExtent cs).1.isTrivia = false ∧ (numberExtent cs).1.isKeyword = false := by
  unfold numberExtent
  dsimp only
  split_ifs <;> exact ⟨rfl, rfl⟩

/-- Nor is that of a punctuation mark. -/
theorem punctuation_kind (c : Char) :
    ((punctuation? c).getD .garbage).isTrivia = false ∧
      ((punctuation? c).getD .garbage).isKeyword = false := by
  unfold punctuation?
  split <;> exact ⟨rfl, rfl⟩

/-! ## Reserved words -/

/-- If the lexeme is a reserved word, then the one that its characters spell. -/
def SpellsWord (l : Lexeme) : Prop :=
  l.kind.isKeyword = true → Kind.keyword? (String.ofList l.chars) = some l.kind

theorem spellsWord_of_not_keyword {k : Kind} (h : k.isKeyword = false) (cs : List Char) :
    SpellsWord ⟨k, cs⟩ := fun hk => absurd hk (by rw [h]; exact Bool.false_ne_true)

theorem spellsWord_extent (c : Char) (cs : List Char) :
    SpellsWord ⟨(extent c cs).1, c :: cs.take (extent c cs).2⟩ := by
  unfold extent
  split
  · -- a word is an identifier unless it is reserved
    intro hk
    dsimp only at hk ⊢
    cases hword : Kind.keyword? (String.ofList (c :: cs.take (runLength continuesIdent cs))) with
    | none =>
      rw [hword] at hk
      cases hk
    | some k => rfl
  split
  · exact spellsWord_of_not_keyword rfl _
  split
  · exact spellsWord_of_not_keyword (numberExtent_kind _).2 _
  split
  · refine spellsWord_of_not_keyword ?_ _
    dsimp only
    split <;> rfl
  refine spellsWord_of_not_keyword ?_ _
  split
  case h_5 => split <;> rfl
  case h_9 => split <;> rfl
  case h_10 => exact (punctuation_kind c).2
  all_goals rfl

theorem everywhere_spellsWord : Everywhere SpellsWord where
  other k cs hk := by
    refine spellsWord_of_not_keyword ?_ cs
    rcases hk with rfl | rfl | rfl | rfl <;> rfl
  template _ _ _ _ := spellsWord_of_not_keyword rfl _
  front c cs _ := spellsWord_extent c cs
  mark := spellsWord_of_not_keyword rfl _

/-- A token that is a reserved word has the text of that word. -/
theorem keyword?_of_mem_lex {text : String} {t : Token} (ht : t ∈ lex text)
    (hk : t.kind.isKeyword = true) : Kind.keyword? t.text = some t.kind := by
  have hspells := everywhere_spellsWord.lex ht hk
  rwa [String.ofList_toList] at hspells

/-! ## Tokens -/

/-- Lexemes placed one behind the other tile as many bytes as their text has. -/
theorem Cuts.tiles (h : Cuts cs ls) (start : Nat) :
    Tiles start (start + Text.bytes cs) (place start ls) := by
  induction ls generalizing cs start with
  | nil =>
    obtain ⟨rfl, -⟩ := h
    rfl
  | cons l ls ih =>
    obtain ⟨rfl, hne⟩ := h
    have hls := ih ⟨rfl, fun m hm => hne m (List.mem_cons_of_mem l hm)⟩
      (start + Text.bytes l.chars)
    have hl := Text.bytes_pos (hne l List.mem_cons_self)
    rw [List.flatMap_cons, Text.bytes_append, ← Nat.add_assoc, place]
    simp only [Tiles, stop, Text.utf8ByteSize_ofList]
    exact ⟨trivial, Nat.lt_add_of_pos_right hl, hls⟩

/-- The tokens of a text tile it. -/
theorem tiles_lex (text : String) : Tiles 0 text.utf8ByteSize (lex text) := by
  have h := (cuts_lexemes text.toList).tiles 0
  rwa [Nat.zero_add, ← Text.utf8ByteSize_ofList, String.ofList_toList] at h

/-- The texts of the tokens put together are the text. -/
theorem join_text_lex (text : String) : String.join ((lex text).map Token.text) = text := by
  have h := (cuts_lexemes text.toList).1
  have hplace : ∀ (start : Nat) (ls : List Lexeme),
      (String.join ((place start ls).map Token.text)).toList = ls.flatMap (·.chars) := by
    intro start ls
    induction ls generalizing start with
    | nil => rfl
    | cons l ls ih =>
      rw [place, List.map_cons, String.join_cons, String.toList_append, ih, List.flatMap_cons,
        String.toList_ofList]
  rw [← String.toList_inj, lex, hplace, h]

/-- Tokens that tile a stretch have as many bytes as it. -/
theorem Tiles.size_eq {a b : Nat} {ts : List Token} (h : Tiles a b ts) :
    b = a + (String.join (ts.map Token.text)).utf8ByteSize := by
  induction ts generalizing a with
  | nil => exact h.symm
  | cons t ts ih =>
    obtain ⟨hs, -, hts⟩ := h
    rw [ih hts, List.map_cons, String.join_cons, String.utf8ByteSize_append, stop, hs,
      Nat.add_assoc]

/-- A token stands in the text where its offset says. -/
theorem text_at_token {text : String} {t : Token} (ht : t ∈ lex text) :
    ∃ before after, text = before ++ t.text ++ after ∧ before.utf8ByteSize = t.start := by
  obtain ⟨xs, ys, hxy⟩ := List.append_of_mem ht
  have htiles := tiles_lex text
  rw [hxy] at htiles
  obtain ⟨m, hxs, hstart, -⟩ := tiles_append.1 htiles
  refine ⟨String.join (xs.map Token.text), String.join (ys.map Token.text), ?_, ?_⟩
  · have hjoin := join_text_lex text
    rw [hxy, List.map_append, List.map_cons, String.join_append, String.join_cons] at hjoin
    rw [← hjoin, String.append_assoc]
  · have hsize := hxs.size_eq
    omega

theorem isBoundary_append (before after : String) :
    Text.isBoundary (before ++ after) before.utf8ByteSize = true := by
  rw [Text.isBoundary, String.Pos.Raw.isValid_eq_true_iff, String.Pos.Raw.isValid_iff_exists_append]
  exact ⟨before, after, rfl, rfl⟩

/-- The tokens of a text tile it: they are not empty, the first starts where the text does, each of
the others where the one before it ends, and the last ends where the text does. Each of them starts and
ends between characters, and has the text that stands there. And wherever a template is cut, the end of
every substitution is found by the second scan, and the pieces fit together between characters up to
the end that the first scan has found. -/
theorem lex_tiling (text : String) :
    Tiles 0 text.utf8ByteSize (lex text) ∧
    (∀ t ∈ lex text, Text.isBoundary text t.start = true ∧ Text.isBoundary text t.stop = true ∧
      ∃ before after, text = before ++ t.text ++ after ∧ before.utf8ByteSize = t.start) ∧
    ∀ rest stop, Template.bodyEnd? 1 (Text.encode rest) = some stop →
      let p := Template.split stop 0 1 ((Text.encode rest).take (stop - 1))
      Template.Fits ('`' :: rest) stop 0 p.spans p.last ∧ Text.Splits ('`' :: rest) stop := by
  refine ⟨tiles_lex text, fun t ht => ?_, fun rest stop h => Template.pieces_fit h⟩
  obtain ⟨before, after, rfl, hstart⟩ := text_at_token ht
  refine ⟨?_, ?_, before, after, rfl, hstart⟩
  · rw [← hstart, String.append_assoc]
    exact isBoundary_append before (t.text ++ after)
  · rw [stop, ← hstart, ← String.utf8ByteSize_append]
    exact isBoundary_append (before ++ t.text) after

/-- The end of a substitution is found although a brace and a backtick are quoted in it. -/
theorem lex_tiling_quoted_brace :
    Template.bodyEnd? 1 (Text.encode "a$\x7bf<'\x7d`'>\x7db`".toList) = some 14 ∧
      Text.Splits "`a$\x7bf<'\x7d`'>\x7db`".toList 14 := by
  have h : Template.bodyEnd? 1 (Text.encode "a$\x7bf<'\x7d`'>\x7db`".toList) = some 14 := by cbv
  exact ⟨h, ((lex_tiling "").2.2 _ 14 h).2⟩

end Token

end DeclKit

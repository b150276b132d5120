/-
Texts matched against templates.

A text has the form of a template when it can be cut into pieces with the texts of the template around
them. The pieces are found from left to right, each as short as the text behind it allows. That leaves
the most for what follows: whatever could be cut from less can be cut from more, as long as only a
delimiter says where a piece ends. An empty delimiter takes one character, which may be one too many or
too few.
-/
import DeclKit.Proofs.Types.Spelled

set_option autoImplicit false

namespace DeclKit.Template

open TypeTable (alternate)

/-! ## The first place of a delimiter -/

section

variable {pattern cs a b : List Char}

theorem splitFirst?_sound (h : splitFirst? pattern cs = some (a, b)) : cs = a ++ (pattern ++ b) := by
  induction cs generalizing a with
  | nil =>
    rw [splitFirst?] at h
    split at h
    · rename_i hempty
      obtain ⟨rfl, rfl⟩ := Prod.mk.inj (Option.some.inj h)
      rw [List.isEmpty_iff.1 hempty]
      rfl
    · cases h
  | cons c cs ih =>
    rw [splitFirst?] at h
    split at h
    · rename_i hprefix
      obtain ⟨rfl, rfl⟩ := Prod.mk.inj (Option.some.inj h)
      obtain ⟨rest, hrest⟩ := List.isPrefixOf_iff_prefix.1 hprefix
      rw [← hrest, List.drop_left, List.nil_append]
    · obtain ⟨⟨a', b'⟩, hab, heq⟩ := Option.map_eq_some_iff.1 h
      obtain ⟨rfl, rfl⟩ := Prod.mk.inj heq
      rw [ih hab, List.cons_append]

/-- A delimiter that stands somewhere is found, and no place where it stands leaves more behind it. -/
theorem exists_splitFirst? (h : cs = a ++ (pattern ++ b)) :
    ∃ a' b', splitFirst? pattern cs = some (a', b') ∧ b <:+ b' := by
  induction cs generalizing a with
  | nil =>
    obtain ⟨rfl, hb⟩ := List.append_eq_nil_iff.1 h.symm
    obtain ⟨rfl, rfl⟩ := List.append_eq_nil_iff.1 hb
    exact ⟨[], [], rfl, List.suffix_rfl⟩
  | cons c cs ih =>
    rw [splitFirst?]
    split
    · rename_i hprefix
      obtain ⟨rest, hrest⟩ := List.isPrefixOf_iff_prefix.1 hprefix
      refine ⟨[], _, rfl, ?_⟩
      -- both are suffixes of the text, and the delimiter stands before both
      rw [← hrest, List.drop_left]
      have hb : b <:+ c :: cs := ⟨a ++ pattern, by rw [h, List.append_assoc]⟩
      have hrest' : rest <:+ c :: cs := ⟨pattern, hrest⟩
      refine List.suffix_of_suffix_length_le hb hrest' ?_
      have hlength := congrArg List.length (hrest.trans h)
      simp only [List.length_append] at hlength
      omega
    · rename_i hprefix
      cases a with
      | nil => exact absurd (List.isPrefixOf_iff_prefix.2 ⟨b, h.symm⟩) hprefix
      | cons c' a =>
        obtain ⟨a', b', hab, hsuffix⟩ := ih (List.cons.inj h).2
        exact ⟨c :: a', b', by rw [hab]; rfl, hsuffix⟩

end

/-! ## Cutting at delimiters -/

/-- The pieces are what the delimiters leave of a text: one before each of them and one behind the
last. -/
inductive Cuts : List (List Char) → List Char → List (List Char) → Prop
  | last {text : List Char} : Cuts [] text [text]
  | more {delimiter piece rest : List Char} {ds ps : List (List Char)} :
      Cuts ds rest ps → Cuts (delimiter :: ds) (piece ++ (delimiter ++ rest)) (piece :: ps)

section

variable {ds ps : List (List Char)} {text : List Char}

theorem cuts_of_pieces? (h : pieces? ds text = some ps) : Cuts ds text ps := by
  induction ds generalizing text ps with
  | nil =>
    obtain rfl := Option.some.inj h
    exact .last
  | cons d ds ih =>
    cases d with
    | nil =>
      cases text with
      | nil => cases h
      | cons c rest =>
        obtain ⟨ps, hps, rfl⟩ := Option.map_eq_some_iff.1 h
        exact @Cuts.more [] [c] _ _ _ (ih hps)
    | cons d0 d =>
      rw [pieces?] at h
      · simp only [Option.bind_eq_bind, Option.bind_eq_some_iff] at h
        obtain ⟨⟨piece, rest⟩, hsplit, ps, hps, hp⟩ := h
        obtain rfl := Option.some.inj hp
        rw [splitFirst?_sound hsplit]
        exact .more (ih hps)
      · rintro ⟨⟩

/-- What can be cut from the end of a text can be cut from the text, for its first piece may be longer.
By induction on the delimiters: the first place of each leaves at least what any other place leaves. -/
theorem pieces?_isSome_of_cuts {text' : List Char} (hds : ∀ d ∈ ds, d ≠ [])
    (h : Cuts ds text ps) (hsuffix : text <:+ text') : (pieces? ds text').isSome := by
  induction h generalizing text' with
  | last => rfl
  | @more d piece rest ds ps _ ih =>
    rw [List.forall_mem_cons] at hds
    obtain ⟨before, rfl⟩ := hsuffix
    obtain ⟨a, b, hsplit, hrest⟩ := exists_splitFirst? (List.append_assoc before piece (d ++ rest)).symm
    obtain ⟨found, hfound⟩ := Option.isSome_iff_exists.1 (ih hds.2 hrest)
    rw [pieces?]
    · simp only [hsplit, hfound, Option.bind_eq_bind, Option.bind_some]
      rfl
    · exact hds.1

theorem Cuts.length_eq (h : Cuts ds text ps) : ps.length = ds.length + 1 := by
  induction h with
  | last => rfl
  | more _ ih => rw [List.length_cons, List.length_cons, ih]

/-- Put together again, pieces and delimiters are the text. -/
theorem Cuts.alternate_eq (h : Cuts ds text ps) (tail : String) :
    (alternate (ps.map String.ofList) (ds.map String.ofList ++ [tail])).toList = text ++ tail.toList := by
  induction h with
  | @last text => simp [alternate]
  | @more d piece rest ds ps _ ih =>
    rw [List.map_cons, List.map_cons, List.cons_append, alternate, String.toList_append, ih,
      String.toList_append, String.toList_ofList, String.toList_ofList]
    simp only [List.append_assoc]

end

/-- Texts in turn are cut at those of the second list, which has one text more: the last one ends the
whole. -/
theorem exists_cuts_of_alternate {pieces delimiters : List String} {tail : String}
    (h : pieces.length = delimiters.length + 1) :
    ∃ body, (alternate pieces (delimiters ++ [tail])).toList = body ++ tail.toList ∧
      Cuts (delimiters.map String.toList) body (pieces.map String.toList) := by
  induction delimiters generalizing pieces with
  | nil =>
    obtain ⟨piece, rfl⟩ := List.length_eq_one_iff.1 h
    exact ⟨piece.toList, by simp [alternate], .last⟩
  | cons d ds ih =>
    cases pieces with
    | nil => cases h
    | cons piece pieces =>
      obtain ⟨rest, hrest, hcuts⟩ := ih (Nat.succ.inj h)
      refine ⟨piece.toList ++ (d.toList ++ rest), ?_, .more hcuts⟩
      rw [List.cons_append, alternate, String.toList_append, hrest, String.toList_append]
      simp only [List.append_assoc]

/-! ## The form of a template -/

section

variable {cs front body back : List Char}

theorem exists_middle (hfront : front <+: cs) (hback : back <:+ cs)
    (hlength : front.length + back.length ≤ cs.length) : ∃ body, cs = front ++ (body ++ back) := by
  obtain ⟨rest, rfl⟩ := hfront
  rw [List.length_append, Nat.add_le_add_iff_left] at hlength
  obtain ⟨body, rfl⟩ := List.suffix_of_suffix_length_le hback (List.suffix_append front rest) hlength
  exact ⟨body, rfl⟩

theorem take_drop_middle (h : cs = front ++ (body ++ back)) :
    (cs.drop front.length).take (cs.length - front.length - back.length) = body := by
  rw [h, List.drop_left]
  refine List.take_left' ?_
  simp only [List.length_append]
  omega

end

section

variable {text head tail : String} {spans : List (TypeId × String)} {delimiters : List String}

/-- A text has the form of a template if it begins with the head, ends with the last text and is cut
between them. -/
theorem matchText?_eq_some_iff (hspans : spans.map (·.2) = delimiters ++ [tail])
    {pieces : List String} :
    matchText? text head spans = some pieces ↔
      ∃ body ps, text.toList = head.toList ++ (body ++ tail.toList) ∧
        pieces? (delimiters.map String.toList) body = some ps ∧ pieces = ps.map String.ofList := by
  have hlast : (spans.getLast?.map (·.2)).getD head = tail := by
    rw [← List.getLast?_map, hspans, List.getLast?_concat, Option.getD_some]
  have hdelimiters : spans.dropLast.map (fun s => s.2.toList) = delimiters.map String.toList := by
    have hinit : spans.dropLast.map (·.2) = delimiters := by
      rw [List.map_dropLast, hspans, List.dropLast_concat]
    rw [← hinit, List.map_map]
    rfl
  unfold matchText?
  dsimp only
  rw [hlast, hdelimiters]
  constructor
  · intro h
    split at h
    · cases h
    rename_i hform
    simp only [Bool.or_eq_true, Bool.not_eq_true', decide_eq_true_eq, not_or, Nat.not_lt,
      Bool.not_eq_false] at hform
    obtain ⟨⟨hlength, hprefix⟩, hsuffix⟩ := hform
    obtain ⟨body, hbody⟩ := exists_middle (List.isPrefixOf_iff_prefix.1 hprefix)
      (List.isSuffixOf_iff_suffix.1 hsuffix) hlength
    obtain ⟨ps, hps, hpieces⟩ := Option.bind_eq_some_iff.1 h
    rw [take_drop_middle hbody] at hps
    exact ⟨body, ps, hbody, hps, (Option.some.inj hpieces).symm⟩
  · rintro ⟨body, ps, htext, hps, rfl⟩
    rw [take_drop_middle htext, hps, if_neg]
    · rfl
    simp only [Bool.or_eq_true, Bool.not_eq_true', decide_eq_true_eq, not_or, Nat.not_lt,
      Bool.not_eq_false, List.isPrefixOf_iff_prefix, List.isSuffixOf_iff_suffix]
    refine ⟨⟨?_, ?_⟩, ?_⟩
    · rw [htext]
      simp only [List.length_append]
      omega
    · exact ⟨_, htext.symm⟩
    · exact ⟨head.toList ++ body, by rw [htext, List.append_assoc]⟩

/-- The texts of a template but the last stand between two types. -/
theorem exists_eq_concat_of_ne_nil (h : spans ≠ []) :
    ∃ delimiters tail, spans.map (·.2) = delimiters ++ [tail] :=
  ⟨_, _, (List.dropLast_concat_getLast (mt List.map_eq_nil_iff.1 h)).symm⟩

theorem map_ofList_map_toList (ss : List String) : (ss.map String.toList).map String.ofList = ss := by
  rw [List.map_map, show String.ofList ∘ String.toList = id from funext fun _ => String.ofList_toList,
    List.map_id]

/-- The pieces that are found, one for each type, are the text with the texts of the template. -/
theorem matchText?_sound (hne : spans ≠ []) {pieces : List String}
    (h : matchText? text head spans = some pieces) :
    pieces.length = spans.length ∧ head ++ alternate pieces (spans.map (·.2)) = text := by
  obtain ⟨delimiters, tail, hspans⟩ := exists_eq_concat_of_ne_nil hne
  obtain ⟨body, ps, htext, hps, rfl⟩ := (matchText?_eq_some_iff hspans).1 h
  have hcuts := cuts_of_pieces? hps
  have hlength := congrArg List.length hspans
  refine ⟨?_, String.toList_inj.1 ?_⟩
  · rw [List.length_map, hcuts.length_eq]
    simpa using hlength.symm
  · have halternate := hcuts.alternate_eq tail
    rw [map_ofList_map_toList] at halternate
    rw [String.toList_append, hspans, halternate, htext]

/-- Pieces are found wherever there are some, if none of the texts between two types is empty. -/
theorem matchText?_isSome (hne : spans ≠ []) (hdelimiters : ∀ s ∈ spans.dropLast, s.2 ≠ "")
    {pieces : List String} (hlength : pieces.length = spans.length)
    (h : head ++ alternate pieces (spans.map (·.2)) = text) :
    (matchText? text head spans).isSome := by
  obtain ⟨delimiters, tail, hspans⟩ := exists_eq_concat_of_ne_nil hne
  have hcount : pieces.length = delimiters.length + 1 := by
    rw [hlength, ← List.length_map (f := (·.2)), hspans, List.length_append, List.length_singleton]
  obtain ⟨body, hbody, hcuts⟩ := @exists_cuts_of_alternate _ _ tail hcount
  have hds : ∀ d ∈ delimiters.map String.toList, d ≠ [] := by
    have hinit : spans.dropLast.map (·.2) = delimiters := by
      rw [List.map_dropLast, hspans, List.dropLast_concat]
    rw [← hinit, List.map_map]
    rintro d hd rfl
    obtain ⟨s, hs, heq⟩ := List.mem_map.1 hd
    exact hdelimiters s hs (String.toList_inj.1 heq)
  obtain ⟨ps, hps⟩ := Option.isSome_iff_exists.1 (pieces?_isSome_of_cuts hds hcuts List.suffix_rfl)
  refine Option.isSome_iff_exists.2 ⟨_, (matchText?_eq_some_iff hspans).2 ⟨body, ps, ?_, hps, rfl⟩⟩
  rw [← h, String.toList_append, hspans, hbody]

end

end DeclKit.Template

namespace DeclKit.TypeTable

open Template

variable {nullChecks : Bool} {t : TypeTable}

/-! ## Pieces in a template -/

/-- A template of literals is settled by writing their texts in turn. -/
theorem settledWord_zip {pieces : List String} {ids : List TypeId}
    (h : Forall₂ (fun s id => t.kind id = .stringLiteral s) pieces ids) (head : String)
    {texts : List String} (hlength : pieces.length = texts.length) :
    t.settledWord head (ids.zip texts) = textWord (head ++ alternate pieces texts) := by
  have behind : ((ids.zip texts).flatMap fun s => t.partWord s.1 ++ textWord s.2) =
      textWord (alternate pieces texts) := by
    induction h generalizing texts with
    | nil => cases texts <;> rfl
    | @cons piece id pieces ids hid _ ih =>
      cases texts with
      | nil => cases hlength
      | cons text texts =>
        have hpart : t.partWord id = textWord piece :=
          partWord_of_constantText? (by rw [constantText?, hid])
        rw [List.zip_cons_cons, List.flatMap_cons, ih (Nat.succ.inj hlength), hpart, alternate,
          textWord_append, textWord_append]
  rw [settledWord, behind, textWord_append]

/-- Written into a template as literals, pieces give the literal of the text that they spell. -/
theorem run_template_of_pieces (ht : t.Normal nullChecks) {head text : String} {pieces texts : List String}
    (hlength : pieces.length = texts.length) (h : head ++ alternate pieces texts = text) :
    let r := (do template nullChecks head ((← pieces.mapM stringLiteral).zip texts) :
      Stored TypeId).run t
    (stringLiteral text).run r.2 = r := by
  intro r
  obtain ⟨hkeeps, hids⟩ := forall₂_mapM_stringLiteral nullChecks t pieces
  set ids := ((pieces.mapM stringLiteral).run t).1
  set u := ((pieces.mapM stringLiteral).run t).2
  have hkinds : Forall₂ (fun s id => u.kind id = .stringLiteral s) pieces ids :=
    hids.imp fun s id hget => kind_of_get? hget
  have hliteral : ∀ s ∈ ids.zip texts, ∃ text, u.types.get? s.1.index = some { kind := .stringLiteral text } := by
    intro s hs
    obtain ⟨text, -, hget⟩ := hids.flip.exists_of_mem (List.of_mem_zip hs).1
    exact ⟨text, hget⟩
  have hatom : ∀ s ∈ ids.zip texts, u.IsAtom s.1 := by
    intro s hs
    obtain ⟨text, hget⟩ := hliteral s hs
    refine isAtom_of_inUnion ?_
    rw [kind_of_get? hget]
    rfl
  have hgiven : ∀ s ∈ ids.zip texts, u.Given (.type s.1) := by
    intro s hs
    obtain ⟨text, hget⟩ := hliteral s hs
    exact given_of_get? hget
  have herror : ∀ s ∈ ids.zip texts, s.1 ≠ .error := by
    intro s hs heq
    obtain ⟨text, hget⟩ := hliteral s hs
    have hk := kind_of_get? hget
    rw [heq, show u.kind .error = .error from (hkeeps.2 ht).kind_fixed (i := 1) rfl] at hk
    cases hk
  have hunion : r.2.UnionOfWords nullChecks _ r.1 :=
    unionOfWords_template (hkeeps.2 ht) head hgiven herror
  have hr : r.2.Normal nullChecks :=
    (Stored.keeps_template nullChecks head (ids.zip texts) u).2 (hkeeps.2 ht)
  have hget := hunion.get?_of_one hr (expands_contributes_of_isAtom hatom)
  rw [settledWord_zip hkinds head hlength, h, wordKind_textWord] at hget
  exact run_store_of_get? hget

/-! ## The matching of a stored template -/

/-- Matching is sound for every text and every template of a check: there is a piece for each type, the
texts of the template with the pieces between them are the text, and with literals of the pieces for its
types the template becomes the literal of the text. If no text between two types is empty it is also
complete: pieces are found exactly when the text can be cut into any. -/
theorem matchText?_stored (ht : initial.Later nullChecks t) {id : TypeId} {head : String}
    {spans : List (TypeId × String)} (hk : t.kind id = .template head spans) (text : String) :
    (∀ pieces, matchText? text head spans = some pieces →
      pieces.length = spans.length ∧ head ++ alternate pieces (spans.map (·.2)) = text ∧
      let r := (do template nullChecks head ((← pieces.mapM stringLiteral).zip (spans.map (·.2))) :
        Stored TypeId).run t
      (stringLiteral text).run r.2 = r) ∧
    ((∀ s ∈ spans.dropLast, s.2 ≠ "") →
      ((matchText? text head spans).isSome ↔ ∃ pieces : List String,
        pieces.length = spans.length ∧ head ++ alternate pieces (spans.map (·.2)) = text)) := by
  have hn : t.Normal nullChecks := ht.keeps.2 (normal_initial nullChecks)
  have hform : t.NormalTemplate spans := hn.form hk nofun
  constructor
  · intro pieces h
    obtain ⟨hlength, htext⟩ := matchText?_sound hform.nonempty h
    refine ⟨hlength, htext, run_template_of_pieces hn ?_ htext⟩
    rw [hlength, List.length_map]
  · intro hdelimiters
    constructor
    · intro h
      obtain ⟨pieces, hpieces⟩ := Option.isSome_iff_exists.1 h
      exact ⟨pieces, matchText?_sound hform.nonempty hpieces⟩
    · rintro ⟨pieces, hlength, htext⟩
      exact matchText?_isSome hform.nonempty hdelimiters hlength htext

/-- A version number is cut at its point, and its parts make it up again. -/
theorem matchText?_version :
    let spans := [(TypeId.string, "."), (TypeId.string, "")]
    let stored := (template true "v" spans).run initial
    let parts := ["1", "20"]
    let r := (do template true "v" ((← parts.mapM stringLiteral).zip (spans.map (·.2))) :
      Stored TypeId).run stored.2
    stored.2.kind stored.1 = .template "v" spans ∧
      matchText? "v1.20" "v" spans = some parts ∧ (stringLiteral "v1.20").run r.2 = r ∧
      ∃ pieces : List String, pieces.length = 2 ∧ "v" ++ alternate pieces [".", ""] = "v1.20" := by
  intro spans stored parts r
  have hn := normal_initial true
  have hstring : initial.kind .string = .string := hn.kind_fixed (i := 5) rfl
  have hatom : ∀ s ∈ spans, initial.IsAtom s.1 := by
    simp only [spans, List.forall_mem_cons, List.not_mem_nil, false_imp_iff, implies_true, and_true,
      IsAtom, hstring]
    decide
  have hgiven : ∀ s ∈ spans, initial.Given (.type s.1) := by
    simp only [spans, List.forall_mem_cons, List.not_mem_nil, false_imp_iff, implies_true, and_true,
      and_self]
    exact given_of_get? (hn.fixed 5 _ rfl)
  have hword : initial.settledWord "v" spans = templateWord "v" spans := by
    have hpart : initial.partWord .string = [.inr .string] :=
      partWord_of_inTemplate (by rw [hstring]; rfl)
    simp only [spans, settledWord, templateWord, spansWord, List.flatMap_cons, hpart]
    rfl
  have hk : stored.2.kind stored.1 = .template "v" spans := by
    have hunion := unionOfWords_template hn "v" hgiven (by decide)
    have hstored : stored.2.Normal true := (Stored.keeps_template true "v" spans initial).2 hn
    rw [kind_of_get? (hunion.get?_of_one hstored (expands_contributes_of_isAtom hatom)), hword]
    decide
  have hmatch : matchText? "v1.20" "v" spans = some parts := by decide
  have hlater : initial.Later true stored.2 := .step (.refl initial) (.template "v" spans)
  have hmatching := matchText?_stored hlater hk "v1.20"
  refine ⟨hk, hmatch, (hmatching.1 parts hmatch).2.2, (hmatching.2 (by decide)).1 ?_⟩
  rw [hmatch]
  rfl

end DeclKit.TypeTable

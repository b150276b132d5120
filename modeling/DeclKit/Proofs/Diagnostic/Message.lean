/-
How details get into messages.

Details are filled into a template one after the other, so a later one is also filled in where an earlier
one has brought its place along. No template has two places side by side, or a digit or a brace beside a
place, so nothing else comes of going one by one: every place of the template gets its detail with the
later details filled in. Details that mention no later place stand in the message as they are.
-/
import DeclKit.Diagnostic.Kind
import Mathlib.Data.List.GetD
import Mathlib.Data.List.Infix

set_option autoImplicit false

namespace DeclKit

/-! ## Replacing -/

namespace Text

variable {p a t : List Char} {c : Char}

theorem replaceAll_at (hp : p ≠ []) (h : p <+: t) :
    replaceAll p a t = a ++ replaceAll p a (t.drop p.length) := by
  match p, t, hp, h with
  | x :: p, y :: t, _, h =>
    rw [replaceAll, if_pos (by simpa using h)]
    rfl

theorem replaceAll_cons_of_ne (h : ¬ p <+: c :: t) :
    replaceAll p a (c :: t) = c :: replaceAll p a t := by
  have hfront : ¬ (!p.isEmpty && p.isPrefixOf (c :: t)) = true := by
    rw [Bool.and_eq_true, List.isPrefixOf_iff_prefix]
    exact fun hboth => h hboth.2
  rw [replaceAll, if_neg hfront]

/-- A character that the pattern does not have keeps apart what stands on its two sides. -/
theorem replaceAll_append_cons (hp : p ≠ []) (hc : c ∉ p) (u v : List Char) :
    replaceAll p a (u ++ c :: v) = replaceAll p a u ++ c :: replaceAll p a v := by
  have hapart (u : List Char) : p <+: u ++ c :: v ↔ p <+: u := by
    refine ⟨fun h => ?_, fun h => h.trans (List.prefix_append _ _)⟩
    rcases List.prefix_or_prefix_of_prefix h (List.prefix_append u (c :: v)) with hu | ⟨w, rfl⟩
    · exact hu
    -- otherwise the pattern reaches beyond the text, to the character
    cases w with
    | nil => rw [List.append_nil]
    | cons x w =>
      obtain rfl := (List.cons_prefix_cons.1 ((List.prefix_append_right_inj u).1 h)).1
      exact absurd (List.mem_append_right u List.mem_cons_self) hc
  induction hn : u.length using Nat.strong_induction_on generalizing u with
  | _ n ih =>
    by_cases hfront : p <+: u
    · have hlen := hfront.length_le
      rw [replaceAll_at hp ((hapart u).2 hfront), replaceAll_at hp hfront,
        List.drop_append_of_le_length hlen, List.append_assoc,
        ih (u.drop p.length).length _ (u.drop p.length) rfl]
      have hpos := List.length_pos_iff.2 hp
      rw [List.length_drop]
      omega
    · cases u with
      | nil =>
        rw [List.nil_append, replaceAll_cons_of_ne ((hapart []).not.2 hfront), replaceAll]
        rfl
      | cons x u =>
        have hfront' : ¬ p <+: x :: (u ++ c :: v) := (hapart (x :: u)).not.2 hfront
        rw [List.cons_append, replaceAll_cons_of_ne hfront',
          replaceAll_cons_of_ne hfront, List.cons_append,
          ih u.length (by rw [← hn]; exact Nat.lt_succ_self _) u rfl]

/-- A text in which the pattern does not occur stays as it is. -/
theorem replaceAll_of_not_infix (h : ¬ p <:+: t) : replaceAll p a t = t := by
  induction t with
  | nil => rw [replaceAll]
  | cons c t ih =>
    rw [replaceAll_cons_of_ne fun hp => h hp.isInfix, ih fun hp => h (hp.trans ?_)]
    exact (List.suffix_cons c t).isInfix

end Text

namespace DiagnosticKind

/-! ## Places -/

/-- A character that cannot be a part of a place. -/
def isPlain (c : Char) : Bool := !(c == '\x7b' || c == '\x7d' || c.isDigit)

theorem placeholder_eq (i : Nat) : placeholder i = '\x7b' :: (Nat.toDigits 10 i ++ ['\x7d']) := by
  rw [placeholder, Nat.toString_eq_repr, Nat.toList_repr]
  rfl

theorem placeholder_ne_nil (i : Nat) : placeholder i ≠ [] := List.cons_ne_nil _ _

theorem isDigit_of_mem_digits {i : Nat} {c : Char} (hc : c ∈ Nat.toDigits 10 i) : c.isDigit = true :=
  Nat.isDigit_of_mem_toDigits (by decide) (by decide) hc

theorem not_mem_placeholder {c : Char} (hc : isPlain c = true) (i : Nat) : c ∉ placeholder i := by
  intro hmem
  rw [placeholder_eq] at hmem
  rcases List.mem_cons.1 hmem with rfl | hmem
  · exact absurd hc (by decide)
  rcases List.mem_append.1 hmem with hmem | hmem
  · simp [isPlain, isDigit_of_mem_digits hmem] at hc
  · obtain rfl := List.mem_singleton.1 hmem
    exact absurd hc (by decide)

/-- Behind its opening brace a place has no other. -/
theorem open_not_mem_placeholder (i : Nat) : '\x7b' ∉ Nat.toDigits 10 i ++ ['\x7d'] := by
  intro hmem
  rcases List.mem_append.1 hmem with hmem | hmem
  · exact absurd (isDigit_of_mem_digits hmem) (by decide)
  · exact absurd (List.mem_singleton.1 hmem) (by decide)

theorem takeWhile_digits (i : Nat) (t : List Char) :
    (Nat.toDigits 10 i ++ '\x7d' :: t).takeWhile Char.isDigit = Nat.toDigits 10 i := by
  rw [List.takeWhile_append_of_pos fun c hc => isDigit_of_mem_digits hc,
    List.takeWhile_cons_of_neg (by decide), List.append_nil]

/-- No place is the front of another. -/
theorem placeholder_prefix_iff {i j : Nat} {t : List Char} :
    placeholder i <+: placeholder j ++ t ↔ i = j := by
  refine ⟨fun ⟨w, hw⟩ => ?_, fun h => h ▸ List.prefix_append _ _⟩
  simp only [placeholder_eq, List.cons_append, List.append_assoc, List.nil_append] at hw
  -- the digits of both end at the closing brace
  have hdigits := congrArg (List.takeWhile Char.isDigit) (List.cons.inj hw).2
  rw [takeWhile_digits, takeWhile_digits] at hdigits
  rw [← Nat.ofDigitChars_toDigits (b := 10) (n := i) (by decide) (by decide), hdigits,
    Nat.ofDigitChars_toDigits (by decide) (by decide)]

/-- No place is found within another. -/
theorem placeholder_infix_iff {i j : Nat} : placeholder i <:+: placeholder j ↔ i = j := by
  refine ⟨fun ⟨u, w, h⟩ => ?_, fun h => h ▸ List.infix_refl _⟩
  cases u with
  | nil =>
    refine (placeholder_prefix_iff (t := [])).1 ⟨w, ?_⟩
    rwa [List.append_nil]
  | cons c u =>
    -- its opening brace would be behind that of the other
    refine absurd ?_ (open_not_mem_placeholder j)
    rw [placeholder_eq, placeholder_eq, List.cons_append, List.cons_append] at h
    rw [← (List.cons.inj h).2]
    simp

/-- A place is found nowhere but where one starts. -/
theorem not_prefix_of_ne_open {c : Char} {t : List Char} (hc : c ≠ '\x7b') (i : Nat) :
    ¬ placeholder i <+: c :: t := fun h => hc (List.cons_prefix_cons.1 h).1.symm

/-! ## Templates -/

/-- A text with places in it. Behind a place comes a plain character or nothing. -/
inductive Form where
  | done
  | char (c : Char) (plain : isPlain c = true) (more : Form)
  | last (i : Nat)
  | place (i : Nat) (c : Char) (plain : isPlain c = true) (more : Form)

namespace Form

/-- The text with something in each place. -/
def text (f : Nat → List Char) : Form → List Char
  | done => []
  | char c _ more => c :: more.text f
  | last i => f i
  | place i c _ more => f i ++ c :: more.text f

/-- The form of a text in which places have one digit. -/
def ofText? : List Char → Option Form
  | [] => some done
  | '\x7b' :: d :: '\x7d' :: [] => some (last (d.toNat - '0'.toNat))
  | '\x7b' :: d :: '\x7d' :: c :: more =>
    if h : isPlain c = true then (ofText? more).map (place (d.toNat - '0'.toNat) c h) else none
  | c :: more => if h : isPlain c = true then (ofText? more).map (char c h) else none

/-- What replaces a place in a form is what replaces it in each of its places. -/
theorem replaceAll_text (F : Form) (f : Nat → List Char) (j : Nat) (a : List Char) :
    Text.replaceAll (placeholder j) a (F.text f) =
      F.text fun i => Text.replaceAll (placeholder j) a (f i) := by
  induction F with
  | done => rw [text, text, Text.replaceAll]
  | char c plain more ih =>
    have happend := Text.replaceAll_append_cons (a := a) (placeholder_ne_nil j)
      (not_mem_placeholder plain j) [] (more.text f)
    rw [List.nil_append, Text.replaceAll, List.nil_append] at happend
    rw [text, happend, ih, text]
  | last i => rfl
  | place i c plain more ih =>
    rw [text, Text.replaceAll_append_cons (placeholder_ne_nil j) (not_mem_placeholder plain j), ih,
      text]

theorem fillFrom_text (F : Form) (f : Nat → List Char) (j : Nat) (args : List String) :
    fillFrom j (F.text f) args = F.text fun i => fillFrom j (f i) args := by
  induction args generalizing j f with
  | nil => rfl
  | cons arg args ih => rw [fillFrom, replaceAll_text, ih]; rfl

end Form

theorem exists_form_of_ofText? {s : String} (cs : List Char) (hs : s = String.ofList cs)
    (h : (Form.ofText? cs).map (·.text placeholder) = some cs) :
    ∃ F : Form, s.toList = F.text placeholder := by
  obtain ⟨F, -, hF⟩ := Option.map_eq_some_iff.1 h
  exact ⟨F, by rw [hF, hs, String.toList_ofList]⟩

/-- Every template has a form. -/
theorem exists_form (k : DiagnosticKind) : ∃ F : Form, k.template.toList = F.text placeholder := by
  cases k
  case noInputs =>
    exact exists_form_of_ofText? (_ ++ _) String.ofList_append.symm (by decide +kernel)
  all_goals exact exists_form_of_ofText? _ rfl (by decide +kernel)

/-! ## Filling in -/

/-- Fills in details at once: each place for which there is a detail gets it, and what a detail brings
along is not looked at. -/
def fillAtOnce (args : List (List Char)) (text : List Char) : List Char :=
  match text with
  | [] => []
  | c :: cs =>
    match (List.range args.length).find? fun i => (placeholder i).isPrefixOf (c :: cs) with
    | some i => args.getD i [] ++ fillAtOnce args (cs.drop ((placeholder i).length - 1))
    | none => c :: fillAtOnce args cs
termination_by text.length

/-- The details, numbered from `i` on, each with those behind it filled in. -/
def settledFrom (i : Nat) : List String → List (List Char)
  | [] => []
  | arg :: more => fillFrom (i + 1) arg.toList more :: settledFrom (i + 1) more

section FillAtOnce

variable {args : List (List Char)}

theorem fillAtOnce_cons {c : Char} (hc : c ≠ '\x7b') (t : List Char) :
    fillAtOnce args (c :: t) = c :: fillAtOnce args t := by
  have hnone : ((List.range args.length).find? fun i => (placeholder i).isPrefixOf (c :: t)) =
      none := by
    refine List.find?_eq_none.2 fun i _ => ?_
    rw [List.isPrefixOf_iff_prefix]
    exact not_prefix_of_ne_open hc i
  rw [fillAtOnce, hnone]

theorem fillAtOnce_append {u : List Char} (hu : '\x7b' ∉ u) (t : List Char) :
    fillAtOnce args (u ++ t) = u ++ fillAtOnce args t := by
  induction u with
  | nil => rfl
  | cons c u ih =>
    obtain ⟨hc, hu⟩ := List.ne_and_not_mem_of_not_mem_cons hu
    rw [List.cons_append, fillAtOnce_cons hc.symm, ih hu, List.cons_append]

/-- A place gets its detail, and stays where there is none. -/
theorem fillAtOnce_placeholder (i : Nat) (t : List Char) :
    fillAtOnce args (placeholder i ++ t) = args.getD i (placeholder i) ++ fillAtOnce args t := by
  have hfront (j : Nat) : (placeholder j).isPrefixOf (placeholder i ++ t) = (j == i) := by
    rw [Bool.eq_iff_iff, List.isPrefixOf_iff_prefix, placeholder_prefix_iff, beq_iff_eq]
  have hcons : placeholder i ++ t = '\x7b' :: (Nat.toDigits 10 i ++ ['\x7d'] ++ t) := by
    rw [placeholder_eq, List.cons_append]
  rcases Nat.lt_or_ge i args.length with hlt | hge
  · have hfind : ((List.range args.length).find? fun j =>
        (placeholder j).isPrefixOf (placeholder i ++ t)) = some i := by
      simp only [hfront, List.find?_range_eq_some, beq_self_eq_true, true_and, List.mem_range, hlt,
        Bool.not_eq_true', beq_eq_false_iff_ne]
      exact fun j hj => Nat.ne_of_lt hj
    rw [hcons] at hfind ⊢
    rw [fillAtOnce, hfind]
    dsimp only
    rw [List.getD_eq_getElem _ _ hlt, List.getD_eq_getElem _ _ hlt, placeholder_eq,
      List.length_cons, Nat.add_sub_cancel, List.drop_left]
  · have hfind : ((List.range args.length).find? fun j =>
        (placeholder j).isPrefixOf (placeholder i ++ t)) = none := by
      simp only [hfront, List.find?_range_eq_none, Bool.not_eq_true', beq_eq_false_iff_ne]
      omega
    rw [hcons] at hfind ⊢
    rw [fillAtOnce, hfind]
    dsimp only
    rw [List.append_assoc, ← List.append_assoc, fillAtOnce_append (open_not_mem_placeholder i),
      List.getD_eq_default _ _ hge, placeholder_eq, List.cons_append]

theorem Form.fillAtOnce_text (F : Form) :
    fillAtOnce args (F.text placeholder) = F.text fun i => args.getD i (placeholder i) := by
  have hplain {c : Char} (hc : isPlain c = true) : c ≠ '\x7b' := by
    rintro rfl
    exact absurd hc (by decide)
  induction F with
  | done => rw [text, text, fillAtOnce]
  | char c plain more ih => rw [text, fillAtOnce_cons (hplain plain), ih, text]
  | last i =>
    have hlast : fillAtOnce args (placeholder i ++ []) =
        args.getD i (placeholder i) ++ fillAtOnce args [] := fillAtOnce_placeholder i []
    rwa [List.append_nil, fillAtOnce, List.append_nil] at hlast
  | place i c plain more ih =>
    rw [text, fillAtOnce_placeholder, fillAtOnce_cons (hplain plain), ih, text]

end FillAtOnce

/-- A place is filled with its own detail, which then gets the details behind it. -/
theorem fillFrom_placeholder {i j : Nat} (hij : i ≤ j) (args : List String) :
    fillFrom i (placeholder j) args = (settledFrom i args).getD (j - i) (placeholder j) := by
  induction args generalizing i with
  | nil => rfl
  | cons arg args ih =>
    rw [fillFrom]
    rcases Nat.eq_or_lt_of_le hij with rfl | hlt
    · rw [Text.replaceAll_at (placeholder_ne_nil i) (List.prefix_refl _), List.drop_length,
        Text.replaceAll, List.append_nil, Nat.sub_self, settledFrom, List.getD_cons_zero]
    · obtain ⟨d, hd⟩ : ∃ d, j - i = d + 1 := ⟨j - i - 1, by omega⟩
      have hnot : ¬ placeholder i <:+: placeholder j := fun h =>
        Nat.ne_of_lt hlt (placeholder_infix_iff.1 h)
      rw [Text.replaceAll_of_not_infix hnot, ih hlt, settledFrom, hd, List.getD_cons_succ,
        show j - (i + 1) = d by omega]

/-- Details that mention no later place stay as they are. -/
theorem settledFrom_eq_map {args : List String} {i : Nat}
    (h : ∀ j arg, args[j]? = some arg → ∀ l, i + j < l → l < i + args.length →
      ¬ placeholder l <:+: arg.toList) :
    settledFrom i args = args.map String.toList := by
  have hkeep (more : List String) (t : List Char) (i : Nat)
      (hnone : ∀ l, i ≤ l → l < i + more.length → ¬ placeholder l <:+: t) :
      fillFrom i t more = t := by
    induction more generalizing i with
    | nil => rfl
    | cons arg more ih =>
      rw [List.length_cons] at hnone
      rw [fillFrom, Text.replaceAll_of_not_infix (hnone i (Nat.le_refl i) (by omega))]
      exact ih (i + 1) fun l hl hlt => hnone l (by omega) (by omega)
  induction args generalizing i with
  | nil => rfl
  | cons arg args ih =>
    rw [List.length_cons] at h
    have hhead := hkeep args arg.toList (i + 1) fun l hl hlt => h 0 arg rfl l (by omega) (by omega)
    have htail := ih (i := i + 1) fun j a hj l hl hlt => h (j + 1) a hj l (by omega) (by omega)
    rw [settledFrom, List.map_cons, hhead, htail]

/-! ## Messages -/

/-- In a message every place of the template has its detail, in which the places of later details have
been filled in the same way. So where no detail mentions the place of a later one, all places are filled
at once, and every detail stands there as it was given. -/
theorem message_exact (k : DiagnosticKind) (arg : String) (more : List String) :
    k.message (arg :: more) =
        String.ofList (fillAtOnce (settledFrom 0 (arg :: more)) k.template.toList) ∧
      ((∀ i a, (arg :: more)[i]? = some a → ∀ j, i < j → j ≤ more.length →
          ¬ placeholder j <:+: a.toList) →
        k.message (arg :: more) =
          String.ofList (fillAtOnce ((arg :: more).map String.toList) k.template.toList)) := by
  have hmessage : k.message (arg :: more) =
      String.ofList (fillAtOnce (settledFrom 0 (arg :: more)) k.template.toList) := by
    obtain ⟨F, hF⟩ := exists_form k
    have hplaces (j : Nat) : fillFrom 0 (placeholder j) (arg :: more) =
        (settledFrom 0 (arg :: more)).getD j (placeholder j) :=
      fillFrom_placeholder (Nat.zero_le j) _
    rw [message, List.isEmpty_cons, if_neg Bool.false_ne_true, hF, Form.fillFrom_text,
      Form.fillAtOnce_text]
    simp only [hplaces]
  refine ⟨hmessage, fun hnone => ?_⟩
  rw [hmessage, settledFrom_eq_map fun i a hi j hj hlt => ?_]
  exact hnone i a hi j (by omega) (by simpa [Nat.lt_succ_iff] using hlt)

end DiagnosticKind

end DeclKit

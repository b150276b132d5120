/-
Printing phrases.

The text of a type is cut into the words of its outline: blanks stand where two words would run into
each other, and brackets and commas need none. This is shown by induction on the phrase, in every
layout and at every level of indentation.
-/
import DeclKit.Decl.Print
import DeclKit.Proofs.Grammar.Cutting
import DeclKit.Proofs.Grammar.Phrase

set_option autoImplicit false

namespace DeclKit

open Kind Outline Token

namespace Token

variable {k : Kind} {s : String} {ws : List Lexeme}

/-! ## Marks with their blanks -/

theorem writes_nil : Writes "" [] := fun _ _ _ h => h

/-- A blank is no word. -/
theorem closed_blank : Closed " " [] := fun _ _ h => h.blank

/-- A word is written when it does not run into what stands behind it. -/
theorem writes_word (hs : isWord s = true) : Writes s [.named s] := fun _ _ hends h =>
  h.named hs hends

theorem closed_quote (s : String) : Closed (Text.quote s) [⟨stringLiteral, (Text.quote s).toList⟩] :=
  fun _ _ h => h.quote s

theorem isWord_of_isIdentifier (hs : isIdentifier s = true) : isWord s = true := by
  rw [isIdentifier] at hs
  rw [isWord]
  cases hchars : s.toList with
  | nil =>
    rw [hchars] at hs
    cases hs
  | cons c cs =>
    rw [hchars] at hs
    exact (Bool.and_eq_true_iff.1 hs).1

/-- A mark of one character needs no blank. -/
theorem closed_mark {c : Char} (hs : s.toList = [c]) (hextent : ∀ rest, extent c rest = (k, 0))
    (hk : c ≠ '`' ∧ k.markChars = [c] ∧ k.isTrivia = false ∧ isPlain k = true) :
    Closed s [.mark k] := by
  intro rest vs h
  rw [hs]
  exact h.mark hk.1 (hextent rest) hk.2.1 hk.2.2

theorem closed_arrow : Closed "=>" [.mark arrow] := fun rest vs h =>
  Spells.word (n := 1) (by decide) rfl (by decide) h

theorem closed_parenOpen : Closed "(" [.mark parenOpen] := closed_mark rfl (fun _ => rfl) (by decide)

theorem closed_parenClose : Closed ")" [.mark parenClose] :=
  closed_mark rfl (fun _ => rfl) (by decide)

theorem closed_bracketOpen : Closed "[" [.mark bracketOpen] :=
  closed_mark rfl (fun _ => rfl) (by decide)

theorem closed_bracketClose : Closed "]" [.mark bracketClose] :=
  closed_mark rfl (fun _ => rfl) (by decide)

theorem closed_lt : Closed "<" [.mark lt] := closed_mark rfl (fun _ => rfl) (by decide)

theorem closed_gt : Closed ">" [.mark gt] := closed_mark rfl (fun _ => rfl) (by decide)

theorem closed_comma : Closed ", " [.mark comma] :=
  (closed_mark (s := ",") rfl (fun _ => rfl) (by decide)).append closed_blank

theorem closed_colon : Closed ": " [.mark colon] :=
  (closed_mark (s := ":") rfl (fun _ => rfl) (by decide)).append closed_blank

/-- A mark between blanks. -/
theorem closed_between (h : Closed s ws) : Closed (" " ++ s ++ " ") ws := by
  have hall := (closed_blank.append h).append closed_blank
  rwa [List.nil_append, List.append_nil] at hall

theorem closed_amp : Closed " & " [.mark amp] :=
  closed_between (closed_mark (s := "&") rfl (fun _ => rfl) (by decide))

theorem closed_pipe : Closed " | " [.mark pipe] :=
  closed_between (closed_mark (s := "|") rfl (fun _ => rfl) (by decide))

theorem closed_question : Closed " ? " [.mark question] :=
  closed_between (closed_mark (s := "?") rfl (fun _ => rfl) (by decide))

theorem closed_colon_between : Closed " : " [.mark colon] :=
  closed_between (closed_mark (s := ":") rfl (fun _ => rfl) (by decide))

theorem closed_arrow_between : Closed " => " [.mark arrow] := closed_between closed_arrow

theorem closed_semicolon : Closed ";" [.mark semicolon] :=
  closed_mark rfl (fun _ => rfl) (by decide)

/-- An equals sign with a blank behind it starts no longer mark. -/
theorem closed_equals : Closed " = " [.mark equals] := by
  have hequals : Closed "= " [.mark equals] := fun rest vs h =>
    h.blank.mark (by decide) rfl rfl (by decide)
  exact closed_blank.append hequals

theorem closed_extends : Closed " extends " [.named "extends"] := by
  have hword : Writes "extends" [.named "extends"] := writes_word (by decide)
  exact (closed_blank.before hword).before closed_blank ⟨_, _, rfl, by decide⟩

/-- The word `export` in front of a declaration, if it is there. -/
theorem closed_export (exported : Bool) :
    Closed (Decl.flagged exported "export ") (wordsOf (flagged exported (.named "export"))) := by
  have hword : Writes "export" [.named "export"] := writes_word (by decide)
  cases exported with
  | true => exact hword.before closed_blank ⟨_, _, rfl, by decide⟩
  | false => exact fun _ _ h => h

/-- A type alias is cut into its words. -/
theorem closed_alias {name : String} (hname : isIdentifier name = true) (hs : Writes s ws) :
    Closed ("type " ++ name ++ " = " ++ s ++ ";")
      (.named "type" :: .named name :: .mark equals :: (ws ++ [.mark semicolon])) := by
  have htype : Writes "type" [.named "type"] := writes_word (by decide)
  have hhead := (htype.before closed_blank ⟨_, _, rfl, by decide⟩).before
    (writes_word (isWord_of_isIdentifier hname))
  have hbody := (hhead.before closed_equals ⟨_, _, rfl, by decide⟩).before hs
  have hall := hbody.before closed_semicolon ⟨_, _, rfl, by decide⟩
  simpa using hall

/-- Texts with a separator between each two. -/
theorem Writes.intercalate {α : Type} {sep : String} {text : α → String} {outline : α → Outline}
    {xs : List α} (hsep : Closed sep [.mark k]) (hdelimits : Delimits sep)
    (h : ∀ x ∈ xs, Writes (text x) (outline x).words) :
    Writes (sep.intercalate (xs.map text)) (wordsOf (joined k (xs.map outline))) := by
  induction xs with
  | nil => exact writes_nil
  | cons x xs ih =>
    obtain ⟨hx, hxs⟩ := List.forall_mem_cons.1 h
    cases xs with
    | nil =>
      rw [List.map_singleton, String.intercalate_singleton, List.map_singleton, joined_cons,
        following_nil, wordsOf_cons, wordsOf_nil, List.append_nil]
      exact hx
    | cons y xs =>
      rw [List.map_cons, List.map_cons, String.intercalate_cons_cons]
      have hrest := (hx.before hsep hdelimits).before (ih hxs)
      simpa using hrest

end Token

/-! ## Lists of types -/

namespace Decl

variable (y : Layout) (level : Nat)

theorem printTypes_eq_map (ts : List TypeNode) :
    printTypes y level ts = ts.map (·.print y level) := by
  induction ts with
  | nil => rw [printTypes, List.map_nil]
  | cons t ts ih => rw [printTypes, ih, List.map_cons]

/-- Elements of a tuple without names and marks are written as their types. -/
theorem printItems_required (ts : List TypeNode) :
    printItems y level (ts.map fun t => ⟨.required, none, t⟩) = ts.map (·.print y level) := by
  induction ts with
  | nil => rw [List.map_nil, printItems, List.map_nil]
  | cons t ts ih =>
    rw [List.map_cons, printItems, ih, List.map_cons]
    simp [flagged]

/-- Parameters with a type and nothing else. -/
theorem printParams_typed (ps : List (String × TypeNode)) :
    printParams y level (ps.map fun p => { name := p.1, type := some p.2 }) =
      ps.map fun p => p.1 ++ (": " ++ p.2.print y level) := by
  induction ps with
  | nil => rw [List.map_nil, printParams, List.map_nil]
  | cons p ps ih =>
    rw [List.map_cons, printParams, ih, List.map_cons, printOption]
    simp [flagged]

/-- A function without type parameters that returns a type. -/
theorem print_function (ps : List (Param TypeNode)) (t : TypeNode) :
    (TypeForm.function { params := ps, returns := some t }).print y level =
      "(" ++ ", ".intercalate (printParams y level ps) ++ ")" ++ " => " ++ t.print y level := by
  show "" ++ "(" ++ _ ++ ")" ++ " => " ++ _ = _
  rw [String.empty_append]

end Decl

/-! ## Phrases -/

namespace Phrase

open Decl

variable {n level : Nat} {l : Level} {t : TypeNode} {o : Outline} {args : List (TypeNode × Outline)}

theorem writes_comma {text : TypeNode → String}
    (h : ∀ x ∈ args, Writes (text x.1) x.2.words) :
    Writes (", ".intercalate ((args.map (·.1)).map text))
      (wordsOf (joined comma (args.map (·.2)))) := by
  rw [List.map_map]
  exact Writes.intercalate closed_comma ⟨_, _, rfl, by decide⟩ h

/-- Type arguments behind a name. -/
theorem writes_reference {name : String} (hname : isWord name = true) {text : TypeNode → String}
    (h : ∀ x ∈ args, Writes (text x.1) x.2.words) :
    Writes (name ++ angles ((args.map (·.1)).map text))
      (.named name :: wordsOf (arguments (args.map (·.2)))) := by
  have hword : Writes name [.named name] := writes_word hname
  cases args with
  | nil =>
    have hnone : name ++ angles [] = name := by simp [angles]
    simpa [hnone, arguments] using hword
  | cons x args =>
    have hlist := hword.before closed_lt ⟨_, _, rfl, by decide⟩
    have hall := (hlist.before (writes_comma h)).before closed_gt ⟨_, _, rfl, by decide⟩
    have hangles : name ++ angles (((x :: args).map (·.1)).map text) =
        name ++ "<" ++ ", ".intercalate (((x :: args).map (·.1)).map text) ++ ">" := by
      simp [angles, String.append_assoc]
    rw [hangles]
    simpa [arguments] using hall.writes

/-- The text of a phrase is cut into the words of its outline. -/
theorem writes (h : Phrase n l t o) (y : Layout) (level : Nat) : Writes (t.print y level) o.words := by
  induction h with
  | @keyword _ k =>
    rw [TypeNode.print, TypeForm.print, words_node, wordsOf_cons, wordsOf_nil]
    exact writes_word (by cases k <;> decide)
  | @string _ s =>
    rw [TypeNode.print, TypeForm.print, words_node, wordsOf_cons, wordsOf_nil]
    exact (closed_quote s).writes
  | @boolean _ b =>
    rw [TypeNode.print, TypeForm.print, words_node, wordsOf_cons, wordsOf_nil]
    exact writes_word (by cases b <;> decide)
  | @reference _ name args _ hname _ ih =>
    rw [TypeNode.print, TypeForm.print, printTypes_eq_map,
      String.intercalate_singleton, words_node, wordsOf_cons, words_node, wordsOf_cons, words_named]
    exact writes_reference (isWord_of_isIdentifier (isIdentifier_of_isTypeName hname)) ih
  | @tuple _ items _ _ ih =>
    have hitems : printItems y level (items.map fun x => ⟨.required, none, x.1⟩) =
        (items.map (·.1)).map (·.print y level) := by
      rw [← printItems_required, List.map_map]
      rfl
    rw [TypeNode.print, TypeForm.print, hitems]
    have hlist := closed_bracketOpen.before (writes_comma ih)
    have hall := hlist.before closed_bracketClose ⟨_, _, rfl, by decide⟩
    simpa using hall.writes
  | paren _ ih =>
    rw [TypeNode.print, TypeForm.print]
    have hall := (closed_parenOpen.before ih).before closed_parenClose ⟨_, _, rfl, by decide⟩
    simpa using hall.writes
  | array _ ih =>
    rw [TypeNode.print, TypeForm.print]
    have hall := ih.before (closed_bracketOpen.append closed_bracketClose) ⟨_, _, rfl, by decide⟩
    simpa using hall.writes
  | indexed _ _ iht ihi =>
    rw [TypeNode.print, TypeForm.print]
    have hindex := (iht.before closed_bracketOpen ⟨_, _, rfl, by decide⟩).before ihi
    have hall := hindex.before closed_bracketClose ⟨_, _, rfl, by decide⟩
    simpa using hall.writes
  | keyof _ ih =>
    rw [TypeNode.print, TypeForm.print, Operator.text]
    have hword : Writes "keyof" [.named "keyof"] := writes_word (by decide)
    have hall := (hword.before closed_blank ⟨_, _, rfl, by decide⟩).before ih
    simpa using hall
  | @intersection _ x z members _ _ ih =>
    rw [TypeNode.print, TypeForm.print, printTypes_eq_map, List.map_map, words_node]
    exact Writes.intercalate closed_amp ⟨_, _, rfl, by decide⟩ ih
  | @union _ x z members _ _ ih =>
    rw [TypeNode.print, TypeForm.print, printTypes_eq_map, List.map_map, words_node]
    exact Writes.intercalate closed_pipe ⟨_, _, rfl, by decide⟩ ih
  | @function _ c params t o _ hnames _ _ ihparams ih =>
    have hparams : ∀ p ∈ params, Writes (p.1 ++ (": " ++ p.2.1.print y level))
        (Outline.param p.1 p.2.2).words := by
      intro p hp
      have hname : Writes p.1 [.named p.1] := writes_word (isWord_of_isIdentifier (hnames p hp))
      have hall := (hname.before closed_colon ⟨_, _, rfl, by decide⟩).before (ihparams p hp)
      simpa [Outline.param, String.append_assoc] using hall
    have hlist := Writes.intercalate closed_comma ⟨_, _, rfl, by decide⟩ hparams
    have hparens := (closed_parenOpen.before hlist).before closed_parenClose ⟨_, _, rfl, by decide⟩
    have hall := (hparens.append closed_arrow_between).before ih
    have hprint : printParams y level (params.map fun p => { name := p.1, type := some p.2.1 }) =
        params.map fun p => p.1 ++ (": " ++ p.2.1.print y level) := by
      have htyped := printParams_typed y level (params.map fun p => (p.1, p.2.1))
      rwa [List.map_map, List.map_map] at htyped
    rw [TypeNode.print, print_function, hprint]
    simpa [Outline.function] using hall
  | conditional _ _ _ _ iha ihb ihc ihd =>
    rw [TypeNode.print, TypeForm.print]
    have hcheck := (iha.before closed_extends ⟨_, _, rfl, by decide⟩).before ihb
    have htrue := (hcheck.before closed_question ⟨_, _, rfl, by decide⟩).before ihc
    have hall := (htrue.before closed_colon_between ⟨_, _, rfl, by decide⟩).before ihd
    simpa using hall
  | ofPrimary _ ih | ofPostfix _ ih | ofOperator _ ih | ofIntersection _ ih | ofUnion _ ih => exact ih

end Phrase

end DeclKit

/-
One type in two layouts.

A printer that goes over a type from left to right holds a level of indentation besides what it has
written. What it does for a type is the same list of steps in every layout; only the steps that end and
start lines, indent and write comments come out differently. So both layouts are runs of one list, and
each such step writes nothing but blanks when comments are left out.

That a run writes the text of the type and gets back to the level it started from is shown by induction
on the type, with one lemma for each function of the printer.
-/
import DeclKit.Decl.Print
import DeclKit.Options
import Mathlib.Data.List.Forall2

set_option autoImplicit false

namespace DeclKit.Decl

/-! ## A printer with a state -/

namespace Layout

/-- What ends a line. -/
def lineEnd : Layout → String
  | line => " "
  | block newLine _ => newLine

/-- What a line starts with. -/
def margin (level : Nat) : Layout → String
  | line => ""
  | block .. => indentation level

/-- The comments of an origin, on lines of their own. -/
def commentText (level : Nat) (o : Option Origin) : Layout → String
  | line => ""
  | block newLine comments => commentBlock newLine level (comments o)

/-- The level around braces. -/
def outer (level : Nat) : Layout → Nat
  | line => level
  | block .. => level - 1

theorem outer_inner (l : Layout) (level : Nat) : l.outer (l.inner level) = level := by
  cases l <;> rfl

end Layout

/-- What a printer does next. -/
inductive PrintStep where
  | put (s : String)
  | endLine
  | startLine
  | comments (o : Option Origin)
  | indent
  | outdent

/-- A printer at work. -/
structure Printer where
  level : Nat
  out : String

namespace Printer

/-- The printer has written a text more. -/
def write (p : Printer) (s : String) : Printer := { p with out := p.out ++ s }

/-- Takes one step. -/
def step (l : Layout) (p : Printer) : PrintStep → Printer
  | .put s => p.write s
  | .endLine => p.write l.lineEnd
  | .startLine => p.write (l.margin p.level)
  | .comments o => p.write (l.commentText p.level o)
  | .indent => { p with level := l.inner p.level }
  | .outdent => { p with level := l.outer p.level }

/-- Takes steps one after the other. -/
def run (l : Layout) (p : Printer) (steps : List PrintStep) : Printer := steps.foldl (step l) p

end Printer

/-! ## The steps for a type -/

/-- The step that writes a text. -/
def say (s : String) : List PrintStep := [.put s]

/-- Steps for items, with a text between each two. -/
def separatedSteps (sep : String) (items : List (List PrintStep)) : List PrintStep :=
  (say sep).intercalate items

/-- Steps for items in angle brackets; none for none. -/
def angleSteps (items : List (List PrintStep)) : List PrintStep :=
  if items.isEmpty then [] else say "<" ++ separatedSteps ", " items ++ say ">"

/-- Steps for lines in braces. -/
def linesSteps (body : List PrintStep) : List PrintStep :=
  say "\x7b" ++ [.endLine, .indent] ++ body ++ ([.outdent, .startLine] ++ say "\x7d")

/-- Steps for members in braces. -/
def bracedSteps (members : List (Option Origin × List PrintStep)) : List PrintStep :=
  if members.isEmpty then say "\x7b\x7d"
  else linesSteps (members.flatMap fun (o, steps) =>
    [.comments o, .startLine] ++ steps ++ [.endLine])

mutual

/-- The steps for a type. -/
def TypeNode.steps : TypeNode → List PrintStep
  | .mk f _ => f.steps

/-- The steps for a form. -/
def TypeForm.steps : TypeForm → List PrintStep
  | .keyword k => say k.text
  | .literal s => say s
  | .template h ss => say "`" ++ say h ++ spanSteps ss ++ say "`"
  | .reference n as => say (".".intercalate n) ++ angleSteps (typeSteps as)
  | .imported m q as =>
    say "import(" ++ say m ++ say ")" ++ say (String.join (q.map ("." ++ ·))) ++
      angleSteps (typeSteps as)
  | .union ts => separatedSteps " | " (typeSteps ts)
  | .intersection ts => separatedSteps " & " (typeSteps ts)
  | .array t => t.steps ++ say "[]"
  | .tuple is => say "[" ++ separatedSteps ", " (itemSteps is) ++ say "]"
  | .paren t => say "(" ++ t.steps ++ say ")"
  | .function s => signatureSteps " => " s
  | .constructor a s => say (flagged a "abstract ") ++ say "new " ++ signatureSteps " => " s
  | .object ms => bracedSteps (memberSteps ms)
  | .mapped ⟨r, p, c, n, o, t⟩ =>
    linesSteps ([.startLine] ++
      (say (match r with
        | some sign => sign.text ++ "readonly "
        | none => "") ++
      say "[" ++ say p ++ say " in " ++ c.steps ++ optionSteps " as " n ++ say "]" ++
      say (match o with
        | some sign => sign.text ++ "?"
        | none => "") ++
      optionSteps ": " t ++ say ";") ++ [.endLine])
  | .indexed t i => t.steps ++ say "[" ++ i.steps ++ say "]"
  | .operator op t => say op.text ++ say " " ++ t.steps
  | .query n as => say "typeof " ++ say (".".intercalate n) ++ angleSteps (typeSteps as)
  | .conditional a b c d =>
    a.steps ++ say " extends " ++ b.steps ++ say " ? " ++ c.steps ++ say " : " ++ d.steps
  | .infer n c => say "infer " ++ say n ++ optionSteps " extends " c
  | .predicate a p t => say (flagged a "asserts ") ++ say p ++ optionSteps " is " t
  | .this => say "this"

/-- The steps for each of several types. -/
def typeSteps : List TypeNode → List (List PrintStep)
  | [] => []
  | t :: ts => t.steps :: typeSteps ts

/-- The steps for a type that may be missing. -/
def optionSteps (before : String) : Option TypeNode → List PrintStep
  | none => []
  | some t => say before ++ t.steps

/-- The steps for the spans of a template. -/
def spanSteps : List (TemplateSpan TypeNode) → List PrintStep
  | [] => []
  | ⟨t, s⟩ :: more => say "$\x7b" ++ t.steps ++ say "\x7d" ++ say s ++ spanSteps more

/-- The steps for each element of a tuple. -/
def itemSteps : List (TupleItem TypeNode) → List (List PrintStep)
  | [] => []
  | ⟨k, n, t⟩ :: more =>
    let mark := say (flagged (k == .optional) "?")
    let body := match n with
      | some name => say name ++ mark ++ say ": " ++ t.steps
      | none => t.steps ++ mark
    (say (flagged (k == .rest) "...") ++ body) :: itemSteps more

/-- The steps for a signature. -/
def signatureSteps (arrow : String) : Signature TypeNode → List PrintStep
  | ⟨ts, ps, r⟩ =>
    angleSteps (typeParamSteps ts) ++ say "(" ++ separatedSteps ", " (paramSteps ps) ++ say ")" ++
      say arrow ++ (match r with
        | some t => t.steps
        | none => say "any")

/-- The steps for each type parameter. -/
def typeParamSteps : List (TypeParam TypeNode) → List (List PrintStep)
  | [] => []
  | ⟨n, k, c, d⟩ :: more =>
    (say (flagged k "const ") ++ say n ++ optionSteps " extends " c ++ optionSteps " = " d) ::
      typeParamSteps more

/-- The steps for each parameter. -/
def paramSteps : List (Param TypeNode) → List (List PrintStep)
  | [] => []
  | ⟨r, n, o, t⟩ :: more =>
    (say (flagged r "...") ++ say n ++ say (flagged o "?") ++ optionSteps ": " t) ::
      paramSteps more

/-- The steps for a member. -/
def memberStep : Member TypeNode → List PrintStep
  | .property _ r n q t =>
    say (flagged r "readonly ") ++ say n ++ say (flagged q "?") ++ optionSteps ": " t
  | .method _ n q s => say n ++ say (flagged q "?") ++ signatureSteps ": " s
  | .call _ s => signatureSteps ": " s
  | .construct _ s => say "new " ++ signatureSteps ": " s
  | .index _ r p k t =>
    say (flagged r "readonly ") ++ say "[" ++ say p ++ say ": " ++ k.steps ++ say "]: " ++ t.steps

/-- The steps for each member, each with its semicolon. -/
def memberSteps : List (Member TypeNode) → List (Option Origin × List PrintStep)
  | [] => []
  | x :: more => (x.origin, memberStep x ++ say ";") :: memberSteps more

end

/-! ## Steps and texts -/

/-- At a level the steps write a text and get back to the level. -/
def Prints (l : Layout) (level : Nat) (steps : List PrintStep) (s : String) : Prop :=
  ∀ out, Printer.run l ⟨level, out⟩ steps = ⟨level, out ++ s⟩

section Prints

variable {l : Layout} {level : Nat} {ps qs : List PrintStep} {s r : String}
  {items : List (List PrintStep)} {texts : List String}

theorem Printer.run_append (p : Printer) (ps qs : List PrintStep) :
    p.run l (ps ++ qs) = (p.run l ps).run l qs := List.foldl_append

theorem prints_nil : Prints l level [] "" := fun out => by
  rw [String.append_empty]
  rfl

theorem prints_put (s : String) : Prints l level (say s) s := fun _ => rfl

theorem Prints.append (hp : Prints l level ps s) (hq : Prints l level qs r) :
    Prints l level (ps ++ qs) (s ++ r) := by
  intro out
  rw [Printer.run_append, hp, hq, String.append_assoc]

theorem Prints.put (h : Prints l level ps s) (r : String) : Prints l level (ps ++ say r) (s ++ r) :=
  h.append (prints_put r)

theorem prints_separated (sep : String) (h : List.Forall₂ (Prints l level) items texts) :
    Prints l level (separatedSteps sep items) (sep.intercalate texts) := by
  induction h with
  | nil => exact prints_nil
  | cons hx hrest ih =>
    cases hrest with
    | nil =>
      rw [String.intercalate_singleton, separatedSteps, List.intercalate_singleton]
      exact hx
    | cons hy hys =>
      rw [String.intercalate_cons_cons, separatedSteps, List.intercalate_cons_cons]
      exact (hx.put sep).append ih

theorem prints_angles (h : List.Forall₂ (Prints l level) items texts) :
    Prints l level (angleSteps items) (angles texts) := by
  rw [angleSteps, angles]
  cases h with
  | nil => exact prints_nil
  | cons hx hrest =>
    exact ((prints_put "<").append (prints_separated ", " (.cons hx hrest))).put ">"

/-- Type parameters, parameters and what is returned are written behind each other. -/
theorem prints_returning {params : List (List PrintStep)} {paramTexts : List String}
    (hitems : List.Forall₂ (Prints l level) items texts)
    (hparams : List.Forall₂ (Prints l level) params paramTexts) (arrow : String)
    (h : Prints l level ps s) :
    Prints l level
      (angleSteps items ++ say "(" ++ separatedSteps ", " params ++ say ")" ++
        say arrow ++ ps)
      (angles texts ++ "(" ++ ", ".intercalate paramTexts ++ ")" ++ arrow ++ s) := by
  have hhead := (((prints_angles hitems).put "(").append (prints_separated ", " hparams)).put ")"
  exact (hhead.put arrow).append h

/-- Lines in braces are written one level further in. -/
theorem prints_lines (h : Prints l (l.inner level) ps s) :
    Prints l level (linesSteps ps) ("\x7b" ++ l.lineEnd ++ s ++ l.margin level ++ "\x7d") := by
  intro out
  have hopen : Printer.run l ⟨level, out⟩ (say "\x7b" ++ [.endLine, .indent]) =
      ⟨l.inner level, out ++ "\x7b" ++ l.lineEnd⟩ := rfl
  have hclose (out : String) :
      Printer.run l ⟨l.inner level, out⟩ ([.outdent, .startLine] ++ say "\x7d") =
        ⟨l.outer (l.inner level), out ++ l.margin (l.outer (l.inner level)) ++ "\x7d"⟩ := rfl
  rw [linesSteps, Printer.run_append, Printer.run_append ⟨level, out⟩ _ ps, hopen, h, hclose,
    l.outer_inner]
  simp only [String.append_assoc]

/-- A member is written on a line of its own. -/
theorem prints_line (o : Option Origin) (h : Prints l level ps s) :
    Prints l level ([.comments o, .startLine] ++ ps ++ [.endLine])
      (l.commentText level o ++ l.margin level ++ s ++ l.lineEnd) := by
  have hstart : Prints l level [.comments o, .startLine]
      (l.commentText level o ++ l.margin level) := fun out => by
    rw [← String.append_assoc]
    rfl
  exact (hstart.append h).append fun _ => rfl

theorem braced_eq (l : Layout) (level : Nat) (ms : List (Option Origin × String)) :
    braced l level ms = if ms.isEmpty then "\x7b\x7d" else
      "\x7b" ++ l.lineEnd ++ String.join (ms.map fun (o, s) =>
        l.commentText (l.inner level) o ++ l.margin (l.inner level) ++ s ++ l.lineEnd) ++
        l.margin level ++ "\x7d" := by
  cases l with
  | line =>
    simp only [Layout.lineEnd, Layout.margin, Layout.commentText, String.empty_append,
      String.append_empty]
    rfl
  | block newLine comments => rfl

/-- Members that are written one by one are written together. -/
theorem prints_braced {members : List (Option Origin × List PrintStep)}
    {lines : List (Option Origin × String)}
    (h : List.Forall₂ (fun m t => m.1 = t.1 ∧ Prints l (l.inner level) m.2 t.2) members lines) :
    Prints l level (bracedSteps members) (braced l level lines) := by
  have hlines : Prints l (l.inner level)
      (members.flatMap fun (o, steps) => [.comments o, .startLine] ++ steps ++ [.endLine])
      (String.join (lines.map fun (o, s) =>
        l.commentText (l.inner level) o ++ l.margin (l.inner level) ++ s ++ l.lineEnd)) := by
    induction h with
    | nil => exact prints_nil
    | @cons m t members lines hm _ ih =>
      obtain ⟨o, steps⟩ := m
      obtain ⟨o', s⟩ := t
      obtain ⟨rfl, hs⟩ := hm
      rw [List.flatMap_cons, List.map_cons, String.join_cons]
      exact (prints_line o hs).append ih
  rw [bracedSteps, braced_eq]
  cases h with
  | nil => exact prints_put _
  | cons => exact prints_lines hlines

/-- What a mapped type says stands on a line of its own. -/
theorem print_mapped (l : Layout) (level : Nat) (r o : Option Sign) (p : String) (c : TypeNode)
    (n t : Option TypeNode) :
    (TypeForm.mapped ⟨r, p, c, n, o, t⟩).print l level =
      "\x7b" ++ l.lineEnd ++ (l.margin (l.inner level) ++ ((match r with
          | some sign => sign.text ++ "readonly "
          | none => "") ++ "[" ++ p ++ " in " ++ c.print l (l.inner level) ++
        printOption l (l.inner level) " as " n ++ "]" ++ (match o with
          | some sign => sign.text ++ "?"
          | none => "") ++ printOption l (l.inner level) ": " t ++ ";") ++ l.lineEnd) ++
        l.margin level ++ "\x7d" := by
  rw [TypeForm.print.eq_def]
  -- once it is known whether there are signs, both sides are rows of the same texts
  cases l with
  | line =>
    have hopen : "\x7b " = "\x7b" ++ " " := rfl
    have hclose : " \x7d" = " " ++ "\x7d" := rfl
    cases r <;> cases o <;>
      simp only [hopen, hclose, Layout.lineEnd, Layout.margin, Layout.inner, String.empty_append,
        String.append_empty, String.append_assoc]
  | block newLine comments =>
    cases r <;> cases o <;>
      simp only [Layout.lineEnd, Layout.margin, Layout.inner, String.append_assoc]

end Prints

/-! ## Types -/

section Types

variable (l : Layout)

-- The induction is the recursion of the printer, with one lemma for each of its functions.

mutual

theorem TypeNode.prints (level : Nat) (t : TypeNode) :
    Prints l level t.steps (t.print l level) := by
  match t with
  | .mk f _ => exact f.prints level

theorem TypeForm.prints (level : Nat) (f : TypeForm) :
    Prints l level f.steps (f.print l level) := by
  match f with
  | .keyword k => exact prints_put k.text
  | .literal s => exact prints_put s
  | .this => exact prints_put "this"
  | .template h ss => exact (((prints_put "`").put h).append (prints_spans level ss)).put "`"
  | .reference n as => exact (prints_put _).append (prints_angles (prints_types level as))
  | .imported m q as =>
    exact ((((prints_put "import(").put m).put ")").put _).append
      (prints_angles (prints_types level as))
  | .union ts => exact prints_separated " | " (prints_types level ts)
  | .intersection ts => exact prints_separated " & " (prints_types level ts)
  | .array t => exact (t.prints level).put "[]"
  | .tuple is =>
    exact ((prints_put "[").append (prints_separated ", " (prints_items level is))).put "]"
  | .paren t => exact ((prints_put "(").append (t.prints level)).put ")"
  | .function s => exact prints_signature level " => " s
  | .constructor a s => exact ((prints_put _).put "new ").append (prints_signature level " => " s)
  | .object ms => exact prints_braced (prints_members (l.inner level) ms)
  | .mapped ⟨r, p, c, n, o, t⟩ =>
    have hstart : Prints l (l.inner level) [.startLine] (l.margin (l.inner level)) := fun _ => rfl
    have hend : Prints l (l.inner level) [.endLine] l.lineEnd := fun _ => rfl
    rw [print_mapped]
    refine prints_lines ((hstart.append ?_).append hend)
    have hparam (r : String) :=
      ((((prints_put r).put "[").put p).put " in ").append (c.prints (l.inner level))
    have hname (r : String) := ((hparam r).append (prints_option (l.inner level) " as " n)).put "]"
    exact (((hname _).put _).append (prints_option (l.inner level) ": " t)).put ";"
  | .indexed t i => exact (((t.prints level).put "[").append (i.prints level)).put "]"
  | .operator op t => exact ((prints_put op.text).put " ").append (t.prints level)
  | .query n as =>
    exact ((prints_put "typeof ").put _).append (prints_angles (prints_types level as))
  | .conditional a b c d =>
    have hcheck := ((a.prints level).put " extends ").append (b.prints level)
    have hthen := (hcheck.put " ? ").append (c.prints level)
    exact (hthen.put " : ").append (d.prints level)
  | .infer n c => exact ((prints_put "infer ").put n).append (prints_option level " extends " c)
  | .predicate a p t => exact ((prints_put _).put p).append (prints_option level " is " t)

theorem prints_types (level : Nat) (ts : List TypeNode) :
    List.Forall₂ (Prints l level) (typeSteps ts) (printTypes l level ts) := by
  match ts with
  | [] => exact .nil
  | t :: ts => exact .cons (t.prints level) (prints_types level ts)

theorem prints_option (level : Nat) (before : String) (t : Option TypeNode) :
    Prints l level (optionSteps before t) (printOption l level before t) := by
  match t with
  | none => exact prints_nil
  | some t => exact (prints_put before).append (t.prints level)

theorem prints_spans (level : Nat) (ss : List (TemplateSpan TypeNode)) :
    Prints l level (spanSteps ss) (printSpans l level ss) := by
  match ss with
  | [] => exact prints_nil
  | ⟨t, s⟩ :: more =>
    exact ((((prints_put "$\x7b").append (t.prints level)).put "\x7d").put s).append
      (prints_spans level more)

theorem prints_items (level : Nat) (is : List (TupleItem TypeNode)) :
    List.Forall₂ (Prints l level) (itemSteps is) (printItems l level is) := by
  match is with
  | [] => exact .nil
  | ⟨k, n, t⟩ :: more =>
    refine .cons ((prints_put _).append ?_) (prints_items level more)
    cases n with
    | some name => exact (((prints_put name).put _).put ": ").append (t.prints level)
    | none => exact (t.prints level).put _

theorem prints_signature (level : Nat) (arrow : String) (s : Signature TypeNode) :
    Prints l level (signatureSteps arrow s) (printSignature l level arrow s) := by
  match s with
  | ⟨ts, ps, some t⟩ =>
    exact prints_returning (prints_typeParams level ts) (prints_params level ps) arrow
      (t.prints level)
  | ⟨ts, ps, none⟩ =>
    exact prints_returning (prints_typeParams level ts) (prints_params level ps) arrow
      (prints_put "any")

theorem prints_typeParams (level : Nat) (ts : List (TypeParam TypeNode)) :
    List.Forall₂ (Prints l level) (typeParamSteps ts) (printTypeParams l level ts) := by
  match ts with
  | [] => exact .nil
  | ⟨n, k, c, d⟩ :: more =>
    have hname :=
      ((prints_put (flagged k "const ")).put n).append (prints_option level " extends " c)
    exact .cons (hname.append (prints_option level " = " d)) (prints_typeParams level more)

theorem prints_params (level : Nat) (ps : List (Param TypeNode)) :
    List.Forall₂ (Prints l level) (paramSteps ps) (printParams l level ps) := by
  match ps with
  | [] => exact .nil
  | ⟨r, n, o, t⟩ :: more =>
    exact .cons ((((prints_put _).put n).put _).append (prints_option level ": " t))
      (prints_params level more)

theorem prints_member (level : Nat) (m : Member TypeNode) :
    Prints l level (memberStep m) (printMember l level m) := by
  match m with
  | .property _ r n q t => exact (((prints_put _).put n).put _).append (prints_option level ": " t)
  | .method _ n q s => exact ((prints_put n).put _).append (prints_signature level ": " s)
  | .call _ s => exact prints_signature level ": " s
  | .construct _ s => exact (prints_put "new ").append (prints_signature level ": " s)
  | .index _ r p k t =>
    exact ((((((prints_put _).put "[").put p).put ": ").append (k.prints level)).put "]: ").append
      (t.prints level)

theorem prints_members (level : Nat) (ms : List (Member TypeNode)) :
    List.Forall₂ (fun m t => m.1 = t.1 ∧ Prints l level m.2 t.2) (memberSteps ms)
      (printMembers l level ms) := by
  match ms with
  | [] => exact .nil
  | m :: more => exact .cons ⟨rfl, (prints_member level m).put ";"⟩ (prints_members level more)

end

end Types

/-! ## Texts without blanks -/

/-- A text without its blanks. -/
def withoutBlanks (s : String) : String := String.ofList (s.toList.filter fun c => !Text.isBlank c)

theorem withoutBlanks_append (s r : String) :
    withoutBlanks (s ++ r) = withoutBlanks s ++ withoutBlanks r := by
  rw [withoutBlanks, String.toList_append, List.filter_append, String.ofList_append]
  rfl

theorem withoutBlanks_indentation (level : Nat) : withoutBlanks (indentation level) = "" := by
  rw [indentation, Text.repeated]
  induction level with
  | zero => rfl
  | succ level ih =>
    have hblanks : withoutBlanks "    " = "" := by decide +kernel
    rw [List.replicate_succ, String.join_cons, withoutBlanks_append, ih, hblanks,
      String.append_empty]

theorem withoutBlanks_lineEnd (o : CompilerOptions) : withoutBlanks o.lineEnd = "" := by
  rw [CompilerOptions.lineEnd]
  split <;> decide +kernel

/-- In a layout without comments only texts leave something else than blanks. -/
structure Layout.IsPlain (l : Layout) : Prop where
  lineEnd : withoutBlanks l.lineEnd = ""
  margin : ∀ level, withoutBlanks (l.margin level) = ""
  commentText : ∀ level o, withoutBlanks (l.commentText level o) = ""

theorem isPlain_line : Layout.line.IsPlain where
  lineEnd := by decide +kernel
  margin _ := rfl
  commentText _ _ := rfl

theorem isPlain_layout (o : CompilerOptions) (sources : Option Sources) (file : SourceId) :
    (PrintOptions.layout ⟨o.lineEnd, true⟩ sources file).IsPlain where
  lineEnd := withoutBlanks_lineEnd o
  margin := withoutBlanks_indentation
  commentText level origin := by
    cases sources <;> rfl

/-- What a step writes besides blanks is the same in two plain layouts, and so is what steps write, by
induction on the steps. -/
theorem withoutBlanks_run {l l' : Layout} (h : l.IsPlain) (h' : l'.IsPlain) (steps : List PrintStep)
    (p p' : Printer) (hp : withoutBlanks p.out = withoutBlanks p'.out) :
    withoutBlanks (p.run l steps).out = withoutBlanks (p'.run l' steps).out := by
  induction steps generalizing p p' with
  | nil => exact hp
  | cons s steps ih =>
    refine ih _ _ ?_
    cases s with
    | put s => simp only [Printer.step, Printer.write, withoutBlanks_append, hp]
    | endLine =>
      simp only [Printer.step, Printer.write, withoutBlanks_append, hp, h.lineEnd, h'.lineEnd]
    | startLine =>
      simp only [Printer.step, Printer.write, withoutBlanks_append, hp, h.margin, h'.margin]
    | comments o =>
      simp only [Printer.step, Printer.write, withoutBlanks_append, hp, h.commentText,
        h'.commentText]
    | indent | outdent => exact hp

/-- Apart from blanks a type in a file without comments is written as it is in one line, and in every
layout a printer that has written it is back at the level it started from. -/
theorem layouts_agree (t : TypeNode) (level : Nat) (o : CompilerOptions) (sources : Option Sources)
    (file : SourceId) :
    withoutBlanks (t.print
      (PrintOptions.layout { newLine := o.lineEnd, removeComments := true } sources file) level) =
        withoutBlanks t.text ∧
      ∀ (l : Layout) (out : String),
        Printer.run l ⟨level, out⟩ t.steps = ⟨level, out ++ t.print l level⟩ := by
  refine ⟨?_, fun l => t.prints l level⟩
  have hrun := withoutBlanks_run (isPlain_layout o sources file) isPlain_line t.steps
    ⟨level, ""⟩ ⟨0, ""⟩ rfl
  rw [t.prints, t.prints, String.empty_append, String.empty_append] at hrun
  exact hrun

end DeclKit.Decl

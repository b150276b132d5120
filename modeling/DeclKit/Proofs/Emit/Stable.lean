/-
What is written is written again.

The text that is written for a file whose declarations are all type aliases is parsed without a report,
and what is written for it in turn is the same text. Four things come together. The lines of aliases
are cut into the words of their outlines, so the parser reads these aliases. All of them are kept, as
either all are exported or none is. A type is copied as it was read, and types that are the same are
written alike. And no comment leads an alias of such a text, as there is none in it.
-/
import DeclKit.Proofs.Comment.Leading
import DeclKit.Proofs.Emit.Mark
import DeclKit.Proofs.Grammar.Built

set_option autoImplicit false

namespace DeclKit

open Decl (TypeNode TypeForm TypeAlias Statement Placed)
open Outline (wordsOf wordsOf_cons wordsOf_nil words_alias)

/-! ## Types that are the same are written alike -/

section

variable {y z : Decl.Layout} {level : Nat}

theorem Decl.printTypes_alike {ts us : List TypeNode} (h : List.Forall₂ TypeNode.Alike ts us)
    (ih : ∀ t ∈ ts, ∀ u, t.Alike u → u.print z level = t.print y level) :
    printTypes z level us = printTypes y level ts := by
  induction h with
  | nil => simp only [printTypes]
  | cons h _ ihs =>
    obtain ⟨iht, ihts⟩ := List.forall_mem_cons.1 ih
    simp only [printTypes, iht _ h, ihs ihts]

theorem Decl.printItems_alike {is js : List (Decl.TupleItem TypeNode)}
    (h : List.Forall₂ (Decl.TupleItem.Rel TypeNode.Alike) is js)
    (ih : ∀ i ∈ is, ∀ u, i.type.Alike u → u.print z level = i.type.print y level) :
    printItems z level js = printItems y level is := by
  induction h with
  | nil => simp only [printItems]
  | cons h _ ihs =>
    obtain ⟨h⟩ := h
    obtain ⟨iht, ihts⟩ := List.forall_mem_cons.1 ih
    simp only [printItems, iht _ h, ihs ihts]

theorem Decl.printParams_alike {params : List (String × TypeNode)}
    {qs : List (Decl.Param TypeNode)}
    (h : List.Forall₂ (Decl.Param.Rel TypeNode.Alike)
      (params.map fun p => { name := p.1, type := some p.2 }) qs)
    (ih : ∀ p ∈ params, ∀ u, p.2.Alike u → u.print z level = p.2.print y level) :
    printParams z level qs =
      printParams y level (params.map fun p => { name := p.1, type := some p.2 }) := by
  induction params generalizing qs with
  | nil =>
    cases h
    simp only [List.map_nil, printParams]
  | cons p params ihs =>
    obtain ⟨ihp, ihps⟩ := List.forall_mem_cons.1 ih
    obtain ⟨q, qs, hq, hs, rfl⟩ := List.forall₂_cons_left_iff.1 h
    obtain ⟨hq⟩ := hq
    cases hq with
    | some hp => simp only [List.map_cons, printParams, printOption, ihp _ hp, ihs hs ihps]

/-- A plain type and one that is the same but for where it comes from have one text, whatever the
layouts: no plain form has members, and only members are laid out. -/
theorem Plain.print_alike {n : Nat} {t u : TypeNode} (h : Plain n t) (halike : t.Alike u) :
    u.print z level = t.print y level := by
  induction h generalizing u with
  | keyword | string | boolean =>
    obtain ⟨hform⟩ := halike
    cases hform
    simp only [TypeNode.print, TypeForm.print]
  | reference _ _ ih =>
    obtain ⟨hform⟩ := halike
    cases hform with
    | reference hargs =>
      simp only [TypeNode.print, TypeForm.print, Decl.printTypes_alike hargs fun t ht u => ih t ht]
  | union _ ih =>
    obtain ⟨hform⟩ := halike
    cases hform with
    | union hmembers =>
      simp only [TypeNode.print, TypeForm.print, Decl.printTypes_alike hmembers fun t ht u => ih t ht]
  | intersection _ ih =>
    obtain ⟨hform⟩ := halike
    cases hform with
    | intersection hmembers =>
      simp only [TypeNode.print, TypeForm.print, Decl.printTypes_alike hmembers fun t ht u => ih t ht]
  | paren _ ih =>
    obtain ⟨hform⟩ := halike
    cases hform with
    | paren h => simp only [TypeNode.print, TypeForm.print, ih h]
  | array _ ih =>
    obtain ⟨hform⟩ := halike
    cases hform with
    | array h => simp only [TypeNode.print, TypeForm.print, ih h]
  | tuple _ ih =>
    obtain ⟨hform⟩ := halike
    cases hform with
    | tuple hitems =>
      have hprint := Decl.printItems_alike hitems (List.forall_mem_map.2 fun t ht u => ih t ht)
      simp only [TypeNode.print, TypeForm.print, hprint]
  | function _ _ _ ihparams ih =>
    obtain ⟨hform⟩ := halike
    cases hform with
    | function hsignature =>
      obtain ⟨htypeParams, hparams, hreturns⟩ := hsignature
      cases htypeParams
      cases hreturns with
      | some hreturned =>
        have hprint := Decl.printParams_alike hparams fun p hp u => ihparams p hp
        rw [TypeNode.print, TypeNode.print, Decl.print_function, Decl.print_function, hprint,
          ih hreturned]
  | keyof _ ih =>
    obtain ⟨hform⟩ := halike
    cases hform with
    | operator h => simp only [TypeNode.print, TypeForm.print, ih h]
  | indexed _ _ iht ihi =>
    obtain ⟨hform⟩ := halike
    cases hform with
    | indexed ht hi => simp only [TypeNode.print, TypeForm.print, iht ht, ihi hi]
  | conditional _ _ _ _ _ iha ihb ihc ihd =>
    obtain ⟨hform⟩ := halike
    cases hform with
    | conditional ha hb hc hd =>
      simp only [TypeNode.print, TypeForm.print, iha ha, ihb hb, ihc hc, ihd hd]

end

/-! ## The text of aliases -/

namespace Decl.TypeAlias

/-- An alias that has no modifier but `export` and no type parameters, and whose type is plain and has
every operand in its place. -/
structure IsReadable (n : Nat) (a : TypeAlias) : Prop where
  modifiers : a.modifiers = { isExport := a.modifiers.isExport }
  typeParams : a.typeParams = []
  name : isIdentifier a.name = true
  type : Plain n a.type
  placed : Placed .any a.type

/-- Two aliases are the same but for where they come from. -/
structure Alike (a b : TypeAlias) : Prop where
  modifiers : b.modifiers = a.modifiers
  name : b.name = a.name
  typeParams : b.typeParams = a.typeParams
  type : a.type.Alike b.type

variable {n : Nat} {a b : TypeAlias}

/-- What is written for an alias. -/
def text (y : Layout) (a : TypeAlias) : String := (Statement.typeAlias a).print y 0 false

theorem IsReadable.text_eq (h : a.IsReadable n) (y : Layout) :
    a.text y = flagged a.modifiers.isExport "export " ++
      ("type " ++ a.name ++ " = " ++ a.type.print y 0 ++ ";") := by
  have hmodifiers : printModifiers false a.modifiers =
      flagged a.modifiers.isExport "export " := by
    rw [h.modifiers]
    simp [printModifiers, flagged]
  rw [text, Statement.print, hmodifiers, h.typeParams, printTypeParams]
  simp [angles, String.append_assoc]

theorem Alike.text_eq (h : a.Alike b) (ha : a.IsReadable n) (y z : Layout) : b.text z = a.text y := by
  rw [text, text, Statement.print, Statement.print, h.modifiers, h.name, h.typeParams, ha.typeParams,
    printTypeParams, printTypeParams, ha.type.print_alike h.type]

end Decl.TypeAlias

/-- An alias that can be read, with the outline of its type. -/
structure Outlined (n : Nat) (x : TypeAlias × Outline) : Prop where
  readable : x.1.IsReadable n
  type : Phrase n (.type true) x.1.type x.2

/-- The outline of an alias. -/
def aliasOutline (x : TypeAlias × Outline) : AliasOutline := ⟨x.1.modifiers.isExport, x.1.name, x.2⟩

/-- What is written for aliases, a line for each. -/
def aliasLines (y : Decl.Layout) (newLine : String) (as : List TypeAlias) : String :=
  String.join (as.map fun a => a.text y ++ newLine)

theorem aliasLines_cons (y : Decl.Layout) (newLine : String) (a : TypeAlias) (as : List TypeAlias) :
    aliasLines y newLine (a :: as) = a.text y ++ newLine ++ aliasLines y newLine as := by
  simp [aliasLines, String.join_cons]

/-- Readable aliases have outlines. -/
theorem exists_outlined {n : Nat} {as : List TypeAlias} (h : ∀ a ∈ as, a.IsReadable n) :
    ∃ items : List (TypeAlias × Outline), items.map (·.1) = as ∧ ∀ x ∈ items, Outlined n x := by
  obtain ⟨items, hitems, hphrases⟩ := exists_outlines fun a ha =>
    ((h a ha).type.stands (h a ha).placed).any
  refine ⟨items, hitems, fun x hx => ⟨h x.1 ?_, hphrases x hx⟩⟩
  rw [← hitems]
  exact List.mem_map_of_mem hx

namespace Outlined

variable {n : Nat} {x : TypeAlias × Outline} {items : List (TypeAlias × Outline)}
  {y : Decl.Layout} {newLine : String}

theorem canRead (h : Outlined n x) : (aliasOutline x).Readable n where
  name := h.readable.name
  type := ⟨h.type.readable, h.type.leads⟩

theorem closed (h : Outlined n x) (y : Decl.Layout) :
    Token.Closed (x.1.text y) (aliasOutline x).outline.words := by
  rw [h.readable.text_eq, AliasOutline.outline, words_alias]
  exact (Token.closed_export _).append (Token.closed_alias h.readable.name (h.type.writes y 0))

/-- A line may start with an alias. -/
theorem startsLine (h : Outlined n x) (ws : List Lexeme) :
    Parser.startsLine ((aliasOutline x).outline.words ++ ws) = true := by
  have hname : (Lexeme.named (aliasOutline x).name).kind = .ident := by
    rw [aliasOutline, named_of_isIdentifier h.readable.name]
  rw [AliasOutline.outline, words_alias]
  cases (aliasOutline x).exported with
  | true => rfl
  | false =>
    show (_ && (Lexeme.named (aliasOutline x).name).kind == .ident) = true
    rw [hname]
    rfl

/-- The lines of aliases are cut into the words of their outlines. -/
theorem spells (hitems : ∀ x ∈ items, Outlined n x) (hnewLine : Token.IsLineEnd newLine) :
    Token.Spells (aliasLines y newLine (items.map (·.1))).toList
      (wordsOf ((items.map aliasOutline).map AliasOutline.outline)) := by
  induction items with
  | nil => exact Token.Spells.nil
  | cons x items ih =>
    obtain ⟨hx, hitems⟩ := List.forall_mem_cons.1 hitems
    rw [List.map_cons, aliasLines_cons, List.map_cons, List.map_cons, wordsOf_cons,
      String.toList_append, String.toList_append, List.append_assoc]
    refine hx.closed y _ _ (Token.Spells.lineEnd hnewLine ?_ (ih hitems))
    -- the line ends before the next alias or at the end
    cases items with
    | nil => exact .inl wordsOf_nil
    | cons x' items =>
      rw [List.map_cons, List.map_cons, wordsOf_cons]
      exact .inr ((hitems x' List.mem_cons_self).startsLine _)

/-- The text starts with a letter, if with anything. -/
theorem letter_of_head? (hitems : ∀ x ∈ items, Outlined n x) {c : Char}
    (hc : c ∈ (aliasLines y newLine (items.map (·.1))).toList.head?) : c = 'e' ∨ c = 't' := by
  cases items with
  | nil => cases hc
  | cons x items =>
    have hx := hitems x List.mem_cons_self
    rw [List.map_cons, aliasLines_cons, hx.readable.text_eq] at hc
    cases hexport : x.1.modifiers.isExport with
    | true =>
      have he : 'e' = c := by simpa [hexport, Decl.flagged] using hc
      exact .inl he.symm
    | false =>
      have ht : 't' = c := by simpa [hexport, Decl.flagged] using hc
      exact .inr ht.symm

/-- The lines of aliases are parsed without a report, as these aliases. -/
theorem parsed (hitems : ∀ x ∈ items, Outlined n x) (hnewLine : Token.IsLineEnd newLine)
    {limits : Limits} (htokens : limits.tokens = none) (hnesting : ∀ m ∈ limits.nesting, n < m)
    (source : SourceId) :
    ∃ tree, parseWith source limits (aliasLines y newLine (items.map (·.1))) = .ok ⟨tree, []⟩ ∧
      tree.outline = [.node .root ((items.map aliasOutline).map AliasOutline.outline)] := by
  have hmark : ∀ c ∈ (aliasLines y newLine (items.map (·.1))).toList.head?, c ≠ '\uFEFF' := by
    intro c hc
    obtain rfl | rfl := letter_of_head? hitems hc <;> decide
  obtain ⟨hwords, hlines⟩ := (spells (y := y) hitems hnewLine).lex hmark
  have hreadable : ∀ a ∈ items.map aliasOutline, a.Readable n :=
    List.forall_mem_map.2 fun x hx => (hitems x hx).canRead
  exact parseWith_aliases hreadable htokens hnesting hwords hlines source

end Outlined

/-! ## Aliases that are read -/

namespace Node

variable {m d : Node} {n : Nat} {x : TypeAlias × Outline} {items : List (TypeAlias × Outline)}

theorem hasToken_eq_any_kind (d : Node) (k : Kind) :
    d.hasToken k = (d.leaves.map (·.kind)).any (· == k) := by
  rw [hasToken, List.any_map]
  rfl

/-- The tokens of an alias: `export`, if it is there, `type` and the marks. -/
theorem Says.leaves_alias {exported : Bool} {name : String} {o : Outline}
    (h : d.Says (.typeAlias exported name o)) (ho : o.isType = true) : d.leaves.map (·.kind) =
      (if exported then [.kwExport] else []) ++ [.ident, .equals, .semicolon] := by
  have hexport : (Lexeme.named "export").kind = .kwExport := by decide
  have htype : (Lexeme.named "type").kind = .ident := by decide
  have hleaves := congrArg (List.map Lexeme.kind) (Says.leaves h)
  rw [List.map_map] at hleaves
  refine Eq.trans hleaves ?_
  -- what stands behind the equals sign is a node and no token
  cases o with
  | word w => cases (Bool.and_eq_true_iff.1 ho).2
  | node k os =>
    cases exported with
    | true =>
      show [(Lexeme.named "export").kind, (Lexeme.named "type").kind, .equals, .semicolon] = _
      rw [hexport, htype]
      rfl
    | false =>
      show [(Lexeme.named "type").kind, .equals, .semicolon] = _
      rw [htype]
      rfl

theorem Says.modifiers_alias (hx : Outlined n x) (h : d.Says (aliasOutline x).outline) :
    Emit.modifiersOf d false = x.1.modifiers := by
  have hkinds : d.leaves.map (·.kind) =
      (if x.1.modifiers.isExport then [.kwExport] else []) ++ [.ident, .equals, .semicolon] :=
    Says.leaves_alias h hx.type.isType
  have hexport : d.hasToken .kwExport = x.1.modifiers.isExport := by
    rw [hasToken_eq_any_kind, hkinds]
    cases x.1.modifiers.isExport <;> rfl
  have hdefault : d.hasToken .kwDefault = false := by
    rw [hasToken_eq_any_kind, hkinds]
    cases x.1.modifiers.isExport <;> rfl
  rw [hx.readable.modifiers, Emit.modifiersOf, modifiers, hexport, hdefault]

theorem Says.isExport_alias (hx : Outlined n x) (h : d.Says (aliasOutline x).outline) :
    d.hasToken .kwExport = x.1.modifiers.isExport :=
  congrArg Modifiers.isExport (h.modifiers_alias hx)

end Node

namespace Emit

variable {n : Nat} {x : TypeAlias × Outline} {items : List (TypeAlias × Outline)} {p : Program}
  {file : SourceId} {m d : Node} {exported : Bool}

/-- What is written for a statement of a file is an alias, without anything to report. -/
def Rewrites (m : Node) (a : TypeAlias) (w : Emitted) : Prop :=
  w.2 = [] ∧ ∃ d ∈ m.children, ∃ b, w.1 = .typeAlias b ∧ b.origin = some (.rebuilt d) ∧ a.Alike b

/-- What is written for an alias that is read is that alias. -/
theorem emitStatement_alias (hx : Outlined n x) (hd : d ∈ m.children)
    (h : d.Says (aliasOutline x).outline) (used : List String) :
    (Check.judgment p).gives (emitStatement file used d) fun e =>
      ∃ w, e = some w ∧ Rewrites m x.1 w := by
  have hkind : d.kind = .typeAliasDecl := h.kind
  have htypeParams : d.typeParams = [] := by
    have hnone : d.child? .typeParamList = none := by
      refine Node.Says.child?_eq_none h .typeParamList ?_
      have ho : x.2.kind ≠ .typeParamList := by
        intro hparams
        have hisType := (Bool.and_eq_true_iff.1 hx.type.isType).1
        rw [hparams] at hisType
        cases hisType
      have hname : ∀ os, (Outline.node .name os).kind ≠ .typeParamList := fun _ h => by cases h
      show List.filter _ (Outline.flagged x.1.modifiers.isExport _ ++ [_, _, _, x.2, _]) = []
      cases x.1.modifiers.isExport <;> simp [Outline.flagged, ho, hname]
    rw [Node.typeParams, hnone]
    rfl
  obtain ⟨type, -, htype, hsaid⟩ := Node.Says.type? h
    (congrArg (·[0]?) (Outline.types_alias (aliasOutline x).exported (aliasOutline x).name
      hx.type.isType))
  have hcopy : (Check.judgment p).gives (copyType file type) x.1.type.Alike :=
    copies hx.type _ type hsaid (Nat.lt_succ_self _)
  unfold emitStatement
  rw [hkind]
  refine Judgment.bind (P := fun w => ∃ b, w = .typeAlias b ∧ b.origin = some (.rebuilt d) ∧
    x.1.Alike b) _ ?_ ?_
  · unfold aliasStatement copyTypeParams
    rw [htypeParams, htype, List.mapM_nil]
    refine Judgment.bind (P := (· = [])) _ (Judgment.pure _ rfl) fun ts hts => ?_
    refine Judgment.bind _ hcopy fun t ht => Judgment.pure _ ⟨_, rfl, rfl, ?_⟩
    exact ⟨h.modifiers_alias hx, Node.Says.nameText_alias h hx.readable.name,
      hts.trans hx.readable.typeParams.symm, ht⟩
  · rintro w ⟨b, hb⟩
    exact Judgment.pure _ ⟨_, rfl, rfl, d, hd, b, hb⟩

/-- The parts of a file of aliases say its aliases. -/
theorem exists_says (h : m.Says (.node .root ((items.map aliasOutline).map AliasOutline.outline))) :
    ∀ d ∈ m.children, ∃ x ∈ items, d.Says (aliasOutline x).outline := by
  refine Decl.forall_mem_of_forall₂ (r := fun o d => Node.Says d o) h.children_aliases.flip ?_
  rw [List.map_map]
  exact List.forall_mem_map.2 fun x hx d hd => ⟨x, hx, hd⟩

/-- A file of aliases is a module only if one of them is exported. -/
theorem exists_exported (hitems : ∀ x ∈ items, Outlined n x)
    (h : m.Says (.node .root ((items.map aliasOutline).map AliasOutline.outline)))
    (hmodule : m.isModule = true) : ∃ x ∈ items, x.1.modifiers.isExport = true := by
  obtain ⟨d, hd, hexport⟩ := List.any_eq_true.1 hmodule
  obtain ⟨x, hx, hsaid⟩ := exists_says h d hd
  have hkind : d.kind = .typeAliasDecl := hsaid.kind
  rw [hkind] at hexport
  exact ⟨x, hx, hsaid.isExport_alias (hitems x hx) ▸ hexport⟩

/-- Where all aliases are exported or none is, all of them are kept. -/
theorem keptStatements_aliases (hitems : ∀ x ∈ items, Outlined n x)
    (hexported : ∀ x ∈ items, x.1.modifiers.isExport = exported)
    (h : m.Says (.node .root ((items.map aliasOutline).map AliasOutline.outline))) :
    keptStatements m = m.statements := by
  have hsays : ∀ d ∈ m.statements, ∃ x ∈ items, d.Says (aliasOutline x).outline := fun d hd =>
    exists_says h d (List.mem_filter.1 hd).1
  have hkept : (if m.isModule then m.statements.filter (isKept (visibleNames m.statements))
      else m.statements) = m.statements := by
    cases hmodule : m.isModule with
    | false => rfl
    | true =>
      obtain ⟨x', hx', htrue⟩ := exists_exported hitems h hmodule
      refine List.filter_eq_self.2 fun d hd => ?_
      obtain ⟨x, hx, hsaid⟩ := hsays d hd
      have hexport : d.hasToken .kwExport = true := by
        rw [hsaid.isExport_alias (hitems x hx), hexported x hx, ← hexported x' hx', htrue]
      have hkind : d.kind = .typeAliasDecl := hsaid.kind
      simp [isKept, isExported, isDeclaration, hkind, Node.modifiers, hexport]
  unfold keptStatements
  dsimp only
  rw [hkept]
  refine List.filter_eq_self.2 fun d hd => ?_
  obtain ⟨x, hx, hsaid⟩ := hsays d hd
  have hkind : d.kind = .typeAliasDecl := hsaid.kind
  simp [isHiddenImplementation, hkind]

/-- Aliases that are all exported make their file a module, and none of them is private. -/
theorem withModuleMark_exported {bs : List TypeAlias} (hne : bs ≠ [])
    (h : ∀ b ∈ bs, b.modifiers.isExport = true) :
    withModuleMark (bs.map .typeAlias) = bs.map .typeAlias := by
  have hmarks : (bs.map Statement.typeAlias).any (·.marksModule) = true := by
    obtain ⟨b, bs, rfl⟩ := List.exists_cons_of_ne_nil hne
    simp [Statement.marksModule, h b List.mem_cons_self]
  have hprivate : (bs.map Statement.typeAlias).any isPrivate = false := by
    refine List.any_eq_false.2 (List.forall_mem_map.2 fun b hb => ?_)
    simp [isPrivate, h b hb]
  rw [withModuleMark, hmarks, hprivate]
  rfl

/-- What is written for aliases, one by one, by induction on them. -/
theorem exists_rewritten {as : List TypeAlias} {ws : List Emitted}
    (h : List.Forall₂ (Rewrites m) as ws) : ∃ bs : List TypeAlias,
      ws.map (·.1) = bs.map .typeAlias ∧ ws.flatMap (·.2) = [] ∧
      List.Forall₂ TypeAlias.Alike as bs ∧
      ∀ b ∈ bs, ∃ d ∈ m.children, b.origin = some (.rebuilt d) := by
  induction h with
  | nil => exact ⟨[], rfl, rfl, .nil, fun _ hb => absurd hb List.not_mem_nil⟩
  | @cons a w as ws haw _ ih =>
    obtain ⟨bs, hws, hfound, hbs, horigins⟩ := ih
    obtain ⟨hnone, d, hd, b, hw, horigin, hab⟩ := haw
    refine ⟨b :: bs, ?_, ?_, .cons hab hbs, List.forall_mem_cons.2 ⟨⟨d, hd, horigin⟩, horigins⟩⟩
    · rw [List.map_cons, hw, hws, List.map_cons]
    · rw [List.flatMap_cons, hnone, hfound]
      rfl

/-- What is written for a file of aliases, all exported or none, are these aliases and nothing else. -/
theorem declarations_aliases {f : ProgramFile} (hfile : p.file? file = some f)
    (hitems : ∀ x ∈ items, Outlined n x)
    (hexported : ∀ x ∈ items, x.1.modifiers.isExport = exported)
    (h : f.root.Says (.node .root ((items.map aliasOutline).map AliasOutline.outline))) :
    (Check.judgment p).gives (declarations file) fun d => d.2 = [] ∧ ∃ bs : List TypeAlias,
      d.1 = ⟨file, bs.map .typeAlias⟩ ∧ List.Forall₂ TypeAlias.Alike (items.map (·.1)) bs ∧
        ∀ b ∈ bs, ∃ m ∈ f.root.children, b.origin = some (.rebuilt m) := by
  have hsays : List.Forall₂ (fun d x => Node.Says d (aliasOutline x).outline) f.root.statements
      items := by
    have hall := h.statements_aliases
    rwa [List.map_map, List.forall₂_map_right_iff] at hall
  refine Judgment.bind _ (Check.program_gives p) fun q hq => ?_
  subst hq
  rw [hfile]
  dsimp only
  rw [keptStatements_aliases hitems hexported h]
  have hemit : List.Forall₂ (fun d a => (Check.judgment q).gives
      (emitStatement file (usedNames f.root.statements) d) fun e =>
        ∃ w, e = some w ∧ Rewrites f.root a w) f.root.statements (items.map (·.1)) := by
    refine List.forall₂_map_right_iff.2 (forall₂_of_mem hsays fun d hd x hx hdx => ?_)
    exact emitStatement_alias (hitems x hx) (List.mem_filter.1 hd).1 hdx _
  refine Judgment.bind _ (Judgment.gives_filterMapM_forall₂ hemit) fun ws hws => Judgment.pure _ ?_
  obtain ⟨bs, hstatements, hfound, hbs, horigins⟩ := exists_rewritten hws
  refine ⟨hfound, bs, ?_, hbs, horigins⟩
  rw [hstatements]
  cases hmodule : f.root.isModule with
  | false => rfl
  | true =>
    obtain ⟨x, hx, htrue⟩ := exists_exported hitems h hmodule
    have hne : bs ≠ [] := by
      rintro rfl
      rw [List.forall₂_nil_right_iff, List.map_eq_nil_iff] at hbs
      rw [hbs] at hx
      cases hx
    have hall : ∀ b ∈ bs, b.modifiers.isExport = true := by
      refine Decl.forall_mem_of_forall₂ hbs (List.forall_mem_map.2 fun x' hx' b hb => ?_)
      rw [hb.modifiers, hexported x' hx', ← hexported x hx, htrue]
    rw [if_pos rfl, withModuleMark_exported hne hall]

end Emit

/-! ## Comments -/

namespace Outlined

variable {n : Nat} {x : TypeAlias × Outline} {items : List (TypeAlias × Outline)}
  {y : Decl.Layout} {newLine : String} {source : SourceId} {limits : Limits} {d : Node}
  {tree : Tree}

/-- An alias that is read starts with a letter. -/
theorem first_letter {f : ParsedFile} {text : String} {a : AliasOutline}
    (h : parseWith source limits text = .ok f) (hroot : f.tree.kind = .root)
    (hd : d ∈ (Node.mk f.tree []).children) (hsaid : d.Says a.outline) :
    ∃ c cs, d.tree.text.toList = c :: cs ∧ (c = 'e' ∨ c = 't') := by
  have hwords : wordsIn d.tree.tokens = a.outline.words := by
    rw [← Tree.wordsOf_outline, hsaid]
    simp
  have hparent : d.parent? = some ⟨f.tree, []⟩ := by
    obtain ⟨c, -, rfl⟩ := List.mem_map.1 hd
    rfl
  have htimely := (parseWith_timely h (mem_descendants_of_children hd) _ hparent).resolve_left (by
    rw [Node.kind, hroot]
    exact Bool.false_ne_true)
  rw [AliasOutline.outline, words_alias] at hwords
  rw [Tree.text, Comment.toList_join_text]
  cases htokens : d.tree.tokens with
  | nil =>
    rw [htokens] at hwords
    have hlength := congrArg List.length hwords
    simp [wordsIn] at hlength
  | cons t ts =>
    have hword : t.kind.isTrivia = false := htimely t (by rw [htokens]; rfl)
    rw [htokens, wordsIn_cons, hword, if_neg Bool.false_ne_true] at hwords
    rw [Comment.chars, List.flatMap_cons]
    cases hexported : a.exported with
    | true =>
      rw [hexported] at hwords
      have htext : t.text.toList = ['e', 'x', 'p', 'o', 'r', 't'] :=
        (congrArg Lexeme.chars (List.cons.inj hwords).1).trans (by simp [Lexeme.named])
      rw [htext]
      exact ⟨_, _, rfl, .inl rfl⟩
    | false =>
      rw [hexported] at hwords
      have htext : t.text.toList = ['t', 'y', 'p', 'e'] :=
        (congrArg Lexeme.chars (List.cons.inj hwords).1).trans (by simp [Lexeme.named])
      rw [htext]
      exact ⟨_, _, rfl, .inr rfl⟩

/-- No comments lead the aliases of a text that holds nothing but lines of aliases. -/
theorem leading_eq_nil (hitems : ∀ x ∈ items, Outlined n x) (hnewLine : Token.IsLineEnd newLine)
    (hparse : parseWith source limits (aliasLines y newLine (items.map (·.1))) = .ok ⟨tree, []⟩)
    (houtline : tree.outline = [.node .root ((items.map aliasOutline).map AliasOutline.outline)])
    (hd : d ∈ (Node.mk tree []).children) :
    Comment.leading (aliasLines y newLine (items.map (·.1))) d.fullStart = [] := by
  have hletter : ∀ c ∈ (aliasLines y newLine (items.map (·.1))).toList.head?, c = 'e' ∨ c = 't' :=
    fun c hc => letter_of_head? hitems hc
  have hspells := spells (y := y) hitems hnewLine
  generalize aliasLines y newLine (items.map (·.1)) = text at hparse hletter hspells
  have hmark : ∀ c ∈ text.toList.head?, c ≠ '\uFEFF' := by
    intro c hc
    obtain rfl | rfl := hletter c hc <;> decide
  have hsays : Node.Says ⟨tree, []⟩
      (.node .root ((items.map aliasOutline).map AliasOutline.outline)) := houtline
  obtain ⟨x, hx, hsaid⟩ := Emit.exists_says hsays d hd
  by_cases hzero : d.fullStart = 0
  · -- at the start of the text there is the letter at once
    have hleading : Comment.leading text (Text.bytes []) =
        (Comment.scan (Text.bytes []) (Text.bytes [] == 0) [] text.toList).reverse := by
      refine Comment.leading_eq rfl fun _ rest hrest => ?_
      have hhash := hletter '#' (by rw [hrest]; rfl)
      exact absurd hhash (by decide)
    rw [hzero]
    refine Eq.trans hleading ?_
    cases htext : text.toList with
    | nil =>
      rw [Comment.scan]
      rfl
    | cons c cs =>
      have hc : c ≠ '/' ∧ Text.isBlank c = false := by
        obtain rfl | rfl := hletter c (by rw [htext]; rfl) <;> exact ⟨by decide, by cbv⟩
      rw [Comment.scan_stop hc.1 hc.2]
      rfl
  · have hgap : ∀ t ∈ d.gap text, t.kind.isComment = false ∧ t.kind ≠ .shebang ∧
        (t.kind.isTrivia = true → t.text ≠ "\uFEFF") := fun t ht =>
      hspells.of_mem_lex hmark (List.mem_filter.1 ht).1
    obtain ⟨-, -, -, -, -, htrivia⟩ := gap_spec hparse hd
    have hplain : d.Plain text := by
      refine ⟨fun h => absurd h hzero, fun t ht => (hgap t ht).2.2 (htrivia hzero t ht),
        fun t ht hkind => absurd hkind (hgap t ht).2.1, fun t ht hkind => ?_, ?_⟩
      · obtain hkind | hkind := hkind
        · have hcomment := (hgap t ht).1
          rw [hkind] at hcomment
          cases hcomment
        · exact absurd hkind (hgap t ht).2.1
      · obtain ⟨c, cs, htext, hc⟩ := first_letter hparse (Node.Says.kind hsays) hd hsaid
        refine ⟨c, cs, htext, ?_⟩
        obtain rfl | rfl := hc <;> exact ⟨by decide, by cbv⟩
    have hcomments := leading_eq_comments hparse hd hplain
    rw [if_neg hzero, List.filter_eq_nil_iff.2 fun t ht => ?_, List.map_nil,
      List.map_eq_nil_iff] at hcomments
    · exact hcomments
    · rw [(hgap t ((List.dropWhile_sublist _).mem ht)).1]
      exact Bool.false_ne_true

end Outlined

/-! ## What is written again -/

theorem isLineEnd_lineEnd (o : CompilerOptions) : Token.IsLineEnd o.lineEnd := by
  unfold CompilerOptions.lineEnd
  split
  · exact .inr rfl
  · exact .inl rfl

/-- Aliases that are the same are written alike, in all layouts. -/
theorem aliasLines_alike {n : Nat} {as bs : List TypeAlias} (h : List.Forall₂ TypeAlias.Alike as bs)
    (has : ∀ a ∈ as, a.IsReadable n) (y z : Decl.Layout) (newLine : String) :
    aliasLines z newLine bs = aliasLines y newLine as := by
  induction h with
  | nil => rw [aliasLines, aliasLines, List.map_nil, List.map_nil]
  | cons hab _ ih =>
    obtain ⟨ha, has⟩ := List.forall_mem_cons.1 has
    rw [aliasLines_cons, aliasLines_cons, hab.text_eq ha y, ih has]

/-- A file of aliases without comments is written line by line. -/
theorem print_aliases {o : Decl.PrintOptions} {sources : Sources} {file : SourceId}
    {as : List TypeAlias}
    (h : ∀ a ∈ as, o.removeComments = true ∨ Decl.commentLines sources file a.origin = []) :
    Decl.File.print o (some sources) ⟨file, as.map .typeAlias⟩ =
      aliasLines (o.layout (some sources) file) o.newLine as := by
  rw [Decl.File.print, Decl.printStatements, aliasLines, List.map_map]
  refine congrArg String.join (List.map_congr_left fun a ha => ?_)
  have hnone : (if o.removeComments then [] else Decl.commentLines sources file a.origin) = [] := by
    obtain hremove | hlines := h a ha
    · rw [if_pos hremove]
    · rw [hlines, ite_self]
  have hindentation : Decl.indentation 0 = "" := by simp [Decl.indentation, Text.repeated]
  simp only [Function.comp_apply, Decl.PrintOptions.layout, Decl.Statement.origin, hnone,
    Decl.commentBlock, List.map_nil, hindentation, TypeAlias.text]
  simp

namespace Emit

variable {p : Program} {file : SourceId}

/-- What comes of a file without markers, by its declarations. -/
theorem emitFile_of_declarations {s : Setting} {c : Checker} {r : Decl.File × List Diagnostic}
    (h : (((declarations file).run s).run c).1 = r) :
    (((emitFile p none file).run s).run c).1 =
      if r.2.any Diagnostic.isError then { skipped := true, diagnostics := r.2 }
      else { outputs := [⟨declarationPath p (sourceRoot p) file,
               r.1.print (printOptions p.options) (some p.sources)⟩],
             diagnostics := r.2 } := by
  have hbind : ∀ (x : Check (Decl.File × List Diagnostic)) (k : _ → Check Result),
      (((x >>= k).run s).run c).1 = (((k ((x.run s).run c).1).run s).run ((x.run s).run c).2).1 :=
    fun _ _ => rfl
  unfold emitFile
  rw [hbind, h]
  generalize (((declarations file).run s).run c).2 = c'
  obtain ⟨built, found⟩ := r
  dsimp only
  cases found.any Diagnostic.isError <;> rfl

/-- A step that gives no alias reports nothing about one. -/
theorem unreported_of_not_alias {x : Check Emitted}
    (h : (Check.judgment p).gives x fun e => ∀ a, e.1 ≠ .typeAlias a) :
    (Check.judgment p).gives (do return some (← x)) fun e =>
      ∀ w ∈ e, ∀ a, w.1 = .typeAlias a → w.2 = [] := by
  refine Judgment.bind _ h fun e he => Judgment.pure _ fun w hw a ha => ?_
  obtain rfl := Option.mem_some.1 hw
  exact absurd ha (he a)

/-- There is nothing to report about an alias. -/
theorem emitStatement_unreported (d : Node) (used : List String) :
    (Check.judgment p).gives (emitStatement file used d) fun e =>
      ∀ w ∈ e, ∀ a, w.1 = .typeAlias a → w.2 = [] := by
  unfold emitStatement
  split
  case h_1 =>
    refine Judgment.pure _ fun w hw _ _ => ?_
    obtain ⟨i, -, rfl⟩ := Option.map_eq_some_iff.1 (Option.mem_def.1 hw)
    rfl
  case h_2 | h_3 =>
    refine Judgment.pure _ fun w hw _ _ => ?_
    obtain rfl := Option.mem_some.1 hw
    rfl
  case h_4 | h_5 =>
    refine Judgment.bind _ (Check.gives_any p _) fun s _ => Judgment.pure _ fun w hw _ _ => ?_
    obtain rfl := Option.mem_some.1 hw
    rfl
  case h_6 =>
    refine unreported_of_not_alias (Judgment.gives_mono (functionStatement_gives file d) ?_)
    rintro e ⟨s, hs, -⟩ a ha
    cases hs.symm.trans ha
  case h_7 =>
    refine unreported_of_not_alias (Judgment.gives_mono (variablesStatement_gives file d) ?_)
    rintro e ⟨s, hs, -⟩ a ha
    cases hs.symm.trans ha
  case h_8 => exact Judgment.pure _ fun w hw => nomatch hw

/-- Where all declarations are aliases, there is nothing to report. -/
theorem declarations_unreported (p : Program) (file : SourceId) :
    (Check.judgment p).gives (declarations file) fun d =>
      (∀ w ∈ d.1.statements, ∃ a, w = .typeAlias a) → d.2 = [] := by
  refine Judgment.bind _ (Check.gives_any p _) fun q _ => ?_
  cases q.file? file with
  | none => exact Judgment.pure _ fun _ => rfl
  | some f =>
    refine Judgment.bind _ (Judgment.gives_filterMapM_all
      (R := fun _ w => ∀ a, w.1 = .typeAlias a → w.2 = [])
      fun n _ => emitStatement_unreported n _) fun ws hws => Judgment.pure _ fun hall => ?_
    refine List.flatMap_eq_nil_iff.2 fun w hw => ?_
    have hmem : w.1 ∈ ws.map (·.1) := List.mem_map_of_mem hw
    obtain ⟨a, ha⟩ := hall w.1 (by
      dsimp only
      split
      · exact mem_withModuleMark hmem
      · exact hmem)
    obtain ⟨n, -, hn⟩ := hws w hw
    exact hn a ha

/-- Where all declarations are aliases, all of them are exported in a module, and none in a script. -/
theorem Marked.isExport_eq {isModule : Bool} {d : Decl.File} (h : Marked isModule d)
    {as : List TypeAlias} (has : d.statements = as.map .typeAlias) :
    ∀ a ∈ as, a.modifiers.isExport = isModule := by
  intro a ha
  have hmem : Statement.typeAlias a ∈ d.statements := has ▸ List.mem_map_of_mem ha
  cases isModule with
  | false => exact Bool.eq_false_iff.2 (List.any_eq_false.1 h.marks _ hmem)
  | true =>
    by_contra hprivate
    have hscope := h.closed rfl (List.any_eq_true.2 ⟨_, hmem, by simpa [isPrivate] using hprivate⟩)
    rw [has, List.any_map, List.any_eq_true] at hscope
    obtain ⟨b, -, hb⟩ := hscope
    cases hb

/-- A program that holds lines of aliases as its file, read as these aliases, writes these lines for
it. -/
theorem emitFile_aliasLines {g : ProgramFile} {n : Nat} {items : List (TypeAlias × Outline)}
    {exported : Bool} {y : Decl.Layout} {source : SourceId} {limits : Limits} {tree : Tree}
    (hfile : p.file? file = some g) (hroot : g.root = ⟨tree, []⟩)
    (hitems : ∀ x ∈ items, Outlined n x)
    (hexported : ∀ x ∈ items, x.1.modifiers.isExport = exported)
    (htext : (p.source file).text = aliasLines y p.options.lineEnd (items.map (·.1)))
    (hparse : parseWith source limits (aliasLines y p.options.lineEnd (items.map (·.1))) =
      .ok ⟨tree, []⟩)
    (houtline : tree.outline = [.node .root ((items.map aliasOutline).map AliasOutline.outline)]) :
    (Check.judgment p).gives (emitFile p none file) (· =
      { outputs := [⟨declarationPath p (sourceRoot p) file,
          aliasLines y p.options.lineEnd (items.map (·.1))⟩] }) := by
  have hsays : g.root.Says (.node .root ((items.map aliasOutline).map AliasOutline.outline)) := by
    rw [hroot]
    exact houtline
  refine Judgment.bind _ (declarations_aliases hfile hitems hexported hsays) fun r hr => ?_
  obtain ⟨built, found⟩ := r
  obtain ⟨hfound, bs, hbuilt, hbs, horigins⟩ := hr
  obtain rfl : found = [] := hfound
  obtain rfl : built = _ := hbuilt
  have hsilent : ∀ b ∈ bs, (printOptions p.options).removeComments = true ∨
      Decl.commentLines p.sources file b.origin = [] := by
    intro b hb
    obtain ⟨m, hm, horigin⟩ := horigins b hb
    rw [hroot] at hm
    have hleading := Outlined.leading_eq_nil hitems (isLineEnd_lineEnd p.options) hparse houtline hm
    right
    rw [horigin]
    show (Comment.leadingTexts (p.source file).text m.fullStart).flatMap _ = []
    rw [htext, Comment.leadingTexts, hleading]
    rfl
  have hreadable : ∀ a ∈ items.map (·.1), a.IsReadable n :=
    List.forall_mem_map.2 fun x hx => (hitems x hx).readable
  refine Judgment.pure _ ?_
  rw [print_aliases hsilent, aliasLines_alike hbs hreadable y]
  rfl

end Emit

end DeclKit

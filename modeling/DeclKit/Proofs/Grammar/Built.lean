/-
Types that are built read back as they were built.

A type of the forms below, in which every operand stands where its form may stand, is a phrase of the
grammar, at the level of its form: what binds too loosely for its position is in parentheses, and
otherwise the position takes its level in. That looks at the form of the operand only, which is not
enough in one place. After `extends` the grammar takes no conditional type, and a function returns
whatever comes, so a function that ends in a conditional type would need parentheses there and gets
none. Types without such operands are parsed without a report.

The constructors put every operand in parentheses that needs them, so what they build is written,
parsed and copied to itself. So does the edit that the markers ask for, whatever stands in the place
of a type.
-/
import DeclKit.Decl.Build
import DeclKit.Proofs.Grammar.Alias
import DeclKit.Proofs.Grammar.Copying
import DeclKit.Proofs.Grammar.Printing

set_option autoImplicit false

namespace DeclKit

open Decl (TypeNode TypeForm Position Placed)
open Outline (flagged wordsOf wordsOf_cons wordsOf_nil words_alias)

/-! ## Built types -/

/-- The text of a type ends in a conditional type that is not in parentheses, though the type may be
a function that returns it. -/
inductive EndsConditional : TypeNode → Prop where
  | conditional {a b c d : TypeNode} {origin : Option Decl.Origin} :
      EndsConditional (.mk (.conditional a b c d) origin)
  | returned {s : Decl.Signature TypeNode} {t : TypeNode} {origin : Option Decl.Origin} :
      s.returns = some t → EndsConditional t → EndsConditional (.mk (.function s) origin)

/-- A type is built by the constructors, so many of them one in another. The operand after `extends`
ends in no conditional type. -/
inductive Built : Nat → TypeNode → Prop where
  | keyword {n : Nat} {k : Decl.Keyword} : Built n (.keyword k)
  | string {n : Nat} {s : String} : Built n (.string s)
  | boolean {n : Nat} {b : Bool} : Built n (.boolean b)
  | reference {n : Nat} {name : String} {args : List TypeNode} : isTypeName name = true →
      (∀ t ∈ args, Built n t) → Built (n + 1) (.reference [name] args)
  | union {n : Nat} {t u : TypeNode} {ts : List TypeNode} : (∀ x ∈ t :: u :: ts, Built n x) →
      Built (n + 1) (.union (t :: u :: ts))
  | intersection {n : Nat} {t u : TypeNode} {ts : List TypeNode} : (∀ x ∈ t :: u :: ts, Built n x) →
      Built (n + 1) (.intersection (t :: u :: ts))
  | array {n : Nat} {t : TypeNode} : Built n t → Built (n + 1) (.array t)
  | tuple {n : Nat} {ts : List TypeNode} : (∀ t ∈ ts, Built n t) →
      Built (n + 1) (.tuple (ts.map fun t => ⟨.required, none, t⟩))
  | function {n : Nat} {params : List (String × TypeNode)} {t : TypeNode} :
      (∀ p ∈ params, isIdentifier p.1 = true) → (∀ p ∈ params, Built n p.2) → Built n t →
      Built (n + 1) (.function
        { params := params.map fun p => { name := p.1, type := some p.2 }, returns := some t })
  | keyof {n : Nat} {t : TypeNode} : Built n t → Built (n + 1) (.operator .keyof t)
  | indexed {n : Nat} {t i : TypeNode} : Built n t → Built n i → Built (n + 1) (.indexed t i)
  | conditional {n : Nat} {a b c d : TypeNode} : Built n a → Built n b →
      ¬EndsConditional (b.atPosition .extends_) → Built n c → Built n d →
      Built (n + 1) (.conditional a b c d)

/-- A type is made of the forms of these constructors and of parentheses, so many of them one in
another. The operand after `extends` ends in no conditional type. -/
inductive Plain : Nat → TypeNode → Prop where
  | keyword {n : Nat} {k : Decl.Keyword} {origin : Option Decl.Origin} :
      Plain n (.mk (.keyword k) origin)
  | string {n : Nat} {s : String} {origin : Option Decl.Origin} :
      Plain n (.mk (.literal (Text.quote s)) origin)
  | boolean {n : Nat} {b : Bool} {origin : Option Decl.Origin} :
      Plain n (.mk (.literal (if b then "true" else "false")) origin)
  | reference {n : Nat} {name : String} {args : List TypeNode} {origin : Option Decl.Origin} :
      isTypeName name = true → (∀ t ∈ args, Plain n t) →
      Plain (n + 1) (.mk (.reference [name] args) origin)
  | paren {n : Nat} {t : TypeNode} {origin : Option Decl.Origin} : Plain n t →
      Plain (n + 1) (.mk (.paren t) origin)
  | union {n : Nat} {t u : TypeNode} {ts : List TypeNode} {origin : Option Decl.Origin} :
      (∀ x ∈ t :: u :: ts, Plain n x) → Plain (n + 1) (.mk (.union (t :: u :: ts)) origin)
  | intersection {n : Nat} {t u : TypeNode} {ts : List TypeNode} {origin : Option Decl.Origin} :
      (∀ x ∈ t :: u :: ts, Plain n x) → Plain (n + 1) (.mk (.intersection (t :: u :: ts)) origin)
  | array {n : Nat} {t : TypeNode} {origin : Option Decl.Origin} : Plain n t →
      Plain (n + 1) (.mk (.array t) origin)
  | tuple {n : Nat} {ts : List TypeNode} {origin : Option Decl.Origin} : (∀ t ∈ ts, Plain n t) →
      Plain (n + 1) (.mk (.tuple (ts.map fun t => ⟨.required, none, t⟩)) origin)
  | function {n : Nat} {params : List (String × TypeNode)} {t : TypeNode}
      {origin : Option Decl.Origin} :
      (∀ p ∈ params, isIdentifier p.1 = true) → (∀ p ∈ params, Plain n p.2) → Plain n t →
      Plain (n + 1) (.mk (.function
        { params := params.map fun p => { name := p.1, type := some p.2 }, returns := some t }) origin)
  | keyof {n : Nat} {t : TypeNode} {origin : Option Decl.Origin} : Plain n t →
      Plain (n + 1) (.mk (.operator .keyof t) origin)
  | indexed {n : Nat} {t i : TypeNode} {origin : Option Decl.Origin} : Plain n t → Plain n i →
      Plain (n + 1) (.mk (.indexed t i) origin)
  | conditional {n : Nat} {a b c d : TypeNode} {origin : Option Decl.Origin} : Plain n a → Plain n b →
      ¬EndsConditional b → Plain n c → Plain n d → Plain (n + 1) (.mk (.conditional a b c d) origin)

/-! ## Levels of forms and of positions -/

/-- The level that a form is a production of. -/
def Level.ofForm : TypeForm → Level
  | .function _ | .conditional .. => .type true
  | .union _ => .union
  | .intersection _ => .intersection
  | .operator .. => .operator
  | .array _ | .indexed .. => .postfix_
  | _ => .primary

/-- How loosely a level binds. -/
def Level.rank : Level → Nat
  | primary => 0
  | postfix_ => 1
  | operator => 2
  | intersection => 3
  | union => 4
  | type _ => 5

theorem rank_postfix_le {f : TypeForm} (h : Position.postfix_.encloses f = false) :
    (Level.ofForm f).rank ≤ Level.postfix_.rank := by
  cases f with
  | function | constructor | conditional | union | intersection | operator => cases h
  | array | indexed => exact Nat.le_refl 1
  | _ => exact Nat.zero_le 1

theorem rank_member_le {f : TypeForm} (h : Position.member.encloses f = false) :
    (Level.ofForm f).rank ≤ Level.operator.rank := by
  cases f with
  | function | constructor | conditional | union | intersection => cases h
  | operator => exact Nat.le_refl 2
  | array | indexed => exact Nat.le_succ 1
  | _ => exact Nat.zero_le 2

theorem rank_check_le {f : TypeForm} (h : Position.check.encloses f = false) :
    (Level.ofForm f).rank ≤ Level.union.rank := by
  cases f with
  | function | constructor | conditional => cases h
  | _ => exact Nat.le_of_ble_eq_true rfl

namespace Phrase

variable {n : Nat} {l : Level} {t : TypeNode} {o : Outline}

/-! ## What binds tighter stands where something looser may -/

theorem toPostfix (h : Phrase n l t o) (hl : l.rank ≤ Level.postfix_.rank) :
    Phrase n .postfix_ t o := by
  cases l with
  | postfix_ => exact h
  | primary => exact .ofPrimary h
  | _ => simp [Level.rank] at hl

theorem toOperator (h : Phrase n l t o) (hl : l.rank ≤ Level.operator.rank) :
    Phrase n .operator t o := by
  cases l with
  | operator => exact h
  | primary | postfix_ => exact .ofPostfix (h.toPostfix (by decide))
  | _ => simp [Level.rank] at hl

theorem toUnion (h : Phrase n l t o) (hl : l.rank ≤ Level.union.rank) : Phrase n .union t o := by
  cases l with
  | union => exact h
  | intersection => exact .ofIntersection h
  | primary | postfix_ | operator =>
    exact .ofIntersection (.ofOperator (h.toOperator (by decide)))
  | type => simp [Level.rank] at hl

/-- A type stands where every type may. -/
theorem toAny (h : Phrase n (.ofForm t.form) t o) : Phrase n (.type true) t o := by
  by_cases hl : (Level.ofForm t.form).rank ≤ Level.union.rank
  · exact .ofUnion (h.toUnion hl)
  · have hform : Level.ofForm t.form = .type true := by
      cases hf : t.form with
      | function | conditional => rfl
      | _ => exact absurd (by rw [hf]; exact Nat.le_of_ble_eq_true rfl) hl
    exact hform ▸ h

end Phrase

/-! ## Well-placed types are phrases -/

/-- Outlines that there are one by one are there together. -/
theorem exists_outlines {α : Type} {P : α → Outline → Prop} {xs : List α}
    (h : ∀ x ∈ xs, ∃ o, P x o) : ∃ items : List (α × Outline), items.map (·.1) = xs ∧
      ∀ z ∈ items, P z.1 z.2 := by
  induction xs with
  | nil => exact ⟨[], rfl, nofun⟩
  | cons x xs ih =>
    obtain ⟨⟨o, ho⟩, hxs⟩ := List.forall_mem_cons.1 h
    obtain ⟨items, rfl, hitems⟩ := ih hxs
    exact ⟨(x, o) :: items, rfl, List.forall_mem_cons.2 ⟨ho, hitems⟩⟩

/-- Two members or more of a union or intersection have outlines. -/
theorem exists_members {l : Level} {n : Nat} {t u : TypeNode} {ts : List TypeNode}
    (h : ∀ x ∈ t :: u :: ts, ∃ o, Phrase n l x o) :
    ∃ (y z : TypeNode × Outline) (items : List (TypeNode × Outline)),
      t :: u :: ts = (y :: z :: items).map (·.1) ∧ ∀ x ∈ y :: z :: items, Phrase n l x.1 x.2 := by
  obtain ⟨items, hitems, hphrases⟩ := exists_outlines h
  obtain ⟨y, rest, rfl, -, hrest⟩ := List.map_eq_cons_iff.1 hitems
  obtain ⟨z, items, rfl, -, -⟩ := List.map_eq_cons_iff.1 hrest
  exact ⟨y, z, items, hitems.symm, hphrases⟩

/-- A type stands in the grammar: at the level of its form, and after `extends` if it does not end in
a conditional type. -/
structure Stands (n : Nat) (t : TypeNode) : Prop where
  phrase : ∃ o, Phrase n (.ofForm t.form) t o
  extended : ¬EndsConditional t → ∃ o, Phrase n (.type false) t o

namespace Stands

variable {n : Nat} {t : TypeNode} {o : Outline}

/-- What binds tighter than a conditional type stands after `extends` as it is. -/
theorem of_phrase (h : Phrase n (.ofForm t.form) t o)
    (hl : (Level.ofForm t.form).rank ≤ Level.union.rank) : Stands n t :=
  ⟨⟨o, h⟩, fun _ => ⟨o, .ofUnion (h.toUnion hl)⟩⟩

theorem any (h : Stands n t) : ∃ o, Phrase n (.type true) t o := h.phrase.imp fun _ ho => ho.toAny

theorem postfix_ (h : Stands n t) (ht : Placed .postfix_ t) : ∃ o, Phrase n .postfix_ t o :=
  h.phrase.imp fun _ ho => ho.toPostfix (rank_postfix_le ht.encloses)

theorem member (h : Stands n t) (ht : Placed .member t) : ∃ o, Phrase n .operator t o :=
  h.phrase.imp fun _ ho => ho.toOperator (rank_member_le ht.encloses)

theorem check (h : Stands n t) (ht : Placed .check t) : ∃ o, Phrase n .union t o :=
  h.phrase.imp fun _ ho => ho.toUnion (rank_check_le ht.encloses)

end Stands

/-- The types of parameters with a type each and of what is returned. -/
theorem types_typed {α : Type} (params : List (String × α)) (t : α) :
    Decl.Signature.types
        { params := params.map fun p => { name := p.1, type := some p.2 }, returns := some t } =
      params.map (·.2) ++ [t] := by
  show [] ++ ((params.map fun p => _).flatMap _ ++ [t]) = _
  rw [List.nil_append, List.flatMap_map]
  exact congrArg (· ++ [t]) (List.flatMap_pure_eq_map Prod.snd params)

/-- A plain type all of whose parts stand where their forms may is a phrase of the grammar. -/
theorem Plain.stands {n : Nat} {t : TypeNode} (h : Plain n t) {p : Position} (ht : Placed p t) :
    Stands n t := by
  induction h generalizing p with
  | keyword => exact .of_phrase .keyword (Nat.zero_le _)
  | string => exact .of_phrase .string (Nat.zero_le _)
  | boolean => exact .of_phrase .boolean (Nat.zero_le _)
  | @reference _ _ args _ hname _ ih =>
    have hargs : ∀ t ∈ args, Placed .any t := fun t hmem =>
      ht.part (x := (.any, t)) (List.mem_map_of_mem hmem)
    obtain ⟨items, rfl, hitems⟩ := exists_outlines fun t hmem => (ih t hmem (hargs t hmem)).any
    exact .of_phrase (.reference hname hitems) (Nat.zero_le _)
  | @paren _ t _ _ ih =>
    have hinner : Placed .any t := ht.part (x := (.any, t)) List.mem_cons_self
    obtain ⟨o, ho⟩ := (ih hinner).any
    exact .of_phrase (.paren ho) (Nat.zero_le _)
  | @union _ t u ts _ _ ih =>
    have hmembers : ∀ x ∈ t :: u :: ts, Placed .member x := fun x hmem =>
      ht.part (x := (.member, x)) (List.mem_map_of_mem hmem)
    obtain ⟨x, y, items, heq, hitems⟩ := exists_members fun x hmem =>
      (ih x hmem (hmembers x hmem)).member (hmembers x hmem)
    rw [heq]
    exact .of_phrase (.union fun z hz => .ofOperator ((hitems z hz).mono (Nat.le_succ _)))
      (Nat.le_of_ble_eq_true rfl)
  | @intersection _ t u ts _ _ ih =>
    have hmembers : ∀ x ∈ t :: u :: ts, Placed .member x := fun x hmem =>
      ht.part (x := (.member, x)) (List.mem_map_of_mem hmem)
    obtain ⟨x, y, items, heq, hitems⟩ := exists_members fun x hmem =>
      (ih x hmem (hmembers x hmem)).member (hmembers x hmem)
    rw [heq]
    exact .of_phrase (.intersection fun z hz => (hitems z hz).mono (Nat.le_succ _))
      (Nat.le_of_ble_eq_true rfl)
  | @array _ t _ _ ih =>
    have helement : Placed .postfix_ t := ht.part (x := (.postfix_, t)) List.mem_cons_self
    obtain ⟨o, ho⟩ := (ih helement).postfix_ helement
    exact .of_phrase (.array (ho.mono (Nat.le_succ _))) (Nat.le_of_ble_eq_true rfl)
  | @tuple _ ts _ _ ih =>
    have hitems : ∀ t ∈ ts, Placed .any t := fun t hmem =>
      ht.part (x := (.any, t)) (by simpa [TypeNode.form, Decl.TypeForm.parts] using hmem)
    obtain ⟨items, rfl, hphrases⟩ := exists_outlines fun t hmem => (ih t hmem (hitems t hmem)).any
    rw [List.map_map]
    exact .of_phrase (.tuple hphrases) (Nat.zero_le _)
  | @function n params t origin hnames _ _ ihparams ih =>
    have htypes : ∀ u ∈ params.map (·.2) ++ [t], Placed .any u := fun u hmem =>
      ht.part (x := (.any, u)) (List.mem_map_of_mem (types_typed params t ▸ hmem))
    obtain ⟨hparams, hreturned⟩ := List.forall_mem_append.1 htypes
    replace hparams := List.forall_mem_map.1 hparams
    replace hreturned := List.forall_mem_singleton.1 hreturned
    obtain ⟨items, rfl, hitems⟩ := exists_outlines fun p hp => (ihparams p hp (hparams p hp)).any
    let typed := items.map fun x => (x.1.1, x.1.2, x.2)
    have htypedNames : ∀ p ∈ typed, isIdentifier p.1 = true :=
      List.forall_mem_map.2 fun x hx => hnames x.1 (List.mem_map_of_mem hx)
    have htypedTypes : ∀ p ∈ typed, Phrase n (.type true) p.2.1 p.2.2 :=
      List.forall_mem_map.2 hitems
    -- the function returns what can be returned at either level
    have hfunction {c : Bool} {o : Outline} (ho : Phrase n (.type c) t o) :
        ∃ o, Phrase (n + 1) (.type c) (.mk (.function
          { params := (items.map (·.1)).map fun p => { name := p.1, type := some p.2 },
            returns := some t }) origin) o := by
      have hphrase : Phrase (n + 1) (.type c) (.mk (.function
          { params := typed.map fun p => { name := p.1, type := some p.2.1 }, returns := some t })
          origin) _ := .function htypedNames htypedTypes ho
      rw [List.map_map] at hphrase ⊢
      exact ⟨_, hphrase⟩
    refine ⟨(ih hreturned).any.elim fun _ ho => hfunction ho, fun hends => ?_⟩
    obtain ⟨o, ho⟩ := (ih hreturned).extended fun ht => hends (.returned rfl ht)
    exact hfunction ho
  | @keyof _ t _ _ ih =>
    have hoperand : Placed .member t := ht.part (x := (.member, t)) List.mem_cons_self
    obtain ⟨o, ho⟩ := (ih hoperand).member hoperand
    exact .of_phrase (.keyof (ho.mono (Nat.le_succ _))) (Nat.le_of_ble_eq_true rfl)
  | @indexed _ t i _ _ _ iht ihi =>
    have hobject : Placed .postfix_ t := ht.part (x := (.postfix_, t)) List.mem_cons_self
    have hindex : Placed .any i := ht.part (x := (.any, i)) (by
      simp [TypeNode.form, Decl.TypeForm.parts])
    obtain ⟨o, ho⟩ := (iht hobject).postfix_ hobject
    obtain ⟨q, hq⟩ := (ihi hindex).any
    exact .of_phrase (.indexed (ho.mono (Nat.le_succ _)) hq) (Nat.le_of_ble_eq_true rfl)
  | @conditional _ a b c d _ _ _ hends _ _ iha ihb ihc ihd =>
    have hparts {q : Position} {x : TypeNode} (hmem : (q, x) ∈
        [(Position.check, a), (.extends_, b), (.any, c), (.any, d)]) : Placed q x := ht.part hmem
    have ha : Placed .check a := hparts (by simp)
    have hb : Placed .extends_ b := hparts (by simp)
    have hc : Placed .any c := hparts (by simp)
    have hd : Placed .any d := hparts (by simp)
    obtain ⟨oa, ha⟩ := (iha ha).check ha
    obtain ⟨ob, hb⟩ := (ihb hb).extended hends
    obtain ⟨oc, hc⟩ := (ihc hc).any
    obtain ⟨od, hd⟩ := (ihd hd).any
    refine ⟨⟨_, .conditional (ha.mono (Nat.le_succ _)) hb hc hd⟩, fun hends => ?_⟩
    exact absurd .conditional hends

/-! ## Built types are plain and well-placed -/

theorem Plain.mono {n m : Nat} {t : TypeNode} (h : Plain n t) (hm : n ≤ m) : Plain m t := by
  induction h generalizing m with
  | keyword => exact .keyword
  | string => exact .string
  | boolean => exact .boolean
  | reference hname _ ih =>
    obtain ⟨k, rfl, hk⟩ := Phrase.exists_succ_of_succ_le hm
    exact .reference hname fun x hx => ih x hx hk
  | paren _ ih =>
    obtain ⟨k, rfl, hk⟩ := Phrase.exists_succ_of_succ_le hm
    exact .paren (ih hk)
  | union _ ih =>
    obtain ⟨k, rfl, hk⟩ := Phrase.exists_succ_of_succ_le hm
    exact .union fun x hx => ih x hx hk
  | intersection _ ih =>
    obtain ⟨k, rfl, hk⟩ := Phrase.exists_succ_of_succ_le hm
    exact .intersection fun x hx => ih x hx hk
  | array _ ih =>
    obtain ⟨k, rfl, hk⟩ := Phrase.exists_succ_of_succ_le hm
    exact .array (ih hk)
  | tuple _ ih =>
    obtain ⟨k, rfl, hk⟩ := Phrase.exists_succ_of_succ_le hm
    exact .tuple fun x hx => ih x hx hk
  | function hnames _ _ ihparams ih =>
    obtain ⟨k, rfl, hk⟩ := Phrase.exists_succ_of_succ_le hm
    exact .function hnames (fun p hp => ihparams p hp hk) (ih hk)
  | keyof _ ih =>
    obtain ⟨k, rfl, hk⟩ := Phrase.exists_succ_of_succ_le hm
    exact .keyof (ih hk)
  | indexed _ _ iht ihi =>
    obtain ⟨k, rfl, hk⟩ := Phrase.exists_succ_of_succ_le hm
    exact .indexed (iht hk) (ihi hk)
  | conditional _ _ hends _ _ iha ihb ihc ihd =>
    obtain ⟨k, rfl, hk⟩ := Phrase.exists_succ_of_succ_le hm
    exact .conditional (iha hk) (ihb hk) hends (ihc hk) (ihd hk)

theorem Plain.atPosition {n : Nat} {t : TypeNode} (h : Plain n t) (p : Position) :
    Plain (n + 1) (t.atPosition p) := by
  rw [TypeNode.atPosition]
  split
  · exact .paren h
  · exact h.mono (Nat.le_succ n)

/-- No built type starts with type parameters, so no argument is put in parentheses. -/
theorem Built.arguments_eq {n : Nat} {ts : List TypeNode} (h : ∀ t ∈ ts, Built n t) :
    TypeNode.arguments ts = ts := by
  cases ts with
  | nil => rfl
  | cons t ts =>
    have hgeneric : t.isGenericFunction = false := by
      cases h t List.mem_cons_self <;> rfl
    rw [TypeNode.arguments, hgeneric, if_neg Bool.false_ne_true]

/-- A built type may have twice as many forms one in another: parentheses may stand between them. -/
theorem Built.plain {n : Nat} {t : TypeNode} (h : Built n t) : Plain (2 * n) t := by
  induction h with
  | keyword => exact .keyword
  | string => exact .string
  | boolean => exact .boolean
  | @reference n name args hname hargs ih =>
    rw [TypeNode.reference, Built.arguments_eq hargs]
    exact .reference hname fun t ht => (ih t ht).mono (Nat.le_succ _)
  | union _ ih => exact .union (List.forall_mem_map.2 fun t ht => (ih t ht).atPosition .member)
  | intersection _ ih =>
    exact .intersection (List.forall_mem_map.2 fun t ht => (ih t ht).atPosition .member)
  | array _ ih => exact .array (ih.atPosition .postfix_)
  | tuple _ ih => exact .tuple fun t ht => (ih t ht).mono (Nat.le_succ _)
  | function hnames _ _ ihparams ih =>
    exact .function hnames (fun p hp => (ihparams p hp).mono (Nat.le_succ _)) (ih.mono (Nat.le_succ _))
  | keyof _ ih => exact .keyof (ih.atPosition .member)
  | indexed _ _ iht ihi => exact .indexed (iht.atPosition .postfix_) (ihi.mono (Nat.le_succ _))
  | conditional _ _ hends _ _ iha ihb ihc ihd =>
    exact .conditional (iha.atPosition .check) (ihb.atPosition .extends_) hends
      (ihc.mono (Nat.le_succ _)) (ihd.mono (Nat.le_succ _))

/-- The constructors put an operand in parentheses where its form asks for them. -/
theorem Built.placed {n : Nat} {t : TypeNode} (h : Built n t) : Placed .any t := by
  induction h with
  | keyword | string | boolean => exact ⟨rfl, nofun⟩
  | @reference n name args hname hargs ih =>
    rw [TypeNode.reference, Built.arguments_eq hargs]
    exact ⟨rfl, List.forall_mem_map.2 ih⟩
  | union _ ih | intersection _ ih =>
    exact ⟨rfl, List.forall_mem_map.2 (List.forall_mem_map.2 fun t ht => (ih t ht).atPosition .member)⟩
  | array _ ih => exact ⟨rfl, List.forall_mem_singleton.2 (ih.atPosition .postfix_)⟩
  | tuple _ ih => exact ⟨rfl, List.forall_mem_map.2 (List.forall_mem_map.2 ih)⟩
  | @function _ params t _ _ _ ihparams ih =>
    refine ⟨rfl, List.forall_mem_map.2 (types_typed params t ▸ List.forall_mem_append.2 ⟨?_, ?_⟩)⟩
    · exact List.forall_mem_map.2 ihparams
    · exact List.forall_mem_singleton.2 ih
  | keyof _ ih => exact ⟨rfl, List.forall_mem_singleton.2 (ih.atPosition .member)⟩
  | indexed _ _ iht ihi =>
    exact ⟨rfl, List.forall_mem_cons.2 ⟨iht.atPosition .postfix_, List.forall_mem_singleton.2 ihi⟩⟩
  | conditional _ _ _ _ _ iha ihb ihc ihd =>
    refine ⟨rfl, List.forall_mem_cons.2 ⟨iha.atPosition .check, ?_⟩⟩
    refine List.forall_mem_cons.2 ⟨ihb.atPosition .extends_, ?_⟩
    exact List.forall_mem_cons.2 ⟨ihc, List.forall_mem_singleton.2 ihd⟩

theorem Built.stands {n : Nat} {t : TypeNode} (h : Built n t) : Stands (2 * n) t :=
  h.plain.stands h.placed

/-! ## Reading back -/

theorem Outline.isType_name (os : List Outline) : (Outline.node .name os).isType = false := rfl

namespace Node

variable {d : Node} {name : String} {o : Outline}

/-- The parts of a file of type aliases say these aliases. -/
theorem Says.children_aliases {m : Node} {aliases : List AliasOutline}
    (h : m.Says (.node .root (aliases.map AliasOutline.outline))) :
    List.Forall₂ Says m.children (aliases.map AliasOutline.outline) := by
  have hnodes : ∀ o ∈ aliases.map AliasOutline.outline, o.isNode = true :=
    List.forall_mem_map.2 fun a _ => rfl
  have hall := h.children
  rwa [List.filter_eq_self.2 hnodes] at hall

/-- All of them are statements. -/
theorem Says.statements_aliases {m : Node} {aliases : List AliasOutline}
    (h : m.Says (.node .root (aliases.map AliasOutline.outline))) :
    List.Forall₂ Says m.statements (aliases.map AliasOutline.outline) := by
  have hkinds : ∀ d ∈ m.children, d.kind = .typeAliasDecl :=
    Decl.forall_mem_of_forall₂ (r := fun o d => Says d o) h.children_aliases.flip
      (List.forall_mem_map.2 fun a _ d hd => Says.kind hd)
  rw [statements, List.filter_eq_self.2 fun d hd => by rw [hkinds d hd]]
  exact h.children_aliases

theorem Says.statements_alias {m : Node} {exported : Bool}
    (h : m.Says (.node .root [.typeAlias exported name o])) :
    ∃ d, m.statements = [d] ∧ d.Says (.typeAlias exported name o) := by
  have hall : List.Forall₂ Says m.statements ([⟨exported, name, o⟩].map AliasOutline.outline) :=
    Says.statements_aliases h
  obtain ⟨d, ds, hd, hds, hstatements⟩ := List.forall₂_cons_right_iff.1 hall
  obtain rfl := List.forall₂_nil_right_iff.1 hds
  exact ⟨d, hstatements, hd⟩

/-- A name that is no literal and in no brackets is as it is written. -/
theorem nameText_of_leaves {t : Token} (h : d.leaves = [t])
    (ht : t.kind ∉ [.stringLiteral, .bracketOpen, .braceOpen]) : d.nameText = t.text := by
  simp only [List.mem_cons, List.not_mem_nil, or_false, not_or] at ht
  have hraw : d.isRawName = false := by
    rw [isRawName, h, List.head?_cons, Option.any_some, beq_false_of_ne ht.2.1,
      beq_false_of_ne ht.2.2]
    rfl
  rw [nameText, h]
  simp only [List.head?_cons, beq_false_of_ne ht.1, hraw, Bool.false_eq_true, if_false]

theorem Says.nameText_alias {exported : Bool} (h : d.Says (.typeAlias exported name o))
    (hname : isIdentifier name = true) : Emit.nameOr d.name? = name := by
  obtain ⟨e, -, hchild, hsaid⟩ := h.child? .name (by cases exported <;> rfl)
  obtain ⟨t, hleaves, hkind, htext⟩ := hsaid.leaf
  rw [named_of_isIdentifier hname] at hkind htext
  replace hkind : t.kind = .ident := hkind
  rw [Emit.nameOr, name?, hchild, Option.map_some, Option.getD_some,
    nameText_of_leaves hleaves (by rw [hkind]; decide), htext, String.ofList_toList]

end Node

/-- What is written as a type behind `type X =` is parsed without a report, as the alias `X` alone. -/
theorem parseWith_written {n : Nat} {o : Outline} {s : String} (ho : Parser.Spelt n true o)
    (hs : Token.Writes s o.words) {name : String} (hname : isIdentifier name = true) {limits : Limits}
    (htokens : limits.tokens = none) (hnesting : ∀ m ∈ limits.nesting, n < m) (source : SourceId) :
    ∃ tree, parseWith source limits ("type " ++ name ++ " = " ++ s ++ ";") = .ok ⟨tree, []⟩ ∧
      tree.outline = [.node .root [.typeAlias false name o]] := by
  have hspells := Token.closed_alias hname hs [] [] Token.Spells.nil
  rw [List.append_nil, List.append_nil] at hspells
  obtain ⟨hwords, hlines⟩ := hspells.lex (by simp)
  let written : AliasOutline := ⟨false, name, o⟩
  have hall : wordsIn (Token.lex ("type " ++ name ++ " = " ++ s ++ ";")) =
      wordsOf ([written].map AliasOutline.outline) := by
    rw [hwords, List.map_singleton, wordsOf_cons, wordsOf_nil, List.append_nil, AliasOutline.outline,
      words_alias]
    rfl
  exact parseWith_aliases (List.forall_mem_singleton.2 ⟨hname, ho⟩) htokens hnesting hall hlines
    source

/-- The text of a phrase behind `type X =` is parsed without a report, as the alias `X` alone. -/
theorem Phrase.parsed {n : Nat} {t : TypeNode} {o : Outline} (ho : Phrase n (.type true) t o)
    {name : String} (hname : isIdentifier name = true) {limits : Limits}
    (htokens : limits.tokens = none)
    (hnesting : ∀ m ∈ limits.nesting, n < m) (y : Decl.Layout) (level : Nat) (source : SourceId) :
    ∃ tree, parseWith source limits ("type " ++ name ++ " = " ++ t.print y level ++ ";") =
        .ok ⟨tree, []⟩ ∧
      tree.outline = [.node .root [.typeAlias false name o]] :=
  parseWith_written ⟨ho.readable, ho.leads⟩ (ho.writes y level) hname htokens hnesting source

/-- The one type of an alias. -/
theorem Outline.types_alias (exported : Bool) (name : String) {o : Outline} (ho : o.isType = true) :
    (flagged exported (.named "export") ++
      [.named "type", .node .name [.named name], .mark .equals, o, .mark .semicolon]).filter
        Outline.isType = [o] := by
  cases exported <;> simp [flagged, ho, Outline.isType_name]

/-- The text of a built type behind `type X =` is parsed without a report, as the alias `X` alone, and
the type of the alias is copied as the type that was built. -/
theorem Built.reads_back {n : Nat} {t : TypeNode} (h : Built n t) {name : String}
    (hname : isIdentifier name = true) {limits : Limits} (htokens : limits.tokens = none)
    (hnesting : ∀ m ∈ limits.nesting, 2 * n < m) (y : Decl.Layout) (level : Nat)
    (source file : SourceId) :
    ∃ tree decl type,
      parseWith source limits ("type " ++ name ++ " = " ++ t.print y level ++ ";") = .ok ⟨tree, []⟩ ∧
      (Node.mk tree []).statements = [decl] ∧ decl.kind = .typeAliasDecl ∧
      Emit.nameOr decl.name? = name ∧ decl.type? = some type ∧
      ∀ p, Check.Gives p (Emit.copyType file type) t.Alike := by
  obtain ⟨o, ho⟩ := h.stands.any
  obtain ⟨tree, hparse, houtline⟩ := ho.parsed hname htokens hnesting y level source
  obtain ⟨d, hstatements, hd⟩ := Node.Says.statements_alias (m := ⟨tree, []⟩) houtline
  obtain ⟨type, -, htype, hsaid⟩ := hd.type? (congrArg (·[0]?) (Outline.types_alias false name ho.isType))
  refine ⟨tree, d, type, hparse, hstatements, hd.kind, hd.nameText_alias hname, htype, fun p => ?_⟩
  exact Emit.copies (J := Check.judgment p) ho _ type hsaid (Nat.lt_succ_self _)

/-- A function after `extends`, which needs no parentheses as it does not return a conditional type. -/
def extendsFunction : TypeNode :=
  .conditional (.reference ["A"] [])
    (.function { params := [{ name := "p", type := some (.string "x") }],
                 returns := some (.reference ["B"] []) })
    (.array (.union [.reference ["A"] [], .keyword .null])) (.operator .keyof (.reference ["B"] []))

theorem built_extendsFunction : Built 4 extendsFunction := by
  have hname : ∀ {n : Nat} {name : String}, isTypeName name = true →
      Built (n + 1) (.reference [name] []) := fun h => .reference h nofun
  have hfunction : Built 3 (.function
      { params := [("p", .string "x")].map fun p => { name := p.1, type := some p.2 },
        returns := some (.reference ["B"] []) }) :=
    .function (by decide) (List.forall_mem_singleton.2 .string) (hname (by decide))
  refine .conditional (hname (by decide)) hfunction ?_ (.array (.union ?_))
    (.keyof (hname (by decide)))
  · show ¬EndsConditional (.mk (.function _) none)
    rintro (_ | ⟨hreturns, hends⟩)
    obtain rfl := Option.some.inj hreturns
    cases hends
  · exact List.forall_mem_cons.2 ⟨hname (by decide), List.forall_mem_singleton.2 .keyword⟩

theorem Built.reads_back_extendsFunction : Built 4 extendsFunction ∧ isIdentifier "X" = true ∧
    Limits.standard.tokens = none ∧ (∀ m ∈ Limits.standard.nesting, 2 * 4 < m) ∧
    ∃ tree decl type,
      parseWith ⟨0⟩ .standard
        "type X = A extends (p: \"x\") => B ? (A | null)[] : keyof B;" = .ok ⟨tree, []⟩ ∧
      (Node.mk tree []).statements = [decl] ∧ decl.kind = .typeAliasDecl ∧
      Emit.nameOr decl.name? = "X" ∧ decl.type? = some type ∧
      ∀ p, Check.Gives p (Emit.copyType ⟨0⟩ type) extendsFunction.Alike := by
  have hnesting : ∀ m ∈ Limits.standard.nesting, 2 * 4 < m := by decide
  have htext : "type " ++ "X" ++ " = " ++ extendsFunction.print .line 0 ++ ";" =
      "type X = A extends (p: \"x\") => B ? (A | null)[] : keyof B;" := by rfl
  refine ⟨built_extendsFunction, by decide, rfl, hnesting, ?_⟩
  rw [← htext]
  exact built_extendsFunction.reads_back (by decide) rfl hnesting .line 0 ⟨0⟩ ⟨0⟩

/-! ## Rewritten types -/

/-- An alias without modifiers and type parameters, and of a plain type. -/
structure Decl.TypeAlias.IsPlain (n : Nat) (a : Decl.TypeAlias) : Prop where
  modifiers : a.modifiers = {}
  typeParams : a.typeParams = []
  name : isIdentifier a.name = true
  type : Plain n a.type

/-- The text of a plain alias is parsed without a report if its type is well-placed. -/
theorem Decl.TypeAlias.IsPlain.parsed {n : Nat} {a : Decl.TypeAlias} (h : a.IsPlain n)
    (ht : Placed .any a.type) {limits : Limits} (htokens : limits.tokens = none)
    (hnesting : ∀ m ∈ limits.nesting, n < m) (y : Decl.Layout) (source : SourceId) :
    ∃ tree, parseWith source limits ((Decl.Statement.typeAlias a).print y 0 false) =
      .ok ⟨tree, []⟩ := by
  obtain ⟨o, ho⟩ := (h.type.stands ht).any
  obtain ⟨tree, hparse, -⟩ := ho.parsed h.name htokens hnesting y 0 source
  have hprint : (Decl.Statement.typeAlias a).print y 0 false =
      "type " ++ a.name ++ " = " ++ a.type.print y 0 ++ ";" := by
    rw [Decl.Statement.print, h.modifiers, h.typeParams, Decl.printTypeParams]
    show "" ++ "type " ++ a.name ++ "" ++ " = " ++ _ ++ ";" = _
    rw [String.empty_append, String.append_empty]
  exact ⟨tree, hprint ▸ hparse⟩

namespace Marker

open Decl (Rewritten)

variable {p : Program} {set : MarkerSet}

/-- What stands in the place of a reference is well-placed itself. -/
theorem Replaces.placed {t u : TypeNode} (h : Replaces p set t u) {q : Position} (ht : Placed q t) :
    Placed .any u := by
  cases h with
  | newtype => exact ⟨rfl, nofun⟩
  | @unwrap name args symbol hform =>
    cases args with
    | nil => exact ht.any
    | cons a as => exact ht.part (x := (.any, a)) (hform ▸ List.mem_cons_self)

end Marker

end DeclKit

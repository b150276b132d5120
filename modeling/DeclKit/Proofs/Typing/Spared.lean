/-
A type that stays comes out of a substitution as it went in.

Its parts do, one after another, so the type is built again of the parts it has. What was stored in a
normal form comes to the same form, an intersection has nothing left to lose, and the substitution of a
written type is restricted to what it was restricted to before. The name is put back on what was built,
and types that are alike have one number.

What is built again of its own parts is itself: a stored union is the union of its members, and a stored
template is the only word that its types make. For that no stored template may be `string` alone, which
is what the word of it would make.
-/
import DeclKit.Proofs.Types.Composition
import DeclKit.Proofs.Types.Instance
import DeclKit.Proofs.Typing.Substituted

set_option autoImplicit false

namespace DeclKit

/-- A kind that is stored as it stands is itself with its own parts. -/
theorem TypeKind.withParts_parts {k : TypeKind} (hk : k.isRestored) : k.withParts k.parts = k := by
  cases k with
  | interface s args => rfl
  | tuple elements readonly =>
    refine congrArg (TypeKind.tuple · readonly) ?_
    show (elements.zip (elements.map (·.type))).map (fun p => { p.1 with type := p.2 }) = elements
    clear hk
    induction elements with
    | nil => rfl
    | cons e elements ih => rw [List.map_cons, List.zip_cons_cons, List.map_cons, ih]
  | _ => cases hk

/-- No template in the table is `string` alone. -/
def TypeTable.Proper (t : TypeTable) : Prop := t.Every fun k => k.isProper

namespace TypeTable

variable {nullChecks : Bool} {m : MapperId} {t u v : TypeTable} {id r : TypeId} {k : TypeKind}

theorem Later.proper (h : t.Later nullChecks u) (ht : t.Proper) : u.Proper := by
  induction h with
  | refl => exact ht
  | step _ hx ih =>
    refine hx.stocks (fun k hk => ?_) _ (ih ht)
    cases k with
    | intersection | written => rfl
    | _ => exact hk
  | written decl m _ ih => exact Stored.stocks_intern (P := fun k => k.isProper) rfl _ (ih ht)
  | meet _ _ _ _ ih ih' => exact Stored.stocks_meet (P := fun k => k.isProper) rfl _ (ih' (ih ht))

theorem proper_initial : initial.Proper := by
  intro i d hd
  rw [initial_get?] at hd
  obtain ⟨k, hk, rfl⟩ := Option.map_eq_some_iff.1 hd
  have hall : ∀ k ∈ intrinsics, k.isProper := by decide
  exact hall k (List.mem_of_getElem? hk)

/-! ## Built again of its own parts -/

/-- The word of a template makes the template, unless that is `string` alone. -/
theorem wordKind_templateWord {head : String} {spans : List (TypeId × String)} (hspans : spans ≠ [])
    (hproper : (TypeKind.template head spans).isProper) :
    wordKind (templateWord head spans) = .template head spans := by
  have hword : TemplateParts.ofWord (templateWord head spans) = ⟨head, spans.reverse⟩ := by
    rw [TemplateParts.ofWord, templateWord, List.foldl_append, TemplateParts.foldl_push_textWord,
      TemplateParts.foldl_push_spansWord]
    have hfold (p : TemplateParts) (ss : List (TypeId × String)) :
        ss.foldl (fun q s => q.addSpan s.1 s.2) p = ⟨p.head, ss.reverse ++ p.spans⟩ := by
      induction ss generalizing p with
      | nil => rfl
      | cons s ss ih => rw [List.foldl_cons, ih, List.reverse_cons, List.append_assoc]; rfl
    rw [hfold]
    simp [TemplateParts.addText]
  rw [wordKind, hword]
  dsimp only
  rw [List.reverse_reverse]
  obtain _ | ⟨⟨i, tail⟩, _ | ⟨span, more⟩⟩ := spans
  · exact absurd rfl hspans
  · dsimp only
    rw [if_neg]
    intro hstring
    simp only [Bool.and_eq_true, beq_iff_eq, String.isEmpty_iff] at hstring
    obtain ⟨⟨rfl, rfl⟩, rfl⟩ := hstring
    cases hproper
  · rfl

/-- A type that is built of others is what is built again of them. -/
theorem rebuilt_parts (ht : t.Normal nullChecks) (hproper : t.Proper)
    (hid : t.types.get? id.index = some { kind := k }) (hk : k.isBuilt) :
    t.Rebuilt nullChecks k k.parts id := by
  rcases isBuilt_cases hk with ⟨ms, rfl⟩ | ⟨head, spans, rfl⟩ | hrestored
  · have hform : t.NormalUnion nullChecks ms := ht.forms _ _ hid
    refine run_union_of_atomsOf ht hid ?_
    show ms.flatMap t.atoms = ms
    rw [flatMap_congr_of_mem fun m hm => atoms_of_isAtom (isAtom_of_inUnion (hform.plain m hm)),
      List.flatMap_singleton']
  · have hform : t.NormalTemplate spans := ht.forms _ _ hid
    show t.UnionOfWords nullChecks (Expands t.Contributes
      (templateWord head ((spans.map (·.1)).zip (spans.map (·.2))))) id
    rw [zip_spans]
    -- no type of a stored template is a union, so it stands for its own word alone
    have hatom : ∀ s ∈ spans, t.IsAtom s.1 := by
      intro s hs
      have hplain := hform.plain s hs
      cases hkind : t.kind s.1 with
      | union | never =>
        rw [hkind] at hplain
        cases hplain
      | _ => simp [IsAtom, hkind, TypeKind.isUnion]
    have hsettled : t.settledWord head spans = templateWord head spans := by
      rw [settledWord, templateWord, spansWord]
      refine congrArg _ (flatMap_congr_of_mem fun s hs => ?_)
      rw [partWord_of_inTemplate (hform.plain s hs)]
      rfl
    refine .of_get? ht (w := templateWord head spans) (fun w => ?_) ?_
    · rw [expands_contributes_of_isAtom hatom, hsettled]
    · rw [wordKind_templateWord hform.nonempty (hproper _ _ hid), hid]
  · rw [rebuilt_iff_of_isRestored hrestored, TypeKind.withParts_parts hrestored, hid]

/-- What is built again of the parts of a stored type is that type without a name, whether it was stored
without one or not. -/
theorem get?_run_rebuild (ht : t.Normal nullChecks) (hproper : t.Proper) {d : TypeData}
    (hid : t.types.get? id.index = some d) (hk : d.kind.isBuilt)
    (hparts : ∀ p ∈ d.kind.parts, t.Given (.type p)) :
    let r := (rebuild nullChecks d.kind d.kind.parts).run t
    r.2.types.get? r.1.index = some { kind := d.kind } := by
  intro r
  have hstep : t.Later nullChecks r.2 := later_rebuild hk d.kind.parts t
  have hr : r.2.Normal nullChecks := hstep.keeps.2 ht
  have hstored := hstep.keeps.1.types _ _ hid
  -- once the type is stored without a name, it is what its parts make
  let v := ((intern d.kind).run r.2).2
  have hkeeps : r.2.Keeps nullChecks v := keeps_intern fun h => h.forms _ _ hstored
  have hv : v.Normal nullChecks := hkeeps.2 hr
  have hproper' : v.Proper := Stored.stocks_intern (P := fun k => k.isProper) (hproper _ _ hid) r.2
    (hstep.proper hproper)
  have hplain : v.types.get? ((intern d.kind).run r.2).1.index = some { kind := d.kind } := store_get?
  have hmade := rebuilt_parts hv hproper' hplain hk
  obtain ⟨-, hrebuilt⟩ := rebuilt_run_rebuild ht hk hparts (error_not_mem_parts hv hplain hk)
  have hgiven : ∀ p ∈ d.kind.parts, r.2.Given (.type p) := fun p hp => (hparts p hp).mono hstep.keeps.1
  have heq := (hrebuilt.grows hr hk hgiven hkeeps).unique hv hk hmade
  obtain ⟨e, he⟩ := Option.isSome_iff_exists.1 (Interner.get?_isSome.2 (hrebuilt.given hr hk hgiven))
  rw [← heq] at hplain
  exact he.trans ((hkeeps.1.types _ _ he).symm.trans hplain)

/-! ## Types that stay -/

variable {s : Setting}

theorem Concrete.has (h : v.Concrete s id) : v.has id := by
  cases h with
  | mk hget _ _ _ => exact Option.isSome_iff_exists.2 ⟨_, hget⟩

/-- A type that stays was not computed. -/
theorem Concrete.isComputed (h : v.Concrete s id) : v.isComputed id = false := by
  cases h with
  | @mk _ d hget hsettles _ _ =>
    rw [TypeTable.isComputed, kind_of_get? hget]
    cases hk : d.kind with
    | computed i =>
      rw [hk] at hsettles
      cases hsettles
    | _ => rfl

/-- What a letter map has to wait for is stored under the letter map. -/
theorem run_lettered_of_waitsUnder {f : LetterMap} (h : (t.kind id).waitsUnder f) :
    (lettered nullChecks f id).run t = (intern (.lettered f id)).run t := by
  have hmember : (letteredMember f id).run t = (intern (.lettered f id)).run t := by
    rw [letteredMember, StateT.run_bind, StateT.run_get, pure_bind]
    cases hk : t.kind id with
    | stringLiteral | any | error | never => rw [hk] at h; cases h
    | lettered inner type =>
      rw [hk] at h
      have hne : (inner == f) = false := by simpa [TypeKind.waitsUnder] using h
      dsimp only
      rw [hne]
      rfl
    | _ => rfl
  rw [lettered, StateT.run_bind, StateT.run_get, pure_bind]
  cases hk : t.kind id with
  | union => rw [hk] at h; cases h
  | _ => exact hmember

end TypeTable

namespace Typing

open Check TypeTable

variable {ops : Operations} {m : MapperId} {s : Setting} {c : Checker} {id : TypeId}

/-! ## Parts -/

/-- Types that stay come out one after another, and are there. -/
theorem spares_mapM (ids : List TypeId) (hc : c.Faithful s.nullChecks) (ht : c.Tidy s) :
    let r := ((ids.mapM fun id => ops.instantiate id (some m)).run s).run c
    r.2.depthReported = false → ∀ v, r.2.table.Grows v → (∀ id ∈ ids, v.Concrete s id) →
      r.1 = ids ∧ ∀ id ∈ ids, r.2.table.Given (.type id) := by
  induction ids generalizing c with
  | nil => exact fun _ v _ _ => ⟨rfl, fun id hid => absurd hid List.not_mem_nil⟩
  | cons id ids ih =>
    rw [List.mapM_cons]
    intro r hd v hv hids
    let x := ops.instantiate id (some m)
    let first := (x.run s).run c
    let rest := ids.mapM fun id => ops.instantiate id (some m)
    have hgrows := (rest.later s first.2).keeps.1
    have hfirst : first.2.depthReported = false := (rest.retains s first.2).quiet hd
    obtain ⟨hrest, hgiven⟩ := ih (x.faithful s c hc) (x.tidy s c hc ht) hd v hv
      fun id hid => hids id (List.mem_cons_of_mem _ hid)
    have hid : first.1 = id :=
      ops.spares id m s c hc ht hfirst v (hgrows.trans hv) (hids id List.mem_cons_self)
    obtain ⟨d, hget⟩ := (ops.makes id m s c hc hfirst).exists_get?
    refine ⟨List.cons_eq_cons.2 ⟨hid, hrest⟩, fun id' hid' => ?_⟩
    rcases List.mem_cons.1 hid' with rfl | hid'
    · exact given_of_get? (hgrows.types _ _ hget)
    · exact hgiven id' hid'

/-! ## Built again without its name -/

/-- Without its name, if it has one, a type that stays comes out of a substitution as it is. -/
def Rebuilds (ops : Operations) (m : MapperId) (s : Setting) (c : Checker) (k : TypeKind) : Prop :=
  let r := ((instantiateKind? ops m k).run s).run c
  r.2.depthReported = false → ∀ v, r.2.table.Grows v → v.settles s k →
    (∀ part ∈ v.constituents k, v.Concrete s part) → ∀ x, r.1 = some x →
    r.2.table.types.get? x.index = some { kind := k }

/-- A type that is built of others is built of the same ones. -/
theorem rebuilds_of_isBuilt (hc : c.Faithful s.nullChecks) (ht : c.Tidy s) {d : TypeData}
    (hid : c.table.types.get? id.index = some d) (hk : d.kind.isBuilt) : Rebuilds ops m s c d.kind := by
  let parts := ((d.kind.parts.mapM fun id => ops.instantiate id (some m)).run s).run c
  let r := (rebuild s.nullChecks d.kind parts.1).run parts.2.table
  have hrun : ((instantiateKind? ops m d.kind).run s).run c = (some r.1, { parts.2 with table := r.2 }) :=
    run_instantiateKind? hk
  rw [Rebuilds, hrun]
  intro hd v hv _ hconcrete x hx
  obtain rfl : r.1 = x := Option.some.inj hx
  have hlater := (d.kind.parts.mapM fun id => ops.instantiate id (some m)).later s c
  have hstep : parts.2.table.Later s.nullChecks r.2 := later_rebuild hk parts.1 parts.2.table
  have hgrows : parts.2.table.Grows v := hstep.keeps.1.trans hv
  have hparts : v.constituents d.kind = d.kind.parts := by
    rcases isBuilt_cases hk with ⟨ms, hk⟩ | ⟨head, spans, hk⟩ | hk
    · rw [hk]; rfl
    · rw [hk]; rfl
    · cases h : d.kind with
      | interface | tuple => rfl
      | _ => rw [h] at hk; cases hk
  obtain ⟨hsame, hgiven⟩ := spares_mapM d.kind.parts hc ht hd v hgrows (hparts ▸ hconcrete)
  have hn : parts.2.table.Normal s.nullChecks :=
    (hc.table.trans hlater).keeps.2 (normal_initial s.nullChecks)
  have hproper : parts.2.table.Proper := (hc.table.trans hlater).proper proper_initial
  have hrebuilt := get?_run_rebuild hn hproper (hlater.keeps.1.types _ _ hid) hk hgiven
  show ((rebuild s.nullChecks d.kind parts.1).run parts.2.table).2.types.get?
    ((rebuild s.nullChecks d.kind parts.1).run parts.2.table).1.index = _
  rw [show parts.1 = d.kind.parts from hsame]
  exact hrebuilt

/-- An intersection has the same members. -/
theorem rebuilds_intersection (hc : c.Faithful s.nullChecks) (ht : c.Tidy s) {ms : List TypeId}
    (hid : c.table.Stores id (.intersection ms)) : Rebuilds ops m s c (.intersection ms) := by
  let step : Check (List TypeId) := ms.mapM fun id => ops.instantiate id (some m)
  let parts := (step.run s).run c
  let r := ((ops.intersection parts.1).run s).run parts.2
  have hrun : ((instantiateKind? ops m (.intersection ms)).run s).run c = (some r.1, r.2) := rfl
  rw [Rebuilds, hrun]
  intro hd v hv _ hconcrete x hx
  obtain rfl : r.1 = x := Option.some.inj hx
  have hgrows : parts.2.table.Grows v := ((ops.intersection parts.1).later s parts.2).keeps.1.trans hv
  have hquiet : parts.2.depthReported = false := ((ops.intersection parts.1).retains s parts.2).quiet hd
  obtain ⟨hsame, hgiven⟩ := spares_mapM ms hc ht hquiet v hgrows hconcrete
  have hsame : parts.1 = ms := hsame
  have hcomputed : ∀ part ∈ ms, parts.2.table.isComputed part = false := fun part hpart => by
    rw [TypeTable.isComputed, ← kind_eq_of_given (hgiven part hpart) hgrows, ← TypeTable.isComputed,
      (hconcrete part hpart).isComputed]
  have hrestores := ops.restores ms s parts.2 (step.faithful s c hc) (step.tidy s c hc ht)
    ⟨id, hid.grows (step.later s c).keeps.1⟩ hcomputed
  rw [← hsame] at hrestores
  exact hsame ▸ hrestores hd

/-- A letter map is put on the same type, which it had to wait for before. -/
theorem rebuilds_lettered (hc : c.Faithful s.nullChecks) (ht : c.Tidy s) {f : LetterMap} {type : TypeId}
    (hid : c.table.Stores id (.lettered f type)) : Rebuilds ops m s c (.lettered f type) := by
  let x := ops.instantiate type (some m)
  let part := (x.run s).run c
  let r := (lettered s.nullChecks f part.1).run part.2.table
  have hrun : ((instantiateKind? ops m (.lettered f type)).run s).run c =
      (some r.1, { part.2 with table := r.2 }) := rfl
  rw [Rebuilds, hrun]
  intro hd v hv _ hconcrete y hy
  obtain rfl : r.1 = y := Option.some.inj hy
  have hn : c.table.Normal s.nullChecks := hc.table.keeps.2 (normal_initial s.nullChecks)
  obtain ⟨d, hget, hk⟩ := hid
  have hkind : c.table.kind id = .lettered f type := (kind_of_get? hget).trans hk
  have hwaits : (c.table.kind type).waitsUnder f := hn.lettered hkind
  have hstep : part.2.table.Later s.nullChecks r.2 := .step (.refl _) (.lettered f part.1)
  have hsame : part.1 = type := ops.spares type m s c hc ht hd v (hstep.keeps.1.trans hv)
    (hconcrete type (List.mem_singleton_self type))
  show ((lettered s.nullChecks f part.1).run part.2.table).2.types.get?
    ((lettered s.nullChecks f part.1).run part.2.table).1.index = _
  rw [hsame, run_lettered_of_waitsUnder]
  · exact store_get?
  · rwa [(x.later s c).keeps.1.kind_eq_of rfl hwaits]

theorem zip_fst_snd (pairs : Mapper) : (pairs.map (·.1)).zip (pairs.map (·.2)) = pairs := by
  induction pairs with
  | nil => rfl
  | cons pair pairs ih => rw [List.map_cons, List.map_cons, List.zip_cons_cons, ih]

/-- A written type is restricted to the substitution that it had: each parameter that it uses has its type,
which stays, and for other ones nothing is put in. -/
theorem rebuilds_written (hc : c.Faithful s.nullChecks) (ht : c.Tidy s) {decl : NodeKey}
    {inner : Option MapperId} (hid : c.table.Stores id (.written decl inner)) :
    Rebuilds ops m s c (.written decl inner) := by
  let pairs := c.table.mapper inner
  let step : Check (List TypeId) := (pairs.map (·.2)).mapM fun x => ops.instantiate x (some m)
  let parts := (step.run s).run c
  let more := (parts.2.table.mapper (some m)).filter fun q =>
    !((pairs.map (·.1)).zip parts.1).any (·.1 == q.1)
  let made := (TypeTable.makeMapper ((pairs.map (·.1)).zip parts.1 ++ more)).run parts.2.table
  let restricted := (TypeTable.restrictMapper made.1 (s.free decl)).run made.2
  let r := (TypeTable.intern (.written decl restricted.1)).run restricted.2
  have hrun : ((instantiateKind? ops m (.written decl inner)).run s).run c =
      (some r.1, { parts.2 with table := r.2 }) := by
    show ((Check.run (compose ops inner m >>= fun composed => do
      return some (← Check.written decl composed)) s).run c) = _
    rw [run_bind, run_compose]
    rfl
  rw [Rebuilds, hrun]
  intro hd v hv hsettles hconcrete y hy
  obtain rfl : r.1 = y := Option.some.inj hy
  obtain ⟨d, hget, hk⟩ := hid
  have hkept := ht.restricted id.index d hget
  rw [hk] at hkept
  obtain ⟨hstored, hfree⟩ := hkept
  have h₀ : c.table.Grows parts.2.table := (step.later s c).keeps.1
  have h₁ : parts.2.table.Grows made.2 := grows_makeMapper
  have h₂ : made.2.Grows restricted.2 := grows_makeMapper
  have h₃ : restricted.2.Grows r.2 := grows_store
  have hinner (u : TypeTable) (hu : c.table.Grows u) : u.mapper inner = pairs := by
    cases inner with
    | none => rfl
    | some i => exact mapper_of_hasMapper (hstored i rfl) hu
  have hvalues : v.constituents (.written decl inner) = pairs.map (·.2) := by
    show (v.mapper inner).map (·.2) = _
    rw [hinner v ((h₀.trans (h₁.trans (h₂.trans h₃))).trans hv)]
  have hsame : parts.1 = pairs.map (·.2) :=
    (spares_mapM (pairs.map (·.2)) hc ht hd v ((h₁.trans (h₂.trans h₃)).trans hv)
      (hvalues ▸ hconcrete)).1
  have hgets (u : TypeTable) (hu : c.table.Grows u) (x : SymbolId) :
      u.substitute? inner x = Mapper.get? pairs x := by rw [substitute?, hinner u hu]
  -- the substitution that comes out puts in what the first one did
  have hputs (x : SymbolId) :
      restricted.2.substitute? restricted.1 x = restricted.2.substitute? inner x := by
    rw [substitute?_restrictMapper (.refl _), hgets _ (h₀.trans (h₁.trans h₂))]
    split
    · rename_i hx
      rw [(substitute?_makeMapper parts.2.table _).1 x, Mapper.get?_append, hsame, zip_fst_snd]
      have hsome := List.all_eq_true.1 hsettles x hx
      rw [hgets v ((h₀.trans (h₁.trans (h₂.trans h₃))).trans hv)] at hsome
      obtain ⟨ty, hty⟩ := Option.isSome_iff_exists.1 hsome
      rw [hty]
      rfl
    · rename_i hx
      exact (hgets c.table (.refl _) x).symm.trans (hfree x hx) |>.symm
  have harranged : restricted.2.Arranged := by
    have hparts := hc.table.trans (step.later s c)
    have hmade : initial.Later s.nullChecks made.2 := .step hparts (.makeMapper _)
    exact Later.arranged (.step hmade (.restrictMapper made.1 (s.free decl))) arranged_initial
  have hback : restricted.1 = inner :=
    harranged.eq_of_substitute?_eq (restricted_restrictMapper (s := s) decl made.1).1
      (fun i hi => hasMapper_of_grows (hstored i hi) (h₀.trans (h₁.trans h₂))) hputs
  show ((TypeTable.intern (.written decl restricted.1)).run restricted.2).2.types.get?
    ((TypeTable.intern (.written decl restricted.1)).run restricted.2).1.index = _
  rw [hback]
  exact store_get?

/-- What is not built anew comes out as it is. -/
theorem rebuilds_of_run_eq_none {k : TypeKind}
    (h : ((instantiateKind? ops m k).run s).run c = (none, c)) : Rebuilds ops m s c k := by
  rw [Rebuilds, h]
  intro _ _ _ _ _ x hx
  cases hx

/-- A type that is in the table, without its name, comes out as it is if it stays. -/
theorem rebuilds_of_get? (hc : c.Faithful s.nullChecks) (ht : c.Tidy s) {d : TypeData}
    (hid : c.table.types.get? id.index = some d) : Rebuilds ops m s c d.kind := by
  by_cases hbuilt : d.kind.isBuilt
  · exact rebuilds_of_isBuilt hc ht hid hbuilt
  · have hstored : c.table.Stores id d.kind := ⟨d, hid, rfl⟩
    cases hk : d.kind with
    | intersection ms => exact rebuilds_intersection hc ht (hk ▸ hstored)
    | lettered f type => exact rebuilds_lettered hc ht (hk ▸ hstored)
    | written decl inner => exact rebuilds_written hc ht (hk ▸ hstored)
    | union | template => exact absurd (by rw [hk]; rfl) hbuilt
    | tuple elements readonly =>
      -- an element that waits for a tuple to be put in is none that stays
      intro hd v hv hsettles
      rw [hk] at hbuilt
      exact absurd hsettles hbuilt
    | interface symbol args =>
      rw [hk] at hbuilt
      have hargs : args.isEmpty = true := by simpa [TypeKind.isBuilt] using hbuilt
      have hrun : ((instantiateKind? ops m (.interface symbol args)).run s).run c = (none, c) := by
        show ((Check.run (if args.isEmpty then _ else _ : Check (Option TypeId)) s).run c) = _
        rw [if_pos hargs]
        rfl
      exact rebuilds_of_run_eq_none hrun
    | computed | keys | access | conditional | mapped =>
      exact fun _ v _ hsettles => absurd hsettles Bool.false_ne_true
    | _ => exact rebuilds_of_run_eq_none rfl

/-! ## With its name -/

/-- A type that carries a name is the only one of its kind with this name. -/
theorem run_attachAlias {t : TypeTable} {d : TypeData} {x : TypeId} {a : AliasRef}
    (hx : t.types.get? x.index = some { kind := d.kind }) (hcarries : carriesAlias d.kind)
    (ha : d.aliased = some a) : (TypeTable.attachAlias x a).run t = (store d).run t := by
  rw [TypeTable.attachAlias, StateT.run_bind, StateT.run_get, pure_bind]
  dsimp only
  rw [hx]
  dsimp only
  rw [if_pos hcarries, ← ha]

theorem eq_of_get? {t : TypeTable} {x : TypeId} {d : TypeData} (hx : t.types.get? x.index = some d)
    (hid : t.types.get? id.index = some d) : x = id :=
  congrArg TypeId.mk (Interner.get?_inj hx hid)

/-- What is built without its name gets the name that the type has, with the same arguments. -/
theorem spares_renamed (hc : c.Faithful s.nullChecks) (ht : c.Tidy s) {t v : TypeTable} {d : TypeData}
    (htd : t.types.get? id.index = some d) (hid : c.table.types.get? id.index = some d) {x : TypeId}
    (hx : c.table.types.get? x.index = some { kind := d.kind }) :
    let r := ((renamed ops t id m (some x)).run s).run c
    r.2.depthReported = false → r.2.table.Grows v → (∀ a ∈ d.aliased, ∀ arg ∈ a.args, v.Concrete s arg) →
      r.1 = id := by
  have halias : t.alias? id = d.aliased := by rw [alias?, data_of_get? htd]
  unfold renamed
  rw [halias]
  cases ha : d.aliased with
  | none =>
    intro _ _ _ _
    obtain ⟨k, a⟩ := d
    obtain rfl : a = none := ha
    exact eq_of_get? hx hid
  | some a =>
    intro r hd hv hargs
    let step : Check (List TypeId) := a.args.mapM fun arg => ops.instantiate arg (some m)
    let args := (step.run s).run c
    have hrun : r = ((Check.attachAlias x ⟨a.symbol, args.1⟩).run s).run args.2 := rfl
    have hlater := step.later s c
    have hn : args.2.table.Normal s.nullChecks :=
      (hc.table.trans hlater).keeps.2 (normal_initial s.nullChecks)
    have hgrows : args.2.table.Grows r.2.table :=
      ((Check.attachAlias x ⟨a.symbol, args.1⟩).later s args.2).keeps.1
    have hsame : args.1 = a.args := (spares_mapM a.args hc ht hd v (hgrows.trans hv) (hargs a rfl)).1
    have hid' := hlater.keeps.1.types _ _ hid
    have hcarries : carriesAlias d.kind := hn.aliased _ _ hid' (by rw [ha]; rfl)
    have hstore := run_attachAlias (hlater.keeps.1.types _ _ hx) hcarries ha
    have hfirst : r.1 = ((store d).run args.2.table).1 := by
      rw [hrun, hsame]
      exact congrArg Prod.fst hstore
    rw [hfirst]
    exact eq_of_get? store_get? (grows_store.types _ _ hid')

/-- A type that stays comes out of a substitution as it is, with its name, if it is there. -/
theorem spares_substitutedIn (hc : c.Faithful s.nullChecks) (ht : c.Tidy s) (hhas : c.table.has id) :
    let r := ((substitutedIn ops c.table id m).run s).run c
    r.2.depthReported = false → r.2.table.Spares s id r.1 := by
  intro r hd v hv hconcrete
  obtain ⟨d, hid⟩ := Option.isSome_iff_exists.1 hhas
  have hgrows : c.table.Grows r.2.table := ((substitutedIn ops c.table id m).later s c).keeps.1
  cases hconcrete with
  | @mk _ d' hget hsettles hparts hargs =>
    obtain rfl : d' = d := Option.some.inj (hget.symm.trans ((hgrows.trans hv).types _ _ hid))
    have hkind : c.table.kind id = d'.kind := kind_of_get? hid
    let x := instantiateKind? ops m d'.kind
    let out := (x.run s).run c
    have hstep : substitutedIn ops c.table id m = x >>= renamed ops c.table id m := by
      rw [show x = instantiateKind? ops m (c.table.kind id) by rw [hkind]]
      unfold substitutedIn
      cases hk : c.table.kind id with
      | param symbol =>
        rw [← hkind, hk] at hsettles
        cases hsettles
      | _ => rfl
    have hrun : r = ((renamed ops c.table id m out.1).run s).run out.2 := by
      show ((Check.run (substitutedIn ops c.table id m) s).run c) = _
      rw [hstep, run_bind]
    cases hout : out.1 with
    | none =>
      rw [hrun, hout]
      rfl
    | some y =>
      rw [hout] at hrun
      rw [hrun] at hd hv ⊢
      have hquiet := ((renamed ops c.table id m (some y)).retains s out.2).quiet hd
      have hout' := ((renamed ops c.table id m (some y)).later s out.2).keeps.1.trans hv
      exact spares_renamed (x.faithful s c hc) (x.tidy s c hc ht) hid
        ((x.later s c).keeps.1.types _ _ hid)
        (rebuilds_of_get? hc ht hid hquiet v hout' hsettles hparts y hout) hd hv hargs

/-- What is worked out for a type that is looked at for the first time is the type, if it stays. -/
theorem spares_substituted (ops : Operations) (id : TypeId) (m : MapperId) :
    (substituted ops id m).Spares id := by
  intro s c hc ht
  show ((Check.run (if c.table.has id && c.table.hasMapper m then substitutedIn ops c.table id m
    else giveUp .error : Check TypeId) s).run c).2.depthReported = false → _
  have hrun : ((substituted ops id m).run s).run c = ((Check.run (if c.table.has id && c.table.hasMapper m
    then substitutedIn ops c.table id m else giveUp .error : Check TypeId) s).run c) := rfl
  rw [hrun]
  split
  · rename_i hin
    exact spares_substitutedIn hc ht (Bool.and_eq_true_iff.1 hin).1
  · exact spares_giveUp .error s c hc ht

end Typing

end DeclKit

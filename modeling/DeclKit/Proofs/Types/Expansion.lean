/-
Templates multiplied out.

A template with unions among its types is worked out one union at a time, and each time the members are
put into a union of their own. In the end it is the union of the templates without unions that arise when
one member is chosen of each type: as a word each of them is the template's own word with one of the
words that a type may contribute in place of each type.
-/
import DeclKit.Proofs.Types.Algebra
import DeclKit.Proofs.Types.Word

set_option autoImplicit false

namespace DeclKit

namespace Stored

open TypeTable

variable {nullChecks : Bool} {α β : Type} {t : TypeTable}

/-- What holds of the result of each step in its own table holds of all results in the last one, if it
is kept by later steps. -/
theorem run_mapM_forall₂ {f : α → Stored β} {xs : List α} {P : α → β → TypeTable → Prop}
    (hf : ∀ x ∈ xs, ∀ u, t.Keeps nullChecks u →
      u.Keeps nullChecks ((f x).run u).2 ∧ P x ((f x).run u).1 ((f x).run u).2)
    (hmono : ∀ x y u v, t.Keeps nullChecks u → u.Keeps nullChecks v → P x y u → P x y v) :
    t.Keeps nullChecks ((xs.mapM f).run t).2 ∧
      Forall₂ (fun x y => P x y ((xs.mapM f).run t).2) xs ((xs.mapM f).run t).1 := by
  -- the steps already taken lead from `t` to the table at hand
  have steps (ys : List α) (hys : ∀ y ∈ ys, y ∈ xs) (u : TypeTable) (hu : t.Keeps nullChecks u) :
      u.Keeps nullChecks ((ys.mapM f).run u).2 ∧
        Forall₂ (fun x y => P x y ((ys.mapM f).run u).2) ys ((ys.mapM f).run u).1 := by
    induction ys generalizing u with
    | nil => exact ⟨TypeTable.Keeps.refl nullChecks u, .nil⟩
    | cons y ys ih =>
      rw [List.forall_mem_cons] at hys
      obtain ⟨hstep, hP⟩ := hf y hys.1 u hu
      obtain ⟨hrest, hall⟩ := ih hys.2 _ (hu.trans hstep)
      rw [List.mapM_cons]
      exact ⟨hstep.trans hrest, .cons (hmono y _ _ _ (hu.trans hstep) hrest hP) hall⟩
  exact steps xs (fun _ hx => hx) t (TypeTable.Keeps.refl nullChecks t)

end Stored

namespace TypeTable

variable {nullChecks : Bool} {t u : TypeTable}

/-! ## Collections that come to one union -/

namespace Unites

variable {ms ms' ms'' ns ns' : List TypeId}

theorem refl (ms : List TypeId) : t.Unites nullChecks ms ms := ⟨rfl, fun _ _ => Iff.rfl⟩

theorem symm (h : t.Unites nullChecks ms ms') : t.Unites nullChecks ms' ms :=
  ⟨h.swallower.symm, fun hnone m => (h.survivors (h.swallower.trans hnone) m).symm⟩

theorem trans (h : t.Unites nullChecks ms ms') (h' : t.Unites nullChecks ms' ms'') :
    t.Unites nullChecks ms ms'' where
  swallower := h.swallower.trans h'.swallower
  survivors hnone m := (h.survivors hnone m).trans (h'.survivors (h.swallower ▸ hnone) m)

/-- More types on both sides change nothing: what survives of a collection stands for it. -/
theorem append_right (ht : t.Normal nullChecks) (h : t.Unites nullChecks ms ms')
    (more : List TypeId) : t.Unites nullChecks (ms ++ more) (ms' ++ more) := by
  cases hs : swallower? ms with
  | some id =>
    have hs' := h.swallower.symm.trans hs
    have hcons := swallower?_append_of_some hs more
    have hcons' := swallower?_append_of_some hs' more
    refine ⟨hcons.symm.trans hcons', fun hnone => ?_⟩
    rw [← hcons] at hnone
    exact absurd hnone (swallower?_cons_ne_none hs more)
  | none =>
    have hs' := h.swallower.symm.trans hs
    have hkept (m : TypeId) : m ∈ t.reducedMembers nullChecks ms ↔ t.Survives nullChecks ms m :=
      mem_reducedMembers_iff ht
    have hkept' (m : TypeId) := (hkept m).trans (h.survivors hs m)
    refine ⟨?_, fun _ m => ?_⟩
    · rw [swallower?_append_of_none hs, swallower?_append_of_none hs']
    · rw [← survives_append_iff hkept, survives_append_iff hkept']

theorem append (ht : t.Normal nullChecks) (h : t.Unites nullChecks ms ms')
    (h' : t.Unites nullChecks ns ns') : t.Unites nullChecks (ms ++ ns) (ms' ++ ns') := by
  have hcomm (as bs : List TypeId) : t.Unites nullChecks (as ++ bs) (bs ++ as) :=
    .of_mem_iff fun m => by rw [List.mem_append, List.mem_append, or_comm]
  exact (h.append_right ht ns).trans
    ((hcomm ms' ns).trans ((h'.append_right ht ms').trans (hcomm ns' ms')))

end Unites

/-- A type that may stand in a union is its own union. -/
theorem run_union_singleton (ht : t.Normal nullChecks) {id : TypeId} (h : (t.kind id).inUnion) :
    (union nullChecks [id]).run t = (id, t) := by
  have hatoms : t.atomsOf [id] = [id] := by
    rw [atomsOf, List.flatMap_singleton, atoms_of_isAtom (isAtom_of_inUnion h)]
  have hnone : swallower? [id] = none := by
    have hne {i : Nat} {k : TypeKind} (hi : intrinsics[i]? = some k) (hk : k.inUnion = false) :
        ⟨i⟩ ∉ [id] := by
      intro hmem
      rw [← List.mem_singleton.1 hmem, ht.kind_fixed hi, hk] at h
      cases h
    rw [swallower?_eq_none]
    exact ⟨hne (i := 1) rfl rfl, hne (i := 0) rfl rfl, hne (i := 2) rfl rfl⟩
  have hmembers : ([id].foldl t.collectUnion {}).members.toList = [id] := by
    rw [foldl_collectUnion ht, hatoms, List.foldl_cons, List.foldl_nil, collectAtom_of_inUnion h]
    simp [UnionParts.add]
  have huncovered : t.isCovered [id] id = false := by
    rw [← Bool.not_eq_true, isCovered_iff ht]
    rintro ⟨n, hn, hcovers⟩
    obtain rfl := List.mem_singleton.1 hn
    rw [TypeKind.not_covers_of_covers hcovers] at hcovers
    cases hcovers
  have hreduced : t.reducedMembers nullChecks [id] = [id] := by
    unfold reducedMembers
    by_cases hnull : isNullish id = true <;> simp [huncovered, hnull]
  rw [run_union ht, hatoms, hnone]
  dsimp only
  rw [hmembers, hreduced]
  rfl

/-! ## Storing what is there -/

/-- A type that is in the table is not stored again. -/
theorem run_store_of_get? {d : TypeData} {id : TypeId} (h : t.types.get? id.index = some d) :
    (store d).run t = (id, t) := by
  show ((⟨(t.types.intern d).1⟩, { t with types := (t.types.intern d).2 }) : TypeId × TypeTable) = _
  rw [Interner.intern_of_get? h]

/-! ## What the types of a template contribute -/

/-- A type may contribute a word to a template: a union those of its members, `never` none, and any
other type its own. -/
def Contributes (t : TypeTable) (id : TypeId) (w : TemplateWord) : Prop :=
  ∃ m ∈ t.atoms id, t.partWord m = w

/-- What a type contributes is the same in every later table. -/
theorem contributes_iff_of_grows (ht : t.Normal nullChecks) (htu : t.Grows u) {id : TypeId}
    (hid : t.Given (.type id)) (w : TemplateWord) : u.Contributes id w ↔ t.Contributes id w := by
  rw [Contributes, Contributes, atoms_eq_of_given hid htu]
  refine exists_congr fun m => and_congr_right fun hm => ?_
  rw [partWord_eq_of_kind (kind_eq_of_given (given_of_mem_atoms ht hid hm) htu)]

theorem contributes_of_isAtom {id : TypeId} (h : t.IsAtom id) (w : TemplateWord) :
    t.Contributes id w ↔ t.partWord id = w := by
  rw [Contributes, atoms_of_isAtom h]
  simp

/-- A union contributes what its members contribute. -/
theorem contributes_union (ht : t.Normal nullChecks) {id : TypeId} {ms : List TypeId}
    (hk : t.kind id = .union ms) (w : TemplateWord) :
    t.Contributes id w ↔ ∃ m ∈ ms, t.Contributes m w := by
  have hatoms : t.atoms id = ms := by rw [atoms, hk]
  rw [Contributes, hatoms]
  refine exists_congr fun m => and_congr_right fun hm => ?_
  rw [contributes_of_isAtom (isAtom_of_inUnion ((ht.union hk hm).plain m hm))]

/-- Where no type is a union or `never`, the template stands for its settled word alone. -/
theorem expands_contributes_of_isAtom {head : String} {spans : List (TypeId × String)}
    (h : ∀ s ∈ spans, t.IsAtom s.1) (w : TemplateWord) :
    Expands t.Contributes (templateWord head spans) w ↔ w = t.settledWord head spans := by
  have behind (w : TemplateWord) : Expands t.Contributes (spansWord spans) w ↔
      w = spans.flatMap fun s => t.partWord s.1 ++ textWord s.2 := by
    induction spans generalizing w with
    | nil =>
      constructor
      · rintro ⟨⟩
        rfl
      · rintro rfl
        exact .nil
    | cons s spans ih =>
      rw [List.forall_mem_cons] at h
      have ih := ih h.2
      rw [spansWord, List.flatMap_cons, ← spansWord, List.flatMap_cons]
      constructor
      · intro hw
        cases hw with
        | type hs hw =>
          obtain ⟨x, y, rfl, hx, hy⟩ := hw.append_inv
          rw [(contributes_of_isAtom h.1 _).1 hs, Expands.textWord_iff.1 hx, (ih y).1 hy,
            List.append_assoc]
      · rintro rfl
        rw [List.append_assoc, List.cons_append]
        refine .type ((contributes_of_isAtom h.1 _).2 rfl) ?_
        exact (Expands.textWord_iff.2 rfl).append ((ih _).2 rfl)
  rw [templateWord, settledWord]
  constructor
  · intro hw
    obtain ⟨x, y, rfl, hx, hy⟩ := hw.append_inv
    rw [Expands.textWord_iff.1 hx, (behind y).1 hy]
  · rintro rfl
    exact (Expands.textWord_iff.2 rfl).append ((behind _).2 rfl)

/-- A template with a union stands for what it stands for with the members of the union in its place. -/
theorem expands_contributes_withPart (ht : t.Normal nullChecks) {head : String}
    {spans : List (TypeId × String)} {s : UnionSplit (TypeId × String)}
    (hs : t.splitAtUnion? (·.1) spans = some s) (w : TemplateWord) :
    Expands t.Contributes (templateWord head spans) w ↔ ∃ m ∈ s.members,
      Expands t.Contributes (templateWord head (s.withPart (m, s.part.2))) w := by
  obtain ⟨hspans, hk⟩ := splitAtUnion?_spec hs
  have hword (id : TypeId) : templateWord head (s.withPart (id, s.part.2)) =
      templateWord head s.before ++ ([.inr id] ++ (textWord s.part.2 ++ spansWord s.after)) := by
    simp only [templateWord, spansWord, UnionSplit.withPart, List.flatMap_append, List.flatMap_cons,
      List.append_assoc, List.cons_append, List.nil_append]
  have hpart : templateWord head spans = templateWord head s.before ++
      ([.inr s.part.1] ++ (textWord s.part.2 ++ spansWord s.after)) := by
    rw [← hword, hspans]
    rfl
  rw [hpart]
  constructor
  · intro hw
    obtain ⟨x, y, rfl, hx, hy⟩ := hw.append_inv
    obtain ⟨y, z, rfl, hy, hz⟩ := hy.append_inv
    obtain ⟨m, hm, hy⟩ := (contributes_union ht hk y).1 (Expands.single_iff.1 hy)
    refine ⟨m, hm, ?_⟩
    rw [hword]
    exact hx.append ((Expands.single_iff.2 hy).append hz)
  · rintro ⟨m, hm, hw⟩
    rw [hword] at hw
    obtain ⟨x, y, rfl, hx, hy⟩ := hw.append_inv
    obtain ⟨y, z, rfl, hy, hz⟩ := hy.append_inv
    have hy := (contributes_union ht hk y).2 ⟨m, hm, Expands.single_iff.1 hy⟩
    exact hx.append ((Expands.single_iff.2 hy).append hz)

/-! ## Types that words make -/

/-- Types are those that the words of a collection make, each of them stored without an alias. -/
structure Makes (t : TypeTable) (L : TemplateWord → Prop) (ids : List TypeId) : Prop where
  stored : ∀ w, L w → ∃ id ∈ ids, t.types.get? id.index = some { kind := wordKind w }
  only : ∀ id ∈ ids, ∃ w, L w ∧ t.types.get? id.index = some { kind := wordKind w }

namespace Makes

variable {L L' : TemplateWord → Prop} {ids ids' : List TypeId}

theorem grows (h : t.Makes L ids) (htu : t.Grows u) : u.Makes L ids where
  stored w hw :=
    let ⟨id, hid, hget⟩ := h.stored w hw
    ⟨id, hid, htu.types _ _ hget⟩
  only id hid :=
    let ⟨w, hw, hget⟩ := h.only id hid
    ⟨w, hw, htu.types _ _ hget⟩

theorem given (h : t.Makes L ids) : ∀ id ∈ ids, t.Given (.type id) := by
  intro id hid
  obtain ⟨w, -, hget⟩ := h.only id hid
  exact given_of_get? hget

theorem congr (h : t.Makes L ids) (hL : ∀ w, L w ↔ L' w) : t.Makes L' ids where
  stored w hw := h.stored w ((hL w).2 hw)
  only id hid :=
    let ⟨w, hw, hget⟩ := h.only id hid
    ⟨w, (hL w).1 hw, hget⟩

theorem append (h : t.Makes L ids) (h' : t.Makes L' ids') :
    t.Makes (fun w => L w ∨ L' w) (ids ++ ids') where
  stored w hw := by
    rcases hw with hw | hw
    · obtain ⟨id, hid, hget⟩ := h.stored w hw
      exact ⟨id, List.mem_append_left _ hid, hget⟩
    · obtain ⟨id, hid, hget⟩ := h'.stored w hw
      exact ⟨id, List.mem_append_right _ hid, hget⟩
  only id hid := by
    rcases List.mem_append.1 hid with hid | hid
    · obtain ⟨w, hw, hget⟩ := h.only id hid
      exact ⟨w, .inl hw, hget⟩
    · obtain ⟨w, hw, hget⟩ := h'.only id hid
      exact ⟨w, .inr hw, hget⟩

/-- Types that the same words make are the same types. -/
theorem mem_iff (h : t.Makes L ids) (h' : t.Makes L ids') (id : TypeId) : id ∈ ids ↔ id ∈ ids' := by
  have half {ids ids' : List TypeId} (h : t.Makes L ids) (h' : t.Makes L ids') (hid : id ∈ ids) :
      id ∈ ids' := by
    obtain ⟨w, hw, hget⟩ := h.only id hid
    obtain ⟨id', hid', hget'⟩ := h'.stored w hw
    have heq : id.index = id'.index := Interner.get?_inj hget hget'
    obtain ⟨i⟩ := id
    obtain ⟨j⟩ := id'
    obtain rfl : i = j := heq
    exact hid'
  exact ⟨half h h', half h' h⟩

/-- What a word makes may stand in a union. -/
theorem inUnion (h : t.Makes L ids) : ∀ id ∈ ids, (t.kind id).inUnion := by
  intro id hid
  obtain ⟨w, -, hget⟩ := h.only id hid
  rw [kind_of_get? hget]
  rcases wordKind_cases w with ⟨s, hk, -⟩ | ⟨hk, -⟩ | ⟨head, spans, hk, -⟩ <;> rw [hk] <;> rfl

theorem atomsOf_eq (h : t.Makes L ids) : t.atomsOf ids = ids := by
  have hatoms : ∀ id ∈ ids, t.atoms id = [id] :=
    fun id hid => atoms_of_isAtom (isAtom_of_inUnion (h.inUnion id hid))
  rw [atomsOf, flatMap_congr_of_mem hatoms, List.flatMap_singleton']

end Makes

/-! ## Multiplying out -/

/-- A template is worked out by templates with fewer unions. -/
theorem run_template (ht : t.Normal nullChecks) (head : String) (spans : List (TypeId × String)) :
    (template nullChecks head spans).run t =
      (templateStep nullChecks head (template nullChecks head) spans).run t := by
  refine Stored.run_templateStep_congr ht head (Stored.keeps_template nullChecks head) ?_
  intro v spans' hv hlt
  refine Stored.run_descend_templateStep (hv.2 ht) head _ ?_
  exact Nat.lt_of_lt_of_le hlt List.countP_le_length

/-- A template without unions is what its settled word makes. -/
theorem run_flatTemplate (ht : t.Normal nullChecks) (head : String)
    (spans : List (TypeId × String)) :
    (flatTemplate head spans).run t = (intern (wordKind (t.settledWord head spans))).run t := by
  unfold flatTemplate wordKind
  rw [StateT.run_bind, StateT.run_get, pure_bind]
  dsimp only
  rw [foldl_addPart]
  generalize TemplateParts.ofWord (t.settledWord head spans) = p
  rcases p.spans.reverse with _ | ⟨⟨id, tail⟩, _ | ⟨span, more⟩⟩
  · rfl
  · dsimp only
    split
    · exact (run_store_of_get? (ht.fixed 5 _ rfl)).symm
    · rfl
  · rfl

/-- Where one of the types is `never`, no word is made. -/
theorem not_expands_of_never (ht : t.Normal nullChecks) {head : String}
    {spans : List (TypeId × String)} (h : ∃ s ∈ spans, s.1 = .never) (w : TemplateWord) :
    ¬Expands t.Contributes (templateWord head spans) w := by
  intro hw
  obtain ⟨x, hx⟩ := hw.exists_of_mem (mem_templateWord.2 h)
  obtain ⟨m, hm, -⟩ := hx
  rw [atoms, show t.kind .never = .never from ht.kind_fixed rfl] at hm
  cases hm

/-- A type is the union of what the words of a collection make. -/
def UnionOfWords (nullChecks : Bool) (t : TypeTable) (L : TemplateWord → Prop) (id : TypeId) : Prop :=
  ∃ ids, t.Makes L ids ∧ (union nullChecks ids).run t = (id, t)

namespace UnionOfWords

variable {L L' : TemplateWord → Prop} {id : TypeId}

theorem congr (h : t.UnionOfWords nullChecks L id) (hL : ∀ w, L w ↔ L' w) :
    t.UnionOfWords nullChecks L' id :=
  let ⟨ids, hmakes, hunion⟩ := h
  ⟨ids, hmakes.congr hL, hunion⟩

/-- It is this union in every later table. -/
theorem grows (ht : t.Normal nullChecks) (h : t.UnionOfWords nullChecks L id)
    (htu : t.Keeps nullChecks u) : u.UnionOfWords nullChecks L id := by
  obtain ⟨ids, hmakes, hunion⟩ := h
  refine ⟨ids, hmakes.grows htu.1, ?_⟩
  rw [run_union_again ht (htu.2 ht) hmakes.given htu.1 (hunion ▸ htu.1), hunion]

/-- There is only one type that the same words make. -/
theorem unique (ht : t.Normal nullChecks) {id' : TypeId} (h : t.UnionOfWords nullChecks L id)
    (h' : t.UnionOfWords nullChecks L id') : id = id' := by
  obtain ⟨ids, hmakes, hunion⟩ := h
  obtain ⟨ids', hmakes', hunion'⟩ := h'
  have hsame : (TypeTable.union nullChecks ids).run t = (TypeTable.union nullChecks ids').run t := by
    refine Unites.run_union ht (.of_mem_iff fun m => ?_)
    rw [hmakes.atomsOf_eq, hmakes'.atomsOf_eq]
    exact hmakes.mem_iff hmakes' m
  rw [hunion, hunion'] at hsame
  exact congrArg Prod.fst hsame

/-- Without words there is nothing but `never`. -/
theorem of_none (ht : t.Normal nullChecks) (hL : ∀ w, ¬L w) :
    t.UnionOfWords nullChecks L .never := by
  refine ⟨[], ⟨fun w hw => absurd hw (hL w), fun _ hid => absurd hid List.not_mem_nil⟩, ?_⟩
  have hreduced : t.reducedMembers nullChecks [] = [] := by simp [reducedMembers]
  rw [run_union ht, List.foldl_nil]
  show (ofMembers (t.reducedMembers nullChecks [])).run t = _
  rw [hreduced]
  rfl

/-- One word makes one type. -/
theorem of_one {w : TemplateWord} (hL : ∀ v, L v ↔ v = w)
    (hr : ((intern (wordKind w)).run t).2.Normal nullChecks) :
    let r := (intern (wordKind w)).run t
    r.2.UnionOfWords nullChecks L r.1 := by
  intro r
  have hget : r.2.types.get? r.1.index = some { kind := wordKind w } := store_get?
  have hmakes : r.2.Makes L [r.1] := by
    refine ⟨fun v hv => ⟨r.1, List.mem_cons_self, ?_⟩, fun id hid => ⟨w, (hL w).2 rfl, ?_⟩⟩
    · rw [(hL v).1 hv, hget]
    · rw [List.mem_singleton.1 hid, hget]
  exact ⟨_, hmakes, run_union_singleton hr (hmakes.inUnion _ List.mem_cons_self)⟩

/-- One word makes the type that is of its kind. -/
theorem get?_of_one (ht : t.Normal nullChecks) {w : TemplateWord} (hL : ∀ v, L v ↔ v = w)
    (h : t.UnionOfWords nullChecks L id) : t.types.get? id.index = some { kind := wordKind w } := by
  obtain ⟨ids, hmakes, hunion⟩ := h
  obtain ⟨m, hm, hget⟩ := hmakes.stored w ((hL w).2 rfl)
  have hone : t.Makes L [m] := by
    refine ⟨fun v hv => ⟨m, List.mem_cons_self, ?_⟩, fun n hn => ⟨w, (hL w).2 rfl, ?_⟩⟩
    · rw [(hL v).1 hv, hget]
    · rw [List.mem_singleton.1 hn, hget]
  have hself := run_union_singleton ht (hone.inUnion m List.mem_cons_self)
  rwa [unique ht ⟨ids, hmakes, hunion⟩ ⟨[m], hone, hself⟩]

/-- The union of unions is the union of all that is in them. -/
theorem union (ht : t.Normal nullChecks) {α : Type} {L : α → TemplateWord → Prop} {xs : List α}
    {ys : List TypeId} (h : Forall₂ (fun x y => t.UnionOfWords nullChecks (L x) y) xs ys) :
    let r := (TypeTable.union nullChecks ys).run t
    r.2.UnionOfWords nullChecks (fun w => ∃ x ∈ xs, L x w) r.1 := by
  have hall : ∃ ids, t.Makes (fun w => ∃ x ∈ xs, L x w) ids ∧
      t.Unites nullChecks (t.atomsOf ids) (t.atomsOf ys) := by
    induction h with
    | nil =>
      refine ⟨[], ⟨fun w hw => ?_, fun _ hid => absurd hid List.not_mem_nil⟩, .refl _⟩
      obtain ⟨x, hx, -⟩ := hw
      cases hx
    | @cons x y xs ys hx _ ih =>
      obtain ⟨ids, hmakes, hunion⟩ := hx
      obtain ⟨ids', hmakes', hunites⟩ := ih
      refine ⟨ids ++ ids', (hmakes.append hmakes').congr fun w => ?_, ?_⟩
      · simp only [List.mem_cons, exists_eq_or_imp]
      · have hone := (unites_of_run_union ht hunion []).symm
        rw [List.append_nil, List.append_nil] at hone
        simp only [atomsOf, List.flatMap_append, List.flatMap_cons] at hone hunites ⊢
        exact hone.append ht hunites
  obtain ⟨ids, hmakes, hunites⟩ := hall
  have hkeeps := Stored.keeps_union nullChecks ys t
  refine ⟨ids, hmakes.grows hkeeps.1, ?_⟩
  rw [← Unites.run_union ht hunites] at hkeeps ⊢
  exact run_union_again ht (hkeeps.2 ht) hmakes.given hkeeps.1 (.refl _)

end UnionOfWords

/-- A template is the union of the types that its words make: of all words that arise when each type
contributes one of its own. By induction on the unions among its types, of which each step removes one. -/
theorem unionOfWords_template (ht : t.Normal nullChecks) (head : String)
    {spans : List (TypeId × String)} (hgiven : ∀ s ∈ spans, t.Given (.type s.1))
    (herror : ∀ s ∈ spans, s.1 ≠ .error) :
    let r := (template nullChecks head spans).run t
    r.2.UnionOfWords nullChecks (Expands t.Contributes (templateWord head spans)) r.1 := by
  induction hn : t.unions (·.1) spans using Nat.strongRecOn generalizing t spans with
  | ind n ih =>
  intro r
  have hrun : r = _ := run_template ht head spans
  rw [templateStep] at hrun
  split at hrun
  · rename_i hnever
    rw [hrun]
    simp only [List.any_eq_true, beq_iff_eq] at hnever
    exact .of_none ht (not_expands_of_never ht hnever)
  rename_i hnever
  split at hrun
  · rename_i herror'
    simp only [List.any_eq_true, beq_iff_eq] at herror'
    obtain ⟨s, hs, heq⟩ := herror'
    exact absurd heq (herror s hs)
  simp only [StateT.run_bind, StateT.run_get, pure_bind] at hrun
  split at hrun
  · rename_i s hs
    obtain ⟨hspans, hk⟩ := splitAtUnion?_spec hs
    have hpart : s.part ∈ spans := by
      rw [hspans]
      exact List.mem_append_right _ List.mem_cons_self
    have hmem {m : TypeId} {p : TypeId × String} (hp : p ∈ s.withPart (m, s.part.2)) :
        p ∈ spans ∨ p = (m, s.part.2) := by
      rw [hspans, List.mem_append, List.mem_cons]
      rw [UnionSplit.withPart, List.mem_append, List.mem_cons] at hp
      grind
    have hmembers : ∀ m ∈ s.members, t.Given (.type m) ∧ m ≠ .error := by
      intro m hm
      refine ⟨given_of_mem_atoms ht (hgiven _ hpart) (by rwa [atoms, hk]), ?_⟩
      rintro rfl
      have hplain := (ht.union hk hm).plain _ hm
      rw [show t.kind .error = .error from ht.kind_fixed rfl] at hplain
      cases hplain
    have hstep (m : TypeId) (hm : m ∈ s.members) (u : TypeTable) (hu : t.Keeps nullChecks u) :
        let r := (template nullChecks head (s.withPart (m, s.part.2))).run u
        u.Keeps nullChecks r.2 ∧ r.2.UnionOfWords nullChecks
          (Expands t.Contributes (templateWord head (s.withPart (m, s.part.2)))) r.1 := by
      have hlt : u.unions (·.1) (s.withPart (m, s.part.2)) < n :=
        hn ▸ Nat.lt_of_le_of_lt (unions_grows hu.1 _) (unions_withPart hs (ht.not_union_of_mem hk hm))
      have hgiven' : ∀ p ∈ s.withPart (m, s.part.2), t.Given (.type p.1) := by
        intro p hp
        rcases hmem hp with hp | rfl
        · exact hgiven p hp
        · exact (hmembers m hm).1
      have herror' : ∀ p ∈ s.withPart (m, s.part.2), p.1 ≠ .error := by
        intro p hp
        rcases hmem hp with hp | rfl
        · exact herror p hp
        · exact (hmembers m hm).2
      refine ⟨Stored.keeps_template nullChecks head _ u, ?_⟩
      refine (ih _ hlt (hu.2 ht) (fun p hp => (hgiven' p hp).mono hu.1) herror' rfl).congr fun w => ?_
      refine Expands.congr fun id hid x => contributes_iff_of_grows ht hu.1 ?_ x
      obtain ⟨p, hp, rfl⟩ := mem_templateWord.1 hid
      exact hgiven' p hp
    have hsteps := Stored.run_mapM_forall₂ (P := fun m y u => u.UnionOfWords nullChecks
      (Expands t.Contributes (templateWord head (s.withPart (m, s.part.2)))) y) hstep
      fun m y u v hu huv h => h.grows (hu.2 ht) huv
    rw [hrun]
    refine (UnionOfWords.union (hsteps.1.2 ht) hsteps.2).congr fun w => ?_
    exact (expands_contributes_withPart ht hs w).symm
  · rename_i hnone
    rw [run_flatTemplate ht] at hrun
    have hr : r.2.Normal nullChecks := (Stored.keeps_template nullChecks head spans t).2 ht
    rw [hrun] at hr ⊢
    refine .of_one (fun w => expands_contributes_of_isAtom (fun s hs => ⟨?_, fun hk => ?_⟩) w) hr
    · have hunion := not_union_of_splitAtUnion? hnone s hs
      cases hk : t.kind s.1 with
      | union ms => exact absurd hk (hunion ms)
      | _ => rfl
    · refine hnever ?_
      rw [List.any_eq_true]
      exact ⟨s, hs, beq_iff_eq.2 (ht.eq_of_kind (i := 13) rfl rfl hk)⟩

/-- A template whose types are no unions is stored as its one word makes it. -/
theorem get?_template (ht : t.Normal nullChecks) (head : String) {spans : List (TypeId × String)}
    (hgiven : ∀ s ∈ spans, t.Given (.type s.1)) (herror : ∀ s ∈ spans, s.1 ≠ .error)
    (hatom : ∀ s ∈ spans, t.IsAtom s.1) :
    let r := (template nullChecks head spans).run t
    r.2.types.get? r.1.index = some { kind := wordKind (t.settledWord head spans) } :=
  UnionOfWords.get?_of_one ((Stored.keeps_template nullChecks head spans t).2 ht)
    (expands_contributes_of_isAtom hatom) (unionOfWords_template ht head hgiven herror)

end TypeTable

end DeclKit

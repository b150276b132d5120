/-
One substitution after another.

What a type has become is in normal form before the second substitution looks at it: members that others
cover have been dropped, and templates have been multiplied out. For unions that is no loss. A member is
covered by a primitive type, which stays, and whatever becomes of the member is covered as well, so it
would be dropped later. A template, though, is made of the words that its types stand for, and a word
is lost when the type that contributes it is absorbed in between. Where nothing of that sort is lost, two
substitutions come to the composed one.
-/
import DeclKit.Proofs.Types.Substitution

set_option autoImplicit false

namespace DeclKit

namespace TypeKind

/-- What covers a kind has no parts and may stand in a union, as may what it covers. That has no parts
either, unless it is a text. -/
theorem inUnion_of_covers {k l : TypeKind} (h : l.covers k) :
    l.isFixed ∧ l.inUnion ∧ k.inUnion ∧
      (k.isFixed ∨ l = .string ∧ ((∃ head spans, k = .template head spans) ∨ k.isStructural = false)) := by
  unfold covers at h
  split at h
  · exact ⟨rfl, rfl, rfl, .inl rfl⟩
  · exact ⟨rfl, rfl, rfl, .inr ⟨rfl, .inl ⟨_, _, rfl⟩⟩⟩
  · exact ⟨rfl, rfl, rfl, .inr ⟨rfl, .inr rfl⟩⟩
  · exact ⟨rfl, rfl, rfl, .inl rfl⟩
  · exact ⟨rfl, rfl, rfl, .inl rfl⟩
  · exact ⟨rfl, rfl, rfl, .inl rfl⟩
  · cases h

end TypeKind

namespace TypeTable

variable {nullChecks : Bool} {t u : TypeTable} {σ : SymbolId → Option TypeId} {id r : TypeId}

/-! ## Members and what they become -/

/-- What something has become of is stored without an alias. -/
theorem Becomes.get? (h : t.Becomes nullChecks σ id r) :
    t.types.get? id.index = some { kind := t.kind id } := by
  cases h with
  | fixed hid _ => rw [kind_of_get? hid, hid]
  | param hid _ => rw [kind_of_get? hid, hid]
  | built hid _ _ _ _ => rw [kind_of_get? hid, hid]

/-- What a type becomes is the union of what its members become. -/
theorem Becomes.exists_atoms (ht : t.Normal nullChecks) (hσ : t.Mild σ)
    (h : t.Becomes nullChecks σ id r) :
    ∃ ys, Forall₂ (t.Becomes nullChecks σ) (t.atoms id) ys ∧
      t.Unites nullChecks (t.atoms r) (t.atomsOf ys) ∧ ∀ q ∈ t.atoms r, q ∈ t.atomsOf ys := by
  have hget := h.get?
  by_cases hatom : t.IsAtom id
  · refine ⟨[r], ?_, ?_⟩
    · rw [atoms_of_isAtom hatom]
      exact .cons h .nil
    · rw [atomsOf, List.flatMap_singleton]
      exact ⟨.refl _, fun _ hq => hq⟩
  cases hk : t.kind id with
  | union ms =>
    rw [hk] at hget
    have hatoms : t.atoms id = ms := by rw [atoms, hk]
    have hform : t.NormalUnion nullChecks ms := ht.forms _ _ hget
    obtain ⟨rs, hrs, hr⟩ := h.exists_rebuilt hget rfl
    have hmild := forall_of_forall₂ hrs fun m hm y hy =>
      hy.not_mem_swallowers ht hσ (not_mem_swallowers_of_inUnion ht (hform.plain m hm))
    refine ⟨rs, by rwa [hatoms], ?_, fun q hq => ?_⟩
    · have hunites := unites_of_run_union ht hr []
      rwa [List.append_nil, List.append_nil] at hunites
    · exact ((mem_atoms_of_run_union ht hr (swallower?_atomsOf ht hmild) q).1 hq).mem
  | never =>
    rw [hk] at hget
    obtain rfl := h.eq_of_isFixed hget rfl
    have hatoms : t.atoms r = [] := by rw [atoms, hk]
    rw [hatoms]
    exact ⟨[], .nil, .refl _, fun _ hq => absurd hq List.not_mem_nil⟩
  | _ => exact absurd ⟨by rw [hk]; rfl, by rw [hk]; exact TypeKind.noConfusion⟩ hatom

theorem exists_atomsOf (ht : t.Normal nullChecks) (hσ : t.Mild σ) {ids rs : List TypeId}
    (h : Forall₂ (t.Becomes nullChecks σ) ids rs) :
    ∃ ys, Forall₂ (t.Becomes nullChecks σ) (t.atomsOf ids) ys ∧
      t.Unites nullChecks (t.atomsOf rs) (t.atomsOf ys) := by
  induction h with
  | nil => exact ⟨[], .nil, .refl _⟩
  | cons hr _ ih =>
    obtain ⟨ys, hys, hunites, -⟩ := hr.exists_atoms ht hσ
    obtain ⟨zs, hzs, hunites'⟩ := ih
    refine ⟨ys ++ zs, hys.append hzs, ?_⟩
    rw [atomsOf, atomsOf, List.flatMap_cons, List.flatMap_append]
    exact hunites.append ht hunites'

/-! ## Dropping what is covered -/

/-- Types that others cover may be left out of a union, when `null` and `undefined` are types of their
own. -/
theorem unites_of_covered (ht : t.Normal true) {ms ms' : List TypeId} (hsub : ∀ m ∈ ms', m ∈ ms)
    (hcovered : ∀ m ∈ ms, m ∈ ms' ∨ ∃ n ∈ ms', (t.kind n).covers (t.kind m)) :
    t.Unites true ms ms' := by
  have hmem {i : TypeId} (hi : i ∈ swallowers) : i ∈ ms ↔ i ∈ ms' := by
    refine ⟨fun hm => (hcovered i hm).resolve_right ?_, hsub i⟩
    rintro ⟨n, -, hcovers⟩
    exact not_mem_swallowers_of_inUnion ht (TypeKind.inUnion_of_covers hcovers).2.2.1 hi
  have herror : TypeId.error ∈ ms ↔ .error ∈ ms' := hmem (by decide)
  have hany : TypeId.any ∈ ms ↔ .any ∈ ms' := hmem (by decide)
  have hunknown : TypeId.unknown ∈ ms ↔ .unknown ∈ ms' := hmem (by decide)
  refine ⟨by simp only [swallower?, herror, hany, hunknown], fun _ m => ⟨fun h => ?_, fun h => ?_⟩⟩
  · refine ⟨(hcovered m h.mem).resolve_right ?_, fun n hn => h.uncovered n (hsub n hn),
      fun h => by cases h⟩
    rintro ⟨n, hn, hcovers⟩
    exact h.uncovered n (hsub n hn) hcovers
  · refine ⟨hsub m h.mem, fun n hn hcovers => ?_, fun h => by cases h⟩
    rcases hcovered n hn with hn | ⟨o, -, ho⟩
    · exact h.uncovered n hn hcovers
    · rw [TypeKind.not_covers_of_covers hcovers] at ho
      cases ho

/-- The members of what words make are made by one word each. -/
theorem UnionOfWords.exists_of_mem_atoms (ht : t.Normal nullChecks) {L : TemplateWord → Prop}
    (h : t.UnionOfWords nullChecks L id) {q : TypeId} (hq : q ∈ t.atoms id) :
    ∃ w, L w ∧ t.types.get? q.index = some { kind := wordKind w } := by
  obtain ⟨ids, hmakes, hunion⟩ := h
  have hnone := swallower?_atomsOf ht (hmakes.not_mem_swallowers ht)
  have hmem := ((mem_atoms_of_run_union ht hunion hnone q).1 hq).mem
  rw [hmakes.atomsOf_eq] at hmem
  exact hmakes.only q hmem

/-- What becomes of a covered type is covered. -/
theorem Becomes.covered (ht : t.Normal nullChecks) {id' r' : TypeId}
    (hcovers : (t.kind id').covers (t.kind id)) (h : t.Becomes nullChecks σ id r)
    (h' : t.Becomes nullChecks σ id' r') :
    r' = id' ∧ ∀ q ∈ t.atoms r, q = id' ∨ (t.kind id').covers (t.kind q) := by
  obtain ⟨hfixed', -, hin, hcases⟩ := TypeKind.inUnion_of_covers hcovers
  refine ⟨h'.eq_of_isFixed h'.get? hfixed', fun q hq => ?_⟩
  rcases hcases with hfixed | ⟨hstring, ⟨head, spans, hk⟩ | hk⟩
  · obtain rfl := h.eq_of_isFixed h.get? hfixed
    rw [atoms_of_isAtom (isAtom_of_inUnion hin)] at hq
    rw [List.mem_singleton.1 hq]
    exact .inr hcovers
  · -- a text becomes texts, all of them covered by `string`
    have hget := h.get?
    rw [hk] at hget
    obtain ⟨rs, -, hr⟩ := h.exists_rebuilt hget rfl
    obtain ⟨w, -, hw⟩ := UnionOfWords.exists_of_mem_atoms ht hr hq
    rw [hstring, kind_of_get? hw]
    rcases wordKind_cases w with ⟨s, hwk, -⟩ | ⟨hwk, -⟩ | ⟨head, spans, hwk, -⟩
    · exact .inr (by rw [hwk]; rfl)
    · left
      rw [ht.eq_of_kind (i := 5) rfl rfl hstring]
      exact ht.eq_of_kind (i := 5) rfl rfl ((kind_of_get? hw).trans hwk)
    · exact .inr (by rw [hwk]; rfl)
  · rcases h.inv h.get? with ⟨hfixed, -⟩ | ⟨s, hs, -⟩ | ⟨hbuilt, -⟩
    · rw [TypeKind.isStructural_of_isFixed hfixed] at hk
      cases hk
    · rw [hs] at hk
      cases hk
    · rw [TypeKind.isStructural_of_isBuilt hbuilt] at hk
      cases hk

/-- Substitution goes into a union that has been worked out. -/
theorem run_union_becomes (ht : t.Normal true) (hσ : t.Mild σ) {ids rs : List TypeId} {a b : TypeId}
    (h : (union true ids).run t = (a, t)) (hids : ∀ id ∈ ids, id ∉ swallowers)
    (hb : t.Becomes true σ a b) (hplain : t.IsPlain b)
    (hrs : Forall₂ (t.Becomes true σ) ids rs) : (union true rs).run t = (b, t) := by
  obtain ⟨ys, hys, hunites⟩ := exists_atomsOf ht hσ hrs
  obtain ⟨zs, hzs, hunites', -⟩ := hb.exists_atoms ht hσ
  have hkept := mem_atoms_of_run_union ht h (swallower?_atomsOf ht hids)
  -- what a member that has survived becomes is on both sides
  have hcommon {x : TypeId} (hx : t.Survives true (t.atomsOf ids) x) {y : TypeId}
      (hy : t.Becomes true σ x y) : y ∈ zs := by
    obtain ⟨z, hz, hxz⟩ := hzs.exists_of_mem ((hkept x).2 hx)
    rwa [hy.unique ht hxz]
  have hreduced : t.Unites true (t.atomsOf ys) (t.atomsOf zs) := by
    refine unites_of_covered ht (fun q hq => ?_) fun q hq => ?_
    · obtain ⟨z, hz, hq⟩ := List.mem_flatMap.1 hq
      obtain ⟨x, hx, hxz⟩ := hzs.flip.exists_of_mem hz
      obtain ⟨y, hy, hxy⟩ := hys.exists_of_mem ((hkept x).1 hx).mem
      obtain rfl : z = y := Becomes.unique ht hxz hxy
      exact List.mem_flatMap.2 ⟨z, hy, hq⟩
    · obtain ⟨y, hy, hq⟩ := List.mem_flatMap.1 hq
      obtain ⟨x, hx, hxy⟩ := hys.flip.exists_of_mem hy
      by_cases hcovered : ∃ n ∈ t.atomsOf ids, (t.kind n).covers (t.kind x)
      · obtain ⟨n, hn, hcovers⟩ := hcovered
        obtain ⟨z, hz, hnz⟩ := hys.exists_of_mem hn
        obtain ⟨rfl, hall⟩ := Becomes.covered ht hcovers hxy hnz
        have hself : z ∈ t.atomsOf zs := by
          refine List.mem_flatMap.2 ⟨z, hcommon (survives_of_covers hn hcovers) hnz, ?_⟩
          rw [atoms_of_isAtom (isAtom_of_inUnion (TypeKind.inUnion_of_covers hcovers).2.1)]
          exact List.mem_singleton_self z
        rcases hall q hq with rfl | hcovers'
        · exact .inl hself
        · exact .inr ⟨z, hself, hcovers'⟩
      · refine .inl (List.mem_flatMap.2 ⟨y, hcommon
          ⟨hx, fun n hn hcovers => ?_, fun h => by cases h⟩ hxy, hq⟩)
        exact hcovered ⟨n, hn, hcovers⟩
  have hself : t.Unites true (t.atomsOf rs) (t.atomsOf [b]) := by
    rw [atomsOf, atomsOf, List.flatMap_singleton]
    exact (hunites.trans hreduced).trans hunites'.symm
  rw [hself.run_union ht, hplain.run_union_self ht]

/-! ## Words under a substitution -/

/-- A type gives a word to templates when types are put in for type parameters. -/
def Gives (nullChecks : Bool) (σ : SymbolId → Option TypeId) (t : TypeTable) (id : TypeId)
    (w : TemplateWord) : Prop := ∃ r, t.Becomes nullChecks σ id r ∧ t.Contributes r w

theorem Becomes.gives_iff (ht : t.Normal nullChecks) (h : t.Becomes nullChecks σ id r)
    (w : TemplateWord) : t.Gives nullChecks σ id w ↔ t.Contributes r w := by
  refine ⟨fun ⟨r', h', hw⟩ => ?_, fun hw => ⟨r, h, hw⟩⟩
  rwa [h.unique ht h']

/-- Templates whose types stand for the same words stand for the same words. -/
theorem expands_zip_congr {g h : TypeId → TemplateWord → Prop} {ps qs : List TypeId}
    (hgh : Forall₂ (fun p q => ∀ w, g p w ↔ h q w) ps qs) (head : String) (texts : List String)
    (w : TemplateWord) : Expands g (templateWord head (ps.zip texts)) w ↔
      Expands h (templateWord head (qs.zip texts)) w := by
  have mono {g h : TypeId → TemplateWord → Prop} {ps qs : List TypeId} {texts : List String}
      {w : TemplateWord} (hgh : Forall₂ (fun p q => ∀ w, g p w → h q w) ps qs)
      (hw : Expands g (spansWord (ps.zip texts)) w) : Expands h (spansWord (qs.zip texts)) w := by
    induction hgh generalizing texts w with
    | nil =>
      cases hw
      exact .nil
    | cons hpq _ ih =>
      cases texts with
      | nil =>
        cases hw
        exact .nil
      | cons text texts =>
        rw [List.zip_cons_cons, spansWord, List.flatMap_cons, ← spansWord] at hw ⊢
        cases hw with
        | type hp hw =>
          obtain ⟨x, y, rfl, hx, hy⟩ := hw.append_inv
          rw [Expands.textWord_iff.1 hx]
          exact .type (hpq _ hp) ((Expands.textWord_iff.2 rfl).append (ih hy))
  have behind (w : TemplateWord) : Expands g (spansWord (ps.zip texts)) w ↔
      Expands h (spansWord (qs.zip texts)) w :=
    ⟨mono (hgh.imp fun _ _ hpq w => (hpq w).1), mono (hgh.flip.imp fun _ _ hpq w => (hpq w).2)⟩
  rw [templateWord, templateWord]
  constructor
  · intro hw
    obtain ⟨x, y, rfl, hx, hy⟩ := hw.append_inv
    rw [Expands.textWord_iff.1 hx]
    exact (Expands.textWord_iff.2 rfl).append ((behind y).1 hy)
  · intro hw
    obtain ⟨x, y, rfl, hx, hy⟩ := hw.append_inv
    rw [Expands.textWord_iff.1 hx]
    exact (Expands.textWord_iff.2 rfl).append ((behind y).2 hy)

theorem zip_spans (spans : List (TypeId × String)) : (spans.map (·.1)).zip (spans.map (·.2)) = spans := by
  induction spans with
  | nil => rfl
  | cons s spans ih => rw [List.map_cons, List.map_cons, List.zip_cons_cons, ih]

/-- A template becomes what the words make that its types give. -/
theorem Becomes.of_template (ht : t.Normal nullChecks) {head : String} {spans : List (TypeId × String)}
    (hid : t.types.get? id.index = some { kind := .template head spans })
    (h : t.Becomes nullChecks σ id r) :
    t.UnionOfWords nullChecks (Expands (t.Gives nullChecks σ) (templateWord head spans)) r := by
  obtain ⟨rs, hrs, hr⟩ := h.exists_rebuilt hid rfl
  refine UnionOfWords.congr hr fun w => ?_
  have hgives : Forall₂ (fun p q => ∀ w, t.Gives nullChecks σ p w ↔ t.Contributes q w)
      (spans.map (·.1)) rs := hrs.imp fun _ _ hq => hq.gives_iff ht
  have hzip := expands_zip_congr hgives head (spans.map (·.2)) w
  rw [zip_spans] at hzip
  exact hzip.symm

/-- One word that is stored is what it makes. -/
theorem UnionOfWords.of_get? (ht : t.Normal nullChecks) {L : TemplateWord → Prop} {w : TemplateWord}
    (hL : ∀ v, L v ↔ v = w) (h : t.types.get? id.index = some { kind := wordKind w }) :
    t.UnionOfWords nullChecks L id := by
  have hmakes : t.Makes L [id] := by
    refine ⟨fun v hv => ⟨id, List.mem_cons_self, ?_⟩, fun m hm => ⟨w, (hL w).2 rfl, ?_⟩⟩
    · rw [(hL v).1 hv, h]
    · rw [List.mem_singleton.1 hm, h]
  exact ⟨_, hmakes, run_union_singleton ht (hmakes.inUnion _ List.mem_cons_self)⟩

/-- What a word makes becomes what the words make that its types give. -/
theorem Becomes.of_wordKind (ht : t.Normal nullChecks) {w : TemplateWord}
    (hid : t.types.get? id.index = some { kind := wordKind w }) (h : t.Becomes nullChecks σ id r) :
    t.UnionOfWords nullChecks (Expands (t.Gives nullChecks σ) w) r := by
  rcases wordKind_cases w with ⟨s, hk, rfl⟩ | ⟨hk, rfl⟩ | ⟨head, spans, hk, rfl, -⟩
  · obtain rfl := h.eq_of_isFixed hid (by rw [hk]; rfl)
    exact .of_get? ht (fun _ => Expands.textWord_iff) hid
  · obtain rfl := h.eq_of_isFixed hid (by rw [hk]; rfl)
    have hstring : t.kind r = .string := (kind_of_get? hid).trans hk
    have hone : r = .string := ht.eq_of_kind (i := 5) rfl rfl hstring
    have hin : (t.kind r).inUnion := by rw [hstring]; rfl
    refine .of_get? ht (fun v => ?_) hid
    rw [← hone, Expands.single_iff, h.gives_iff ht, contributes_of_isAtom (isAtom_of_inUnion hin),
      partWord_of_inTemplate (by rw [hstring]; rfl)]
    exact eq_comm
  · rw [hk] at hid
    exact h.of_template ht hid

/-- A member contributes the word that makes it. -/
theorem UnionOfWords.of_contributes (ht : t.Normal nullChecks) {L : TemplateWord → Prop}
    (h : t.UnionOfWords nullChecks L id) {w : TemplateWord} (hw : t.Contributes id w) : L w := by
  obtain ⟨q, hq, rfl⟩ := hw
  obtain ⟨w, hw, hget⟩ := h.exists_of_mem_atoms ht hq
  rwa [partWord_of_wordKind ht (kind_of_get? hget)]

/-- So is each word contributed by a member, unless another word makes a type that covers it. -/
theorem UnionOfWords.contributes (ht : t.Normal true) {L : TemplateWord → Prop}
    (h : t.UnionOfWords true L id) {w : TemplateWord} (hw : L w)
    (huncovered : ∀ v, L v → ¬(wordKind v).covers (wordKind w)) : t.Contributes id w := by
  obtain ⟨ids, hmakes, hunion⟩ := h
  obtain ⟨m, hm, hget⟩ := hmakes.stored w hw
  have hnone := swallower?_atomsOf ht (hmakes.not_mem_swallowers ht)
  refine ⟨m, (mem_atoms_of_run_union ht hunion hnone m).2 ⟨?_, fun n hn => ?_, fun h => by cases h⟩,
    partWord_of_wordKind ht (kind_of_get? hget)⟩
  · rwa [hmakes.atomsOf_eq]
  · rw [hmakes.atomsOf_eq] at hn
    obtain ⟨v, hv, hget'⟩ := hmakes.only n hn
    rw [kind_of_get? hget, kind_of_get? hget']
    exact huncovered v hv

/-- A type contributes its text, as a template its word, or itself. -/
theorem partWord_cases (t : TypeTable) (id : TypeId) :
    (∃ s, t.partWord id = textWord s ∧ (t.kind id).isFixed ∧ (t.kind id).inUnion) ∨
    (∃ head spans, t.kind id = .template head spans ∧ t.partWord id = templateWord head spans) ∨
    t.partWord id = [.inr id] := by
  unfold partWord
  cases hconstant : t.constantText? id with
  | some s =>
    refine .inl ⟨s, rfl, ?_⟩
    unfold constantText? at hconstant
    split at hconstant
    all_goals first | cases hconstant; done | (rename_i hk; rw [hk]; exact ⟨rfl, rfl⟩)
  | none =>
    cases hk : t.kind id with
    | template head spans => exact .inr (.inl ⟨head, spans, rfl, rfl⟩)
    | _ => exact .inr (.inr rfl)

/-- What a type contributes after a substitution comes from a word that it contributed before. -/
theorem Becomes.exists_word (ht : t.Normal nullChecks) (hσ : t.Mild σ)
    (h : t.Becomes nullChecks σ id r) {w : TemplateWord} (hw : t.Contributes r w) :
    ∃ y, t.Contributes id y ∧ Expands (t.Gives nullChecks σ) y w := by
  obtain ⟨q, hq, rfl⟩ := hw
  obtain ⟨ys, hys, -, hsub⟩ := h.exists_atoms ht hσ
  obtain ⟨y, hy, hqy⟩ := List.mem_flatMap.1 (hsub q hq)
  obtain ⟨p, hp, hpy⟩ := hys.flip.exists_of_mem hy
  have hpy : t.Becomes nullChecks σ p y := hpy
  refine ⟨t.partWord p, ⟨p, hp, rfl⟩, ?_⟩
  have hcontributes : t.Contributes y (t.partWord q) := ⟨q, hqy, rfl⟩
  rcases t.partWord_cases p with ⟨s, hword, hfixed, hin⟩ | ⟨head, spans, hk, hword⟩ | hword
  · obtain rfl := hpy.eq_of_isFixed hpy.get? hfixed
    rw [contributes_of_isAtom (isAtom_of_inUnion hin), hword] at hcontributes
    rw [hword, Expands.textWord_iff]
    exact hcontributes.symm
  · have hget := hpy.get?
    rw [hk] at hget
    rw [hword]
    exact (hpy.of_template ht hget).of_contributes ht hcontributes
  · rw [hword, Expands.single_iff]
    exact ⟨y, hpy, hcontributes⟩

/-! ## Words that are lost -/

/-- A type loses no word under a substitution: what its words stand for is contributed by what it
becomes, so nothing has been absorbed on the way that a template could tell. -/
def LosesNothing (nullChecks : Bool) (σ : SymbolId → Option TypeId) (t : TypeTable) (id : TypeId) :
    Prop :=
  ∀ r y w, t.Becomes nullChecks σ id r → t.Contributes id y → Expands (t.Gives nullChecks σ) y w →
    t.Contributes r w

theorem isAtom_of_inTemplate (h : (t.kind id).inTemplate) : t.IsAtom id := by
  unfold IsAtom
  cases hk : t.kind id with
  | union | never => simp [hk, TypeKind.inTemplate] at h
  | _ => simp [TypeKind.isUnion]

/-- A type that may stand in a template is one word and loses nothing. -/
theorem losesNothing_of_inTemplate (ht : t.Normal nullChecks) (h : (t.kind id).inTemplate) :
    t.LosesNothing nullChecks σ id := by
  intro r y w hr hy hw
  rw [contributes_of_isAtom (isAtom_of_inTemplate h), partWord_of_inTemplate h] at hy
  rw [← hy, Expands.single_iff] at hw
  exact (hr.gives_iff ht w).1 hw

/-- Each type in a word that something contributes has become something with it. -/
theorem Becomes.exists_of_contributes (ht : t.Normal nullChecks) (hσ : t.Mild σ)
    (h : t.Becomes nullChecks σ id r) {y : TemplateWord} (hy : t.Contributes id y) {i : TypeId}
    (hi : .inr i ∈ y) : ∃ r, t.Becomes nullChecks σ i r := by
  obtain ⟨p, hp, rfl⟩ := hy
  obtain ⟨ys, hys, -⟩ := h.exists_atoms ht hσ
  obtain ⟨q, -, hq⟩ := hys.exists_of_mem hp
  rcases t.partWord_cases p with ⟨s, hword, -⟩ | ⟨head, spans, hk, hword⟩ | hword
  · rw [hword] at hi
    simp [textWord] at hi
  · have hget := hq.get?
    rw [hk] at hget
    obtain ⟨rs, hrs, -⟩ := hq.exists_rebuilt hget rfl
    rw [hword] at hi
    obtain ⟨s, hs, rfl⟩ := mem_templateWord.1 hi
    obtain ⟨r, -, hr⟩ := hrs.exists_of_mem (List.mem_map_of_mem hs)
    exact ⟨r, hr⟩
  · rw [hword] at hi
    obtain rfl : i = p := by simpa using hi
    exact ⟨q, hq⟩

/-- What loses nothing does so in every later table. -/
theorem LosesNothing.grows (ht : t.Normal nullChecks) (hσ : t.Mild σ)
    (h : t.LosesNothing nullChecks σ id) (hid : t.Becomes nullChecks σ id r)
    (htu : t.Keeps nullChecks u) : u.LosesNothing nullChecks σ id := by
  intro r' y w hr' hy hw
  obtain rfl := hr'.unique (htu.2 ht) (hid.grows ht htu)
  have hgiven := given_of_get? hid.get?
  rw [contributes_iff_of_grows ht htu.1 (hid.given ht)]
  rw [contributes_iff_of_grows ht htu.1 hgiven] at hy
  refine h r' y w hid hy ((Expands.congr fun i hi x => ?_).1 hw)
  obtain ⟨q, hq⟩ := hid.exists_of_contributes ht hσ hy hi
  rw [(hq.grows ht htu).gives_iff (htu.2 ht), hq.gives_iff ht,
    contributes_iff_of_grows ht htu.1 (hq.given ht)]

/-! ## Composition -/

/-- A type parameter is one of the types of a template that is in a type or in its parts. -/
inductive Placed (t : TypeTable) (s : SymbolId) : TypeId → Prop
  | here {id p : TypeId} {head : String} {spans : List (TypeId × String)} :
      t.kind id = .template head spans → p ∈ spans.map (·.1) → t.kind p = .param s → Placed t s id
  | inside {id p : TypeId} : p ∈ (t.kind id).parts → Placed t s p → Placed t s id

/-- A substitution puts in what two of them put in one after the other. -/
structure Composed (nullChecks : Bool) (t : TypeTable) (σ₁ σ₂ σ : SymbolId → Option TypeId) : Prop where
  first : ∀ s x, σ₁ s = some x → ∃ y, σ s = some y ∧ t.Becomes nullChecks σ₂ x y
  second : ∀ s, σ₁ s = none → σ s = σ₂ s

section

variable {σ₁ σ₂ : SymbolId → Option TypeId} {a b c : TypeId}

theorem Composed.grows (ht : t.Normal nullChecks) (h : t.Composed nullChecks σ₁ σ₂ σ)
    (htu : t.Keeps nullChecks u) : u.Composed nullChecks σ₁ σ₂ σ where
  first s x hx :=
    let ⟨y, hy, hxy⟩ := h.first s x hx
    ⟨y, hy, hxy.grows ht htu⟩
  second := h.second

/-- A composed substitution is as harmless as the two. -/
theorem Composed.mild (ht : t.Normal nullChecks) (h : t.Composed nullChecks σ₁ σ₂ σ) (hσ₁ : t.Mild σ₁)
    (hσ₂ : t.Mild σ₂) : t.Mild σ := by
  have hall (s : SymbolId) (y : TypeId) (hy : σ s = some y) : t.IsPlain y ∧ y ∉ swallowers := by
    cases hs : σ₁ s with
    | none =>
      rw [h.second s hs] at hy
      exact ⟨hσ₂.isPlain s y hy, hσ₂.not_swallower s y hy⟩
    | some x =>
      obtain ⟨y', hy', hxy⟩ := h.first s x hs
      obtain rfl : y' = y := Option.some.inj (hy'.symm.trans hy)
      exact ⟨hxy.isPlain ht hσ₂ (hσ₁.isPlain s x hs),
        hxy.not_mem_swallowers ht hσ₂ (hσ₁.not_swallower s x hs)⟩
  exact ⟨fun s y hy => (hall s y hy).1, fun s y hy => (hall s y hy).2⟩

/-- Unless a type parameter has been replaced, what a type of a template becomes may stand in a
template. -/
theorem Becomes.inTemplate_or (h : t.Becomes nullChecks σ id r) (hid : (t.kind id).inTemplate) :
    (t.kind r).inTemplate ∨ ∃ s, t.kind id = .param s ∧ σ s = some r := by
  have hget := h.get?
  rcases h.inv hget with ⟨-, rfl⟩ | ⟨s, hk, hr⟩ | ⟨hk, rs, hrs, hr⟩
  · exact .inl hid
  · cases hs : σ s with
    | none =>
      rw [hs] at hr
      exact .inl (hr ▸ hid)
    | some x =>
      rw [hs] at hr
      exact .inr ⟨s, hk, by rw [hr]; exact hs⟩
  · left
    generalize t.kind id = k at *
    cases k with
    | interface | tuple =>
      rw [kind_of_get? hr]
      rfl
    | union | template => cases hid
    | _ => cases hk

/-- What words make becomes, in some later table, what the words make that their types give. -/
theorem Becomes.exists_words (ht : t.Normal true) (hσ : t.Mild σ) {L : TemplateWord → Prop}
    (ha : t.UnionOfWords true L a) (hL : ∀ w, L w → ∀ i, .inr i ∈ w → t.IsPlain i)
    (hb : t.Becomes true σ a b) :
    ∃ u, t.Later true u ∧
      u.UnionOfWords true (fun w => ∃ y, L y ∧ Expands (u.Gives true σ) y w) b := by
  obtain ⟨ids, hmakes, hids⟩ := ha
  have hplain := hmakes.isPlain hL
  obtain ⟨u, htu, js, hjs⟩ := exists_becomes_of_isPlain ht hσ hplain
  have hu : u.Normal true := htu.keeps.2 ht
  have hσu := hσ.grows htu.keeps.1
  -- the words are still made in the table where it is known what they become
  have hmakes' := hmakes.grows htu.keeps.1
  have hrun : (union true ids).run u = (a, u) := by
    have hagain := run_union_again ht hu hmakes.given htu.keeps.1 (by rw [hids]; exact htu.keeps.1)
    rwa [hids] at hagain
  have ha : u.IsPlain a := .of_run_union hu hrun fun m hm => (hplain m hm).grows htu.keeps.1
  have hb' := hb.grows ht htu.keeps
  have hrun' := run_union_becomes hu hσu hrun (hmakes'.not_mem_swallowers hu) hb'
    (hb'.isPlain hu hσu ha) hjs
  have hmembers : Forall₂ (fun m j =>
      u.UnionOfWords true (Expands (u.Gives true σ) (u.partWord m)) j) ids js := by
    refine hjs.imp_of_mem fun m hm j hj => ?_
    obtain ⟨y, -, hget⟩ := hmakes'.only m hm
    rw [partWord_of_wordKind hu (kind_of_get? hget)]
    exact hj.of_wordKind hu hget
  have hunion := UnionOfWords.union hu hmembers
  rw [hrun'] at hunion
  refine ⟨u, htu, hunion.congr fun w => ⟨?_, ?_⟩⟩
  · rintro ⟨m, hm, hw⟩
    obtain ⟨y, hy, hget⟩ := hmakes'.only m hm
    rw [partWord_of_wordKind hu (kind_of_get? hget)] at hw
    exact ⟨y, hy, hw⟩
  · rintro ⟨y, hy, hw⟩
    obtain ⟨m, hm, hget⟩ := hmakes'.stored y hy
    refine ⟨m, hm, ?_⟩
    rwa [partWord_of_wordKind hu (kind_of_get? hget)]

/-- What is built of parts is built, after a second substitution, of what the parts become. -/
theorem Rebuilt.comp (ht : t.Normal true) (hσ : t.Mild σ₂) {k : TypeKind} (hk : k.isBuilt)
    {as cs : List TypeId} (hplain : ∀ x ∈ as, t.IsPlain x) (hr : t.Rebuilt true k as a)
    (hlength : as.length = k.parts.length) (hb : t.Becomes true σ₂ a b)
    (has : Forall₂ (t.Becomes true σ₂) as cs)
    (hunion : ∀ ms, k = .union ms → ∀ x ∈ as, x ∉ swallowers)
    (hwords : ∀ head spans, k = .template head spans → ∀ x ∈ as, t.LosesNothing true σ₂ x) :
    ∃ u, t.Later true u ∧ u.Rebuilt true k cs b := by
  rcases isBuilt_cases hk with ⟨ms, rfl⟩ | ⟨head, spans, rfl⟩ | hk
  · have ha : t.IsPlain a := .of_run_union ht hr hplain
    exact ⟨t, .refl t, run_union_becomes ht hσ hr (hunion ms rfl) hb (hb.isPlain ht hσ ha) has⟩
  · have hletters : ∀ w, Expands t.Contributes (templateWord head (as.zip (spans.map (·.2)))) w →
        ∀ i, .inr i ∈ w → t.IsPlain i := by
      intro w hw i hi
      obtain ⟨j, y, hj, hy, hi⟩ := hw.exists_of_mem_right hi
      exact (hplain j (mem_zip_texts hj)).of_contributes hy hi
    obtain ⟨u, htu, hwordsOf⟩ := hb.exists_words ht hσ hr hletters
    have hu : u.Normal true := htu.keeps.2 ht
    refine ⟨u, htu, UnionOfWords.congr hwordsOf fun w => Expands.comp_iff.symm.trans ?_⟩
    refine expands_zip_congr (has.imp_of_mem fun x hx y hxy w => ?_) head _ w
    have hxy' := hxy.grows ht htu.keeps
    have hcontributes (z : TemplateWord) : t.Contributes x z ↔ u.Contributes x z :=
      (contributes_iff_of_grows ht htu.keeps.1 (hplain x hx).given z).symm
    simp only [hcontributes]
    have hx' := (hwords head spans rfl x hx).grows ht hσ hxy htu.keeps
    exact ⟨fun ⟨z, hz, hw⟩ => hx' y z w hxy' hz hw, hxy'.exists_word hu (hσ.grows htu.keeps.1)⟩
  · have hget := (rebuilt_iff_of_isRestored hk).1 hr
    have hk' := TypeKind.isRestored_withParts hk hlength
    obtain ⟨rs, hrs, hb⟩ := hb.exists_rebuilt hget (TypeKind.isBuilt_of_isRestored hk')
    rw [TypeKind.parts_withParts hk hlength] at hrs
    have heq := eq_of_forall₂ hrs has fun _ _ _ hx hy => Becomes.unique ht hx hy
    obtain rfl := heq.eq
    rw [rebuilt_iff_of_isRestored hk', TypeKind.withParts_withParts hk hlength] at hb
    exact ⟨t, .refl t, (rebuilt_iff_of_isRestored hk).2 hb⟩

/-- Two substitutions come to the composed one, if no word of a type parameter in a template is lost in
between. By induction on what the first one makes. Types that the second one has not looked at may have
to be looked at in a later table. -/
theorem Becomes.comp (ht : t.Normal true) (hσ₁ : t.Mild σ₁) (hσ₂ : t.Mild σ₂)
    (hσ : t.Composed true σ₁ σ₂ σ) (h : t.Becomes true σ₁ id a) (hid : t.IsPlain id)
    (hwords : ∀ s x, t.Placed s id → σ₁ s = some x → t.LosesNothing true σ₂ x) (u : TypeTable)
    (htu : t.Later true u) (hb : u.Becomes true σ₂ a b) (hc : u.Becomes true σ id c) : b = c := by
  induction h using induct generalizing u b c with
  | fixed hget hk =>
    have hget' := htu.keeps.1.types _ _ hget
    rw [hb.eq_of_isFixed hget' hk, hc.eq_of_isFixed hget' hk]
  | @param id s hget hr =>
    have hget' := htu.keeps.1.types _ _ hget
    have hu : u.Normal true := htu.keeps.2 ht
    have hc' := hc.eq_of_param hget'
    cases hs : σ₁ s with
    | none =>
      rw [hs, Option.getD_none] at hb
      rw [hc', hσ.second s hs, hb.eq_of_param hget']
    | some x =>
      obtain ⟨y, hy, hxy⟩ := hσ.first s x hs
      rw [hs, Option.getD_some] at hb
      rw [hc', hy, Option.getD_some]
      exact hb.unique hu (hxy.grows ht htu.keeps)
  | @built id a k as hget hk hparts hr =>
    have hget' := htu.keeps.1.types _ _ hget
    have hu : u.Normal true := htu.keeps.2 ht
    obtain ⟨cs, hcs, hc⟩ := hc.exists_rebuilt hget' hk
    have hplain : ∀ p ∈ k.parts, t.IsPlain p := fun p hp => hid.parts (by rwa [kind_of_get? hget])
    have has : ∀ q ∈ as, t.IsPlain q := forall_of_forall₂ hparts fun p hp q ⟨hq, _⟩ =>
      hq.isPlain ht hσ₁ (hplain p hp)
    obtain ⟨v, huv, bs, hbs⟩ := exists_becomes_of_isPlain hu (hσ₂.grows htu.keeps.1)
      fun q hq => (has q hq).grows htu.keeps.1
    have hv : v.Normal true := huv.keeps.2 hu
    -- part by part, the second substitution makes what both make
    have htv := htu.trans huv
    have heq : Forall₂ (· = ·) cs bs := by
      have hparts' : Forall₂ (fun p q => p ∈ k.parts ∧ _) k.parts as :=
        hparts.imp_of_mem fun p hp q hq => ⟨hp, hq⟩
      have hcs' : Forall₂ (fun q y => ∀ b, v.Becomes true σ₂ q b → y = b) as cs :=
        eq_of_forall₂ hparts' hcs fun p q y ⟨hp, hq, ih⟩ hy b hb => (ih (hplain p hp)
          (fun s x hs => hwords s x (.inside (by rwa [kind_of_get? hget]) hs)) v htv hb
          (hy.grows hu huv.keeps)).symm
      exact eq_of_forall₂ hcs' hbs fun _ _ b hy hb => hy b hb
    obtain rfl := heq.eq
    have hmild (ms : List TypeId) (hms : k = .union ms) : ∀ q ∈ as, q ∉ swallowers := by
      subst hms
      have hform : t.NormalUnion true ms := ht.forms _ _ hget
      refine forall_of_forall₂ hparts fun p hp q ⟨hq, _⟩ => hq.not_mem_swallowers ht hσ₁ ?_
      exact not_mem_swallowers_of_inUnion ht (hform.plain p hp)
    have hlosesNothing (head : String) (spans : List (TypeId × String))
        (hspans : k = .template head spans) : ∀ q ∈ as, v.LosesNothing true σ₂ q := by
      subst hspans
      have hform : t.NormalTemplate spans := ht.forms _ _ hget
      refine forall_of_forall₂ hparts fun p hp q ⟨hq, _⟩ => ?_
      obtain ⟨s, hs, rfl⟩ := List.mem_map.1 hp
      rcases hq.inTemplate_or (hform.plain s hs) with hin | ⟨T, hT, hq'⟩
      · refine losesNothing_of_inTemplate hv ?_
        rwa [kind_eq_of_given (hq.given ht) htv.keeps.1]
      · obtain ⟨y, -, hy⟩ := hσ.first T q hq'
        exact (hwords T q (.here (kind_of_get? hget) hp hT) hq').grows ht hσ₂ hy htv.keeps
    obtain ⟨w, hvw, hbw⟩ := Rebuilt.comp hv (hσ₂.grows htv.keeps.1) hk
      (fun q hq => (has q hq).grows htv.keeps.1)
      (hr.grows ht hk (fun q hq => (has q hq).given) htv.keeps) hparts.length_eq.symm
      (hb.grows hu huv.keeps) hbs hmild hlosesNothing
    have hcw := hc.grows hu hk (forall_of_forall₂ hcs fun _ _ _ hq => hq.given hu) (huv.trans hvw).keeps
    exact hbw.unique (hvw.keeps.2 hv) hk hcw

/-! ## A word that is lost -/

/-- In a table there are a template with a type parameter, a union of a second type parameter and a
text, and the type `string` is to be put in for the second one. -/
structure Absorbs (t : TypeTable) (T U a x m : TypeId) (s s' : SymbolId) : Prop where
  first : t.types.get? T.index = some { kind := .param s }
  second : t.types.get? U.index = some { kind := .param s' }
  text : t.types.get? a.index = some { kind := .stringLiteral "a" }
  union : ∀ m, m ∈ t.atoms x ↔ m = U ∨ m = a
  template : t.types.get? m.index = some { kind := wordKind [.inl 'x', .inr T] }

section

variable {T U x m : TypeId} {s s' : SymbolId}

theorem Absorbs.partWord_text (h : t.Absorbs T U a x m s s') : t.partWord a = textWord "a" :=
  partWord_of_constantText? (by rw [constantText?, kind_of_get? h.text])

theorem Absorbs.not_mem_swallowers (ht : t.Normal true) (h : t.Absorbs T U a x m s s') :
    x ∉ swallowers := by
  intro hswallows
  have hatoms := atoms_of_isAtom (isFixed_of_mem_swallowers ht hswallows).2.2.2
  have hU := (h.union U).2 (.inl rfl)
  have ha := (h.union a).2 (.inr rfl)
  rw [hatoms, List.mem_singleton] at hU ha
  have hget := h.second
  rw [hU, ← ha, h.text] at hget
  cases hget

/-- Substituted twice, the template contributes the text. -/
theorem Absorbs.contributes_twice (ht : t.Normal true) (h : t.Absorbs T U a x m s s') (hσ₂ : t.Mild σ₂)
    (hT : σ₁ s = some x) (hx : t.IsPlain x) (hr : t.Becomes true σ₁ m r)
    (hb : t.Becomes true σ₂ r b) :
    ∃ u, t.Later true u ∧ u.Contributes b (textWord "xa") := by
  have hTx : t.Becomes true σ₁ T x := by
    have hparam : t.Becomes true σ₁ T ((σ₁ s).getD T) := .param h.first (by rw [hT]; exact hx.given)
    rwa [hT] at hparam
  have hwords := hr.of_wordKind ht h.template
  obtain ⟨u, htu, hwords⟩ := hb.exists_words ht hσ₂ hwords fun w hw i hi => by
    obtain ⟨j, y, hj, hy, hi⟩ := hw.exists_of_mem_right hi
    obtain rfl : j = T := by simpa using hj
    rw [hTx.gives_iff ht] at hy
    exact hx.of_contributes hy hi
  refine ⟨u, htu, hwords.contributes (htu.keeps.2 ht) ⟨textWord "xa", ?_, Expands.textWord_iff.2 rfl⟩ ?_⟩
  · have htext : t.Contributes x (textWord "a") := ⟨a, (h.union a).2 (.inr rfl), h.partWord_text⟩
    exact .char (Expands.single_iff.2 ⟨x, hTx, htext⟩)
  · -- each of the other words starts with the text before the type parameter, so none is `string`
    rintro v ⟨y, hy, hv⟩ hcovers
    cases hy with
    | char hy =>
      cases hv with
      | char hv =>
        rw [wordKind_textWord] at hcovers
        rcases wordKind_cases (.inl 'x' :: _) with ⟨s, hk, -⟩ | ⟨-, heq⟩ | ⟨head, spans, hk, -⟩
        · rw [hk] at hcovers
          cases hcovers
        · cases heq
        · rw [hk] at hcovers
          cases hcovers

theorem Absorbs.grows (h : t.Absorbs T U a x m s s') (hx : t.Given (.type x)) (htu : t.Grows u) :
    u.Absorbs T U a x m s s' where
  first := htu.types _ _ h.first
  second := htu.types _ _ h.second
  text := htu.types _ _ h.text
  union m := by
    rw [atoms_eq_of_given hx htu]
    exact h.union m
  template := htu.types _ _ h.template

theorem Absorbs.plain_template (h : t.Absorbs T U a x m s s') : t.Plain 2 m := by
  refine .mk h.template (isStructural_wordKind _) fun p hp => ?_
  obtain rfl : p = T := by simpa using mem_of_mem_parts_wordKind hp
  exact .mk h.first rfl fun _ hq => absurd hq List.not_mem_nil

/-- Put into the template, the union makes a template and a text of it, which takes one step more. -/
theorem Absorbs.plain_becomes (ht : t.Normal true) (hσ₁ : t.Mild σ₁) (h : t.Absorbs T U a x m s s')
    (hT : σ₁ s = some x) (hr : t.Becomes true σ₁ m r) : t.Plain 3 r := by
  refine .of_atoms (hr.isPlain ht hσ₁ ⟨2, h.plain_template⟩) fun q hq => ?_
  obtain ⟨w, hw, hget⟩ := (hr.of_wordKind ht h.template).exists_of_mem_atoms ht hq
  refine .mk hget (isStructural_wordKind w) fun p hp => ?_
  have hp := mem_of_mem_parts_wordKind hp
  cases hw with
  | char hw =>
    obtain ⟨y, hy, q, hq, rfl⟩ := Expands.single_iff.1 hw
    have heq := hy.eq_of_param h.first
    rw [hT, Option.getD_some] at heq
    rcases (h.union q).1 (heq ▸ hq) with rfl | rfl
    · rw [partWord_of_inTemplate (by rw [kind_of_get? h.second]; rfl)] at hp
      obtain rfl : p = q := by simpa using hp
      exact .mk h.second rfl fun _ hq => absurd hq List.not_mem_nil
    · rw [h.partWord_text] at hp
      simp [textWord] at hp

/-- What a type brings into a union survives beside the rest of it. -/
theorem survives_of_mem_atoms (ht : t.Normal nullChecks) {q : TypeId} (hq : q ∈ t.atoms id) :
    t.Survives nullChecks (t.atoms id) q := by
  by_cases hatom : t.IsAtom id
  · rw [atoms_of_isAtom hatom] at hq ⊢
    refine ⟨hq, fun n hn hcovers => ?_, fun _ hnull n hn => ?_⟩
    · rw [List.mem_singleton.1 hn, ← List.mem_singleton.1 hq] at hcovers
      rw [TypeKind.not_covers_of_covers hcovers] at hcovers
      cases hcovers
    · rwa [List.mem_singleton.1 hn, ← List.mem_singleton.1 hq]
  · cases hk : t.kind id with
    | union ms =>
      have hatoms : t.atoms id = ms := by rw [atoms, hk]
      rw [hatoms] at hq ⊢
      have hform := ht.union hk hq
      exact ⟨hq, hform.uncovered q hq, fun hnc => hform.nullish hnc q hq⟩
    | never =>
      rw [atoms, hk] at hq
      cases hq
    | _ => exact absurd ⟨by rw [hk]; rfl, by rw [hk]; exact TypeKind.noConfusion⟩ hatom

/-- What the union becomes does not contribute its text: `string` has absorbed it. -/
theorem Absorbs.not_contributes (ht : t.Normal true) (h : t.Absorbs T U a x m s s') (hσ₂ : t.Mild σ₂)
    (hU : σ₂ s' = some .string) {y : TypeId} (hy : t.Becomes true σ₂ x y) :
    ¬t.Contributes y (textWord "a") := by
  rintro ⟨q, hq, hword⟩
  obtain ⟨ys, hys, hunites, hsub⟩ := hy.exists_atoms ht hσ₂
  have hUys {z : TypeId} (hz : t.Becomes true σ₂ U z) : z = .string := by
    have hz' := hz.eq_of_param h.second
    rwa [hU, Option.getD_some] at hz'
  have hstring : t.kind .string = .string := ht.kind_fixed (i := 5) rfl
  have hatoms : t.atoms .string = [.string] := by rw [atoms, hstring]
  -- the text is among the members, or rather it was
  have hqa : q = a := by
    obtain ⟨z, hz, hqz⟩ := List.mem_flatMap.1 (hsub q hq)
    obtain ⟨p, hp, hpz⟩ := hys.flip.exists_of_mem hz
    rcases (h.union p).1 hp with rfl | rfl
    · obtain rfl := hUys hpz
      rw [hatoms, List.mem_singleton] at hqz
      rw [hqz, partWord_of_inTemplate (by rw [hstring]; rfl)] at hword
      cases hword
    · obtain rfl := Becomes.eq_of_isFixed hpz h.text rfl
      have hatom : t.IsAtom z := isAtom_of_inUnion (by rw [kind_of_get? h.text]; rfl)
      rw [atoms_of_isAtom hatom] at hqz
      exact List.mem_singleton.1 hqz
  have hnone : swallower? (t.atoms y) = none := by
    have hmild := hy.not_mem_swallowers ht hσ₂ (h.not_mem_swallowers ht)
    have hone := swallower?_atomsOf ht (List.forall_mem_singleton.2 hmild)
    rwa [atomsOf, List.flatMap_singleton] at hone
  have hsurvives := (hunites.survivors hnone q).1 (survives_of_mem_atoms ht hq)
  obtain ⟨z, hz, hUz⟩ := hys.exists_of_mem ((h.union U).2 (.inl rfl))
  obtain rfl := hUys hUz
  refine hsurvives.uncovered .string (List.mem_flatMap.2 ⟨_, hz, ?_⟩) ?_
  · rw [hatoms]
    exact List.mem_singleton_self _
  · rw [hstring, hqa, kind_of_get? h.text]
    rfl

/-- The type parameter is in the template. -/
theorem Absorbs.placed (h : t.Absorbs T U a x m s s') : t.Placed s m := by
  have hkind := kind_of_get? h.template
  rcases wordKind_cases [.inl 'x', .inr T] with ⟨text, -, hword⟩ | ⟨-, hword⟩ | ⟨head, spans, hk, hword, -⟩
  · have hT : .inr T ∈ textWord text := hword ▸ List.mem_cons_of_mem _ (List.mem_singleton_self _)
    simp [textWord] at hT
  · cases hword
  · have hT : .inr T ∈ templateWord head spans :=
      hword ▸ List.mem_cons_of_mem _ (List.mem_singleton_self _)
    obtain ⟨span, hspan, rfl⟩ := mem_templateWord.1 hT
    exact .here (hkind.trans hk) (List.mem_map_of_mem hspan) (kind_of_get? h.first)

/-- When a type is put in that covers no text, the union becomes that type and the text, and so it loses
no word. -/
theorem Absorbs.losesNothing (ht : t.Normal true) (h : t.Absorbs T U a x m s s') (hσ₂ : t.Mild σ₂)
    {z : TypeId} (hU : σ₂ s' = some z) (hz : (t.kind z).inTemplate)
    (hcovers : (t.kind z).covers (.stringLiteral "a") = false) : t.LosesNothing true σ₂ x := by
  intro r y w hr hy hw
  obtain ⟨ys, hys, hunites, -⟩ := hr.exists_atoms ht hσ₂
  have hUz {y : TypeId} (hy : t.Becomes true σ₂ U y) : y = z := by
    rw [hy.eq_of_param h.second, hU, Option.getD_some]
  have haa {y : TypeId} (hy : t.Becomes true σ₂ a y) : y = a := hy.eq_of_isFixed h.text rfl
  have hzatom : t.IsAtom z := isAtom_of_inTemplate hz
  have haatom : t.IsAtom a := isAtom_of_inUnion (by rw [kind_of_get? h.text]; rfl)
  have hmem (q : TypeId) : q ∈ t.atomsOf ys ↔ q = z ∨ q = a := by
    constructor
    · intro hq
      obtain ⟨y, hy, hq⟩ := List.mem_flatMap.1 hq
      obtain ⟨p, hp, hpy⟩ := hys.flip.exists_of_mem hy
      rcases (h.union p).1 hp with rfl | rfl
      · rw [hUz hpy, atoms_of_isAtom hzatom] at hq
        exact .inl (List.mem_singleton.1 hq)
      · rw [haa hpy, atoms_of_isAtom haatom] at hq
        exact .inr (List.mem_singleton.1 hq)
    · rintro (rfl | rfl)
      · obtain ⟨y, hy, hpy⟩ := hys.exists_of_mem ((h.union U).2 (.inl rfl))
        refine List.mem_flatMap.2 ⟨y, hy, ?_⟩
        rw [hUz hpy, atoms_of_isAtom hzatom]
        exact List.mem_singleton_self _
      · obtain ⟨y, hy, hpy⟩ := hys.exists_of_mem ((h.union q).2 (.inr rfl))
        refine List.mem_flatMap.2 ⟨y, hy, ?_⟩
        rw [haa hpy, atoms_of_isAtom haatom]
        exact List.mem_singleton_self _
  -- neither covers the other, so both are members of what the union becomes
  have hkept {q : TypeId} (hq : q = z ∨ q = a) : q ∈ t.atoms r := by
    have hmild := hr.not_mem_swallowers ht hσ₂ (h.not_mem_swallowers ht)
    have hone := swallower?_atomsOf ht (List.forall_mem_singleton.2 hmild)
    rw [atomsOf, List.flatMap_singleton] at hone
    refine ((hunites.survivors hone q).2 ⟨(hmem q).2 hq, fun n hn hcovered => ?_, fun h => by cases h⟩).mem
    rcases (hmem n).1 hn with rfl | rfl
    · rcases hq with rfl | rfl
      · rw [TypeKind.not_covers_of_covers hcovered] at hcovered
        cases hcovered
      · rw [kind_of_get? h.text, hcovers] at hcovered
        cases hcovered
    · rw [kind_of_get? h.text] at hcovered
      simp [TypeKind.covers] at hcovered
  obtain ⟨q, hq, rfl⟩ := hy
  rcases (h.union q).1 hq with rfl | rfl
  · rw [partWord_of_inTemplate (by rw [kind_of_get? h.second]; rfl), Expands.single_iff] at hw
    obtain ⟨y, hy, hw⟩ := hw
    rw [hUz hy, contributes_of_isAtom hzatom] at hw
    exact ⟨z, hkept (.inl rfl), hw⟩
  · rw [h.partWord_text, Expands.textWord_iff] at hw
    exact ⟨q, hkept (.inr rfl), hw ▸ h.partWord_text⟩

/-- Putting the union in for the type parameter of the template, and then `string` for the other type
parameter, leaves the text in the template. The composed substitution puts in `string` alone. -/
theorem Absorbs.comp_ne (ht : t.Normal true) (h : t.Absorbs T U a x m s s') (hσ₂ : t.Mild σ₂)
    (hσ : t.Composed true σ₁ σ₂ σ) (hT : σ₁ s = some x) (hU : σ₂ s' = some .string) (hx : t.IsPlain x)
    (hr : t.Becomes true σ₁ m r) (hb : t.Becomes true σ₂ r b) (hc : t.Becomes true σ m c) :
    b ≠ c := by
  rintro rfl
  obtain ⟨u, htu, hcontributes⟩ := h.contributes_twice ht hσ₂ hT hx hr hb
  rw [contributes_iff_of_grows ht htu.keeps.1 (hc.given ht)] at hcontributes
  have hword := (hc.of_wordKind ht h.template).of_contributes ht hcontributes
  cases hword with
  | char hword =>
    obtain ⟨y, hy, hcontributes⟩ := Expands.single_iff.1 hword
    obtain ⟨y', hy', hxy⟩ := hσ.first s x hT
    have heq := hy.eq_of_param h.first
    rw [hy', Option.getD_some] at heq
    exact h.not_contributes ht hσ₂ hU (heq ▸ hxy) hcontributes

end

end

end TypeTable

end DeclKit

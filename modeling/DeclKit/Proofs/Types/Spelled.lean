/-
Templates of types with a text.

When every type in a template is a literal or a union of literals, the template is the union of all texts
that can be spelled by choosing one of them in each place.
-/
import DeclKit.Proofs.Types.Expansion
import Mathlib.Data.List.Sections

set_option autoImplicit false

namespace DeclKit

namespace TypeTable

variable {nullChecks : Bool} {t u : TypeTable}

/-- The texts that a type contributes to a template: those of its members, each its own. -/
def texts (t : TypeTable) (id : TypeId) : List String := (t.atoms id).filterMap t.constantText?

/-- All texts that can be spelled by a template when of each type one text is chosen. -/
def spelled (t : TypeTable) (head : String) (spans : List (TypeId × String)) : List String :=
  (spans.map fun s => t.texts s.1).sections.map fun choice => head ++ alternate choice (spans.map (·.2))

theorem contributes_iff_of_texts {id : TypeId}
    (h : ∀ m ∈ t.atoms id, (t.constantText? m).isSome) (w : TemplateWord) :
    t.Contributes id w ↔ ∃ s ∈ t.texts id, w = textWord s := by
  simp only [Contributes, texts, List.mem_filterMap]
  constructor
  · rintro ⟨m, hm, rfl⟩
    obtain ⟨s, hs⟩ := Option.isSome_iff_exists.1 (h m hm)
    exact ⟨s, ⟨m, hm, hs⟩, partWord_of_constantText? hs⟩
  · rintro ⟨s, ⟨m, hm, hs⟩, rfl⟩
    exact ⟨m, hm, partWord_of_constantText? hs⟩

/-- A template of types with a text stands for the texts that it spells. -/
theorem expands_contributes_of_texts {head : String} {spans : List (TypeId × String)}
    (h : ∀ s ∈ spans, ∀ m ∈ t.atoms s.1, (t.constantText? m).isSome) (w : TemplateWord) :
    Expands t.Contributes (templateWord head spans) w ↔
      ∃ text ∈ t.spelled head spans, w = textWord text := by
  have behind (w : TemplateWord) : Expands t.Contributes (spansWord spans) w ↔
      ∃ choice ∈ (spans.map fun s => t.texts s.1).sections,
        w = textWord (alternate choice (spans.map (·.2))) := by
    simp only [List.mem_sections]
    induction spans generalizing w with
    | nil =>
      constructor
      · rintro ⟨⟩
        exact ⟨[], .nil, rfl⟩
      · rintro ⟨choice, -, rfl⟩
        cases choice <;> exact .nil
    | cons s spans ih =>
      rw [List.forall_mem_cons] at h
      have ih := ih h.2
      rw [spansWord, List.flatMap_cons, ← spansWord]
      constructor
      · intro hw
        cases hw with
        | type hs hw =>
          obtain ⟨x, y, rfl, hx, hy⟩ := hw.append_inv
          obtain ⟨text, htext, rfl⟩ := (contributes_iff_of_texts h.1 _).1 hs
          obtain ⟨choice, hchoice, rfl⟩ := (ih y).1 hy
          refine ⟨text :: choice, .cons htext hchoice, ?_⟩
          rw [Expands.textWord_iff.1 hx, List.map_cons, alternate, textWord_append, textWord_append,
            List.append_assoc]
      · rintro ⟨choice, hchoice, rfl⟩
        obtain ⟨text, more, htext, hmore, rfl⟩ := List.forall₂_cons_right_iff.1 hchoice
        rw [List.map_cons, alternate, textWord_append, textWord_append, List.append_assoc,
          List.cons_append]
        refine .type ((contributes_iff_of_texts h.1 _).2 ⟨text, htext, rfl⟩) ?_
        exact (Expands.textWord_iff.2 rfl).append ((ih _).2 ⟨more, hmore, rfl⟩)
  rw [templateWord]
  simp only [spelled, List.mem_map, exists_exists_and_eq_and]
  constructor
  · intro hw
    obtain ⟨x, y, rfl, hx, hy⟩ := hw.append_inv
    obtain ⟨choice, hchoice, rfl⟩ := (behind y).1 hy
    exact ⟨choice, hchoice, by rw [Expands.textWord_iff.1 hx, textWord_append]⟩
  · rintro ⟨choice, hchoice, rfl⟩
    rw [textWord_append]
    exact (Expands.textWord_iff.2 rfl).append ((behind _).2 ⟨choice, hchoice, rfl⟩)

/-- The union of the literals of texts. -/
def unionOfLiterals (nullChecks : Bool) (ss : List String) : Stored TypeId := do
  union nullChecks (← ss.mapM stringLiteral)

/-- Each of the literals of texts is in the table in the end. -/
theorem forall₂_mapM_stringLiteral (nullChecks : Bool) (t : TypeTable) (ss : List String) :
    let r := (ss.mapM stringLiteral).run t
    t.Keeps nullChecks r.2 ∧
      Forall₂ (fun s id => r.2.types.get? id.index = some { kind := .stringLiteral s }) ss r.1 :=
  Stored.run_mapM_forall₂ (f := stringLiteral)
    (P := fun s id u => u.types.get? id.index = some { kind := .stringLiteral s })
    (fun _ _ u _ => ⟨Stored.keeps_intern rfl u, store_get?⟩)
    fun _ _ _ _ _ huv hget => huv.1.types _ _ hget

/-- The literals of texts are the types that the words of the texts make. -/
theorem makes_mapM_stringLiteral (nullChecks : Bool) (t : TypeTable) (ss : List String) :
    let r := (ss.mapM stringLiteral).run t
    t.Keeps nullChecks r.2 ∧ r.2.Makes (fun w => ∃ s ∈ ss, w = textWord s) r.1 := by
  intro r
  obtain ⟨hkeeps, hall⟩ := forall₂_mapM_stringLiteral nullChecks t ss
  refine ⟨hkeeps, ⟨?_, fun id hid => ?_⟩⟩
  · rintro w ⟨s, hs, rfl⟩
    obtain ⟨id, hid, hget⟩ := hall.exists_of_mem hs
    exact ⟨id, hid, by rw [hget, wordKind_textWord]⟩
  · obtain ⟨s, hs, hget⟩ := hall.flip.exists_of_mem hid
    exact ⟨_, ⟨s, hs, rfl⟩, by rw [hget, wordKind_textWord]⟩

theorem unionOfWords_unionOfLiterals (ht : t.Normal nullChecks) (ss : List String) :
    let r := (unionOfLiterals nullChecks ss).run t
    t.Keeps nullChecks r.2 ∧
      r.2.UnionOfWords nullChecks (fun w => ∃ s ∈ ss, w = textWord s) r.1 := by
  intro r
  obtain ⟨hkeeps, hmakes⟩ := makes_mapM_stringLiteral nullChecks t ss
  have hunion := Stored.keeps_union nullChecks ((ss.mapM stringLiteral).run t).1
    ((ss.mapM stringLiteral).run t).2
  have hn := hkeeps.2 ht
  refine ⟨hkeeps.trans hunion, _, hmakes.grows hunion.1, ?_⟩
  exact run_union_again hn (hunion.2 hn) hmakes.given hunion.1 (.refl _)

/-- Literals that are in the table are not stored again, nor is their union. -/
theorem UnionOfWords.run_unionOfLiterals (ht : t.Normal nullChecks) {ss : List String} {id : TypeId}
    (h : t.UnionOfWords nullChecks (fun w => ∃ s ∈ ss, w = textWord s) id) :
    (unionOfLiterals nullChecks ss).run t = (id, t) := by
  obtain ⟨ids, hids, hunion⟩ := h
  have hstays : ((ss.mapM stringLiteral).run t).2 = t := by
    have hstored (s : String) (hs : s ∈ ss) : ((stringLiteral s).run t).2 = t := by
      obtain ⟨id, -, hget⟩ := hids.stored _ ⟨s, hs, rfl⟩
      rw [wordKind_textWord] at hget
      rw [stringLiteral, intern, run_store_of_get? hget]
    clear hids
    induction ss with
    | nil => rfl
    | cons s ss ih =>
      rw [List.forall_mem_cons] at hstored
      rw [List.mapM_cons, StateT.run_bind]
      show ((ss.mapM stringLiteral).run ((stringLiteral s).run t).2).2 = t
      rw [hstored.1, ih hstored.2]
  have hmakes := (makes_mapM_stringLiteral nullChecks t ss).2
  rw [hstays] at hmakes
  show (TypeTable.union nullChecks ((ss.mapM stringLiteral).run t).1).run
    ((ss.mapM stringLiteral).run t).2 = _
  rw [hstays, ← hunion]
  refine Unites.run_union ht (.of_mem_iff fun m => ?_)
  rw [hids.atomsOf_eq, hmakes.atomsOf_eq]
  exact hmakes.mem_iff hids m

/-- A template of types with a text, of which some may be unions, is the union of the literals of all
texts that it spells. That holds in whichever order they are asked for, and when the template is there
already nothing more is stored for them. -/
theorem template_eq_unionOfLiterals (ht : initial.Later nullChecks t) {head : String}
    {spans : List (TypeId × String)} (hgiven : ∀ s ∈ spans, t.Given (.type s.1))
    (htexts : ∀ s ∈ spans, ∀ m ∈ t.atoms s.1, (t.constantText? m).isSome) :
    let r := (template nullChecks head spans).run t
    let r' := (unionOfLiterals nullChecks (t.spelled head spans)).run t
    (∀ u, r.2.Later nullChecks u →
      (unionOfLiterals nullChecks (t.spelled head spans)).run u = (r.1, u)) ∧
    ∀ u, r'.2.Later nullChecks u → ((template nullChecks head spans).run u).1 = r'.1 := by
  intro r r'
  have hn : t.Normal nullChecks := ht.keeps.2 (normal_initial nullChecks)
  have herror : ∀ s ∈ spans, s.1 ≠ .error := by
    intro s hs heq
    have hk : t.kind s.1 = .error := heq ▸ hn.kind_fixed (i := 1) rfl
    have hsome := htexts s hs s.1 (by simp [atoms, hk])
    simp [constantText?, hk] at hsome
  -- wherever the template is worked out, it is the union of the literals
  have hall (u : TypeTable) (hu : t.Keeps nullChecks u) :
      ((template nullChecks head spans).run u).2.UnionOfWords nullChecks
        (fun w => ∃ s ∈ t.spelled head spans, w = textWord s)
        ((template nullChecks head spans).run u).1 := by
    refine (unionOfWords_template (hu.2 hn) head (fun s hs => (hgiven s hs).mono hu.1) herror).congr
      fun w => (Expands.congr fun id hid x => ?_).trans (expands_contributes_of_texts htexts w)
    obtain ⟨s, hs, rfl⟩ := mem_templateWord.1 hid
    exact contributes_iff_of_grows hn hu.1 (hgiven s hs) x
  have hkeeps (u : TypeTable) : u.Keeps nullChecks ((template nullChecks head spans).run u).2 :=
    Stored.keeps_template nullChecks head spans u
  constructor
  · intro u hu
    have hr : r.2.Normal nullChecks := (hkeeps t).2 hn
    exact ((hall t (.refl nullChecks t)).grows hr hu.keeps).run_unionOfLiterals (hu.keeps.2 hr)
  · intro u hu
    obtain ⟨hkeeps', hliterals⟩ := unionOfWords_unionOfLiterals hn (t.spelled head spans)
    have hu' := hkeeps'.trans hu.keeps
    exact (hall u hu').unique ((hu'.trans (hkeeps u)).2 hn)
      (hliterals.grows (hkeeps'.2 hn) (hu.keeps.trans (hkeeps u)))

/-- Between texts, `boolean` and `null` spell two texts. -/
theorem template_boolean_null :
    let spans := [(TypeId.boolean, "-"), (TypeId.null, "!")]
    let r := (template true "is " spans).run initial
    initial.spelled "is " spans = ["is false-null!", "is true-null!"] ∧
      (unionOfLiterals true ["is false-null!", "is true-null!"]).run r.2 = r := by
  intro spans r
  have hn := normal_initial true
  have hboolean : initial.atoms .boolean = [.false_, .true_] := by
    rw [atoms, show initial.kind .boolean = .union [.false_, .true_] from hn.kind_fixed (i := 10) rfl]
  have hnull : initial.atoms .null = [.null] := by
    rw [atoms, show initial.kind .null = .null from hn.kind_fixed (i := 4) rfl]
  have hfalse : initial.constantText? .false_ = some "false" := by
    rw [constantText?, show initial.kind .false_ = .false_ from hn.kind_fixed (i := 8) rfl]
  have htrue : initial.constantText? .true_ = some "true" := by
    rw [constantText?, show initial.kind .true_ = .true_ from hn.kind_fixed (i := 9) rfl]
  have hnull' : initial.constantText? .null = some "null" := by
    rw [constantText?, show initial.kind .null = .null from hn.kind_fixed (i := 4) rfl]
  have hspelled : initial.spelled "is " spans = ["is false-null!", "is true-null!"] := by
    have hbooleans : initial.texts .boolean = ["false", "true"] := by
      rw [texts, hboolean, List.filterMap_cons, hfalse]
      simp [htrue]
    have hnulls : initial.texts .null = ["null"] := by simp [texts, hnull, hnull']
    simp only [spelled, spans, List.map_cons, List.map_nil, hbooleans, hnulls]
    decide
  refine ⟨hspelled, ?_⟩
  have hstart : initial.Later true initial := .refl initial
  have hproduct := (template_eq_unionOfLiterals hstart ?_ ?_).1 r.2 (.refl r.2)
  · rwa [hspelled] at hproduct
  · simp only [spans, List.forall_mem_cons, List.not_mem_nil, false_imp_iff, implies_true, and_true]
    exact ⟨given_of_get? (hn.fixed 10 _ rfl), given_of_get? (hn.fixed 4 _ rfl)⟩
  · simp only [spans, List.forall_mem_cons, List.not_mem_nil, false_imp_iff, implies_true,
      hboolean, hnull, hfalse, htrue, hnull', Option.isSome_some, and_self]

end TypeTable

end DeclKit

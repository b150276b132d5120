/-
A text beside a template.

Whether a text has the form of a template is asked in two places: where the text is to stand for the
template, and where the two are put together in an intersection. The first one also asks whether the
pieces of the text belong to the types of the template, which the second one does not.
-/
import DeclKit.Proofs.Types.Matching
import DeclKit.Proofs.Typing.Answers
import Mathlib

set_option autoImplicit false

namespace DeclKit

namespace TypeTable

variable {nullChecks : Bool} {t : TypeTable} {a b : TypeId} {text head : String}
  {spans : List (TypeId × String)}

/-! ## Together in an intersection -/

/-- What a literal and a template come to in an intersection, in either order. -/
theorem meeting_template (ht : t.Normal nullChecks) (ha : t.kind a = .stringLiteral text)
    (hb : t.kind b = .template head spans) {ids : List TypeId} (hids : ids = [a, b] ∨ ids = [b, a]) :
    t.meeting nullChecks ids =
      if (Template.matchText? text head spans).isSome then .members [a] else .type .never := by
  have hab : a ≠ b := by
    rintro rfl
    rw [ha] at hb
    cases hb
  have hkinds : ∀ m ∈ ids, t.kind m = .stringLiteral text ∨ t.kind m = .template head spans := by
    rcases hids with rfl | rfl <;> simp [ha, hb]
  -- neither of them is a type with a fixed number
  have fixed (x : TypeId) {k : TypeKind} (hx : intrinsics[x.index]? = some k) :
      ids.contains x = false := by
    have hplain : ∀ k ∈ intrinsics, k ≠ .stringLiteral text ∧ k ≠ .template head spans := by
      simp [intrinsics]
    rw [Bool.eq_false_iff, ne_eq, List.contains_iff_mem]
    intro hmem
    obtain ⟨hliteral, htemplate⟩ := hplain k (List.mem_of_getElem? hx)
    have hk : t.kind x = k := ht.kind_fixed hx
    rcases hkinds _ hmem with h | h
    · exact hliteral (hk.symm.trans h)
    · exact htemplate (hk.symm.trans h)
  have hoperands : t.operands ids = ids := by
    rw [operands, List.flatMap_congr fun m hm => show t.conjuncts m = [m] from ?_,
      List.flatMap_singleton']
    · rcases hids with rfl | rfl
      · simp [List.eraseDups_cons, hab.symm]
      · simp [List.eraseDups_cons, hab]
    · rw [conjuncts_eq ht]
      refine conjunctsStep_of_not_intersection fun ms hk => ?_
      rcases hkinds m hm with h | h <;> rw [hk] at h <;> cases h
  have hknown : ids.filter (· != .unknown) = ids := by
    rw [List.filter_eq_self]
    intro m hm
    rw [bne_iff_ne]
    rintro rfl
    exact absurd hm (by simpa using fixed .unknown rfl)
  have hsplit : t.splitAtUnion? id ids = none := by
    rcases hids with rfl | rfl <;> simp [splitAtUnion?, ha, hb]
  have hdomains : ids.filterMap t.domain? = [.string, .string] := by
    rcases hids with rfl | rfl <;> simp [domain?, ha, hb]
  have hunits : ids.filter t.isUnit = [a] := by
    rcases hids with rfl | rfl <;> simp [isUnit, ha, hb]
  have hfits : ids.all (t.fitsText text) = (Template.matchText? text head spans).isSome := by
    rcases hids with rfl | rfl <;> simp [fitsText, ha, hb]
  have hdisjoint : t.isDisjoint nullChecks ids = !(Template.matchText? text head spans).isSome := by
    rw [isDisjoint, hdomains, hunits]
    dsimp only
    rw [ha, fixed .object rfl]
    dsimp only
    rw [hfits]
    rfl
  have hkept : t.withoutImplied ids = [a] := by
    rw [withoutImplied, if_pos]
    · rcases hids with rfl | rfl <;> simp [isImpliedByLiteral, ha, hb]
    · rw [List.any_eq_true]
      exact ⟨a, List.mem_of_mem_filter (hunits ▸ List.mem_singleton_self a), by simp [isUnit, ha]⟩
  rw [meeting, hoperands, fixed .never rfl, fixed .error rfl, fixed .any rfl]
  dsimp only
  rw [hknown, hsplit, hdisjoint, hkept]
  cases (Template.matchText? text head spans).isSome <;> rfl

end TypeTable

namespace Typing

open Check TypeTable

variable {s : Setting} {c : Checker} {ops : Operations} {a b : TypeId} {text head : String}
  {spans : List (TypeId × String)}

/-- A literal and a template together are the literal if it has the form of the template, and nothing
otherwise. -/
theorem run_intersection_template (ht : c.table.Normal s.nullChecks)
    (ha : c.table.kind a = .stringLiteral text) (hb : c.table.kind b = .template head spans)
    {ids : List TypeId} (hids : ids = [a, b] ∨ ids = [b, a]) :
    ((intersection ops ids).run s).run c =
      (if (Template.matchText? text head spans).isSome then a else .never, c) := by
  unfold intersection intersectionStep Check.intersection
  dsimp only [StateT.run]
  rw [meeting_template ht ha hb hids]
  by_cases h : (Template.matchText? text head spans).isSome
  · rw [if_pos h, if_pos h]
    dsimp only
    -- one member alone is never superfluous
    have hdrop : ((emptyObjects ops [a]).run s).run c = ([], c) := by
      unfold emptyObjects
      have hone (p : TypeId → Bool) : ([a].filter p).length ≤ 1 := List.length_filter_le p [a]
      show StateT.run ((if ([a].filter fun m => (Check.table.run s c).1.isObjectLike m || m == .object).length ≤ 1
        then _ else _ : Check _).run s) c = _
      rw [if_pos (hone _)]
      rfl
    rw [show (emptyObjects ops [a]).run s c = ([], c) from hdrop]
    rfl
  · rw [if_neg h, if_neg h]

/-! ## One for the other -/

/-- Types of a kind accept a text in a template, whatever the checker knows. -/
def accepts : TypeKind → String → Bool
  | .any, _ | .string, _ => true
  | .number, piece => Text.isNumber piece
  | .bigint, piece => Text.isBigint piece
  | _, _ => false

theorem accepts_cases {k : TypeKind} {piece : String} (h : accepts k piece) :
    k = .any ∨ k = .string ∨ k = .number ∨ k = .bigint := by
  cases k with
  | any | string | number | bigint => simp
  | _ => cases h

/-- A literal is related to a template by its text, unless the template has to wait. -/
theorem run_relate_template (ha : c.table.kind a = .stringLiteral text)
    (hb : c.table.kind b = .template head spans) :
    ((relate ops a b).run s).run c =
      if c.table.isDeferred a || c.table.isDeferred b then (none, c)
      else ((relateTemplate ops text head spans).run s).run c := by
  have htable : (Check.table.run s c).1 = c.table := rfl
  show StateT.run ((if (Check.table.run s c).1.kind a = (Check.table.run s c).1.kind b
    then _ else _ : Check _).run s) c = _
  rw [htable, ha, hb, if_neg (fun h => by cases h)]
  dsimp only
  split
  · rfl
  unfold relateKnown
  rw [run_bind, show (Check.table.run s).run c = (c.table, c) from rfl]
  dsimp only
  rw [ha, hb]
  rfl

/-- A text without the form of a template is not related to it. -/
theorem matchText?_of_relateTemplate
    (h : (((relateTemplate ops text head spans).run s).run c).1 = some true) :
    (Template.matchText? text head spans).isSome := by
  unfold relateTemplate at h
  split at h
  · cases h
  · rename_i hmatch
    rw [hmatch]
    rfl

theorem run_fits_of_accepts {piece : String} {id : TypeId} (ht : c.table.Normal s.nullChecks)
    (h : accepts (c.table.kind id) piece) :
    ((fits ops piece id).run s).run c = (true, c) := by
  have hconjuncts : c.table.conjuncts id = [id] := by
    rw [conjuncts_eq ht]
    refine conjunctsStep_of_not_intersection fun ms hk => ?_
    rw [hk] at h
    cases h
  have hsingle : ((fitsSingle ops piece id).run s).run c = (true, c) := by
    unfold fitsSingle
    rw [run_bind, show ((Check.kind id).run s).run c = (c.table.kind id, c) from rfl]
    rcases accepts_cases h with hk | hk | hk | hk <;> rw [hk] at h ⊢
    · rfl
    · rfl
    · exact congrArg (·, c) h
    · exact congrArg (·, c) h
  unfold fits
  show StateT.run ((holdsForAll (fitsSingle ops piece) (c.table.conjuncts id)).run s) c = _
  rw [hconjuncts, holdsForAll, run_bind, hsingle]
  rfl

/-- A text whose pieces the types of the template accept is related to it. -/
theorem run_relateTemplate_of_accepts (ht : c.table.Normal s.nullChecks) {pieces : List String}
    (hmatch : Template.matchText? text head spans = some pieces)
    (h : ∀ p ∈ pieces.zip (spans.map (·.1)), accepts (c.table.kind p.2) p.1) :
    ((relateTemplate ops text head spans).run s).run c = (some true, c) := by
  have hall (ps : List (String × TypeId)) (hps : ∀ p ∈ ps, accepts (c.table.kind p.2) p.1) :
      ((holdsForAll (fun p => fits ops p.1 p.2) ps).run s).run c = (true, c) := by
    induction ps with
    | nil => rfl
    | cons p ps ih =>
      rw [List.forall_mem_cons] at hps
      rw [holdsForAll, run_bind, run_fits_of_accepts ht hps.1]
      exact ih hps.2
  unfold relateTemplate
  rw [hmatch]
  show StateT.run ((holdsForAll (fun p => fits ops p.1 p.2) (pieces.zip (spans.map (·.1))) >>=
    fun ok => pure (some ok) : Check (Option Bool)).run s) c = _
  rw [run_bind, hall _ h]
  rfl

/-- A template all of whose types accept some text has nothing to wait for. -/
theorem not_isDeferred_of_accepts (hb : c.table.kind b = .template head spans)
    (h : ∀ span ∈ spans, ∃ piece, accepts (c.table.kind span.1) piece) :
    c.table.isDeferred b = false := by
  rw [TypeTable.isDeferred, descend, waitsStep, hb]
  dsimp only
  rw [List.any_eq_false]
  intro span hspan
  obtain ⟨piece, hpiece⟩ := h span hspan
  rw [Bool.not_eq_true]
  cases b.index with
  | zero => rfl
  | succ n =>
    rw [descend, waitsStep]
    rcases accepts_cases hpiece with hk | hk | hk | hk <;> rw [hk]

/-- Intersections with templates agree with assignability. In every state that a check can reach, for
every literal of a text and every template, in either order: together in an intersection they are the
literal if the text has the form of the template, and `never` otherwise. So they are the literal if that
is found, asked for the first time, to stand for the template. And they are `never` if it is not, as
long as no type of the template rejects its piece of the text, and nothing nests too deep. -/
theorem intersection_template (hc : c.Reachable s) (ha : c.table.kind a = .stringLiteral text)
    (hb : c.table.kind b = .template head spans) (hfirst : c.relations[(a, b)]? = none) :
    let ops := Operations.standard
    let meet := fun r => ((ops.intersection [a, b]).run s).run c = (r, c) ∧
      ((ops.intersection [b, a]).run s).run c = (r, c)
    let answer := (((ops.assignable a b).run s).run c).1
    meet (if (Template.matchText? text head spans).isSome then a else .never) ∧
      (answer = some true → meet a) ∧
      (c.depth < maxDepth →
        (∀ pieces, Template.matchText? text head spans = some pieces →
          ∀ p ∈ pieces.zip (spans.map (·.1)), accepts (c.table.kind p.2) p.1) →
        meet (if answer = some true then a else .never)) := by
  intro ops meet answer
  have hintersection : ops.intersection = intersection (Operations.level 9999) := rfl
  have hassignable : ops.assignable = assignable (Operations.level 9999) := rfl
  have hmeet : meet (if (Template.matchText? text head spans).isSome then a else .never) := by
    unfold meet
    rw [hintersection]
    exact ⟨run_intersection_template hc.normal ha hb (.inl rfl),
      run_intersection_template hc.normal ha hb (.inr rfl)⟩
  have hab : a ≠ b := by
    rintro rfl
    rw [ha] at hb
    cases hb
  obtain ⟨d, hd, hrun⟩ := exists_run_relate hc (Operations.level 9999) hab hfirst
  have hda : d.table.kind a = .stringLiteral text := hd ▸ ha
  have hdb : d.table.kind b = .template head spans := hd ▸ hb
  have hanswer : answer = _ := hrun
  rw [run_relate_template hda hdb] at hanswer
  have hform (h : answer = some true) : (Template.matchText? text head spans).isSome := by
    rw [hanswer] at h
    split at h
    case isFalse => cases h
    split at h
    · cases h
    · exact matchText?_of_relateTemplate h
  refine ⟨hmeet, fun h => by rwa [if_pos (hform h)] at hmeet, fun hdepth haccepts => ?_⟩
  -- the text is cut into one piece for each type, so nothing has to wait
  have hyes (hmatch : (Template.matchText? text head spans).isSome) : answer = some true := by
    obtain ⟨pieces, hpieces⟩ := Option.isSome_iff_exists.1 hmatch
    have hp := haccepts pieces hpieces
    have hnormal : c.table.NormalTemplate spans := hc.normal.form hb fun h => by cases h
    obtain ⟨hlength, -⟩ := Template.matchText?_sound hnormal.nonempty hpieces
    have hliteral : c.table.isDeferred a = false := by
      rw [TypeTable.isDeferred, descend, waitsStep, ha]
    have htemplate : c.table.isDeferred b = false := by
      refine not_isDeferred_of_accepts hb fun span hspan => ?_
      have hmem : span.1 ∈ (pieces.zip (spans.map (·.1))).map (·.2) := by
        rw [List.map_snd_zip (by rw [List.length_map, hlength])]
        exact List.mem_map_of_mem hspan
      obtain ⟨q, hq, heq⟩ := List.mem_map.1 hmem
      exact ⟨q.1, heq ▸ hp q hq⟩
    rw [hanswer, if_pos hdepth, hd, hliteral, htemplate, if_neg (by decide),
      run_relateTemplate_of_accepts (hd ▸ hc.normal) hpieces (hd ▸ hp)]
  have hiff : (Template.matchText? text head spans).isSome ↔ answer = some true := ⟨hyes, hform⟩
  simpa only [hiff] using hmeet

/-- A text that starts with the head of a template is what it has in common with it. -/
theorem intersection_template_prefix :
    let s := Setting.strict
    let spans := [(TypeId.string, "")]
    let r := ((Check.stringLiteral "ax").run s).run {}
    let r' := ((Check.template "a" spans).run s).run r.2
    let ops := Operations.standard
    r'.2.Reachable s ∧ r'.2.table.kind r.1 = .stringLiteral "ax" ∧
      r'.2.table.kind r'.1 = .template "a" spans ∧ r'.2.relations[(r.1, r'.1)]? = none ∧
      r'.2.depth < maxDepth ∧
      (∀ pieces, Template.matchText? "ax" "a" spans = some pieces →
        ∀ p ∈ pieces.zip (spans.map (·.1)), accepts (r'.2.table.kind p.2) p.1) ∧
      (((ops.assignable r.1 r'.1).run s).run r'.2).1 = some true ∧
      ((ops.intersection [r.1, r'.1]).run s).run r'.2 = (r.1, r'.2) ∧
      ((ops.intersection [r'.1, r.1]).run s).run r'.2 = (r.1, r'.2) := by
  intro s spans r r' ops
  have hc₁ : r.2.Reachable s := .step _ .start
  have hc : r'.2.Reachable s := .step _ hc₁
  have hgrows : r.2.table.Grows r'.2.table := ((Check.template "a" spans).later s r.2).keeps.1
  have ha : r'.2.table.kind r.1 = .stringLiteral "ax" :=
    kind_of_get? (hgrows.types _ _ store_get?)
  have hstring : r.2.table.kind .string = .string := hc₁.normal.kind_fixed (i := 5) rfl
  have hb : r'.2.table.kind r'.1 = .template "a" spans := by
    have hgiven : ∀ p ∈ spans, r.2.table.Given (.type p.1) :=
      List.forall_mem_singleton.2 (given_of_get? (hc₁.normal.fixed 5 _ rfl))
    have hatom : ∀ p ∈ spans, r.2.table.IsAtom p.1 :=
      List.forall_mem_singleton.2 (isAtom_of_inUnion (by rw [hstring]; rfl))
    have hget := get?_template hc₁.normal "a" hgiven (List.forall_mem_singleton.2 (by decide)) hatom
    have hword : r.2.table.settledWord "a" spans = templateWord "a" spans := by
      rw [settledWord, templateWord, spansWord, List.flatMap_singleton, List.flatMap_singleton,
        partWord_of_inTemplate (by rw [hstring]; rfl)]
      rfl
    rw [hword] at hget
    exact (kind_of_get? hget).trans (by decide)
  have hfirst : r'.2.relations[(r.1, r'.1)]? = none := Std.HashMap.getElem?_empty
  have haccepts : ∀ pieces, Template.matchText? "ax" "a" spans = some pieces →
      ∀ p ∈ pieces.zip (spans.map (·.1)), accepts (r'.2.table.kind p.2) p.1 := by
    intro pieces _ p hp
    have hp : p.2 = .string := by simpa [spans] using (List.of_mem_zip hp).2
    rw [hp, show r'.2.table.kind .string = .string from hc.normal.kind_fixed (i := 5) rfl]
    rfl
  obtain ⟨hmeet, -, hboth⟩ := intersection_template hc ha hb hfirst
  rw [if_pos (by decide)] at hmeet
  have hyes : (((ops.assignable r.1 r'.1).run s).run r'.2).1 = some true := by
    by_contra hno
    have hmeet' := hboth (by decide) haccepts
    rw [if_neg hno, hmeet.1] at hmeet'
    have hnever : r'.2.table.kind .never = .never := hc.normal.kind_fixed (i := 13) rfl
    rw [← (Prod.mk.inj hmeet'.1).1, ha] at hnever
    cases hnever
  exact ⟨hc, ha, hb, hfirst, by decide, haccepts, hyes, hmeet⟩

end Typing

end DeclKit

/-
The lengths of assignable tuples.

A tuple has at least its required elements, and no more elements than are listed unless one of them can
be repeated. Where one tuple type can stand where another is wanted, the lengths of the first are
lengths of the second. When the second has an element that can be repeated, how many elements it needs
is not looked at, so there a tuple can be too short.
-/
import DeclKit.Proofs.Typing.Answers

set_option autoImplicit false

namespace DeclKit

/-! ## Lengths -/

namespace TupleElement

/-- How many elements a tuple must have. -/
def needed (es : List TupleElement) : Nat := (es.filter (·.kind == .required)).length

/-- A tuple may have so many elements. -/
def AdmitsLength (es : List TupleElement) (n : Nat) : Prop :=
  needed es ≤ n ∧ (n ≤ es.length ∨ ∃ e ∈ es, e.kind = .rest)

instance (es : List TupleElement) (n : Nat) : Decidable (AdmitsLength es n) :=
  inferInstanceAs (Decidable (_ ∧ _))

variable {es fs : List TupleElement} {n : Nat}

/-- Where all elements stand at one place, the listed elements are the most that there can be. -/
theorem AdmitsLength.le_length (h : AdmitsLength es n) (hfixed : ∀ e ∈ es, e.kind.isFixed) :
    n ≤ es.length := by
  rcases h.2 with h | ⟨e, he, hrest⟩
  · exact h
  · have hkind := hfixed e he
    rw [hrest] at hkind
    cases hkind

end TupleElement

namespace Typing

open Check TypeTable TupleElement

variable {s : Setting} {c : Checker} {ops : Operations} {es fs : List TupleElement} {n : Nat}

/-! ## Relating tuples -/

/-- Tuples one of which has an element that can be repeated are related only if the target has one and
all elements of the source stand at one place. -/
theorem fixed_of_relateOpenTuples
    (h : (((relateOpenTuples ops es fs).run s).run c).1 = some true) :
    (∃ e ∈ fs, e.kind = .rest) ∧ ∀ e ∈ es, e.kind.isFixed := by
  unfold relateOpenTuples at h
  split at h
  · cases h
  rename_i rest hrest
  split at h
  · cases h
  rename_i hopen
  refine ⟨⟨rest, List.mem_of_find?_eq_some hrest, ?_⟩, fun e he => ?_⟩
  · simpa using List.find?_some hrest
  · simp only [List.any_eq_true, Bool.not_eq_true', not_exists, not_and, Bool.not_eq_false] at hopen
    exact hopen e he

/-- Tuples all of whose elements stand at one place are related only if the target has room for the
elements of the source, and needs no more than that. -/
theorem admitsLength_of_relateTuples (h : (((relateTuples ops es fs).run s).run c).1 = some true)
    (hn : AdmitsLength es n) (hneeded : needed fs ≤ n ∨ ∀ e ∈ fs, e.kind ≠ .rest) :
    AdmitsLength fs n := by
  unfold relateTuples at h
  dsimp only at h
  split at h
  · obtain ⟨⟨rest, hmem, hrest⟩, -⟩ := fixed_of_relateOpenTuples h
    refine ⟨hneeded.resolve_right fun hnone => hnone rest hmem hrest, .inr ⟨rest, hmem, hrest⟩⟩
  rename_i hclosed
  split at h
  · cases h
  rename_i hlengths
  simp only [Bool.or_eq_true, Bool.not_eq_true', not_or, Bool.not_eq_false, List.all_eq_true] at hclosed
  have hlength := hn.le_length hclosed.1
  have hmost : es.length ≤ fs.length ∧ needed fs ≤ needed es := by
    simpa [needed] using hlengths
  exact ⟨Nat.le_trans hmost.2 hn.1, .inl (Nat.le_trans hlength hmost.1)⟩

/-! ## The lengths of assignable tuples -/

/-- Where one tuple type can stand where another is wanted, lengths carry over. In every state that a
check can reach, for all tuple types: if it is answered for the first time that the source can stand
where the target is wanted, then every length that the source admits is a length that the target admits,
as long as it is enough for what the target needs or the target has no element that can be repeated. -/
theorem admitsLength_of_assignable (hc : c.Reachable s) {source target : TypeId}
    {readonly readonly' : Bool} (hs : c.table.kind source = .tuple es readonly)
    (ht : c.table.kind target = .tuple fs readonly')
    (hfirst : c.relations[(source, target)]? = none)
    (h : (((Operations.standard.assignable source target).run s).run c).1 = some true)
    (hn : AdmitsLength es n) (hneeded : needed fs ≤ n ∨ ∀ e ∈ fs, e.kind ≠ .rest) :
    AdmitsLength fs n := by
  by_cases heq : source = target
  · subst heq
    rw [hs] at ht
    exact (TypeKind.tuple.inj ht).1 ▸ hn
  · have hassignable : Operations.standard.assignable = assignable (Operations.level 9999) := rfl
    rw [hassignable] at h
    obtain ⟨d, hd, hrun⟩ := exists_run_relate hc (Operations.level 9999) heq hfirst
    rw [← hd] at hs ht
    rw [hrun, run_relate_tuple hs ht] at h
    split at h
    case isFalse => cases h
    split at h
    · rename_i hsame
      exact (TypeKind.tuple.inj hsame).1 ▸ hn
    split at h
    · cases h
    split at h
    · cases h
    · exact admitsLength_of_relateTuples h hn hneeded

/-- A tuple of a string can stand where a number may follow it, and one element is enough there. -/
theorem admitsLength_of_assignable_optional :
    let s := Setting.strict
    let es : List TupleElement := [⟨.string, .required, none⟩]
    let fs : List TupleElement := [⟨.string, .required, none⟩, ⟨.number, .optional, none⟩]
    let r := ((Check.intern (.tuple es false)).run s).run {}
    let r' := ((Check.intern (.tuple fs false)).run s).run r.2
    r'.2.Reachable s ∧ r'.2.table.kind r.1 = .tuple es false ∧
      r'.2.table.kind r'.1 = .tuple fs false ∧ r'.2.relations[(r.1, r'.1)]? = none ∧
      (((Operations.standard.assignable r.1 r'.1).run s).run r'.2).1 = some true ∧
      AdmitsLength es 1 ∧ needed fs ≤ 1 ∧ AdmitsLength fs 1 := by
  intro s es fs r r'
  obtain ⟨hc, hs, ht, hne, hfirst⟩ := stored_tuples s (show es ≠ fs by decide)
  have hdeferred : (r'.2.table.isDeferred r.1 || r'.2.table.isDeferred r'.1) = false := by
    rw [TypeTable.isDeferred, TypeTable.isDeferred, descend, descend, waitsStep, waitsStep, hs, ht]
    rfl
  have hassignable : Operations.standard.assignable = assignable (Operations.level (9998 + 1)) := rfl
  have hself (id : TypeId) (d : Checker) :
      (((Operations.level (9998 + 1)).assignable id id).run s).run d = (some true, d) :=
    run_assignable_self (Operations.level 9998) id
  have h : (((Operations.standard.assignable r.1 r'.1).run s).run r'.2).1 = some true := by
    obtain ⟨d, hd, hrun⟩ := exists_run_relate hc (Operations.level (9998 + 1)) hne hfirst
    rw [← hd] at hs ht hdeferred
    rw [hassignable, hrun, if_pos (by decide), run_relate_tuple hs ht, if_neg (by decide),
      if_neg (Bool.eq_false_iff.1 hdeferred), if_neg (by decide)]
    unfold relateTuples
    dsimp only
    rw [if_neg (by decide), if_neg (by decide)]
    show (StateT.run (((Operations.level (9998 + 1)).assignable .string .string >>= _ : Check _).run s) d).1 = _
    rw [run_bind, hself]
    rfl
  exact ⟨hc, hs, ht, hfirst, h, by decide, by decide,
    admitsLength_of_assignable hc hs ht hfirst h (by decide) (.inl (by decide))⟩

end Typing

end DeclKit

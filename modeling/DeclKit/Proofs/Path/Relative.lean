/-
The way from a directory to a path, and back.

A relative path is found by comparing components from the front, while it is followed by putting texts
together and normalizing what comes out. Followed from its directory it leads to its target, whether
the two are the same, one lies below the other, or they share nothing but the root. No other relative
path leads there with fewer steps up: a step takes back one component at most, so what a path with some
steps up leads to still starts with all components of the directory but so many.
-/
import DeclKit.Proofs.Path.Specifier

set_option autoImplicit false

namespace DeclKit.Path

/-- How many steps of a path lead up a level. -/
def stepsUp (p : String) : Nat := (components p).count .parent

/-! ## What is left of a directory -/

section Steps

variable {base out : List Component} {j : Nat}

/-- Components stand in reverse here, as normalizing keeps them. If all but `j` of the directory are
left before a step, then they are left after it, and all but one more if it leads up. -/
theorem exists_suffix_normalizeStep (h : base.drop j <:+ out) (c : Component) :
    ∃ i ≤ j + [c].count .parent, base.drop i <:+ normalizeStep out c := by
  cases c with
  | root => exact ⟨j, Nat.le_add_right j _, h.trans (List.suffix_cons _ out)⟩
  | current => exact ⟨j, Nat.le_add_right j _, h⟩
  | name s => exact ⟨j, Nat.le_add_right j _, h.trans (List.suffix_cons _ out)⟩
  | parent =>
    have hcount : [Component.parent].count .parent = 1 := by simp
    rw [hcount]
    cases out with
    | nil => exact ⟨j, Nat.le_succ j, h.trans (List.suffix_cons _ [])⟩
    | cons d before =>
      by_cases hroot : d = .root
      · -- behind the root there is nothing to take back
        subst hroot
        exact ⟨j, Nat.le_succ j, h.trans (List.suffix_cons _ _)⟩
      · have hstep : normalizeStep (d :: before) .parent = before := by
          cases d <;> simp_all [normalizeStep]
        rw [hstep]
        rcases List.suffix_cons_iff.1 h with hall | hbelow
        · -- the step takes back a component of the directory
          refine ⟨j + 1, Nat.le_refl _, ?_⟩
          have hbefore : base.drop (j + 1) = before := by rw [← List.tail_drop, hall, List.tail_cons]
          exact ⟨[], hbefore⟩
        · exact ⟨j, Nat.le_succ j, hbelow⟩

theorem exists_suffix_foldl_normalizeStep (cs : List Component) (h : base.drop j <:+ out) :
    ∃ i ≤ j + cs.count .parent, base.drop i <:+ cs.foldl normalizeStep out := by
  induction cs generalizing j out with
  | nil => exact ⟨j, Nat.le_refl j, h⟩
  | cons c cs ih =>
    obtain ⟨i, hi, hstep⟩ := exists_suffix_normalizeStep h c
    obtain ⟨k, hk, hrest⟩ := ih hstep
    refine ⟨k, ?_, hrest⟩
    have hcount : (c :: cs).count .parent = [c].count .parent + cs.count .parent := by
      rw [← List.singleton_append, List.count_append]
    omega

end Steps

/-! ## Relative paths -/

variable {directory target : String} {up down shared more rest : List Component}

/-- Behind the root of an absolute path that does not lead up there are only names. -/
theorem exists_isPlainRest {p : String} (h : isAbsolute p = true) (hup : .parent ∉ components p) :
    ∃ rest, components p = .root :: rest ∧ IsPlainRest rest ∧ .parent ∉ rest := by
  have hcomponents := components_of_isAbsolute h
  have hnone : .parent ∉ steps p := by
    intro hmem
    apply hup
    rw [hcomponents]
    exact List.mem_cons_of_mem _ hmem
  refine ⟨steps p, hcomponents, ⟨fun c hc => isSegment_of_mem hc, ?_⟩, hnone⟩
  intro htail
  exact hnone (List.mem_of_mem_tail htail)

/-- The way up to what a directory and a path share, and down from there, leads to the path. -/
theorem components_resolve_way (hdirectory : components directory = .root :: (shared ++ more))
    (htarget : components target = .root :: (shared ++ rest)) (hup : IsPlainRest (shared ++ more))
    (hdown : IsPlainRest (shared ++ rest)) :
    components (resolve directory (ofComponents (List.replicate more.length .parent ++ rest))) =
      components target := by
  have hsegments := isSegment_way more.length fun c hc =>
    hdown.segment c (List.mem_append_right shared hc)
  have hreaches := (leadsTo_lead hdirectory hup hdown).reaches
  rw [steps_lead hsegments] at hreaches
  rw [resolve, components_normalize, normalComponents, components_join_segments _ hsegments,
    hreaches, List.reverse_reverse, htarget]

/-- A relative path that leads from a directory to a path has at least as many steps up as the
directory has components that the two do not share. -/
theorem length_le_stepsUp {way : String}
    (hdirectory : components directory = .root :: (shared ++ more))
    (htarget : components target = .root :: down) (hup : IsPlainRest (shared ++ more))
    (hgreatest : ∀ front, front <+: shared ++ more → front <+: down → front <+: shared)
    (hway : isAbsolute way = false)
    (hleads : components (resolve directory way) = components target) :
    more.length ≤ stepsUp way := by
  have hne : directory ≠ "" := by
    rintro rfl
    have hempty : components "" = [] := by decide
    rw [hempty] at hdirectory
    cases hdirectory
  have hfold : (steps way).foldl normalizeStep (.root :: (shared ++ more)).reverse =
      (.root :: down).reverse := by
    have hread := foldl_normalizeStep_root hup
    rw [resolve, components_normalize, normalComponents, components_join hway hne, hdirectory,
      List.foldl_append, hread, htarget] at hleads
    rw [← hleads, List.reverse_reverse]
  have hcount : (steps way).count .parent ≤ stepsUp way := by
    rw [stepsUp, components_eq_front, List.count_append]
    exact Nat.le_add_left _ _
  -- all but `i` components of the directory are left, and so lead to the target
  obtain ⟨i, hi, hsuffix⟩ := exists_suffix_foldl_normalizeStep (j := 0) (steps way)
    (List.drop_suffix 0 (Component.root :: (shared ++ more)).reverse)
  by_cases hlong : (shared ++ more).length ≤ i
  · rw [List.length_append] at hlong
    omega
  · rw [hfold, List.drop_reverse, List.reverse_suffix, List.length_cons,
      Nat.sub_add_comm (by omega), List.take_succ_cons, List.cons_prefix_cons] at hsuffix
    have hfront := hgreatest _ (List.take_prefix _ _) hsuffix.2
    have hlength := hfront.length_le
    rw [List.length_take, List.length_append] at hlength
    omega

/-- The relative path from a directory to a path leads from the one to the other, and of all relative
paths that do so none has fewer steps up. -/
theorem resolve_relative (hdirectory : isAbsolute directory = true)
    (htarget : isAbsolute target = true) (hdirectoryUp : .parent ∉ components directory)
    (htargetUp : .parent ∉ components target) :
    components (resolve directory (relative directory target)) = components target ∧
      isAbsolute (relative directory target) = false ∧
      ∀ way, isAbsolute way = false →
        components (resolve directory way) = components target →
        stepsUp (relative directory target) ≤ stepsUp way := by
  obtain ⟨up, hstart, hup, -⟩ := exists_isPlainRest hdirectory hdirectoryUp
  obtain ⟨down, hgoal, hdown, hnone⟩ := exists_isPlainRest htarget htargetUp
  obtain ⟨shared, more, rest, rfl, rfl, hgreatest, hrelative⟩ :=
    relative_spec hstart hup.segment hgoal hdown.segment
  have hsegments := isSegment_way more.length fun c hc =>
    hdown.segment c (List.mem_append_right shared hc)
  have hsteps : stepsUp (relative directory target) = more.length := by
    have hrest : .parent ∉ rest := fun hmem => hnone (List.mem_append_right shared hmem)
    rw [stepsUp, hrelative, components_ofComponents_segments hsegments, List.count_append,
      List.count_replicate_self, List.count_eq_zero_of_not_mem hrest, Nat.add_zero]
  refine ⟨?_, ?_, ?_⟩
  · rw [hrelative]
    exact components_resolve_way hstart hgoal hup hdown
  · rw [hrelative]
    exact isAbsolute_ofComponents hsegments
  · intro way hway hleads
    rw [hsteps]
    exact length_le_stepsUp hstart hgoal hup hgreatest hway hleads

/-- From below a directory to another one below it: the dots and slashes do not count, and a path that
goes further up than needed is no shorter. -/
theorem resolve_relative_beside :
    relative "/p//src/./a" "/p/lib/b.ts" = "../../lib/b.ts" ∧
      components (resolve "/p//src/./a" "../../lib/b.ts") = components "/p/lib/b.ts" ∧
      stepsUp "../../lib/b.ts" ≤ stepsUp "../../../p/lib/b.ts" := by
  have hrelative : relative "/p//src/./a" "/p/lib/b.ts" = "../../lib/b.ts" := by decide +kernel
  have hdirectory : isAbsolute "/p//src/./a" = true ∧ .parent ∉ components "/p//src/./a" := by
    decide +kernel
  have htarget : isAbsolute "/p/lib/b.ts" = true ∧ .parent ∉ components "/p/lib/b.ts" := by
    decide +kernel
  have h := resolve_relative hdirectory.1 htarget.1 hdirectory.2 htarget.2
  rw [hrelative] at h
  exact ⟨hrelative, h.1, h.2.2 _ (by decide +kernel) (by decide +kernel)⟩

end DeclKit.Path

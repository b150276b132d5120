/-
Diagnostics in order.

Sorting goes by place, then by code, then by message, and keeps the order of reports where these agree.
Repeats are dropped among neighbours only. Diagnostics that agree in all of this are still different when
their kinds, severities, chains or further places differ, so one that is reported twice with such another
between the two reports stays there twice; and that is the only way in which a diagnostic can.
-/
import DeclKit.Diagnostic.Basic
import Mathlib.Data.List.Destutter
import Mathlib.Data.List.Nodup

set_option autoImplicit false

namespace DeclKit.Diagnostic

/-- One place may stand before another: none is the whole project, which comes first, and the others
go by file, start and end. -/
inductive Precedes : Option Span → Option Span → Prop where
  | whole {p : Option Span} : Precedes none p
  | source {s t : Span} : s.source.index < t.source.index → Precedes (some s) (some t)
  | start {s t : Span} : s.source = t.source → s.start < t.start → Precedes (some s) (some t)
  | stop {s t : Span} : s.source = t.source → s.start = t.start → s.stop ≤ t.stop →
      Precedes (some s) (some t)

/-- Two diagnostics agree in all that they are sorted by. -/
structure Alike (d e : Diagnostic) : Prop where
  span_eq : d.span = e.span
  code_eq : d.kind.code = e.kind.code
  message_eq : d.message = e.message

/-! ## The order -/

/-- The order is one of several keys, each of which counts where those before it agree. -/
theorem order_eq_compareLex :
    order = compareLex (compareLex (compareLex (compareLex (compareLex
      (compareOn (·.place.1)) (compareOn (·.place.2.1))) (compareOn (·.place.2.2.1)))
      (compareOn (·.place.2.2.2))) (compareOn (·.kind.code))) (compareOn (·.message)) := rfl

instance : Std.TransCmp order := by
  rw [order_eq_compareLex]
  infer_instance

theorem place_inj {d e : Diagnostic} : d.place = e.place ↔ d.span = e.span := by
  unfold place
  rcases d.span with _ | ⟨⟨_⟩, _, _⟩ <;> rcases e.span with _ | ⟨⟨_⟩, _, _⟩ <;> simp

theorem order_eq_iff {d e : Diagnostic} : order d e = .eq ↔ Alike d e := by
  have hplace : d.span = e.span ↔ d.place.1 = e.place.1 ∧ d.place.2.1 = e.place.2.1 ∧
      d.place.2.2.1 = e.place.2.2.1 ∧ d.place.2.2.2 = e.place.2.2.2 := by
    rw [← place_inj, Prod.ext_iff, Prod.ext_iff, Prod.ext_iff]
  simp only [order_eq_compareLex, compareLex, compareOn, Ordering.then_eq_eq,
    Std.LawfulEqCmp.compare_eq_iff_eq]
  constructor
  · rintro ⟨⟨⟨⟨⟨h0, h1⟩, h2⟩, h3⟩, hcode⟩, hmessage⟩
    exact ⟨hplace.2 ⟨h0, h1, h2, h3⟩, hcode, hmessage⟩
  · rintro ⟨hspan, hcode, hmessage⟩
    obtain ⟨h0, h1, h2, h3⟩ := hplace.1 hspan
    exact ⟨⟨⟨⟨⟨h0, h1⟩, h2⟩, h3⟩, hcode⟩, hmessage⟩

theorem place_of_none {d : Diagnostic} (h : d.span = none) : d.place = (0, 0, 0, 0) := by
  rw [place, h]

theorem place_of_some {d : Diagnostic} {s : Span} (h : d.span = some s) :
    d.place = (1, s.source.index, s.start, s.stop) := by
  rw [place, h]

/-- What does not stand behind another by all keys does not stand behind it by place. -/
theorem precedes_of_order {d e : Diagnostic} (h : order d e ≠ .gt) : Precedes d.span e.span := by
  simp only [order_eq_compareLex, compareLex, compareOn, ne_eq, Ordering.then_eq_gt,
    Nat.compare_eq_gt, Nat.compare_eq_eq, Ordering.then_eq_eq] at h
  cases hd : d.span with
  | none => exact .whole
  | some s =>
    rw [place_of_some hd] at h
    cases he : e.span with
    | none =>
      rw [place_of_none he] at h
      exact absurd (.inl (.inl (.inl (.inl (.inl Nat.one_pos))))) h
    | some t =>
      rw [place_of_some he] at h
      have hkeys : s.source.index < t.source.index ∨ s.source.index = t.source.index ∧
          (s.start < t.start ∨ s.start = t.start ∧ s.stop ≤ t.stop) := by
        dsimp only at h
        omega
      rcases hkeys with hlt | ⟨hsource, hlt | ⟨hstart, hstop⟩⟩
      · exact .source hlt
      · exact .start (congrArg SourceId.mk hsource) hlt
      · exact .stop (congrArg SourceId.mk hsource) hstart hstop

/-! ## Sorting -/

/-- The diagnostics in order, repeats included. -/
def arranged (ds : List Diagnostic) : List Diagnostic := ds.mergeSort fun a b => order a b != .gt

theorem order_trans (a b c : Diagnostic) (hab : order a b != .gt) (hbc : order b c != .gt) :
    order a c != .gt := by
  simp only [bne_iff_ne, Ordering.ne_gt_iff_isLE] at *
  exact Std.TransCmp.isLE_trans hab hbc

theorem order_total (a b : Diagnostic) : (order a b != .gt) || (order b a != .gt) := by
  have hswap : order b a = (order a b).swap := Std.OrientedCmp.eq_swap
  rw [hswap]
  cases order a b <;> rfl

theorem pairwise_arranged (ds : List Diagnostic) :
    (arranged ds).Pairwise fun a b => order a b != .gt :=
  List.pairwise_mergeSort order_trans order_total ds

/-- Diagnostics that are alike stay in the order in which they were reported. -/
theorem filter_arranged (ds : List Diagnostic) (d : Diagnostic) :
    (arranged ds).filter (order d · == .eq) = ds.filter (order d · == .eq) := by
  have halike : (ds.filter (order d · == .eq)).Pairwise fun a b => order a b != .gt := by
    refine List.pairwise_iff_forall_sublist.2 fun {a b} hab => ?_
    have ha := (List.mem_filter.1 (hab.subset (by simp : a ∈ [a, b]))).2
    have hb := (List.mem_filter.1 (hab.subset (by simp : b ∈ [a, b]))).2
    rw [beq_iff_eq] at ha hb
    rw [← Std.TransCmp.congr_left ha, hb]
    rfl
  have hsub := List.sublist_mergeSort order_trans order_total halike List.filter_sublist
  have hfilter := hsub.filter (order d · == .eq)
  rw [List.filter_filter] at hfilter
  simp only [Bool.and_self] at hfilter
  -- a sublist that is as long is the list
  exact (hfilter.eq_of_length (((List.mergeSort_perm ds _).filter _).length_eq).symm).symm

/-- Whatever stands between two diagnostics that are alike is alike too, and all three were reported in
this order. -/
theorem sublist_of_arranged {ds : List Diagnostic} {d e : Diagnostic}
    (h : [d, e, d].Sublist (arranged ds)) : Alike d e ∧ [d, e, d].Sublist ds := by
  have hpair := (pairwise_arranged ds).sublist h
  have hde : order d e != .gt := List.rel_of_pairwise_cons hpair (by simp)
  have hed : order e d != .gt := List.rel_of_pairwise_cons hpair.of_cons (by simp)
  have heq : order d e = .eq := by
    have hswap : order e d = (order d e).swap := Std.OrientedCmp.eq_swap
    rw [hswap] at hed
    cases hcmp : order d e <;> simp [hcmp] at hde hed ⊢
  refine ⟨order_eq_iff.1 heq, ?_⟩
  have hfilter := h.filter (order d · == .eq)
  rw [filter_arranged] at hfilter
  simp only [List.filter_cons, heq, Std.ReflCmp.compare_self, List.filter_nil, beq_self_eq_true,
    if_true] at hfilter
  exact hfilter.trans List.filter_sublist

/-! ## Repeats -/

theorem dropRepeats_eq_destutter (l : List Diagnostic) : dropRepeats l = l.destutter (· ≠ ·) := by
  fun_induction dropRepeats l with
  | case1 => rfl
  | case2 => rfl
  | case3 d rest ih => rw [ih, List.destutter_cons_cons, if_neg (not_not.2 rfl), List.destutter_cons']
  | case4 d e rest hne ih => rw [ih, List.destutter_cons_cons, if_pos hne, List.destutter_cons']

theorem dropRepeats_sublist (l : List Diagnostic) : (dropRepeats l).Sublist l :=
  dropRepeats_eq_destutter l ▸ List.destutter_sublist _ l

/-- No two neighbours are equal. -/
theorem isChain_dropRepeats (l : List Diagnostic) : (dropRepeats l).IsChain (· ≠ ·) :=
  dropRepeats_eq_destutter l ▸ List.isChain_destutter _ l

theorem dropRepeats_of_isChain {l : List Diagnostic} (h : l.IsChain (· ≠ ·)) : dropRepeats l = l :=
  (dropRepeats_eq_destutter l).trans (List.destutter_of_isChain _ l h)

/-- Dropping repeats leaves a selection in which no neighbours are equal. -/
theorem sublist_dropRepeats {c l : List Diagnostic} (hc : c.IsChain (· ≠ ·)) (h : c.Sublist l) :
    c.Sublist (dropRepeats l) := by
  fun_induction dropRepeats l generalizing c with
  | case1 => exact h
  | case2 => exact h
  | case3 d rest ih =>
    -- if the selection has the first of the two, it has not the second as well
    refine ih hc ?_
    cases h with
    | cons _ h => exact h
    | cons_cons _ h =>
      cases h with
      | cons _ h => exact h.cons_cons d
      | cons_cons => exact absurd rfl (List.isChain_cons_cons.1 hc).1
  | case4 d e rest _ ih =>
    cases h with
    | cons _ h => exact (ih hc h).cons d
    | cons_cons _ h => exact (ih hc.tail h).cons_cons d

theorem mem_dropRepeats {d : Diagnostic} {l : List Diagnostic} : d ∈ dropRepeats l ↔ d ∈ l := by
  rw [← List.singleton_sublist, ← List.singleton_sublist]
  exact ⟨fun h => h.trans (dropRepeats_sublist l), sublist_dropRepeats (.singleton d)⟩

/-- Where no neighbours are equal, something else stands between two that are. -/
theorem exists_between {d : Diagnostic} {l : List Diagnostic} (hl : l.IsChain (· ≠ ·))
    (h : [d, d].Sublist l) : ∃ e ≠ d, [d, e, d].Sublist l := by
  induction l with
  | nil => cases h
  | cons a l ih =>
    cases h with
    | cons _ h =>
      obtain ⟨e, hne, hbetween⟩ := ih hl.tail h
      exact ⟨e, hne, hbetween.cons a⟩
    | cons_cons _ h =>
      -- the neighbour of the first one is such an element
      cases l with
      | nil => cases h
      | cons e l =>
        have hne := (List.isChain_cons_cons.1 hl).1
        have hmem : d ∈ l := (List.mem_of_ne_of_mem hne (List.singleton_sublist.1 h))
        exact ⟨e, hne.symm, .cons_cons d (.cons_cons e (List.singleton_sublist.2 hmem))⟩

theorem nodup_dropRepeats_iff {l : List Diagnostic} :
    (dropRepeats l).Nodup ↔ ∀ d e, [d, e, d].Sublist l → d = e := by
  rw [List.nodup_iff_sublist]
  constructor
  · intro hnodup d e h
    by_contra hne
    have hchain : [d, e, d].IsChain (· ≠ ·) := by simp [hne, Ne.symm hne]
    exact hnodup d (.trans (by simp) (sublist_dropRepeats hchain h))
  · intro hall d h
    obtain ⟨e, hne, hbetween⟩ := exists_between (isChain_dropRepeats l) h
    exact hne (hall d e (hbetween.trans (dropRepeats_sublist l))).symm

/-! ## Diagnostics in order -/

/-- Sorting gives the same set of diagnostics in the order of their places, those of the whole project
first, and sorting once more changes nothing. The result has no two equal diagnostics exactly if no
diagnostic was reported twice with one between the two reports that differs from it and is yet alike:
with the same place, code and message. -/
theorem sorted_exact (ds : List Diagnostic) :
    (∀ d, d ∈ sorted ds ↔ d ∈ ds) ∧
      (sorted ds).Pairwise (fun d e => Precedes d.span e.span) ∧
      sorted (sorted ds) = sorted ds ∧
      ((sorted ds).Nodup ↔ ∀ d e, Alike d e → [d, e, d].Sublist ds → d = e) := by
  have hpair : (sorted ds).Pairwise fun a b => order a b != .gt :=
    (pairwise_arranged ds).sublist (dropRepeats_sublist _)
  refine ⟨fun d => ?_, ?_, ?_, ?_⟩
  · exact mem_dropRepeats.trans (List.mergeSort_perm ds _).mem_iff
  · exact hpair.imp fun h => precedes_of_order (bne_iff_ne.1 h)
  · have hsame : arranged (sorted ds) = sorted ds := List.mergeSort_of_pairwise hpair
    change dropRepeats (arranged (sorted ds)) = _
    rw [hsame]
    exact dropRepeats_of_isChain (isChain_dropRepeats _)
  · refine nodup_dropRepeats_iff.trans ⟨fun h d e halike hsub => ?_, fun h d e hsub => ?_⟩
    · refine h d e (List.sublist_mergeSort order_trans order_total ?_ hsub)
      have heq := order_eq_iff.2 halike
      have heq' := Std.OrientedCmp.eq_comm.1 heq
      simp [heq, heq', Std.ReflCmp.compare_self]
    · obtain ⟨halike, hreported⟩ := sublist_of_arranged hsub
      exact h d e halike hreported

end DeclKit.Diagnostic

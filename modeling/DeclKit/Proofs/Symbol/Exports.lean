/-
What an export leads to, and that looking for it ends.

The names of modules make a graph: a star passes a name on to another module, and a re-export asks
another module for a name of its own choice. Stars may go round in circles, since a search does not
look through a module twice on its way along stars. A re-export starts such a way anew, with nothing
looked through; so the search ends only if no circle contains one, and then the number of re-exports
that lie ahead falls with each that is followed. Together with the number of modules that a way along
stars has not met yet it bounds the search.

What the search finds does not depend on where it has turned back: when a way along stars ends without
an answer, the modules it has met are closed under stars, and none of them leads to a symbol otherwise.
-/
import DeclKit.Symbol.Basic
import DeclKit.Types.Table
import Mathlib

set_option autoImplicit false

namespace DeclKit

theorem NameMap.mem_names_of_get? {α : Type} {m : NameMap α} {name : String} {a : α}
    (h : m.get? name = some a) : name ∈ m.names := by
  obtain ⟨e, he, -⟩ := Option.map_eq_some_iff.1 h
  have hmem := Array.mem_of_find?_eq_some he
  have hname : e.1 = name := by simpa using Array.find?_some he
  exact List.mem_map.2 ⟨e, Array.mem_toList_iff.2 hmem, hname⟩

namespace Symbols

open TypeTable (descend)

variable {t : Symbols}

/-! ## The graph of exports -/

/-- A name of a module. -/
abbrev ExportName := SourceId × String

/-- What a module itself exports under a name. -/
def exportTarget? (t : Symbols) (a : ExportName) : Option ExportTarget :=
  (t.file? a.1).bind (·.exports.get? a.2)

/-- A module has no export of a name, other than the default, and exports all of another module. -/
def Stars (t : Symbols) (a b : ExportName) : Prop :=
  ∃ f, t.file? a.1 = some f ∧ f.exports.get? a.2 = none ∧ a.2 ≠ "default" ∧
    some b.1 ∈ f.stars ∧ b.2 = a.2

/-- A module exports a name of another module. -/
def Reexports (t : Symbols) (a b : ExportName) : Prop :=
  t.exportTarget? a = some (.reexport (some b.1) b.2)

/-- A name of a module leads to a name of another one. -/
def Leads (t : Symbols) (a b : ExportName) : Prop := t.Stars a b ∨ t.Reexports a b

/-- A name leads to another one in any number of steps. -/
abbrev Reaches (t : Symbols) : ExportName → ExportName → Prop := Relation.ReflTransGen t.Leads

/-- A module itself exports a symbol of its own, or a module that is bound. -/
def Exports (t : Symbols) (a : ExportName) (id : SymbolId) : Prop :=
  t.exportTarget? a = some (.local id) ∨
    ∃ m, t.exportTarget? a = some (.namespace_ (some m)) ∧ t.modules[m]? = some id

/-- No circle contains a re-export. -/
def ReexportsEnd (t : Symbols) : Prop := ∀ a b, t.Reexports a b → ¬t.Reaches b a

/-- Nothing that a name leads to is exported. -/
def Barren (t : Symbols) (a : ExportName) : Prop := ∀ b id, t.Reaches a b → ¬t.Exports b id

/-! ## Turns of the search -/

/-- The modules whose exports a module passes on under a name that it does not export itself. -/
def passers (t : Symbols) (a : ExportName) : List SourceId :=
  match t.file? a.1 with
  | some f => if a.2 == "default" then [] else f.stars.toList.filterMap id
  | none => []

/-- Goes on with a search at another module, unless something has been found. -/
def orElse (search : SourceId × String × List SourceId → Option SymbolId × List SourceId)
    (name : String) (r : Option SymbolId × List SourceId) (m : SourceId) :
    Option SymbolId × List SourceId :=
  match r.1 with
  | some _ => r
  | none => search (m, name, r.2)

/-- A turn of the search for an export, given the search at the modules that it leads to. -/
def exportStep (t : Symbols)
    (search : SourceId × String × List SourceId → Option SymbolId × List SourceId) :
    SourceId × String × List SourceId → Option SymbolId × List SourceId
  | (module, name, seen) =>
    if module ∈ seen then (none, seen)
    else match t.exportTarget? (module, name) with
      | some (.local id) => (some id, module :: seen)
      | some (.reexport target inner) =>
        (target.bind fun m => (search (m, inner, [])).1, module :: seen)
      | some (.namespace_ target) => (target.bind (t.modules[·]?), module :: seen)
      | none => (t.passers (module, name)).foldl (orElse search name) (none, module :: seen)

theorem mem_passers {a : ExportName} {m : SourceId} (ha : t.exportTarget? a = none) :
    m ∈ t.passers a ↔ t.Stars a (m, a.2) := by
  unfold passers Stars
  unfold exportTarget? at ha
  cases hf : t.file? a.1 with
  | none => simp
  | some f =>
    rw [hf, Option.bind_some] at ha
    by_cases hname : a.2 = "default" <;> simp [hname, ha]

/-- Stars that name no module are passed over. -/
theorem foldl_orElse (search : SourceId × String × List SourceId → Option SymbolId × List SourceId)
    {name : String} (stars : List (Option SourceId)) (r : Option SymbolId × List SourceId) :
    stars.foldl (fun r star => match r.1, star with
        | none, some m => search (m, name, r.2)
        | _, _ => (r.1, r.2)) r =
      (stars.filterMap id).foldl (orElse search name) r := by
  induction stars generalizing r with
  | nil => rfl
  | cons star stars ih =>
    obtain ⟨found, seen⟩ := r
    rw [List.foldl_cons, ih]
    cases star with
    | none => cases found <;> rfl
    | some m => cases found <;> rfl

/-- The search is made of its turns. -/
theorem exportFrom_succ (n : Nat) (module : SourceId) (name : String) (seen : List SourceId) :
    t.exportFrom (n + 1) module name seen =
      t.exportStep (fun q => t.exportFrom n q.1 q.2.1 q.2.2) (module, name, seen) := by
  rw [exportFrom, exportStep]
  by_cases hseen : module ∈ seen
  · simp [hseen]
  · simp only [List.contains_eq_mem, decide_eq_true_eq, if_neg hseen]
    unfold exportTarget? passers
    dsimp only
    cases t.file? module with
    | none => rfl
    | some f =>
      dsimp only [Option.bind_some]
      cases f.exports.get? name with
      | none =>
        dsimp only
        by_cases hname : (name == "default") = true
        · rw [if_pos hname, if_pos hname]
          rfl
        · rw [if_neg hname, if_neg hname]
          exact foldl_orElse (fun q => t.exportFrom n q.1 q.2.1 q.2.2) _ _
      | some x =>
        cases x with
        | «local» id => rfl
        | namespace_ target => rfl
        | reexport target inner => cases target <;> rfl

/-- The modules looked through are kept, and more may come. -/
theorem subset_exportFrom (n : Nat) (module : SourceId) (name : String) (seen : List SourceId) :
    seen ⊆ (t.exportFrom n module name seen).2 := by
  induction n generalizing module name seen with
  | zero => exact List.Subset.refl seen
  | succ n ih =>
    rw [exportFrom_succ, exportStep]
    split
    · exact List.Subset.refl seen
    · split
      case h_4 =>
        refine List.foldlRecOn (motive := fun r : Option SymbolId × List SourceId => seen ⊆ r.2)
          _ _ ?_ fun r hr m _ => ?_
        · exact List.subset_cons_self module seen
        · unfold orElse
          split
          · exact hr
          · exact List.Subset.trans hr (ih m name r.2)
      all_goals exact List.subset_cons_self module seen

/-! ## What the search finds -/

/-- What is found is exported, and the name leads there. -/
theorem exportFrom_sound {n : Nat} {module : SourceId} {name : String} {seen : List SourceId}
    {id : SymbolId} (h : (t.exportFrom n module name seen).1 = some id) :
    ∃ a, t.Reaches (module, name) a ∧ t.Exports a id := by
  induction n generalizing module name seen with
  | zero => cases h
  | succ n ih =>
    rw [exportFrom_succ, exportStep] at h
    split at h
    · cases h
    · split at h
      case h_1 found hentry =>
        obtain rfl := Option.some.inj h
        exact ⟨_, .refl, .inl hentry⟩
      case h_2 target inner hentry =>
        obtain ⟨m, rfl, hm⟩ := Option.bind_eq_some_iff.1 h
        obtain ⟨a, ha, hexport⟩ := ih hm
        exact ⟨a, .head (b := (m, inner)) (.inr hentry) ha, hexport⟩
      case h_3 target hentry =>
        obtain ⟨m, rfl, hm⟩ := Option.bind_eq_some_iff.1 h
        exact ⟨_, .refl, .inr ⟨m, hentry, hm⟩⟩
      case h_4 hentry =>
        revert h
        refine List.foldlRecOn (motive := fun r : Option SymbolId × List SourceId =>
          r.1 = some id → _) _ _ (fun h => ?_) fun r hr m hm => ?_
        · cases h
        · unfold orElse
          split
          · exact hr
          · intro h
            obtain ⟨a, ha, hexport⟩ := ih h
            exact ⟨a, .head (.inl ((mem_passers hentry).1 hm)) ha, hexport⟩

/-- Neither a module itself nor what it re-exports under a name leads to a symbol. -/
def Dry (t : Symbols) (a : ExportName) : Prop :=
  (∀ id, ¬t.Exports a id) ∧ ∀ b, t.Reexports a b → t.Barren b

/-- What has been looked through without an answer: no new module has one itself, and its stars lead
to modules that have been looked through. -/
def Settled (t : Symbols) (name : String) (seen seen' : List SourceId) : Prop :=
  ∀ m ∈ seen', m ∉ seen → t.Dry (m, name) ∧ ∀ m', t.Stars (m, name) (m', name) → m' ∈ seen'

theorem Settled.refl {name : String} (seen : List SourceId) : t.Settled name seen seen :=
  fun _ hm hnot => absurd hm hnot

theorem Settled.trans {name : String} {seen seen' seen'' : List SourceId}
    (h : t.Settled name seen seen') (hsub : seen' ⊆ seen'') (h' : t.Settled name seen' seen'') :
    t.Settled name seen seen'' := by
  intro m hm hnot
  by_cases hmem : m ∈ seen'
  · obtain ⟨hdry, hstars⟩ := h m hmem hnot
    exact ⟨hdry, fun m' hm' => hsub (hstars m' hm')⟩
  · exact h' m hm hmem

/-- A module that has no answer joins what is settled when its stars have been followed. -/
theorem Settled.cons {m : SourceId} {name : String} {seen seen' : List SourceId}
    (hdry : t.Dry (m, name)) (hstars : ∀ m', t.Stars (m, name) (m', name) → m' ∈ seen')
    (h : t.Settled name (m :: seen) seen') : t.Settled name seen seen' := by
  intro m' hm' hnot
  by_cases heq : m' = m
  · rw [heq]
    exact ⟨hdry, hstars⟩
  · exact h m' hm' (by simp [heq, hnot])

theorem not_stars_of_target {a b : ExportName} {x : ExportTarget}
    (h : t.exportTarget? a = some x) : ¬t.Stars a b := by
  rintro ⟨f, hf, hnone, -⟩
  rw [exportTarget?, hf, Option.bind_some, hnone] at h
  cases h

/-- A module that does not export a name itself has no answer. -/
theorem dry_of_target_eq_none {a : ExportName} (h : t.exportTarget? a = none) : t.Dry a := by
  refine ⟨fun id hexport => ?_, fun b hre => ?_⟩
  · rw [Exports, h] at hexport
    obtain hlocal | ⟨m, hspace, -⟩ := hexport
    · cases hlocal
    · cases hspace
  · rw [Reexports, h] at hre
    cases hre

/-- Nor does one that exports a module which is not bound. -/
theorem dry_of_namespace {a : ExportName} {target : Option SourceId}
    (h : t.exportTarget? a = some (.namespace_ target))
    (hnone : target.bind (t.modules[·]?) = none) : t.Dry a := by
  refine ⟨fun id hexport => ?_, fun b hre => ?_⟩
  · rw [Exports, h] at hexport
    obtain hlocal | ⟨m, hspace, hm⟩ := hexport
    · cases hlocal
    · obtain rfl := ExportTarget.namespace_.inj (Option.some.inj hspace)
      rw [Option.bind_some, hm] at hnone
      cases hnone
  · rw [Reexports, h] at hre
    cases hre

/-- Nor does one that re-exports what leads to nothing. -/
theorem dry_of_reexport {a : ExportName} {target : Option SourceId} {inner : String}
    (h : t.exportTarget? a = some (.reexport target inner))
    (hbarren : ∀ m ∈ target, t.Barren (m, inner)) : t.Dry a := by
  refine ⟨fun id hexport => ?_, fun b hre => ?_⟩
  · rw [Exports, h] at hexport
    obtain hlocal | ⟨m, hspace, -⟩ := hexport
    · cases hlocal
    · cases hspace
  · rw [Reexports, h] at hre
    obtain ⟨htarget, rfl⟩ := ExportTarget.reexport.inj (Option.some.inj hre)
    exact hbarren b.1 htarget

/-- Where all that has been looked through is settled nothing is to be found. A way that leaves the
modules looked through does so by a re-export. -/
theorem barren_of_settled {module : SourceId} {name : String} {seen : List SourceId}
    (hmem : module ∈ seen) (h : t.Settled name [] seen) : t.Barren (module, name) := by
  have hway : ∀ a, t.Reaches (module, name) a →
      a.2 = name ∧ a.1 ∈ seen ∨ ∃ b, t.Barren b ∧ t.Reaches b a := by
    intro a ha
    induction ha with
    | refl => exact .inl ⟨rfl, hmem⟩
    | @tail a c _ hac ih =>
      obtain ⟨m, x⟩ := a
      obtain ⟨m', x'⟩ := c
      obtain ⟨rfl, hseen⟩ | ⟨b, hb, hba⟩ := ih
      · obtain ⟨hdry, hstars⟩ := h m hseen List.not_mem_nil
        obtain hstar | hre := hac
        · obtain rfl : x' = x := by
            obtain ⟨_, -, -, -, -, hname⟩ := hstar
            exact hname
          exact .inl ⟨rfl, hstars m' hstar⟩
        · exact .inr ⟨(m', x'), hdry.2 _ hre, .refl⟩
      · exact .inr ⟨b, hb, hba.tail hac⟩
  intro a id ha hexport
  obtain ⟨rfl, hseen⟩ | ⟨b, hb, hba⟩ := hway a ha
  · exact (h a.1 hseen List.not_mem_nil).1.1 id hexport
  · exact hb a id hba hexport

theorem foldl_orElse_of_some
    {search : SourceId × String × List SourceId → Option SymbolId × List SourceId} {name : String}
    {r : Option SymbolId × List SourceId} {id : SymbolId} (ms : List SourceId)
    (h : r.1 = some id) : ms.foldl (orElse search name) r = r := by
  induction ms with
  | nil => rfl
  | cons m ms ih =>
    have hstop : orElse search name r m = r := by
      unfold orElse
      rw [h]
    rw [List.foldl_cons, hstop, ih]

/-- Modules that have been searched in turn without an answer are settled if each of them is when it
has been searched. -/
theorem settled_foldl_orElse
    {search : SourceId × String × List SourceId → Option SymbolId × List SourceId} {name : String}
    {ms : List SourceId} {r : Option SymbolId × List SourceId}
    (hsearch : ∀ m ∈ ms, ∀ seen, r.2 ⊆ seen → (search (m, name, seen)).1 = none →
      m ∈ (search (m, name, seen)).2 ∧ t.Settled name seen (search (m, name, seen)).2)
    (hgrow : ∀ m seen, seen ⊆ (search (m, name, seen)).2)
    (h : (ms.foldl (orElse search name) r).1 = none) :
    r.2 ⊆ (ms.foldl (orElse search name) r).2 ∧
      (∀ m ∈ ms, m ∈ (ms.foldl (orElse search name) r).2) ∧
      t.Settled name r.2 (ms.foldl (orElse search name) r).2 := by
  induction ms generalizing r with
  | nil => exact ⟨List.Subset.refl _, fun m hm => absurd hm List.not_mem_nil, .refl _⟩
  | cons m ms ih =>
    rw [List.foldl_cons] at h ⊢
    cases hr : r.1 with
    | some id =>
      have hstop : orElse search name r m = r := by
        unfold orElse
        rw [hr]
      rw [hstop, foldl_orElse_of_some ms hr, hr] at h
      cases h
    | none =>
      have hturn : orElse search name r m = search (m, name, r.2) := by
        unfold orElse
        rw [hr]
      rw [hturn] at h ⊢
      have hnone : (search (m, name, r.2)).1 = none := by
        cases hfound : (search (m, name, r.2)).1 with
        | none => rfl
        | some id =>
          rw [foldl_orElse_of_some ms hfound, hfound] at h
          cases h
      obtain ⟨hm, hsettled⟩ := hsearch m List.mem_cons_self r.2 (List.Subset.refl _) hnone
      obtain ⟨hsub, hall, hrest⟩ := ih (fun m' hm' seen hseen =>
        hsearch m' (List.mem_cons_of_mem m hm') seen (List.Subset.trans (hgrow m r.2) hseen)) h
      refine ⟨List.Subset.trans (hgrow m r.2) hsub, fun m' hm' => ?_, hsettled.trans hsub hrest⟩
      obtain rfl | hm' := List.mem_cons.1 hm'
      · exact hsub hm
      · exact hall m' hm'

/-! ## How far a search goes -/

/-- The names that modules themselves export. -/
def exportEntries (t : Symbols) : List ExportName :=
  t.files.toList.flatMap fun f => f.2.exports.names.map (f.1, ·)

theorem length_exportEntries :
    t.exportEntries.length = t.files.fold (fun n _ f => n + f.exports.entries.size) 0 := by
  have hsum : ∀ (fs : List (SourceId × FileSymbols)) (n : Nat),
      fs.foldl (fun n f => n + f.2.exports.entries.size) n =
        n + (fs.flatMap fun f => f.2.exports.names.map (f.1, ·)).length := by
    intro fs
    induction fs with
    | nil => simp
    | cons f fs ih =>
      intro n
      rw [List.foldl_cons, ih, List.flatMap_cons, List.length_append]
      simp [NameMap.names, Nat.add_assoc]
  rw [Std.HashMap.fold_eq_foldl_toList, hsum, Nat.zero_add, exportEntries]

theorem mem_exportEntries {a : ExportName} {x : ExportTarget} (h : t.exportTarget? a = some x) :
    a ∈ t.exportEntries := by
  obtain ⟨f, hf, hx⟩ := Option.bind_eq_some_iff.1 h
  refine List.mem_flatMap.2 ⟨(a.1, f), Std.HashMap.mem_toList_iff_getElem?_eq_some.2 hf, ?_⟩
  exact List.mem_map.2 ⟨a.2, NameMap.mem_names_of_get? hx, rfl⟩

open Classical in
/-- The re-exports that a name can come to. -/
noncomputable def ahead (t : Symbols) (a : ExportName) : Finset ExportName :=
  t.exportEntries.toFinset.filter fun b => t.Reaches a b ∧ ∃ c, t.Reexports b c

theorem ahead_subset {a b : ExportName} (h : t.Reaches a b) : t.ahead b ⊆ t.ahead a := by
  intro c hc
  simp only [ahead, Finset.mem_filter] at hc ⊢
  exact ⟨hc.1, h.trans hc.2.1, hc.2.2⟩

/-- A re-export that is followed does not come up again. -/
theorem card_ahead_lt (hend : t.ReexportsEnd) {a b : ExportName} (h : t.Reexports a b) :
    (t.ahead b).card < (t.ahead a).card := by
  refine Finset.card_lt_card ⟨ahead_subset (.single (.inr h)), fun hsub => ?_⟩
  have ha : a ∈ t.ahead a := by
    simp only [ahead, Finset.mem_filter, List.mem_toFinset]
    exact ⟨mem_exportEntries h, .refl, b, h⟩
  have hb := hsub ha
  simp only [ahead, Finset.mem_filter] at hb
  exact hend a b h hb.2.1

theorem card_ahead_le (a : ExportName) : (t.ahead a).card ≤ t.exportEntries.length := by
  have hsub : t.ahead a ⊆ t.exportEntries.toFinset := by
    intro b hb
    simp only [ahead, Finset.mem_filter] at hb
    exact hb.1
  exact (Finset.card_le_card hsub).trans t.exportEntries.toFinset_card_le

/-- The modules that have not been looked through. -/
def unseen (t : Symbols) (seen : List SourceId) : Finset SourceId :=
  t.files.keys.toFinset \ seen.toFinset

theorem card_unseen_le (seen : List SourceId) : (t.unseen seen).card ≤ t.files.size := by
  rw [← Std.HashMap.length_keys]
  exact (Finset.card_le_card Finset.sdiff_subset).trans t.files.keys.toFinset_card_le

theorem card_unseen_lt {module : SourceId} {f : FileSymbols} {seen seen' : List SourceId}
    (hf : t.file? module = some f) (hnot : module ∉ seen) (hsub : module :: seen ⊆ seen') :
    (t.unseen seen').card < (t.unseen seen).card := by
  have hkey : module ∈ t.files.keys := by
    rw [Std.HashMap.mem_keys, Std.HashMap.mem_iff_isSome_getElem?]
    exact Option.isSome_iff_exists.2 ⟨f, hf⟩
  refine Finset.card_lt_card ⟨fun m hm => ?_, fun hback => ?_⟩
  · simp only [unseen, Finset.mem_sdiff, List.mem_toFinset] at hm ⊢
    exact ⟨hm.1, fun hmem => hm.2 (hsub (List.mem_cons_of_mem module hmem))⟩
  · have hmodule : module ∈ t.unseen seen := by
      simp only [unseen, Finset.mem_sdiff, List.mem_toFinset]
      exact ⟨hkey, hnot⟩
    have hleft := hback hmodule
    simp only [unseen, Finset.mem_sdiff, List.mem_toFinset] at hleft
    exact hleft.2 (hsub List.mem_cons_self)

/-- A bound on the turns that a search may take one inside the other. -/
noncomputable def searchDepth (t : Symbols) (a : ExportName) (seen : List SourceId) : Nat :=
  (t.ahead a).card * (t.files.size + 1) + (t.unseen seen).card + 1

theorem searchDepth_le (a : ExportName) (seen : List SourceId) :
    t.searchDepth a seen ≤ t.exportDepth := by
  have hentries := t.card_ahead_le a
  have hfiles := t.card_unseen_le seen
  have hmul := Nat.mul_le_mul_right (t.files.size + 1) hentries
  rw [searchDepth, exportDepth, ← length_exportEntries, Nat.add_mul]
  omega

theorem searchDepth_star_lt {module : SourceId} {name : String} {b : ExportName}
    {seen seen' : List SourceId} (h : t.Stars (module, name) b) (hnot : module ∉ seen)
    (hsub : module :: seen ⊆ seen') : t.searchDepth b seen' < t.searchDepth (module, name) seen := by
  have hahead := Finset.card_le_card (t.ahead_subset (.single (.inl h)))
  obtain ⟨f, hf, -⟩ := h
  have hfiles := t.card_unseen_lt hf hnot hsub
  have hmul := Nat.mul_le_mul_right (t.files.size + 1) hahead
  rw [searchDepth, searchDepth]
  omega

theorem searchDepth_reexport_lt (hend : t.ReexportsEnd) {a b : ExportName} (seen : List SourceId)
    (h : t.Reexports a b) : t.searchDepth b [] < t.searchDepth a seen := by
  have hfiles := t.card_unseen_le []
  have hmul := Nat.mul_le_mul_right (t.files.size + 1) (card_ahead_lt hend h)
  rw [Nat.succ_mul] at hmul
  rw [searchDepth, searchDepth]
  omega

/-! ## The searches end -/

/-- Two loops that look through modules go the same way if their turns agree once what is looked
through at the start has been. -/
theorem foldl_congr_of_grows {σ α : Type} {f g : σ → α → σ} (seen : σ → List SourceId)
    {xs : List α} {r : σ} (hgrow : ∀ s x, seen s ⊆ seen (g s x))
    (h : ∀ x ∈ xs, ∀ s, seen r ⊆ seen s → f s x = g s x) : xs.foldl f r = xs.foldl g r := by
  induction xs generalizing r with
  | nil => rfl
  | cons x xs ih =>
    rw [List.foldl_cons, List.foldl_cons, h x List.mem_cons_self r (List.Subset.refl _)]
    refine ih fun y hy s hs => h y (List.mem_cons_of_mem x hy) s ?_
    exact List.Subset.trans (hgrow r x) hs

/-- The search for an export ends: beyond its bound neither the bound nor what is answered there
matters. -/
theorem descend_exportStep (hend : t.ReexportsEnd)
    {bottom : SourceId × String × List SourceId → Option SymbolId × List SourceId} {n n' : Nat}
    {module : SourceId} {name : String} {seen : List SourceId}
    (hn : t.searchDepth (module, name) seen ≤ n) (hn' : t.searchDepth (module, name) seen ≤ n') :
    descend t.exportStep bottom n (module, name, seen) = t.exportFrom n' module name seen := by
  induction n generalizing n' module name seen with
  | zero => exact absurd hn (by simp [searchDepth])
  | succ n ih =>
    obtain ⟨n', rfl⟩ := Nat.exists_eq_add_one_of_ne_zero (n := n') (by rw [searchDepth] at hn'; omega)
    rw [descend, exportFrom_succ, exportStep, exportStep]
    split
    · rfl
    · rename_i hnot
      cases hentry : t.exportTarget? (module, name) with
      | some x =>
        cases x with
        | «local» id => rfl
        | namespace_ target => rfl
        | reexport target inner =>
          cases target with
          | none => rfl
          | some m =>
            have hlt := searchDepth_reexport_lt hend (b := (m, inner)) seen hentry
            dsimp only [Option.bind_some]
            have hm : t.searchDepth (m, inner) [] ≤ n := by omega
            have hm' : t.searchDepth (m, inner) [] ≤ n' := by omega
            rw [ih hm hm']
      | none =>
        refine foldl_congr_of_grows Prod.snd (fun r m => ?_) fun m hm r hsub => ?_
        · unfold orElse
          split
          · exact List.Subset.refl _
          · exact subset_exportFrom n' m name r.2
        · have hlt : t.searchDepth (m, name) r.2 < t.searchDepth (module, name) seen :=
            searchDepth_star_lt ((mem_passers hentry).1 hm) hnot hsub
          unfold orElse
          split
          · rfl
          · exact ih (by omega) (by omega)

/-- A search that ends without an answer leaves what it has looked through settled, since a way that
has been cut short goes on at a module that has been looked through. -/
theorem settled_exportFrom (hend : t.ReexportsEnd) {n : Nat} {module : SourceId} {name : String}
    {seen : List SourceId} (hn : t.searchDepth (module, name) seen ≤ n)
    (h : (t.exportFrom n module name seen).1 = none) :
    module ∈ (t.exportFrom n module name seen).2 ∧
      t.Settled name seen (t.exportFrom n module name seen).2 := by
  induction n generalizing module name seen with
  | zero => exact absurd hn (by simp [searchDepth])
  | succ n ih =>
    rw [exportFrom_succ, exportStep] at h ⊢
    split at h
    · rename_i hseen
      rw [if_pos hseen]
      exact ⟨hseen, .refl seen⟩
    rename_i hnot
    rw [if_neg hnot]
    -- where the module itself exports the name, it alone is looked through
    have hown {x : ExportTarget} (hentry : t.exportTarget? (module, name) = some x)
        (hdry : t.Dry (module, name)) :
        module ∈ module :: seen ∧ t.Settled name seen (module :: seen) :=
      ⟨List.mem_cons_self,
        .cons hdry (fun m' hstar => absurd hstar (not_stars_of_target hentry)) (.refl _)⟩
    cases hentry : t.exportTarget? (module, name) with
    | some x =>
      rw [hentry] at h
      cases x with
      | «local» id => cases h
      | namespace_ target => exact hown hentry (dry_of_namespace hentry h)
      | reexport target inner =>
        refine hown hentry (dry_of_reexport hentry fun m hm => ?_)
        obtain rfl := Option.mem_def.1 hm
        have hlt := searchDepth_reexport_lt hend (b := (m, inner)) seen hentry
        have hm : t.searchDepth (m, inner) [] ≤ n := by omega
        obtain ⟨hmem, hsettled⟩ := ih hm h
        exact barren_of_settled hmem hsettled
    | none =>
      rw [hentry] at h
      obtain ⟨hsub, hall, hsettled⟩ := settled_foldl_orElse (t := t) (fun m hm r hr hnone => by
        have hlt : t.searchDepth (m, name) r < t.searchDepth (module, name) seen :=
          searchDepth_star_lt ((mem_passers hentry).1 hm) hnot hr
        have hm : t.searchDepth (m, name) r ≤ n := by omega
        exact ih hm hnone)
        (fun m r => subset_exportFrom n m name r) h
      refine ⟨hsub List.mem_cons_self, .cons (dry_of_target_eq_none hentry) (fun m' hstar => ?_)
        hsettled⟩
      exact hall m' ((mem_passers hentry).2 hstar)

/-- The search for an export of a module finds a symbol exactly if the name leads to one. -/
theorem isSome_rawExport? (hend : t.ReexportsEnd) (module : SourceId) (name : String) :
    (t.rawExport? module name).isSome ↔
      ∃ a id, t.Reaches (module, name) a ∧ t.Exports a id := by
  constructor
  · intro h
    obtain ⟨id, hid⟩ := Option.isSome_iff_exists.1 h
    obtain ⟨a, ha, hexport⟩ := exportFrom_sound hid
    exact ⟨a, id, ha, hexport⟩
  · rintro ⟨a, id, ha, hexport⟩
    by_contra hnone
    have hfound : (t.exportFrom t.exportDepth module name []).1 = none := by
      simpa [rawExport?] using hnone
    obtain ⟨hmem, hsettled⟩ := settled_exportFrom hend (searchDepth_le (module, name) []) hfound
    exact barren_of_settled hmem hsettled a id ha hexport

/-! ## Names of exports -/

/-- A turn of the search for the names that a module exports. -/
def namesStep (t : Symbols)
    (collect : SourceId × List String × List SourceId → List String × List SourceId) :
    SourceId × List String × List SourceId → List String × List SourceId
  | (module, out, seen) =>
    if module ∈ seen then (out, seen)
    else match t.file? module with
      | none => (out, module :: seen)
      | some file =>
        let out := file.exports.names.foldl
          (fun out name => if out.contains name then out else out ++ [name]) out
        file.stars.toList.foldl (fun acc star => match star with
          | some m => collect (m, acc)
          | none => acc) (out, module :: seen)

theorem collectExportNames_succ (n : Nat) (module : SourceId)
    (acc : List String × List SourceId) :
    t.collectExportNames (n + 1) module acc =
      t.namesStep (fun q => t.collectExportNames n q.1 q.2) (module, acc) := by
  obtain ⟨out, seen⟩ := acc
  rw [collectExportNames, namesStep]
  exact ite_congr (propext List.contains_iff_mem) (fun _ => rfl) fun _ => rfl

theorem subset_collectExportNames (n : Nat) (module : SourceId)
    (acc : List String × List SourceId) : acc.2 ⊆ (t.collectExportNames n module acc).2 := by
  induction n generalizing module acc with
  | zero => exact List.Subset.refl _
  | succ n ih =>
    rw [collectExportNames_succ, namesStep]
    split
    · exact List.Subset.refl _
    · split
      · exact List.subset_cons_self module acc.2
      · refine List.foldlRecOn (motive := fun r : List String × List SourceId => acc.2 ⊆ r.2)
          _ _ (List.subset_cons_self module acc.2) fun r hr star _ => ?_
        cases star with
        | none => exact hr
        | some m => exact List.Subset.trans hr (ih m r)

/-- The search for the names of a module ends, whatever the stars and re-exports are. -/
theorem descend_namesStep
    {bottom : SourceId × List String × List SourceId → List String × List SourceId} {n n' : Nat}
    {module : SourceId} {acc : List String × List SourceId}
    (hn : (t.unseen acc.2).card < n) (hn' : (t.unseen acc.2).card < n') :
    descend t.namesStep bottom n (module, acc) = t.collectExportNames n' module acc := by
  induction n generalizing n' module acc with
  | zero => omega
  | succ n ih =>
    obtain ⟨n', rfl⟩ := Nat.exists_eq_add_one_of_ne_zero (n := n') (by omega)
    rw [descend, collectExportNames_succ, namesStep, namesStep]
    split
    · rfl
    · rename_i hnot
      cases hf : t.file? module with
      | none => rfl
      | some f =>
        refine foldl_congr_of_grows Prod.snd (fun r star => ?_) fun star _ r hsub => ?_
        · cases star with
          | none => exact List.Subset.refl _
          | some m => exact subset_collectExportNames n' m r
        · cases star with
          | none => rfl
          | some m =>
            have hlt := card_unseen_lt hf hnot hsub
            exact ih (by omega) (by omega)

/-! ## Following imports -/

/-- A turn of following imports. -/
def followStep (t : Symbols) (follow : List SymbolId × SymbolId → Option SymbolId) :
    List SymbolId × SymbolId → Option SymbolId
  | (seen, id) =>
    if id ∈ seen then none
    else match (t.get id).importTarget with
      | none => some id
      | some target => (t.importStep? target).bind fun next => follow (id :: seen, next)

theorem followImports_succ (n : Nat) (seen : List SymbolId) (id : SymbolId) :
    t.followImports (n + 1) seen id =
      t.followStep (fun q => t.followImports n q.1 q.2) (seen, id) := by
  rw [followImports, followStep]
  exact ite_congr (propext List.contains_iff_mem) (fun _ => rfl) fun _ => rfl

/-- The numbers of symbols that have not been followed. -/
def unfollowed (t : Symbols) (seen : List SymbolId) : Finset Nat :=
  (Finset.range t.all.size).filter fun i => ⟨i⟩ ∉ seen

/-- Only a symbol of the table is an import. -/
theorem lt_size_of_importTarget {id : SymbolId} {target : ImportTarget}
    (h : (t.get id).importTarget = some target) : id.index < t.all.size := by
  by_contra hge
  rw [get, Array.getD_eq_getD_getElem?, Array.getElem?_eq_none (by omega)] at h
  cases h

/-- Following imports ends, since no symbol is followed twice. -/
theorem descend_followStep {bottom : List SymbolId × SymbolId → Option SymbolId} {n n' : Nat}
    {seen : List SymbolId} {id : SymbolId} (hn : (t.unfollowed seen).card < n)
    (hn' : (t.unfollowed seen).card < n') :
    descend t.followStep bottom n (seen, id) = t.followImports n' seen id := by
  induction n generalizing n' seen id with
  | zero => omega
  | succ n ih =>
    obtain ⟨n', rfl⟩ := Nat.exists_eq_add_one_of_ne_zero (n := n') (by omega)
    rw [descend, followImports_succ, followStep, followStep]
    split
    · rfl
    · rename_i hnot
      cases htarget : (t.get id).importTarget with
      | none => rfl
      | some target =>
        have hlt : (t.unfollowed (id :: seen)).card < (t.unfollowed seen).card := by
          refine Finset.card_lt_card ⟨fun i hi => ?_, fun hback => ?_⟩
          · simp only [unfollowed, Finset.mem_filter, List.mem_cons, not_or] at hi ⊢
            exact ⟨hi.1, hi.2.2⟩
          · have hid : id.index ∈ t.unfollowed seen := by
              simp [unfollowed, lt_size_of_importTarget htarget, hnot]
            have hleft := hback hid
            simp [unfollowed] at hleft
        dsimp only
        congr 1
        funext next
        exact ih (by omega) (by omega)

/-- Imports are followed to a symbol that is none. -/
theorem importTarget_followImports {n : Nat} {seen : List SymbolId} {id last : SymbolId}
    (h : t.followImports n seen id = some last) : (t.get last).importTarget = none := by
  induction n generalizing seen id with
  | zero => cases h
  | succ n ih =>
    rw [followImports_succ, followStep] at h
    split at h
    · cases h
    · split at h
      · rename_i hnone
        obtain rfl := Option.some.inj h
        exact hnone
      · obtain ⟨next, -, hnext⟩ := Option.bind_eq_some_iff.1 h
        exact ih hnext

/-! ## Resolution -/

/-- Resolution ends and is exact, if no circle of stars and re-exports contains a re-export. The
searches for an export and for the names of a module, and the way from an import to what it stands for,
come to an end: beyond their bounds neither the bound nor what is answered there matters. An export is
found exactly if its name leads to one that a module itself has, a symbol of its own or a module that
is bound, and it is such an export that is found. What an import or an export leads to in the end is no
import. -/
theorem resolution_exact (hend : t.ReexportsEnd) :
    (∀ bottom n, t.exportDepth ≤ n → ∀ module name,
      (descend t.exportStep bottom n (module, name, [])).1 = t.rawExport? module name) ∧
    (∀ bottom n, t.files.size < n → ∀ module,
      (descend t.namesStep bottom n (module, [], [])).1 = t.exportNames module) ∧
    (∀ bottom n, t.all.size < n → ∀ id,
      descend t.followStep bottom n ([], id) = t.resolveAlias? id) ∧
    (∀ module name, (t.rawExport? module name).isSome ↔
      ∃ a id, t.Reaches (module, name) a ∧ t.Exports a id) ∧
    (∀ module name id, t.rawExport? module name = some id →
      ∃ a, t.Reaches (module, name) a ∧ t.Exports a id) ∧
    (∀ id last, t.resolveAlias? id = some last → (t.get last).importTarget = none) ∧
    ∀ module name last, t.export? module name = some last → (t.get last).importTarget = none := by
  refine ⟨fun bottom n hn module name => ?_, fun bottom n hn module => ?_, fun bottom n hn id => ?_,
    isSome_rawExport? hend, fun module name id h => exportFrom_sound h,
    fun id last h => importTarget_followImports h, fun module name last h => ?_⟩
  · have hbound := searchDepth_le (t := t) (module, name) []
    rw [descend_exportStep hend (hbound.trans hn) hbound, rawExport?]
  · have hbound := card_unseen_le (t := t) []
    rw [exportNames]
    refine congrArg Prod.fst (descend_namesStep ?_ ?_)
    · exact Nat.lt_of_le_of_lt hbound hn
    · exact Nat.lt_succ_of_le hbound
  · have hbound : (t.unfollowed []).card ≤ t.all.size := by
      simp [unfollowed]
    rw [resolveAlias?]
    exact descend_followStep (Nat.lt_of_le_of_lt hbound hn) (Nat.lt_succ_of_le hbound)
  · obtain ⟨id, -, hid⟩ := Option.bind_eq_some_iff.1 h
    exact importTarget_followImports hid

/-- Three modules: a re-export leads into a circle of two stars. -/
def circle : Symbols where
  all := #[{ name := "B", meaning := { typeAlias := true } }]
  files := (({} : Std.HashMap SourceId FileSymbols).insert ⟨0⟩
      { isModule := true, exports := ⟨#[("A", .reexport (some ⟨1⟩) "B")]⟩ }).insert ⟨1⟩
      { isModule := true, stars := #[some ⟨2⟩] } |>.insert ⟨2⟩
      { isModule := true, stars := #[some ⟨1⟩], exports := ⟨#[("B", .local ⟨0⟩)]⟩ }

/-- In the circle the symbol is found. -/
theorem resolution_exact_circle :
    circle.ReexportsEnd ∧ (circle.rawExport? ⟨0⟩ "A").isSome := by
  -- nothing leads to the first module, and only it re-exports
  have hfile (m : SourceId) (f : FileSymbols) (h : circle.file? m = some f) :
      some ⟨0⟩ ∉ f.stars ∧ ∀ name m' inner,
        f.exports.get? name = some (.reexport (some m') inner) → m = ⟨0⟩ ∧ m' = ⟨1⟩ := by
    simp only [circle, file?, Std.HashMap.getElem?_insert] at h
    split at h
    · obtain rfl := Option.some.inj h
      simp [NameMap.get?]
    · split at h
      · obtain rfl := Option.some.inj h
        simp [NameMap.get?]
      · split at h
        · rename_i hm
          obtain rfl := eq_of_beq hm
          obtain rfl := Option.some.inj h
          simp +contextual [NameMap.get?]
        · simp at h
  have hre (a b : ExportName) (h : circle.Reexports a b) : a.1 = ⟨0⟩ ∧ b.1 = ⟨1⟩ := by
    obtain ⟨f, hf, htarget⟩ := Option.bind_eq_some_iff.1 h
    exact (hfile a.1 f hf).2 a.2 b.1 b.2 htarget
  have hleads (a b : ExportName) (h : circle.Leads a b) : b.1 ≠ ⟨0⟩ := by
    intro hb
    obtain ⟨f, hf, -, -, hmem, -⟩ | h := h
    · exact (hfile a.1 f hf).1 (hb ▸ hmem)
    · simp [(hre a b h).2] at hb
  have hend : circle.ReexportsEnd := by
    intro a b hab hback
    have ha := (hre a b hab).1
    obtain rfl | ⟨c, -, hca⟩ := hback.cases_tail
    · exact hleads _ _ (.inr hab) ha
    · exact hleads c a hca ha
  have hfirst : circle.Reexports (⟨0⟩, "A") (⟨1⟩, "B") := by
    show circle.exportTarget? (⟨0⟩, "A") = _
    cbv
  have hsecond : circle.Stars (⟨1⟩, "B") (⟨2⟩, "B") := by
    have h : circle.file? ⟨1⟩ = some { isModule := true, stars := #[some ⟨2⟩] } := by cbv
    exact ⟨_, h, by cbv, by decide, by simp, rfl⟩
  have hthird : circle.Exports (⟨2⟩, "B") ⟨0⟩ := by
    refine .inl ?_
    cbv
  refine ⟨hend, (resolution_exact hend).2.2.2.1 ⟨0⟩ "A" |>.2 ⟨_, ⟨0⟩, ?_, hthird⟩⟩
  exact .head (.inr hfirst) (.single (.inl hsecond))

end Symbols

end DeclKit

/-
The names that a module exports are those under which something is found.

The names are collected along stars, and an export is looked for along stars. The collection goes
through every module that stars lead to, each once, and takes all names that these export themselves.
The search turns back where a module exports the name itself; but if everything that a module exports
itself leads to a symbol, then the first such module on the way has an answer, and it is the one that the
search gives. So the two agree on every name but one: a star does not pass on a default export, yet the
collection lists it.
-/
import DeclKit.Proofs.Symbol.Exports

set_option autoImplicit false

namespace DeclKit

theorem NameMap.isSome_get?_iff {α : Type} {m : NameMap α} {name : String} :
    (m.get? name).isSome ↔ name ∈ m.names := by
  simp only [get?, Option.isSome_map, Array.find?_isSome, beq_iff_eq, names, List.mem_map,
    Array.mem_toList_iff]

/-! ## Lists without repetitions -/

section AddNew

variable {α : Type} [BEq α] [LawfulBEq α] {out xs : List α} {x y : α}

/-- What is not there yet goes to the end. -/
def addNew {α : Type} [BEq α] (out : List α) (x : α) : List α :=
  if out.contains x then out else out ++ [x]

theorem mem_addNew : y ∈ addNew out x ↔ y ∈ out ∨ y = x := by
  rw [addNew]
  split
  · rename_i h
    rw [List.contains_iff_mem] at h
    exact ⟨.inl, fun hy => hy.elim id fun heq => heq ▸ h⟩
  · rw [List.mem_append, List.mem_singleton]

theorem nodup_addNew (h : out.Nodup) : (addNew out x).Nodup := by
  rw [addNew]
  split
  · exact h
  · rename_i hnot
    rw [List.contains_iff_mem] at hnot
    exact h.append (List.nodup_singleton x) (List.disjoint_singleton.2 hnot)

theorem mem_foldl_addNew : y ∈ xs.foldl addNew out ↔ y ∈ out ∨ y ∈ xs := by
  induction xs generalizing out with
  | nil => simp
  | cons x xs ih => rw [List.foldl_cons, ih, mem_addNew, List.mem_cons, or_assoc]

theorem nodup_foldl_addNew (h : out.Nodup) : (xs.foldl addNew out).Nodup :=
  List.foldlRecOn xs addNew h fun _ hout _ _ => nodup_addNew hout

end AddNew

namespace Symbols

open TypeTable (descend)
open Relation (ReflTransGen)

variable {t : Symbols}

/-! ## Stars -/

/-- A module itself exports a name. -/
def Lists (t : Symbols) (m : SourceId) (name : String) : Prop :=
  ∃ f, t.file? m = some f ∧ name ∈ f.exports.names

/-- A module exports all of another module again. -/
def Spreads (t : Symbols) (m m' : SourceId) : Prop := ∃ f, t.file? m = some f ∧ some m' ∈ f.stars

theorem lists_iff {m : SourceId} {name : String} :
    t.Lists m name ↔ (t.exportTarget? (m, name)).isSome := by
  unfold Lists exportTarget?
  cases t.file? m with
  | none => simp
  | some f => simp [← NameMap.isSome_get?_iff]

/-- A name that a module does not export itself is passed on, unless it is the default. -/
theorem stars_of_spreads {m m' : SourceId} {name : String} (h : t.Spreads m m')
    (hnot : ¬t.Lists m name) (hname : name ≠ "default") : t.Stars (m, name) (m', name) := by
  obtain ⟨f, hf, hstar⟩ := h
  have hnone : f.exports.get? name = none := by
    rw [← Option.not_isSome_iff_eq_none, NameMap.isSome_get?_iff]
    exact fun hmem => hnot ⟨f, hf, hmem⟩
  exact ⟨f, hf, hnone, hname, hstar, rfl⟩

/-! ## Collecting names -/

/-- What has been collected from some modules: they have been looked through, and with every module
that is new all that it passes on. All names of the new modules are there, and no other names are new
than those of modules that stars lead to. -/
structure Gathers (t : Symbols) (ms : List SourceId) (acc acc' : List String × List SourceId) :
    Prop where
  kept : acc.1 ⊆ acc'.1
  grows : acc.2 ⊆ acc'.2
  nodup : acc.1.Nodup → acc'.1.Nodup
  met : ∀ m ∈ ms, m ∈ acc'.2
  full : ∀ m ∈ acc'.2, m ∉ acc.2 →
    (∀ name, t.Lists m name → name ∈ acc'.1) ∧ ∀ m', t.Spreads m m' → m' ∈ acc'.2
  sound : ∀ name ∈ acc'.1, name ∈ acc.1 ∨
    ∃ m ∈ ms, ∃ m', ReflTransGen t.Spreads m m' ∧ t.Lists m' name

namespace Gathers

variable {ms ms' : List SourceId} {acc acc' acc'' : List String × List SourceId}

theorem refl (h : ∀ m ∈ ms, m ∈ acc.2) : t.Gathers ms acc acc where
  kept := List.Subset.refl _
  grows := List.Subset.refl _
  nodup := id
  met := h
  full _ hm hnot := absurd hm hnot
  sound _ hname := .inl hname

theorem trans (h : t.Gathers ms acc acc') (h' : t.Gathers ms' acc' acc'') :
    t.Gathers (ms ++ ms') acc acc'' where
  kept := List.Subset.trans h.kept h'.kept
  grows := List.Subset.trans h.grows h'.grows
  nodup hnodup := h'.nodup (h.nodup hnodup)
  met m hm := (List.mem_append.1 hm).elim (fun hm => h'.grows (h.met m hm)) (h'.met m)
  full m hm hnot := by
    by_cases hmem : m ∈ acc'.2
    · obtain ⟨hnames, hstars⟩ := h.full m hmem hnot
      exact ⟨fun name hname => h'.kept (hnames name hname), fun m' hm' => h'.grows (hstars m' hm')⟩
    · exact h'.full m hm hmem
  sound name hname := by
    obtain hname | ⟨m, hm, hway⟩ := h'.sound name hname
    · obtain hname | ⟨m, hm, hway⟩ := h.sound name hname
      · exact .inl hname
      · exact .inr ⟨m, List.mem_append_left _ hm, hway⟩
    · exact .inr ⟨m, List.mem_append_right _ hm, hway⟩

/-- A module that is met for the first time adds its own names, and what its stars lead to. -/
theorem cons {m : SourceId} {f : FileSymbols} {out : List String} {seen : List SourceId}
    (hf : t.file? m = some f)
    (h : t.Gathers (f.stars.toList.filterMap id) (f.exports.names.foldl addNew out, m :: seen) acc') :
    t.Gathers [m] (out, seen) acc' where
  kept x hx := h.kept (mem_foldl_addNew.2 (.inl hx))
  grows x hx := h.grows (List.mem_cons_of_mem m hx)
  nodup hnodup := h.nodup (nodup_foldl_addNew hnodup)
  met x hx := List.mem_singleton.1 hx ▸ h.grows List.mem_cons_self
  full x hx hnot := by
    by_cases hxm : x = m
    · subst hxm
      refine ⟨fun name hname => h.kept (mem_foldl_addNew.2 (.inr ?_)), fun m' hm' => h.met m' ?_⟩
      · obtain ⟨f', hf', hmem⟩ := hname
        obtain rfl := Option.some.inj (hf.symm.trans hf')
        exact hmem
      · obtain ⟨f', hf', hstar⟩ := hm'
        obtain rfl := Option.some.inj (hf.symm.trans hf')
        exact List.mem_filterMap.2 ⟨_, Array.mem_toList_iff.2 hstar, rfl⟩
    · exact h.full x hx (by simpa [hxm] using hnot)
  sound name hname := by
    obtain hname | ⟨m', hm', m'', hway, hlists⟩ := h.sound name hname
    · obtain hname | hname := mem_foldl_addNew.1 hname
      · exact .inl hname
      · exact .inr ⟨m, List.mem_singleton_self m, m, .refl, f, hf, hname⟩
    · obtain ⟨star, hstar, rfl⟩ := List.mem_filterMap.1 hm'
      have hspreads : t.Spreads m m' := ⟨f, hf, Array.mem_toList_iff.1 hstar⟩
      exact .inr ⟨m, List.mem_singleton_self m, m'', .head hspreads hway, hlists⟩

end Gathers

/-- Modules that are searched in turn, by induction on the list. -/
theorem gathers_foldl {collect : SourceId → List String × List SourceId → List String × List SourceId}
    {stars : List (Option SourceId)} {acc : List String × List SourceId}
    (h : ∀ m, some m ∈ stars → ∀ acc', acc.2 ⊆ acc'.2 → t.Gathers [m] acc' (collect m acc')) :
    t.Gathers (stars.filterMap id) acc
      (stars.foldl (fun acc star => match star with | some m => collect m acc | none => acc) acc) := by
  induction stars generalizing acc with
  | nil => exact .refl fun m hm => absurd hm List.not_mem_nil
  | cons star stars ih =>
    rw [List.foldl_cons]
    cases star with
    | none => exact ih fun m hm => h m (List.mem_cons_of_mem _ hm)
    | some m =>
      have hfirst := h m List.mem_cons_self acc (List.Subset.refl _)
      exact hfirst.trans (ih fun m' hm' acc' hsub =>
        h m' (List.mem_cons_of_mem _ hm') acc' (List.Subset.trans hfirst.grows hsub))

/-- The search for names goes through all that a module leads to by stars, by induction on the bound. -/
theorem gathers_collectExportNames {n : Nat} {m : SourceId} {acc : List String × List SourceId}
    (hn : (t.unseen acc.2).card < n) : t.Gathers [m] acc (t.collectExportNames n m acc) := by
  induction n generalizing m acc with
  | zero => omega
  | succ n ih =>
    obtain ⟨out, seen⟩ := acc
    rw [collectExportNames_succ, namesStep]
    split
    · rename_i hseen
      exact .refl fun x hx => List.mem_singleton.1 hx ▸ hseen
    · rename_i hnot
      cases hf : t.file? m with
      | none =>
        exact {
          kept := List.Subset.refl _
          grows := List.subset_cons_self m seen
          nodup := id
          met := fun x hx => List.mem_singleton.1 hx ▸ List.mem_cons_self
          full := fun x hx hx' => by
            obtain rfl : x = m := (List.mem_cons.1 hx).resolve_right hx'
            refine ⟨fun name hname => ?_, fun m' hm' => ?_⟩
            · obtain ⟨f, hf', -⟩ := hname
              rw [hf] at hf'
              cases hf'
            · obtain ⟨f, hf', -⟩ := hm'
              rw [hf] at hf'
              cases hf'
          sound := fun name hname => .inl hname }
      | some f =>
        refine .cons hf (gathers_foldl fun m' _ acc' hsub => ih ?_)
        have hlt : (t.unseen acc'.2).card < (t.unseen seen).card := card_unseen_lt hf hnot hsub
        have hle : (t.unseen seen).card < n + 1 := hn
        omega

/-- The exported names of a module are the names that the modules export themselves to which stars
lead. -/
theorem mem_exportNames {m : SourceId} {name : String} :
    name ∈ t.exportNames m ↔ ∃ m', ReflTransGen t.Spreads m m' ∧ t.Lists m' name := by
  have hgathers : t.Gathers [m] ([], []) (t.collectExportNames (t.files.size + 1) m ([], [])) :=
    gathers_collectExportNames (Nat.lt_succ_of_le (card_unseen_le []))
  constructor
  · intro h
    obtain h | ⟨x, hx, hway⟩ := hgathers.sound name h
    · exact absurd h List.not_mem_nil
    · exact List.mem_singleton.1 hx ▸ hway
  · rintro ⟨m', hway, hlists⟩
    have hmet (x : SourceId) (hx : ReflTransGen t.Spreads m x) :
        x ∈ (t.collectExportNames (t.files.size + 1) m ([], [])).2 := by
      induction hx with
      | refl => exact hgathers.met m (List.mem_singleton_self m)
      | tail _ hspreads ih => exact (hgathers.full _ ih List.not_mem_nil).2 _ hspreads
    exact (hgathers.full m' (hmet m' hway) List.not_mem_nil).1 name hlists

theorem nodup_exportNames (m : SourceId) : (t.exportNames m).Nodup :=
  (gathers_collectExportNames (Nat.lt_succ_of_le (card_unseen_le (t := t) []))).nodup List.nodup_nil

/-! ## Looking names up -/

/-- A symbol that is no import stands for itself. -/
theorem resolveAlias?_of_none {id : SymbolId} (h : (t.get id).importTarget = none) :
    t.resolveAlias? id = some id := by
  rw [resolveAlias?, followImports_succ, followStep, if_neg List.not_mem_nil, h]

theorem rawExport?_of_local {m : SourceId} {name : String} {id : SymbolId}
    (h : t.exportTarget? (m, name) = some (.local id)) : t.rawExport? m name = some id := by
  rw [rawExport?, exportDepth, exportFrom_succ, exportStep, if_neg List.not_mem_nil, h]

/-- Beyond its bound it does not matter to the search how far it may go. -/
theorem exportFrom_eq (hend : t.ReexportsEnd) {n n' : Nat} {m : SourceId} {name : String}
    {seen : List SourceId} (hn : t.searchDepth (m, name) seen ≤ n)
    (hn' : t.searchDepth (m, name) seen ≤ n') :
    t.exportFrom n m name seen = t.exportFrom n' m name seen := by
  -- what stands at the bottom of a descent that goes far enough does not matter
  have hbottom : descend t.exportStep (fun q => (none, q.2.2)) (t.searchDepth (m, name) seen)
      (m, name, seen) = t.exportFrom n m name seen := descend_exportStep hend (Nat.le_refl _) hn
  rw [← hbottom]
  exact descend_exportStep hend (Nat.le_refl _) hn'

/-- Where a module exports a name itself, a search that comes along answers as one that starts there. -/
theorem exportFrom_of_lists (hend : t.ReexportsEnd) {n : Nat} {m : SourceId} {name : String}
    {seen : List SourceId} (hlists : t.Lists m name) (hnot : m ∉ seen)
    (hn : t.searchDepth (m, name) seen ≤ n) :
    (t.exportFrom n m name seen).1 = t.rawExport? m name := by
  obtain ⟨x, hx⟩ := Option.isSome_iff_exists.1 (lists_iff.1 hlists)
  have hdepth := searchDepth_le (t := t) (m, name) []
  obtain ⟨n, rfl⟩ := Nat.exists_eq_add_one_of_ne_zero (n := n) (by rw [searchDepth] at hn; omega)
  obtain ⟨d, hd⟩ := Nat.exists_eq_add_one_of_ne_zero (n := t.exportDepth)
    (by rw [searchDepth] at hdepth; omega)
  rw [rawExport?, hd, exportFrom_succ, exportFrom_succ, exportStep, exportStep, if_neg hnot,
    if_neg List.not_mem_nil, hx]
  cases x with
  | «local» id => rfl
  | namespace_ target => rfl
  | reexport target inner =>
    cases target with
    | none => rfl
    | some m' =>
      have hlt := searchDepth_reexport_lt hend (b := (m', inner)) seen hx
      have hlt' := searchDepth_reexport_lt hend (b := (m', inner)) [] hx
      have hfirst : t.searchDepth (m', inner) [] ≤ n := by omega
      have hsecond : t.searchDepth (m', inner) [] ≤ d := by omega
      dsimp only [Option.bind_some]
      rw [exportFrom_eq hend hfirst hsecond]

/-- What is found under a name is what a module has there that exports the name itself. Stars lead to
it, or it is the first module. -/
theorem exists_lists_of_exportFrom (hend : t.ReexportsEnd) {n : Nat} {m : SourceId} {name : String}
    {seen : List SourceId} {id : SymbolId} (hn : t.searchDepth (m, name) seen ≤ n)
    (h : (t.exportFrom n m name seen).1 = some id) :
    ∃ x, t.Lists x name ∧ t.rawExport? x name = some id ∧ ReflTransGen t.Spreads m x ∧
      (x = m ∨ name ≠ "default") := by
  induction n generalizing m seen with
  | zero => cases h
  | succ n ih =>
    by_cases hlists : t.Lists m name
    · have hnot : m ∉ seen := by
        intro hseen
        rw [exportFrom_succ, exportStep, if_pos hseen] at h
        cases h
      rw [exportFrom_of_lists hend hlists hnot hn] at h
      exact ⟨m, hlists, h, .refl, .inl rfl⟩
    have hentry : t.exportTarget? (m, name) = none := by
      rw [← Option.not_isSome_iff_eq_none, ← lists_iff]
      exact hlists
    rw [exportFrom_succ, exportStep] at h
    split at h
    · cases h
    rename_i hnot
    rw [hentry] at h
    dsimp only at h
    -- the answer is that of one of the stars, which has been asked when more had been looked through
    refine (List.foldlRecOn (motive := fun r : Option SymbolId × List SourceId =>
      m :: seen ⊆ r.2 ∧ (r.1 = some id → _)) (t.passers (m, name)) _ ⟨?_, ?_⟩
      fun r hr m' hm' => ?_).2 h
    · exact List.Subset.refl _
    · intro hnone
      cases hnone
    · unfold orElse
      split
      · exact hr
      · refine ⟨List.Subset.trans hr.1 (subset_exportFrom n m' name r.2), fun hfound => ?_⟩
        have hstar := (mem_passers hentry).1 hm'
        have hlt : t.searchDepth (m', name) r.2 < t.searchDepth (m, name) seen :=
          searchDepth_star_lt hstar hnot hr.1
        have hdepth : t.searchDepth (m', name) r.2 ≤ n := by omega
        obtain ⟨x, hx, hraw, hway, -⟩ := ih hdepth hfound
        obtain ⟨f, hf, -, hname, hmem, -⟩ := hstar
        exact ⟨x, hx, hraw, .head ⟨f, hf, hmem⟩ hway, .inr hname⟩

theorem exists_lists_of_export? (hend : t.ReexportsEnd) {m : SourceId} {name : String}
    (h : (t.export? m name).isSome) :
    ∃ x, t.Lists x name ∧ ReflTransGen t.Spreads m x ∧ (x = m ∨ name ≠ "default") := by
  obtain ⟨last, hlast⟩ := Option.isSome_iff_exists.1 h
  obtain ⟨id, hid, -⟩ := Option.bind_eq_some_iff.1 hlast
  obtain ⟨x, hx, -, hway⟩ := exists_lists_of_exportFrom hend (searchDepth_le (m, name) []) hid
  exact ⟨x, hx, hway⟩

section

variable (hend : t.ReexportsEnd) (hlead : ∀ m name, t.Lists m name → (t.export? m name).isSome)

include hend hlead

/-- If everything that modules export themselves leads to a symbol, so does every name that stars pass
on. -/
theorem isSome_export?_of_spreads {m x : SourceId} {name : String} (hname : name ≠ "default")
    (hway : ReflTransGen t.Spreads m x) (hx : t.Lists x name) : (t.export? m name).isSome := by
  have hraw : (t.rawExport? m name).isSome := by
    induction hway using ReflTransGen.head_induction_on with
    | refl => exact Option.isSome_of_isSome_bind (hlead x name hx)
    | @head a b hspreads _ ih =>
      by_cases hlists : t.Lists a name
      · exact Option.isSome_of_isSome_bind (hlead a name hlists)
      · obtain ⟨e, id, hreach, hexport⟩ := (isSome_rawExport? hend b name).1 ih
        have hstep : t.Leads (a, name) (b, name) := .inl (stars_of_spreads hspreads hlists hname)
        exact (isSome_rawExport? hend a name).2 ⟨e, id, .head hstep hreach, hexport⟩
  obtain ⟨id, hid⟩ := Option.isSome_iff_exists.1 hraw
  obtain ⟨y, hy, hsame, -⟩ := exists_lists_of_exportFrom hend (searchDepth_le (m, name) []) hid
  have hfound := hlead y name hy
  rw [export?, hsame] at hfound
  rw [export?, hid]
  exact hfound

/-- The two views of a module's exports agree, if no circle of stars and re-exports contains a re-export
and everything that modules export themselves leads to a symbol. The names that a module exports are
listed once each. A name other than the default is listed exactly if a symbol is found under it; the
default is listed exactly if the module or one that its stars lead to has one, but a symbol is found
only for the module's own. -/
theorem exportNames_exact (m : SourceId) :
    (t.exportNames m).Nodup ∧
    (∀ name, name ≠ "default" → (name ∈ t.exportNames m ↔ (t.export? m name).isSome)) ∧
    ("default" ∈ t.exportNames m ↔
      ∃ m', ReflTransGen t.Spreads m m' ∧ t.Lists m' "default") ∧
    ((t.export? m "default").isSome ↔ t.Lists m "default") := by
  refine ⟨nodup_exportNames m, fun name hname => ?_, mem_exportNames, fun h => ?_, hlead m "default"⟩
  · rw [mem_exportNames]
    constructor
    · rintro ⟨x, hway, hx⟩
      exact isSome_export?_of_spreads hend hlead hname hway hx
    · intro h
      obtain ⟨x, hx, hway, -⟩ := exists_lists_of_export? hend h
      exact ⟨x, hway, hx⟩
  · obtain ⟨x, hx, -, rfl | hne⟩ := exists_lists_of_export? hend h
    · exact hx
    · exact absurd rfl hne

end

/-- Two modules whose stars go round in a circle; the second has a default export. -/
def starCircle : Symbols where
  all := #[{ name := "A", meaning := { typeAlias := true } },
    { name := "B", meaning := { typeAlias := true } }]
  files := (({} : Std.HashMap SourceId FileSymbols).insert ⟨0⟩
      { isModule := true, stars := #[some ⟨1⟩], exports := ⟨#[("A", .local ⟨0⟩)]⟩ }).insert ⟨1⟩
      { isModule := true, stars := #[some ⟨0⟩], exports := ⟨#[("default", .local ⟨1⟩)]⟩ }

theorem exportTarget?_starCircle {a : ExportName} {x : ExportTarget}
    (h : starCircle.exportTarget? a = some x) :
    a = (⟨0⟩, "A") ∧ x = .local ⟨0⟩ ∨ a = (⟨1⟩, "default") ∧ x = .local ⟨1⟩ := by
  obtain ⟨m, name⟩ := a
  simp only [exportTarget?, starCircle, file?, Std.HashMap.getElem?_insert, beq_iff_eq] at h
  split at h
  · rename_i hm
    subst hm
    simp [NameMap.get?] at h
    exact .inr ⟨by rw [h.1], h.2.symm⟩
  · split at h
    · rename_i hm
      subst hm
      simp [NameMap.get?] at h
      exact .inl ⟨by rw [h.1], h.2.symm⟩
    · simp at h

/-- In the circle the first module's export is a name of the second, while the default export of the
second is listed, but not found, in the first. -/
theorem exportNames_exact_starCircle :
    starCircle.ReexportsEnd ∧
    (∀ m name, starCircle.Lists m name → (starCircle.export? m name).isSome) ∧
    (starCircle.export? ⟨1⟩ "A").isSome ∧ "default" ∈ starCircle.exportNames ⟨0⟩ ∧
    ¬(starCircle.export? ⟨0⟩ "default").isSome := by
  have hend : starCircle.ReexportsEnd := by
    intro a b h
    obtain ⟨-, hx⟩ | ⟨-, hx⟩ := exportTarget?_starCircle h <;> cases hx
  have hlead (m : SourceId) (name : String) (h : starCircle.Lists m name) :
      (starCircle.export? m name).isSome := by
    obtain ⟨x, hx⟩ := Option.isSome_iff_exists.1 (lists_iff.1 h)
    have hfound (id : SymbolId) (hid : x = .local id) (hown : (starCircle.get id).importTarget = none) :
        (starCircle.export? m name).isSome := by
      rw [export?, rawExport?_of_local (hid ▸ hx), Option.bind_some, resolveAlias?_of_none hown]
      rfl
    obtain ⟨-, hid⟩ | ⟨-, hid⟩ := exportTarget?_starCircle hx
    · exact hfound _ hid rfl
    · exact hfound _ hid rfl
  have hfirst : starCircle.file? ⟨0⟩ = some
      { isModule := true, stars := #[some ⟨1⟩], exports := ⟨#[("A", .local ⟨0⟩)]⟩ } := by cbv
  have hsecond : starCircle.file? ⟨1⟩ = some
      { isModule := true, stars := #[some ⟨0⟩], exports := ⟨#[("default", .local ⟨1⟩)]⟩ } := by cbv
  have hA : "A" ∈ starCircle.exportNames ⟨1⟩ :=
    mem_exportNames.2 ⟨⟨0⟩, .single ⟨_, hsecond, by simp⟩, _, hfirst, by simp [NameMap.names]⟩
  have hdefault : starCircle.Lists ⟨1⟩ "default" := ⟨_, hsecond, by simp [NameMap.names]⟩
  obtain ⟨-, -, hlisted, hown⟩ := exportNames_exact hend hlead ⟨0⟩
  refine ⟨hend, hlead, ((exportNames_exact hend hlead ⟨1⟩).2.1 "A" (by decide)).1 hA,
    hlisted.2 ⟨⟨1⟩, .single ⟨_, hfirst, by simp⟩, hdefault⟩, fun h => ?_⟩
  obtain ⟨f, hf, hmem⟩ := hown.1 h
  obtain rfl := Option.some.inj (hfirst.symm.trans hf)
  simp [NameMap.names] at hmem

end Symbols

end DeclKit

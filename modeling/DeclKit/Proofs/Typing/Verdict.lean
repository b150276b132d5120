/-
Relating two types comes to what is known of the pair.

What is known of a pair of types follows the questions that relating them asks, one by one. Where a type
or its members are looked up, what was there is found again; where other pairs are asked about, the
answers are what was known of those. So each of the steps comes to what is known, and the check need not
be the one that made anything known: it may have done anything in between.
-/
import DeclKit.Proofs.Typing.Intersection
import DeclKit.Typing.Assignable

set_option autoImplicit false

namespace DeclKit

/-! ## Steps that come to what is known -/

namespace Sight

variable {s : Setting} {v : Sight} {c : Checker} {id : TypeId} {k : TypeKind}

theorem exists_get?_of_kind? (h : v.kind? id = some k) :
    ∃ d, v.table.types.get? id.index = some d ∧ d.kind = k := Option.map_eq_some_iff.1 h

theorem kind_of_kind? (h : v.kind? id = some k) : v.table.kind id = k := by
  obtain ⟨d, hd, rfl⟩ := exists_get?_of_kind? h
  exact TypeTable.kind_of_get? hd

/-- A type keeps its kind. -/
theorem kind_of_sees (hc : c.Sees s v) (h : v.kind? id = some k) : c.table.kind id = k := by
  obtain ⟨d, hd, rfl⟩ := exists_get?_of_kind? h
  exact TypeTable.kind_of_get? (hc.table.types _ _ hd)

end Sight

namespace Check

variable {s : Setting} {v : Sight} {n : Nat} {room : Nat → Prop} {P : Prop} {α β : Type}

theorem recalls_pure (a : α) : (pure a : Check α).Recalls v P a := fun _ _ _ _ => rfl

theorem Recalls.bind {x : Check α} {a : α} {f : α → Check β} {b : β} (hx : x.Recalls v P a)
    (hf : (f a).Recalls v P b) : (x >>= f).Recalls v P b := by
  intro s c hc hd
  have hrest := (f ((x.run s).run c).1).retains s ((x.run s).run c).2
  have hfirst := hx s c hc (hd.imp_right hrest.quiet)
  rw [run_bind, hfirst] at hd ⊢
  exact hf s c hc hd

theorem recalls_program : program.Recalls v P v.program := by
  intro s c hc _
  rw [hc.program]
  rfl

theorem recalls_nullChecks : nullChecks.Recalls v P v.program.options.nullChecks := by
  intro s c hc _
  rw [hc.program]
  rfl

theorem recalls_kind {id : TypeId} {k : TypeKind} (h : v.kind? id = some k) :
    (kind id).Recalls v P k := by
  intro s c hc _
  rw [← Sight.kind_of_sees hc h]
  rfl

/-- A type that was there is found when it is stored again. -/
theorem recalls_intern {k : TypeKind} (hk : k.isPlain) {id : TypeId} (h : v.stored? k = some id) :
    (intern k hk).Recalls v P id := by
  intro s c hc _
  obtain ⟨i, hi, rfl⟩ := Option.map_eq_some_iff.1 h
  have hget := hc.table.types i _ ((v.table.types.numbered _ i).1 hi)
  have hagain : (TypeTable.intern k).run c.table = (⟨i⟩, c.table) := by
    show ((⟨(c.table.types.intern { kind := k }).1⟩, { c.table with
      types := (c.table.types.intern { kind := k }).2 }) : TypeId × TypeTable) = _
    rw [Interner.intern_of_get? hget]
  show (Checker.store (TypeTable.intern k)).run c = _
  unfold Checker.store
  dsimp only [StateT.run]
  dsimp only [StateT.run] at hagain
  rw [hagain]

theorem follows_none (x : Check α) : x.Follows s v n room none := fun _ _ _ _ h => nomatch h

theorem follows_pure (a : α) : (pure a : Check α).Follows s v n room (some a) :=
  Recalls.follows fun _ => recalls_pure a

/-- One step after another comes to what is known if each of the two does. -/
theorem Follows.bind {x : Check α} {known : Option α} {f : α → Check β} {next : α → Option β}
    (hx : x.Follows s v n room known)
    (hf : ∀ a, known = some a → (f a).Follows s v n room (next a)) :
    (x >>= f).Follows s v n room (known >>= next) := by
  intro c hc hun b hb
  obtain ⟨a, ha, hb⟩ := Option.bind_eq_some_iff.1 hb
  let mid := ((x.run s).run c).2
  have hrest : mid.Retains _ := (f ((x.run s).run c).1).retains s mid
  have hless : mid.Unsettled v n := fun pair hpair => hun pair ((x.retains s c).relating ▸ hpair)
  obtain ⟨hvalue, hquiet⟩ := hx c hc hun a ha
  rw [run_bind]
  refine ⟨fun hd => ?_, fun hroom hc => ?_⟩
  · obtain ⟨hfound, hmid⟩ := hvalue (hrest.quiet hd)
    rw [hfound] at hd ⊢
    exact (hf a ha mid hmid hless b hb).1 hd
  · obtain ⟨hmidquiet, hdepth⟩ := hquiet hroom hc
    obtain ⟨hfound, hmid⟩ := hvalue hmidquiet
    rw [hfound, ← hdepth]
    exact (hf a ha mid hmid hless b hb).2 (hdepth.symm ▸ hroom) hmidquiet

theorem Follows.ite {condition : Prop} [Decidable condition] {x y : Check α} {a b : Option α}
    (hx : condition → x.Follows s v n room a) (hy : ¬condition → y.Follows s v n room b) :
    (if condition then x else y).Follows s v n room (if condition then a else b) := by
  split
  · exact hx ‹_›
  · exact hy ‹_›

/-- What a step recalls is known to what comes next. -/
theorem Recalls.bind_follows {x : Check α} {a : α} {f : α → Check β} {known : Option β}
    (hx : ∀ depth, x.Recalls v (room depth) a) (hf : (f a).Follows s v n room known) :
    (x >>= f).Follows s v n room known := by
  have hbind : (x >>= f).Follows s v n room (some a >>= fun _ => known) :=
    (Recalls.follows hx).bind fun b hb => by
      obtain rfl := Option.some.inj hb
      exact hf
  exact hbind

/-- What is looked up is recalled if it is known, and otherwise nothing is known of the rest. -/
theorem follows_lookup {γ : Type} {known : Option α} {x : Check β} {g : α → β} {f : β → Check γ}
    {next : α → Option γ} (hx : ∀ a depth, known = some a → x.Recalls v (room depth) (g a))
    (hf : ∀ a, known = some a → (f (g a)).Follows s v n room (next a)) :
    (x >>= f).Follows s v n room (known >>= next) := by
  cases known with
  | none => exact follows_none _
  | some a => exact Recalls.bind_follows (fun depth => hx a depth rfl) (hf a rfl)

/-- What comes next may depend on the table as it is by then. -/
theorem follows_table {f : TypeTable → Check β} {known : Option β}
    (h : ∀ c : Checker, c.Respects s v → (f c.table).Follows s v n room known) :
    (table >>= f).Follows s v n room known :=
  fun c hc hun => h c hc c hc hun

end Check

/-! ## Several questions -/

namespace Truth

open Check

variable {s : Setting} {v : Sight} {n : Nat} {room : Nat → Prop} {α : Type}

theorem follows_allOf {ask : α → Check (Option Bool)} {known : α → Option (Option Bool)}
    (h : ∀ a, (ask a).Follows s v n room (known a)) (acc : Option Bool) (as : List α) :
    (allOf ask acc as).Follows s v n room (allKnown known acc as) := by
  induction as generalizing acc with
  | nil => exact follows_pure acc
  | cons a as ih =>
    refine (h a).bind fun answer _ => ?_
    generalize both acc answer = settled
    match settled with
    | some false => exact follows_pure _
    | some true | none => exact ih _

theorem follows_anyOf {ask : α → Check (Option Bool)} {known : α → Option (Option Bool)}
    (h : ∀ a, (ask a).Follows s v n room (known a)) (acc : Option Bool) (as : List α) :
    (anyOf ask acc as).Follows s v n room (anyKnown known acc as) := by
  induction as generalizing acc with
  | nil => exact follows_pure acc
  | cons a as ih =>
    refine (h a).bind fun answer _ => ?_
    match answer with
    | some true => exact follows_pure _
    | none => exact ih none
    | some false => exact ih acc

end Truth

namespace Typing

open Check Truth

variable {ops : Operations} {s : Setting} {v : Sight} {n : Nat} {room : Nat → Prop} {P : Prop}

theorem follows_holdsForAll {α : Type} {ask : α → Check Bool} {known : α → Option Bool}
    (h : ∀ a, (ask a).Follows s v n room (known a)) (as : List α) :
    (holdsForAll ask as).Follows s v n room (everyKnown known as) := by
  induction as with
  | nil => exact follows_pure true
  | cons a as ih =>
    refine (h a).bind fun answer _ => ?_
    exact Follows.ite (fun _ => ih) fun _ => follows_pure false

theorem follows_foldlM {α β : Type} {f : β → α → Check β} {known : β → α → Option β}
    (h : ∀ b a, (f b a).Follows s v n room (known b a)) (b : β) (as : List α) :
    (as.foldlM f b).Follows s v n room (as.foldlM known b) := by
  induction as generalizing b with
  | nil => exact follows_pure b
  | cons a as ih =>
    rw [List.foldlM_cons, List.foldlM_cons]
    exact (h b a).bind fun b _ => ih b

/-- The answer about a pair of parts is what is known of them. -/
theorem follows_assignable (source target : TypeId) :
    (ops.assignable source target).Follows s v n (Room ops.height n) (v.verdict n source target) :=
  ops.answers source target s v n

/-- An answer is put together with one about a pair. -/
theorem follows_both (acc : Option Bool) (source target : TypeId) :
    (do return both acc (← ops.assignable source target) : Check (Option Bool)).Follows s v n (Room ops.height n)
      (do return both acc (← v.verdict n source target)) :=
  (follows_assignable source target).bind fun _ _ => follows_pure _

/-! ## Members -/

theorem follows_relateParams (acc : Option Bool) (params : List (SignatureParam × SignatureParam)) :
    (relateParams ops acc params).Follows s v n (Room ops.height n) (Sight.params (v.verdict n) acc params) := by
  induction params generalizing acc with
  | nil => exact follows_pure acc
  | cons param params ih =>
    refine Follows.ite (fun _ => follows_pure acc) fun _ => ?_
    refine (follows_assignable _ _).bind fun there _ => ?_
    exact (follows_assignable _ _).bind fun back _ => ih _

theorem follows_relateSignatures (source target : Signature) :
    (relateSignatures ops source target).Follows s v n (Room ops.height n)
      (Sight.signatures (v.verdict n) source target) := by
  unfold relateSignatures Sight.signatures
  dsimp only
  refine Follows.ite (fun _ => follows_pure _) fun _ => ?_
  split
  · exact follows_relateParams _ _
  · exact (follows_assignable _ _).bind fun result _ => follows_relateParams result _

theorem follows_relateProperties {source : TypeId} {has : Shape} (hsource : v.shape? source = some has)
    (properties : List Property) (acc : Option Bool) :
    (relateProperties ops source properties acc).Follows s v n (Room ops.height n)
      (Sight.properties (v.verdict n) has properties acc) := by
  induction properties generalizing acc with
  | nil => exact follows_pure acc
  | cons property properties ih =>
    unfold relateProperties Sight.properties
    refine Recalls.bind_follows (fun _ => (ops.recallsProperty v source has _ hsource).imp Room.two_le) ?_
    cases has.property? property.name with
    | some found =>
      refine Follows.ite (fun _ => follows_pure _) fun _ => ?_
      refine (follows_assignable _ _).bind fun answer _ => ?_
      generalize both acc answer = settled
      match settled with
      | some false => exact follows_pure _
      | some true | none => exact ih _
    | none => exact Follows.ite (fun _ => ih acc) fun _ => follows_pure _

theorem follows_relateCalls (available wanted : List Signature) (acc : Option Bool) :
    (relateCalls ops available wanted acc).Follows s v n (Room ops.height n)
      (Sight.calls (v.verdict n) available wanted acc) := by
  induction wanted generalizing acc with
  | nil => exact follows_pure acc
  | cons signature wanted ih =>
    unfold relateCalls Sight.calls
    refine (follows_anyOf (fun s => follows_relateSignatures s signature) _ _).bind fun found _ => ?_
    generalize both acc found = settled
    match settled with
    | some false => exact follows_pure _
    | some true | none => exact ih _

theorem follows_relateIndexes {source apparent : TypeId} {k : TypeKind} {has : Shape}
    (hk : v.kind? source = some k) (happarent : v.shape? apparent = some has)
    (indexes : List IndexInfo) (acc : Option Bool) :
    (relateIndexes ops source apparent (some has) indexes acc).Follows s v n (Room ops.height n)
      (Sight.indexes (v.verdict n) k.isObjectLiteral has indexes acc) := by
  induction indexes generalizing acc with
  | nil => exact follows_pure acc
  | cons index indexes ih =>
    unfold relateIndexes Sight.indexes
    refine Recalls.bind_follows (fun _ => (ops.recallsIndex v apparent _ has happarent).imp Room.two_le) ?_
    cases has.indexFor? index.key with
    | some found => exact (follows_assignable _ _).bind fun answer _ => ih _
    | none =>
      refine Recalls.bind_follows (fun _ => recalls_kind hk) ?_
      have hboth (acc : Option Bool) (p : Property) :=
        @follows_both ops s v n acc p.type index.type
      have hproperties := follows_foldlM hboth acc
        (has.properties.filter fun p => index.key != .number || p.numeric)
      cases k with
      | computed | written => exact hproperties.bind fun _ _ => ih _
      | _ => exact follows_pure _

theorem follows_relateMembers (source target : TypeId) :
    (relateMembers ops source target).Follows s v n (Room ops.height n) (v.members (v.verdict n) source target) := by
  unfold relateMembers Sight.members
  refine follows_lookup (g := some) (fun wanted _ h => (ops.recallsShape v target wanted h).imp Room.one_le)
    fun wanted _ => ?_
  refine follows_lookup (g := id) (fun own _ h => (ops.recallsApparent v source own h).imp Room.one_le)
    fun own hown => ?_
  obtain ⟨k, hk, -⟩ := Option.bind_eq_some_iff.1 hown
  rw [Sight.kind_of_kind? hk]
  cases hhas : v.shape? own with
  | none => exact follows_none _
  | some has =>
    refine (follows_relateProperties hhas _ _).bind fun acc _ => ?_
    have hshape (depth : Nat) := (ops.recallsShape v own has hhas).imp (@Room.one_le _ n depth)
    have hindexes (acc : Option Bool) :
        (relateIndexes ops source own (some has) wanted.indexes acc).Follows s v n
          (Room ops.height n) _ := follows_relateIndexes hk hhas _ acc
    have hcalls (available more : List Signature) (acc : Option Bool) :=
      @follows_relateCalls ops s v n available more acc
    match acc with
    | some false => exact follows_pure _
    | some true | none =>
      refine Recalls.bind_follows hshape ((hcalls _ _ _).bind fun acc _ => ?_)
      match acc with
      | some false => exact follows_pure _
      | some true | none =>
        refine (hcalls _ _ _).bind fun acc _ => ?_
        match acc with
        | some false => exact follows_pure _
        | some true | none => exact hindexes _

/-! ## Members that are looked up again -/

theorem exists_kind_of_shape? {id : TypeId} {sh : Shape} (h : v.shape? id = some sh) :
    ∃ k, v.kind? id = some k ∧ k.hasMembers = true := by
  obtain ⟨k, hk, hsh⟩ := Option.bind_eq_some_iff.1 h
  refine ⟨k, hk, Classical.byContradiction fun hmembers => ?_⟩
  rw [if_neg hmembers] at hsh
  cases hsh

theorem recalls_shape? (ops : Operations) {id : TypeId} {sh : Shape} (h : v.shape? id = some sh) :
    (shape? ops id).Recalls v P (some sh) :=
  fun _ _ hc _ => run_lookUp_of_hasShape (hc.shapes id sh h)

theorem recalls_globalInterface {name : String} {id : TypeId} (h : v.global? name = some id) :
    (globalInterface name).Recalls v P id := by
  obtain ⟨symbol, hsymbol, hstored⟩ := Option.bind_eq_some_iff.1 h
  refine recalls_program.bind ?_
  rw [hsymbol]
  exact recalls_intern rfl hstored

theorem recalls_apparent (ops : Operations) {id own : TypeId} (h : v.apparent? id = some own) :
    (apparent ops id).Recalls v P own := by
  obtain ⟨k, hk, hown⟩ := Option.bind_eq_some_iff.1 h
  refine (recalls_kind hk).bind ?_
  cases k with
  | string | stringLiteral | template | lettered | number | numberLiteral | false_ | true_ =>
    exact recalls_globalInterface hown
  | interface | written | computed | functionValue =>
    obtain rfl := Option.some.inj hown
    exact recalls_pure id
  | _ => cases hown

/-- The members of an object type are those of its values. -/
theorem apparent?_of_hasMembers {id : TypeId} {k : TypeKind} (hk : v.kind? id = some k)
    (hmembers : k.hasMembers = true) : v.apparent? id = some id := by
  unfold Sight.apparent?
  rw [hk, Option.bind_eq_bind, Option.bind_some]
  cases k with
  | interface | written | computed | functionValue => rfl
  | _ => cases hmembers

theorem recalls_property? (ops : Operations) {id : TypeId} {sh : Shape} (h : v.shape? id = some sh)
    (name : String) : (property? ops id name).Recalls v (1 ≤ ops.height) (sh.property? name) := by
  obtain ⟨k, hk, hmembers⟩ := exists_kind_of_shape? h
  refine (recalls_kind hk).bind ?_
  cases k with
  | interface | written | computed | functionValue =>
    exact (ops.recallsShape v id sh h).bind (recalls_pure _)
  | _ => cases hmembers

theorem recalls_index? (ops : Operations) {id : TypeId} {sh : Shape} (h : v.shape? id = some sh)
    (key : TypeId) : (index? ops id key).Recalls v (1 ≤ ops.height) (sh.indexFor? key) := by
  obtain ⟨k, hk, hmembers⟩ := exists_kind_of_shape? h
  refine (recalls_kind hk).bind ?_
  cases k with
  | interface | written | computed | functionValue =>
    exact (ops.recallsApparent v id id (apparent?_of_hasMembers hk hmembers)).bind
      ((ops.recallsShape v id sh h).bind (recalls_pure _))
  | _ => cases hmembers

/-! ## Texts and tuples -/

theorem follows_fitsSingle (text : String) (target : TypeId) :
    (fitsSingle ops text target).Follows s v n (Room ops.height n) (v.fitsSingle (v.verdict n) text target) := by
  refine follows_lookup (g := id) (fun k _ hk => recalls_kind hk) fun k _ => ?_
  cases k with
  | lettered | template | stringLiteral =>
    refine follows_lookup (g := id) (fun literal _ h => recalls_intern rfl h) fun literal _ => ?_
    exact (follows_assignable _ _).bind fun _ _ => follows_pure _
  | _ => exact follows_pure _

/-- The types that a value of a type has to belong to stay the same, as they are no intersections. -/
theorem conjuncts_of_conjuncts? {c : Checker} (hc : c.Sees s v) {target : TypeId} {ts : List TypeId}
    (h : v.conjuncts? target = some ts) : c.table.conjuncts target = ts := by
  obtain ⟨k, hk, hts⟩ := Option.bind_eq_some_iff.1 h
  have hkind := Sight.kind_of_sees hc hk
  rw [TypeTable.conjuncts, TypeTable.descend, TypeTable.conjunctsStep, hkind]
  cases k with
  | intersection ms =>
    dsimp only at hts ⊢
    split at hts
    · obtain rfl := Option.some.inj hts
      rename_i hall
      have hsingle (m : TypeId) (hm : m ∈ ms) :
          TypeTable.descend c.table.conjunctsStep (fun id => [id]) target.index m = [m] := by
        obtain ⟨k, hk, hsingle⟩ := (Option.any_eq_true _ _).1 (List.all_eq_true.1 hall m hm)
        cases target.index with
        | zero => rfl
        | succ n =>
          rw [TypeTable.descend, TypeTable.conjunctsStep, Sight.kind_of_sees hc hk]
          cases k with
          | intersection => cases hsingle
          | _ => rfl
      clear hall hkind hk h hts
      induction ms with
      | nil => rfl
      | cons m ms ih =>
        rw [List.flatMap_cons, hsingle m List.mem_cons_self,
          ih fun m hm => hsingle m (List.mem_cons_of_mem _ hm), List.singleton_append]
    · cases hts
  | _ => exact Option.some.inj hts

theorem follows_fits (text : String) (target : TypeId) :
    (fits ops text target).Follows s v n (Room ops.height n) (do
      Truth.everyKnown (v.fitsSingle (v.verdict n) text) (← v.conjuncts? target)) := by
  refine follows_table fun c hc => ?_
  cases hts : v.conjuncts? target with
  | none => exact follows_none _
  | some ts =>
    rw [conjuncts_of_conjuncts? hc.toSees hts]
    exact follows_holdsForAll (follows_fitsSingle text) ts

theorem follows_relateTemplate (text head : String) (spans : List (TypeId × String)) :
    (relateTemplate ops text head spans).Follows s v n (Room ops.height n)
      (v.templates (v.verdict n) text head spans) := by
  unfold relateTemplate Sight.templates
  cases Template.matchText? text head spans with
  | none => exact follows_pure none
  | some pieces =>
    refine Follows.bind (follows_holdsForAll (fun piece => ?_) _) fun _ _ => follows_pure _
    exact follows_fits piece.1 piece.2

theorem follows_relateOpenTuples (source target : List TupleElement) :
    (relateOpenTuples ops source target).Follows s v n (Room ops.height n)
      (Sight.openTuples (v.verdict n) source target) := by
  unfold relateOpenTuples Sight.openTuples
  cases target.find? (·.kind == .rest) with
  | none => exact follows_pure none
  | some rest =>
    refine Follows.ite (fun _ => follows_pure none) fun _ => ?_
    exact follows_foldlM (fun acc p => follows_both acc _ _) _ _

theorem follows_relateTuples (source target : List TupleElement) :
    (relateTuples ops source target).Follows s v n (Room ops.height n) (Sight.tuples (v.verdict n) source target) := by
  refine Follows.ite (fun _ => follows_relateOpenTuples source target) fun _ => ?_
  refine Follows.ite (fun _ => follows_pure _) fun _ => ?_
  exact follows_allOf (fun p : TypeId × TypeId => follows_assignable p.1 p.2) _ _

/-! ## Types -/

theorem follows_relateObjects {source target : TypeId} {k l : TypeKind} (hk : v.kind? source = some k)
    (hl : v.kind? target = some l) :
    (relateObjects ops source target).Follows s v n (Room ops.height n) (v.objects (v.verdict n) source target) := by
  refine follows_table fun c hc => ?_
  have hsource : c.table.kind source = v.table.kind source :=
    (Sight.kind_of_sees hc.toSees hk).trans (Sight.kind_of_kind? hk).symm
  have htarget : c.table.kind target = v.table.kind target :=
    (Sight.kind_of_sees hc.toSees hl).trans (Sight.kind_of_kind? hl).symm
  unfold Sight.objects TypeTable.isObjectLike
  rw [hsource, htarget]
  refine Follows.ite (fun _ => follows_pure _) fun _ => ?_
  refine Follows.ite (fun _ => ?_) fun _ => follows_pure _
  cases v.table.kind source with
  | null | undefined | void | anyObject => exact follows_pure _
  | _ => exact follows_relateMembers source target

/-- A type waits, or does not, as long as all its parts were there. By induction on how often it is
asked. -/
theorem waits_of_waits? {c : Checker} (hc : c.Sees s v) {l : Nat} {id : TypeId} {b : Bool}
    (h : TypeTable.descend v.waitsStep? (fun _ => some false) l id = some b) :
    TypeTable.descend c.table.waitsStep (fun _ => false) l id = b := by
  induction l generalizing id b with
  | zero => exact Option.some.inj h
  | succ l ih =>
    have hany {α : Type} {f : α → TypeId} {xs : List α} {b : Bool}
        (hxs : (do return (← xs.mapM fun x => TypeTable.descend v.waitsStep? (fun _ => some false) l
          (f x)).any fun b => b : Option Bool) = some b) :
        (xs.any fun x => TypeTable.descend c.table.waitsStep (fun _ => false) l (f x)) = b := by
      obtain ⟨bs, hbs, hb⟩ := Option.bind_eq_some_iff.1 hxs
      obtain rfl := Option.some.inj hb
      clear hxs
      induction xs generalizing bs with
      | nil =>
        obtain rfl := Option.some.inj hbs
        rfl
      | cons x xs ihxs =>
        rw [List.mapM_cons] at hbs
        obtain ⟨b, hx, hbs⟩ := Option.bind_eq_some_iff.1 hbs
        obtain ⟨bs', hxs, hbs⟩ := Option.bind_eq_some_iff.1 hbs
        obtain rfl := Option.some.inj hbs
        rw [List.any_cons, List.any_cons, ih hx, ihxs bs' hxs rfl]
    rw [TypeTable.descend] at h ⊢
    obtain ⟨k, hk, hb⟩ := Option.bind_eq_some_iff.1 h
    rw [TypeTable.waitsStep, Sight.kind_of_sees hc hk]
    cases k with
    | union | intersection => exact hany (f := fun id => id) hb
    | template => exact hany (f := Prod.fst) hb
    | lettered => exact ih hb
    | _ => exact Option.some.inj hb

theorem follows_relateKnown {source target : TypeId} {k l : TypeKind} (hk : v.kind? source = some k)
    (hl : v.kind? target = some l) :
    (relateKnown ops source target).Follows s v n (Room ops.height n) (v.known (v.verdict n) source target) := by
  refine follows_table fun c hc => ?_
  have hprogram : v.program = s.program := hc.program
  have hobjects : (relateObjects ops source target).Follows s v n (Room ops.height n) _ :=
    follows_relateObjects hk hl
  unfold Sight.known
  rw [Sight.kind_of_sees hc.toSees hk, Sight.kind_of_sees hc.toSees hl, Sight.kind_of_kind? hk,
    Sight.kind_of_kind? hl, hprogram]
  clear hk hl
  rw [← hprogram]
  refine Recalls.bind_follows (fun _ => recalls_nullChecks) ?_
  refine Follows.ite (fun _ => follows_pure _) fun _ => ?_
  split
  · exact follows_pure _
  · exact follows_pure _
  · exact follows_pure _
  · exact follows_pure _
  · exact follows_pure _
  · exact follows_pure _
  · exact follows_relateTemplate _ _ _
  · refine Follows.ite (fun _ => follows_pure _) fun _ => ?_
    refine follows_lookup (g := id) (fun literal _ h => recalls_intern rfl h) fun literal _ => ?_
    exact follows_assignable _ _
  · exact Follows.ite (fun _ => follows_pure _) fun _ => follows_relateTuples _ _
  · exact follows_none _
  · refine Follows.ite (fun _ => ?_) fun _ => hobjects
    refine (follows_allOf (fun p : TypeId × TypeId => follows_assignable p.1 p.2) _ _).bind fun answer _ => ?_
    match answer with
    | some true => exact follows_pure _
    | some false | none => exact follows_relateMembers source target
  · -- none of the pairs of kinds above: what is known may have been looked for alike by now
    first
      | exact hobjects
      | split
        case h_12 => exact hobjects
        case h_9 h _ _ => exact (h _ _ _ _ rfl rfl).elim
        case h_10 h _ => exact (h _ _ _ _ rfl rfl).elim
        case h_11 h => exact (h _ _ _ _ rfl rfl).elim
        all_goals simp_all

/-- An intersection is related by one of its members, or it is not known how it is related. -/
theorem follows_relateIntersection {source target : TypeId} {l : TypeKind}
    (hl : v.kind? target = some l) (members : List TypeId) :
    (relateIntersection ops source target members).Follows s v n (Room ops.height n) (do
      let direct ← anyKnown (v.verdict n · target) (some false) members
      if direct == some true || !v.table.isObjectLike target then return direct else none) := by
  refine (follows_anyOf (fun m => follows_assignable m target) _ _).bind fun direct _ => ?_
  refine follows_table fun c hc => ?_
  have htarget : c.table.isObjectLike target = v.table.isObjectLike target := by
    rw [TypeTable.isObjectLike, TypeTable.isObjectLike, Sight.kind_of_sees hc.toSees hl,
      Sight.kind_of_kind? hl]
  rw [htarget]
  exact Follows.ite (fun _ => follows_pure _) fun _ => follows_none _

theorem follows_apart {source target : TypeId} {k l : TypeKind} (hk : v.kind? source = some k)
    (hl : v.kind? target = some l) {c : Checker} (hc : c.Respects s v) :
    Follows s v n (Room ops.height n) (match k, l with
      | .any, _ | .error, _ => return some (target != .never)
      | .never, _ => return some true
      | .union members, _ => allOf (ops.assignable · target) (some true) members
      | _, .intersection members => allOf (ops.assignable source ·) (some true) members
      | _, .union members => anyOf (ops.assignable source ·) (some false) members
      | .intersection members, _ => relateIntersection ops source target members
      | .param symbol, _ => relateParam ops symbol target
      | _, _ =>
        if c.table.isDeferred source || c.table.isDeferred target then return none
        else relateKnown ops source target) (v.apart (v.verdict n) source target k l) := by
  have hknown : (relateKnown ops source target).Follows s v n (Room ops.height n) _ :=
    follows_relateKnown hk hl
  split
  · exact follows_pure _
  · exact follows_pure _
  · exact follows_pure _
  · exact follows_allOf (fun m => follows_assignable m target) _ _
  · rename_i members _ _ _ _
    have hapart : v.apart (v.verdict n) source target k (.intersection members) =
        allKnown (v.verdict n source ·) (some true) members := by
      unfold Sight.apart
      split <;> simp_all
    rw [hapart]
    exact follows_allOf (fun m => follows_assignable source m) _ _
  · rename_i members _ _ _ _
    have hapart : v.apart (v.verdict n) source target k (.union members) =
        anyKnown (v.verdict n source ·) (some false) members := by
      unfold Sight.apart
      split <;> simp_all
    rw [hapart]
    exact follows_anyOf (fun m => follows_assignable source m) _ _
  · rename_i members _ _
    have hapart : v.apart (v.verdict n) source target (.intersection members) l = (do
        let direct ← anyKnown (v.verdict n · target) (some false) members
        if direct == some true || !v.table.isObjectLike target then return direct else none) := by
      unfold Sight.apart
      split <;> simp_all
    rw [hapart]
    exact follows_relateIntersection hl members
  · rename_i symbol _ _
    have hapart : v.apart (v.verdict n) source target (.param symbol) l = none := by
      unfold Sight.apart
      split <;> simp_all
    rw [hapart]
    exact follows_none _
  · have hapart : v.apart (v.verdict n) source target k l = (do
        if (← v.waits? source) || (← v.waits? target) then return none
        else v.known (v.verdict n) source target) := by
      unfold Sight.apart
      split <;> simp_all
    rw [hapart]
    cases hsource : v.waits? source with
    | none => exact follows_none _
    | some b =>
      cases htarget : v.waits? target with
      | none => exact follows_none _
      | some b' =>
        have hwaits {id : TypeId} {b : Bool} (h : v.waits? id = some b) : c.table.isDeferred id = b :=
          waits_of_waits? hc.toSees h
        rw [hwaits hsource, hwaits htarget]
        exact Follows.ite (fun _ => follows_pure _) fun _ => hknown

theorem follows_relate (source target : TypeId) :
    (relate ops source target).Follows s v n (Room ops.height n) (v.verdictStep (v.verdict n) source target) := by
  refine follows_table fun c hc => ?_
  unfold Sight.verdictStep
  by_cases heq : source = target
  · subst heq
    rw [if_pos rfl, if_pos (beq_self_eq_true source)]
    exact follows_pure _
  rw [if_neg (show ¬(source == target) = true by simpa using heq)]
  cases hk : v.kind? source with
  | none => exact follows_none _
  | some k =>
    cases hl : v.kind? target with
    | none => exact follows_none _
    | some l =>
      rw [Sight.kind_of_sees hc.toSees hk, Sight.kind_of_sees hc.toSees hl]
      simp only [Option.bind_eq_bind, Option.bind_some]
      refine Follows.ite (fun _ => follows_pure _) fun _ => ?_
      have hapart := @follows_apart ops s v n _ _ _ _ hk hl c hc
      cases l with
      | any | error | unknown => exact follows_pure _
      | _ => exact hapart

/-- What relating two types comes to is what is known of them, if that goes for the pairs below. -/
theorem answers_relate (ops : Operations) (source target : TypeId) :
    (relate ops source target).Answers (Room ops.height) (source, target) :=
  fun _ _ _ => follows_relate source target

end Typing

end DeclKit

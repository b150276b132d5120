/-
Types without type parameters stay what they are under a substitution.

Of a type that mentions no type parameter a substitution makes that type again: not one that is equal to
it, but the same number, by which answers are remembered and members of unions are told apart. Whether a
type mentions a type parameter is asked of its parts, of the parts of these, and so on, as often as there
are types. That is often enough: on the way down no type is met twice, because a type that is put together
all the way down is no part of itself.
-/
import DeclKit.Proofs.Typing.Composition
import DeclKit.Proofs.Typing.Spared

set_option autoImplicit false

namespace DeclKit

/-! ## Types that are put together all the way down -/

/-- An object type of this kind was not computed, and a tuple spreads nothing. -/
def TypeKind.isGrounded : TypeKind → Bool
  | .computed _ => false
  | .tuple elements _ => elements.all (·.kind != .variadic)
  | _ => true

namespace TypeTable

variable {s : Setting} {t u : TypeTable} {id : TypeId}

/-- A type is there and is put together of types that are there, all the way down: none of them was
computed, and the arguments of their names mention no type parameter. -/
inductive Grounded (s : Setting) (t : TypeTable) : TypeId → Prop where
  | mk {id : TypeId} {d : TypeData} :
      t.types.get? id.index = some d → d.kind.isGrounded →
      (∀ part ∈ t.constituents d.kind, Grounded s t part) →
      (∀ a ∈ d.aliased, ∀ arg ∈ a.args, Grounded s t arg) →
      (∀ a ∈ d.aliased, ∀ arg ∈ a.args, t.isGeneric s.free arg = false) → Grounded s t id

/-- One type is put together from another one, its names apart. -/
def Holds (t : TypeTable) (whole part : TypeId) : Prop :=
  ∃ d, t.types.get? whole.index = some d ∧ part ∈ t.constituents d.kind

/-- A type that is put together all the way down is no part of itself. By induction on how it is put
together: on a way from the type back to it, the first part would be a part of itself. -/
theorem Grounded.not_transGen_self (h : t.Grounded s id) : ¬Relation.TransGen t.Holds id id := by
  induction h with
  | @mk id d hget _ _ _ _ ih _ =>
    intro hcycle
    obtain ⟨part, ⟨d', hget', hpart⟩, hback⟩ := Relation.TransGen.head'_iff.1 hcycle
    obtain rfl : d' = d := Option.some.inj (hget'.symm.trans hget)
    exact ih part hpart (Relation.TransGen.tail' hback ⟨d', hget, hpart⟩)

/-- Different types of the table are no more than there are. -/
theorem length_le_size {path : List TypeId} (hnodup : path.Nodup) (hpath : ∀ i ∈ path, t.has i) :
    path.length ≤ t.types.size := by
  have hindex : (path.map (·.index)).Nodup :=
    hnodup.map fun i j hij => congrArg TypeId.mk hij
  have hsub : path.map (·.index) ⊆ List.range t.types.size := by
    intro n hn
    obtain ⟨i, hi, rfl⟩ := List.mem_map.1 hn
    exact List.mem_range.2 (Interner.get?_isSome.1 (hpath i hi))
  have hlength := (hindex.subperm hsub).length_le
  rwa [List.length_map, List.length_range] at hlength

/-! ## What a type without type parameters is -/

/-- A type that mentions no type parameter waits for nothing, and its parts mention none. -/
theorem settles_of_not_generic (ht : t.Arranged) (hrestricted : t.Every (t.Restricted s)) {d : TypeData}
    (hget : t.types.get? id.index = some d) (hgrounded : d.kind.isGrounded) {inner : TypeId → Bool}
    (hgeneric : t.genericStep s.free inner id = false) :
    t.settles s d.kind ∧ ∀ part ∈ t.constituents d.kind, inner part = false := by
  have hmap {α : Type} {xs : List α} {f : α → TypeId} (h : xs.any (fun x => inner (f x)) = false) :
      ∀ part ∈ xs.map f, inner part = false := by
    intro part hpart
    obtain ⟨x, hx, rfl⟩ := List.mem_map.1 hpart
    exact Bool.eq_false_iff.2 (List.any_eq_false.1 h x hx)
  rw [genericStep, kind_of_get? hget] at hgeneric
  cases hk : d.kind <;> rw [hk] at hgeneric hgrounded
  case union | intersection | interface =>
    exact ⟨rfl, fun part hpart => Bool.eq_false_iff.2 (List.any_eq_false.1 hgeneric part hpart)⟩
  case template => exact ⟨rfl, hmap hgeneric⟩
  case tuple => exact ⟨hgrounded, hmap hgeneric⟩
  case lettered => exact ⟨rfl, fun part hpart => List.mem_singleton.1 hpart ▸ hgeneric⟩
  case written decl m =>
    have hstored := hrestricted _ _ hget
    rw [hk] at hstored
    have hput (x : SymbolId) (hx : x ∈ s.free decl) :
        ∃ ty, t.substitute? m x = some ty ∧ inner ty = false := by
      have hx := Bool.eq_false_iff.2 (List.any_eq_false.1 hgeneric x hx)
      cases hsub : t.substitute? m x with
      | none => rw [hsub] at hx; cases hx
      | some ty => rw [hsub] at hx; exact ⟨ty, rfl, hx⟩
    refine ⟨List.all_eq_true.2 fun x hx => ?_, fun part hpart => ?_⟩
    · obtain ⟨ty, hty, -⟩ := hput x hx
      rw [hty]
      rfl
    · -- the substitution puts in something only for parameters that the type uses
      obtain ⟨⟨x, ty⟩, hmem, rfl⟩ := List.mem_map.1 hpart
      have hsub := ht.substitute?_of_mem hmem
      by_cases hx : x ∈ s.free decl
      · obtain ⟨ty', hty', hinner⟩ := hput x hx
        exact Option.some.inj (hty'.symm.trans hsub) ▸ hinner
      · cases (hstored.2 x hx).symm.trans hsub
  all_goals first
    | exact ⟨rfl, fun part hpart => absurd hpart List.not_mem_nil⟩
    | cases hgeneric
    | cases hgrounded

/-- A type that mentions no type parameter stays under a substitution, if it is put together all the way
down. By induction on how it is put together; `path` are the types above it, and together with them it is
asked often enough. -/
theorem Grounded.concrete_of_path (ht : t.Arranged) (hrestricted : t.Every (t.Restricted s))
    (h : t.Grounded s id) (path : List TypeId) (hnodup : path.Nodup) (hpath : ∀ i ∈ path, t.has i)
    (hleads : ∀ i ∈ path, Relation.TransGen t.Holds i id) {n : Nat}
    (hn : t.types.size < n + path.length)
    (hgeneric : descend (t.genericStep s.free) (fun _ => false) n id = false) : t.Concrete s id := by
  induction h generalizing path n with
  | @mk id d hget hgrounded hparts hargs hnames ih ih' =>
    have hself : id ∉ path := fun hid =>
      (Grounded.mk hget hgrounded hparts hargs hnames).not_transGen_self (hleads id hid)
    have hhas : t.has id := Option.isSome_iff_exists.2 ⟨d, hget⟩
    have hnodup' : (id :: path).Nodup := List.nodup_cons.2 ⟨hself, hnodup⟩
    have hpath' : ∀ i ∈ id :: path, t.has i := List.forall_mem_cons.2 ⟨hhas, hpath⟩
    have hlength := length_le_size hnodup' hpath'
    rw [List.length_cons] at hlength
    obtain ⟨n, rfl⟩ : ∃ k, n = k + 1 := ⟨n - 1, by omega⟩
    obtain ⟨hsettles, hinner⟩ := settles_of_not_generic ht hrestricted hget hgrounded hgeneric
    refine .mk hget hsettles (fun part hpart => ?_) fun a ha arg harg => ?_
    · have hstep : t.Holds id part := ⟨d, hget, hpart⟩
      refine ih part hpart (id :: path) hnodup' hpath' (fun i hi => ?_) ?_ (hinner part hpart)
      · rcases List.mem_cons.1 hi with rfl | hi
        · exact .single hstep
        · exact (hleads i hi).tail hstep
      · rw [List.length_cons]
        omega
    · -- an argument of a name is asked about by itself
      exact ih' a ha arg harg [] .nil (fun i hi => absurd hi List.not_mem_nil)
        (fun i hi => absurd hi List.not_mem_nil) (Nat.lt_succ_self _) (hnames a ha arg harg)

theorem Grounded.concrete (ht : t.Arranged) (hrestricted : t.Every (t.Restricted s))
    (h : t.Grounded s id) (hgeneric : t.isGeneric s.free id = false) : t.Concrete s id :=
  h.concrete_of_path ht hrestricted [] .nil (fun _ hi => absurd hi List.not_mem_nil)
    (fun _ hi => absurd hi List.not_mem_nil) (Nat.lt_succ_self _) hgeneric

/-- A type that stays does so in every later table. -/
theorem Concrete.grows (hrestricted : t.Every (t.Restricted s)) (h : t.Concrete s id) (htu : t.Grows u) :
    u.Concrete s id := by
  induction h with
  | @mk id d hget hsettles _ _ ih ih' =>
    have hmapper (decl : NodeKey) (m : Option MapperId) (hk : d.kind = .written decl m) :
        u.mapper m = t.mapper m := by
      have hstored := hrestricted _ _ hget
      rw [hk] at hstored
      cases m with
      | none => rfl
      | some m => exact mapper_of_hasMapper (hstored.1 m rfl) htu
    refine .mk (htu.types _ _ hget) ?_ (fun part hpart => ih part ?_) ih'
    · cases hk : d.kind with
      | written decl m =>
        rw [hk] at hsettles
        simp only [settles, substitute?, hmapper decl m hk] at hsettles ⊢
        exact hsettles
      | _ => rw [hk] at hsettles; exact hsettles
    · cases hk : d.kind with
      | written decl m =>
        rw [hk] at hpart
        rw [constituents, ← hmapper decl m hk]
        exact hpart
      | _ => rw [hk] at hpart; exact hpart

end TypeTable

/-! ## What becomes of a type without type parameters -/

namespace Checker.Reachable

open TypeTable

variable {s : Setting} {c : Checker}

/-- In every state of a check what has been stored and remembered comes out the same once more. -/
theorem tidy (h : Reachable s c) : c.Tidy s := by
  induction h with
  | start =>
    have hkinds (P : TypeKind → Prop) (hP : ∀ k : TypeKind, k.isOrdinary → P k) :
        initial.Every P := by
      intro i d hd
      rw [initial_get?] at hd
      obtain ⟨k, hk, rfl⟩ := Option.map_eq_some_iff.1 hd
      have hall : ∀ k ∈ intrinsics, k.isOrdinary := by decide
      exact hP k (hall k (List.mem_of_getElem? hk))
    refine ⟨hkinds _ fun k hk => restricted_of_isOrdinary hk, fun decl sh hsh => ?_,
      fun _ => hkinds _ fun k hk => reduced_of_isOrdinary hk, fun _ id sh hsh => ?_,
      fun _ id m r hr => ?_⟩
    · rw [Std.HashMap.getElem?_empty] at hsh
      cases hsh
    · rw [Std.HashMap.getElem?_empty] at hsh
      cases hsh
    · rw [Std.HashMap.getElem?_empty] at hr
      cases hr
  | @step α c x hc ih => exact x.tidy s c hc.faithful ih

end Checker.Reachable

namespace Typing

open Check TypeTable

variable {s : Setting} {c : Checker} {id : TypeId} {m : Option MapperId}

/-- A substitution leaves a type without type parameters alone. In every state that a check can reach,
for every type that is there and is put together of types that are there, all the way down, and for every
substitution: if the type mentions no type parameter, then what becomes of it is that type itself, under
the same number and so under the same name, unless something was given up because types nest too deep.
Written object and function types, intersections and letter maps are among these types, and so are types
with a name and arguments. What may not be in the type are object types that were computed, which get
another number each time, and arguments of names that mention a type parameter, for these are not asked
whether they do but are substituted. -/
theorem instantiate_of_not_generic (hc : c.Reachable s) (hid : c.table.Grounded s id)
    (hgeneric : c.table.isGeneric s.free id = false) :
    let r := ((Operations.standard.instantiate id m).run s).run c
    r.2.depthReported = false → r.1 = id := by
  intro r hd
  cases m with
  | none => rfl
  | some m =>
    have hlater := (Operations.standard.instantiate id (some m)).later s c
    have hconcrete := hid.concrete (hc.later.arranged arranged_initial) hc.tidy.restricted hgeneric
    exact Operations.standard.spares id m s c hc.faithful hc.tidy hd r.2.table (.refl _)
      (hconcrete.grows hc.tidy.restricted hlater.keeps.1)

/-! ## An intersection with a name -/

/-- Where no member was written or computed, nothing has to be looked up to see that none is empty. -/
theorem run_emptyObjects_of_plain {ops : Operations} {n : Nat} {ms : List TypeId}
    (h : ∀ p ∈ ms, c.table.Plain n p) : ((emptyObjects ops ms).run s).run c = ([], c) := by
  have hone (p : TypeId) (hp : c.table.Plain n p) : ((isEmptyObject ops p).run s).run c = (false, c) := by
    cases hp with
    | @mk _ _ k hget hk _ =>
      have hkind : ((Check.kind p).run s).run c = (c.table.kind p, c) := rfl
      rw [isEmptyObject, run_bind, hkind, kind_of_get? hget]
      cases k with
      | written | computed => cases hk
      | _ => rfl
  have hnone (found : List TypeId) :
      ((ms.filterAuxM (isEmptyObject ops) found).run s).run c = (found, c) := by
    induction ms generalizing found with
    | nil => rfl
    | cons p ms ih =>
      show ((Check.run (isEmptyObject ops p >>= fun b =>
        ms.filterAuxM (isEmptyObject ops) (cond b (p :: found) found)) s).run c) = _
      rw [run_bind, hone p (h p List.mem_cons_self)]
      exact ih (fun q hq => h q (List.mem_cons_of_mem p hq)) found
  show ((Check.run (if (ms.filter fun m => c.table.isObjectLike m || m == .object).length ≤ 1
    then return [] else do
      let empty ← ms.filterM (isEmptyObject ops)
      return if empty.length < _ then empty else [] : Check (List TypeId)) s).run c) = _
  split
  · rfl
  · show ((Check.run (ms.filterAuxM (isEmptyObject ops) [] >>= fun empty =>
      return if empty.reverse.length < _ then empty.reverse else []) s).run c) = _
    rw [run_bind, hnone]
    exact congrArg (·, c) (ite_self [])

/-- What a name is put on is worked out already; its arguments are, if there are levels for them. -/
theorem quiet_renamed {ops : Operations} {i : MapperId} {t : TypeTable} {n : Nat} {a : Option AliasRef}
    {x : TypeId} (halias : t.alias? id = a) (hroom : HasRoom c i n)
    (hargs : ∀ b ∈ a, ∀ arg ∈ b.args, c.table.Plain n arg)
    (h : ∀ c p, HasRoom c i n → c.table.Plain n p → Quiet s c (ops.instantiate p (some i))) :
    Quiet s c (renamed ops t id i (some x)) := by
  unfold renamed
  rw [halias]
  cases a with
  | none => exact quiet_pure x hroom.quiet
  | some a =>
    exact (quiet_mapM hroom (hargs a rfl) h).bind fun args d hd => quiet_of_table hd rfl

/-- What becomes of an intersection of plain types, which may have a name with plain arguments, is worked
out if there are enough levels left. -/
theorem quiet_instantiate_intersection {i : MapperId} {l n : Nat} {ms : List TypeId}
    {a : Option AliasRef} (hl : n ≤ l + 1) (hc : c.Reachable s) (hroom : HasRoom c i (n + 1))
    (hget : c.table.types.get? id.index = some ⟨.intersection ms, a⟩)
    (hms : ∀ p ∈ ms, c.table.Plain n p) (hconcrete : ∀ p ∈ ms, c.table.Concrete s p)
    (hargs : ∀ b ∈ a, ∀ arg ∈ b.args, c.table.Plain n arg) :
    Quiet s c ((Operations.level (l + 2)).instantiate id (some i)) := by
  let ops := Operations.level (l + 1)
  let d : Checker := { c with depth := c.depth + 1 }
  have hdepth := hroom.depth
  have hroom' : HasRoom d i n := ⟨hroom.quiet, by dsimp only [d]; omega, hroom.stored, hroom.given⟩
  have hd : d.Reachable s := .step (Check.update fun c => { c with depth := c.depth + 1 }) hc
  have hparts (c : Checker) (p : TypeId) (hroom : HasRoom c i n) (hp : c.table.Plain n p) :
      Quiet s c (ops.instantiate p (some i)) := quiet_instantiate hl hroom hp
  refine quiet_remember (makes_nested (makes_substituted ops id i))
    (spares_nested (spares_substituted ops id i)) hroom.quiet (quiet_nested (by omega) ?_)
  have hhas : d.table.has id && d.table.hasMapper i := by
    rw [has, show d.table.types.get? id.index = _ from hget, show d.table.hasMapper i = _ from hroom.stored]
    rfl
  have hkind : d.table.kind id = .intersection ms := kind_of_get? hget
  let step : Check (List TypeId) := ms.mapM fun p => ops.instantiate p (some i)
  let parts := (step.run s).run d
  let whole := ((intersection (Operations.level l) parts.1).run s).run parts.2
  have hrun : ((substituted ops id i).run s).run d =
      ((renamed ops d.table id i (some whole.1)).run s).run whole.2 := by
    show ((Check.run (if d.table.has id && d.table.hasMapper i then substitutedIn ops d.table id i
      else giveUp .error : Check TypeId) s).run d) = _
    rw [if_pos hhas]
    unfold substitutedIn
    rw [hkind]
    rfl
  obtain ⟨hquiet, hdepth'⟩ := quiet_mapM (s := s) hroom' hms hparts
  have hgrows := (step.later s d).keeps.1
  have hsame : parts.1 = ms := (spares_mapM ms hd.faithful hd.tidy hquiet parts.2.table (.refl _)
    fun p hp => (hconcrete p hp).grows hc.tidy.restricted hgrows).1
  have hwhole : whole = (Checker.store (meet (ms.filter fun _ => true))).run parts.2 := by
    show ((intersection (Operations.level l) parts.1).run s).run parts.2 = _
    have hstored : parts.2.table.Stores id (.intersection ms) := ⟨_, hgrows.types _ _ hget, rfl⟩
    have hplain : ∀ p ∈ ms, parts.2.table.Plain n p := fun p hp => (hms p hp).grows hgrows
    rw [hsame, run_intersection_of_meeting
      (meeting_of_stores (step.faithful s d hd.faithful) hstored).2, run_emptyObjects_of_plain hplain]
    rfl
  have hlast : HasRoom whole.2 i n := by
    have hroom'' : HasRoom parts.2 i n := hroom'.of_run hquiet hdepth'
    exact hroom''.of_run (x := intersection (Operations.level l) parts.1) (s := s)
      (show whole.2.depthReported = false by rw [hwhole]; exact hquiet)
      (show whole.2.depth = parts.2.depth by rw [hwhole]; rfl)
  rw [hrun]
  refine (quiet_renamed (a := a) ?_ hlast (fun b hb arg harg => ?_) hparts).1
  · rw [alias?, data_of_get? hget]
  · have hgrows' := ((intersection (Operations.level l) parts.1).later s parts.2).keeps.1
    exact ((hargs b hb arg harg).grows hgrows).grows hgrows'

/-- Two interfaces that differ are stored as an intersection. -/
theorem run_intersection_interfaces (ops : Operations) (hc : c.Reachable s) {a b : TypeId} {x y : SymbolId}
    (ha : c.table.types.get? a.index = some { kind := .interface x [] })
    (hb : c.table.types.get? b.index = some { kind := .interface y [] }) (hne : a ≠ b) :
    ((intersection ops [a, b]).run s).run c =
      (Checker.store (TypeTable.intern (.intersection [a, b]))).run c := by
  have htogether : c.table.Together s.nullChecks [a, b] := by
    refine ⟨by simpa using hne, fun p hp => ?_, ?_, ?_⟩
    · obtain rfl | rfl : p = a ∨ p = b := by simpa using hp
      · rw [kind_of_get? ha]
        rfl
      · rw [kind_of_get? hb]
        rfl
    · simp [isDisjoint, domain?, isUnit, kind_of_get? ha, kind_of_get? hb, hasDifference]
    · simp [withoutImplied, isUnit, isStringPattern, kind_of_get? ha, kind_of_get? hb]
  have hplain : ∀ p ∈ [a, b], c.table.Plain 1 p := by
    intro p hp
    obtain rfl | rfl : p = a ∨ p = b := by simpa using hp
    · exact .mk ha rfl fun q hq => absurd hq List.not_mem_nil
    · exact .mk hb rfl fun q hq => absurd hq List.not_mem_nil
  rw [run_intersection_of_meeting (meeting_of_together hc.normal htogether),
    run_emptyObjects_of_plain hplain]
  rfl

/-- A type without parts is put together all the way down, and in no step. -/
theorem grounded_of_isFixed {t : TypeTable} {k : TypeKind}
    (hid : t.types.get? id.index = some { kind := k }) (hk : k.isFixed) (hgrounded : k.isGrounded)
    (hparts : t.constituents k = []) : t.Grounded s id ∧ t.Plain 1 id := by
  refine ⟨.mk hid hgrounded (fun p hp => ?_) (fun a ha => nomatch ha) (fun a ha => nomatch ha),
    .mk hid (TypeKind.isStructural_of_isFixed hk) fun p hp => ?_⟩
  · rw [show t.constituents (TypeData.kind { kind := k }) = [] from hparts] at hp
    cases hp
  · rw [TypeKind.parts_of_isFixed hk] at hp
    cases hp

/-- `boolean` is put together of its two values. -/
theorem grounded_boolean {nullChecks : Bool} {t : TypeTable} (ht : t.Normal nullChecks) :
    t.Grounded s .boolean ∧ t.Plain 2 .boolean ∧ t.isGeneric s.free .boolean = false := by
  have hboolean : t.types.get? TypeId.boolean.index = some { kind := .union [.false_, .true_] } :=
    ht.fixed 10 _ rfl
  have hfixed : t.types.get? TypeId.false_.index = some { kind := .false_ } ∧
      t.types.get? TypeId.true_.index = some { kind := .true_ } := ⟨ht.fixed 8 _ rfl, ht.fixed 9 _ rfl⟩
  obtain ⟨hfalse, hfalse'⟩ := grounded_of_isFixed (s := s) hfixed.1 rfl rfl rfl
  obtain ⟨htrue, htrue'⟩ := grounded_of_isFixed (s := s) hfixed.2 rfl rfl rfl
  refine ⟨.mk hboolean rfl (fun p hp => ?_) (fun a ha => nomatch ha) (fun a ha => nomatch ha),
    .mk hboolean rfl fun p hp => ?_, ?_⟩
  · obtain rfl | rfl : p = .false_ ∨ p = .true_ := by simpa [constituents] using hp
    · exact hfalse
    · exact htrue
  · obtain rfl | rfl : p = .false_ ∨ p = .true_ := by simpa [TypeKind.parts] using hp
    · exact hfalse'
    · exact htrue'
  · have hkind : t.kind .false_ = .false_ := ht.kind_fixed (i := 8) rfl
    have hkind' : t.kind .true_ = .true_ := ht.kind_fixed (i := 9) rfl
    rw [TypeTable.isGeneric, descend, genericStep, kind_of_get? hboolean]
    cases t.types.size with
    | zero => rfl
    | succ n => simp [descend, genericStep, hkind, hkind']

/-- An intersection of two interfaces that goes by a name, with `boolean` as its argument, keeps its
number when `string` is put in for a type parameter. -/
theorem instantiate_of_not_generic_named :
    let s := Setting.strict
    let A := ((Check.intern (.interface ⟨1⟩ [])).run s).run {}
    let B := ((Check.intern (.interface ⟨2⟩ [])).run s).run A.2
    let both := ((Operations.standard.intersection [A.1, B.1]).run s).run B.2
    let named := ((Check.attachAlias both.1 ⟨⟨3⟩, [.boolean]⟩).run s).run both.2
    let r := ((Check.makeMapper [(⟨0⟩, .string)]).run s).run named.2
    let r' := ((Operations.standard.instantiate named.1 r.1).run s).run r.2
    r.2.Reachable s ∧ r.1.isSome ∧ r.2.table.alias? named.1 = some ⟨⟨3⟩, [.boolean]⟩ ∧
      r.2.table.kind named.1 = .intersection [A.1, B.1] ∧ r.2.table.Grounded s named.1 ∧
      r.2.table.isGeneric s.free named.1 = false ∧ r'.2.depthReported = false ∧ r'.1 = named.1 := by
  intro s A B both named r r'
  -- the two interfaces
  have hreachA : A.2.Reachable s := .step (Check.intern (.interface ⟨1⟩ [])) .start
  have hA : A.2.table.types.get? A.1.index = some { kind := .interface ⟨1⟩ [] } := store_get?
  have hroomA : A.2.depthReported = false ∧ A.2.depth = 0 := ⟨rfl, rfl⟩
  clear_value A
  have hreachB : B.2.Reachable s := .step (Check.intern (.interface ⟨2⟩ [])) hreachA
  have hA : B.2.table.types.get? A.1.index = some { kind := .interface ⟨1⟩ [] } :=
    ((Check.intern (.interface ⟨2⟩ [])).later s A.2).keeps.1.types _ _ hA
  have hB : B.2.table.types.get? B.1.index = some { kind := .interface ⟨2⟩ [] } := store_get?
  have hroomB : B.2.depthReported = false ∧ B.2.depth = 0 := hroomA
  clear_value B
  have hne : A.1 ≠ B.1 := fun heq => by
    rw [heq, hB] at hA
    cases hA
  -- their intersection
  have hreach : both.2.Reachable s := .step (Operations.standard.intersection [A.1, B.1]) hreachB
  have hgrows : B.2.table.Grows both.2.table :=
    ((Operations.standard.intersection [A.1, B.1]).later s B.2).keeps.1
  have hboth : both = (Checker.store (TypeTable.intern (.intersection [A.1, B.1]))).run B.2 :=
    run_intersection_interfaces (Operations.level 9999) hreachB hA hB hne
  have hstored : both.2.table.types.get? both.1.index = some { kind := .intersection [A.1, B.1] } := by
    rw [hboth]
    exact store_get?
  have hroom : both.2.depthReported = false ∧ both.2.depth = 0 := by
    rw [hboth]
    exact hroomB
  clear_value both
  -- the intersection under its name
  let d : TypeData := ⟨.intersection [A.1, B.1], some ⟨⟨3⟩, [.boolean]⟩⟩
  have hreach : named.2.Reachable s := .step (Check.attachAlias both.1 ⟨⟨3⟩, [.boolean]⟩) hreach
  have hgrows : B.2.table.Grows named.2.table :=
    hgrows.trans ((Check.attachAlias both.1 ⟨⟨3⟩, [.boolean]⟩).later s both.2).keeps.1
  have hnamed : named.2.table.types.get? named.1.index = some d := by
    have hrun : (TypeTable.attachAlias both.1 ⟨⟨3⟩, [.boolean]⟩).run both.2.table =
        (store d).run both.2.table := run_attachAlias hstored rfl rfl
    show ((TypeTable.attachAlias both.1 ⟨⟨3⟩, [.boolean]⟩).run both.2.table).2.types.get?
      ((TypeTable.attachAlias both.1 ⟨⟨3⟩, [.boolean]⟩).run both.2.table).1.index = some d
    rw [hrun]
    exact store_get?
  have hroom : named.2.depthReported = false ∧ named.2.depth = 0 := hroom
  clear_value named
  -- the substitution
  have hreach : r.2.Reachable s := .step (Check.makeMapper [(⟨0⟩, .string)]) hreach
  have hlast : named.2.table.Grows r.2.table :=
    ((Check.makeMapper [(⟨0⟩, .string)]).later s named.2).keeps.1
  have hget := hlast.types _ _ hnamed
  have hA := (hgrows.trans hlast).types _ _ hA
  have hB := (hgrows.trans hlast).types _ _ hB
  have ht : r.2.table.Normal true := hreach.normal
  obtain ⟨hmapper, hpairs⟩ := mapper_makeMapper_singleton named.2.table (⟨0⟩, .string)
  have hpairs : r.2.table.mapper (some (r.1.getD default)) = [(⟨0⟩, .string)] := hpairs
  have hsome : r.1 = some (r.1.getD default) := rfl
  have hroom : HasRoom r.2 (r.1.getD default) 3 := {
    quiet := hroom.1
    depth := by rw [show r.2.depth = 0 from hroom.2]; decide
    stored := hmapper
    given := fun T x hx => by
      rw [TypeTable.substitute?, hpairs, Mapper.get?, List.find?_singleton] at hx
      obtain ⟨-, rfl⟩ := by simpa using hx
      exact given_of_get? (ht.fixed 5 _ rfl) }
  -- what the intersection is put together from
  obtain ⟨hgroundedA, hplainA⟩ := grounded_of_isFixed (s := s) hA rfl rfl rfl
  obtain ⟨hgroundedB, hplainB⟩ := grounded_of_isFixed (s := s) hB rfl rfl rfl
  obtain ⟨hgroundedBoolean, hplainBoolean, hgenericBoolean⟩ := grounded_boolean (s := s) ht
  have hgrounded : r.2.table.Grounded s named.1 := by
    refine .mk hget rfl (fun p hp => ?_) (fun a ha arg harg => ?_) fun a ha arg harg => ?_
    · obtain rfl | rfl : p = A.1 ∨ p = B.1 := by simpa [constituents, d] using hp
      · exact hgroundedA
      · exact hgroundedB
    · obtain rfl := Option.some.inj ha
      exact List.mem_singleton.1 harg ▸ hgroundedBoolean
    · obtain rfl := Option.some.inj ha
      exact List.mem_singleton.1 harg ▸ hgenericBoolean
  have hgeneric : r.2.table.isGeneric s.free named.1 = false := by
    rw [TypeTable.isGeneric, descend, genericStep, kind_of_get? hget]
    cases r.2.table.types.size with
    | zero => rfl
    | succ n => simp [d, descend, genericStep, kind_of_get? hA, kind_of_get? hB]
  have hconcrete : ∀ p ∈ [A.1, B.1], r.2.table.Concrete s p := by
    have hconcrete := hgrounded.concrete (hreach.later.arranged arranged_initial) hreach.tidy.restricted
      hgeneric
    cases hconcrete with
    | mk hget' _ hparts _ =>
      obtain rfl := Option.some.inj (hget'.symm.trans hget)
      exact hparts
  have hquiet : r'.2.depthReported = false := by
    refine (quiet_instantiate_intersection (l := 9998) (show 2 ≤ 9999 by decide) hreach hroom hget
      (fun p hp => ?_) hconcrete fun a ha arg harg => ?_).1
    · obtain rfl | rfl : p = A.1 ∨ p = B.1 := by simpa using hp
      · exact hplainA.mono (by decide)
      · exact hplainB.mono (by decide)
    · obtain rfl := Option.some.inj ha
      exact List.mem_singleton.1 harg ▸ hplainBoolean
  exact ⟨hreach, rfl, by rw [alias?, data_of_get? hget], kind_of_get? hget, hgrounded, hgeneric, hquiet,
    instantiate_of_not_generic hreach hgrounded hgeneric hquiet⟩

end Typing

end DeclKit

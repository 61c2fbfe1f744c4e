import Kikimora.Control.Frame
import Kikimora.Control.Reconciler

/-!
# Audits of several roles

One audit visits the records of all managed roles and stops at the first record
that it refuses. What it does for one role therefore depends on the rows of
every role that it visits before, and whether the authority gate opens depends
on the rows of all.
-/

namespace Kikimora.Control

open Net Routing Platform Lib

-- === A refused record ===

/-- A record that the next audit asks the planner about, and the planner refuses. -/
structure Refused (role : String) (rows : Kernel) (e : SelectedRoute) (w : World) : Prop where
  wellFormed : w.registry.WellFormed
  registered : w.registry.lookup ⟨role, e.pfx⟩ = some e
  unparked : e.park = none
  open_ : (w.memory.roleState role).restorePending = false
  refused : ∃ message, planSelectedRoute (rows e.pfx) (some e) = .error message

section Refused

variable {cfg : Config} {role : String} {rows : Kernel} {e : SelectedRoute} {w w' : World}

theorem Refused.reached {key : SelectedRouteKey} (h : Refused role rows e w) (hr : Reached key w w')
    (hk : key ≠ ⟨role, e.pfx⟩) : Refused role rows e w' where
  wellFormed := hr.wellFormed h.wellFormed
  registered := (hr.lookup _ hk.symm).trans h.registered
  unparked := h.unparked
  open_ := (hr.restorePending role).trans h.open_
  refused := h.refused

theorem auditRecord_refused (h : Refused role rows e w) :
    (auditRecord cfg role e (rows e.pfx)).Safe clean (fun _ _ => False) (fun _ _ => True) w := by
  obtain ⟨message, hplan⟩ := h.refused
  refine .bind (runs_memory (Q := fun state _ => state = w.memory.roleState role) rfl) ?_
  rintro _ w' rfl
  rw [h.unparked, h.open_, hplan]
  exact .bind (Prog.Safe.unconstrained handle _ w') fun _ _ _ => ⟨trivial, trivial⟩

theorem auditEntries_refused {entries : List SelectedRoute} {complete : Bool}
    (h : Refused role rows e w) (hmem : e ∈ entries)
    (hn : (entries.map SelectedRoute.pfx).Nodup) :
    (auditEntries cfg role rows entries complete).Safe clean (fun _ _ => False)
      (fun _ _ => True) w := by
  induction entries generalizing w complete with
  | nil => cases hmem
  | cons x xs ih =>
    rw [List.map_cons, List.nodup_cons] at hn
    refine .bind (runs_read (Q := fun b w' =>
      b = w.registry.lookup ⟨role, x.pfx⟩ ∧ w' = w)
      ⟨registryEntryOf_eq h.wellFormed role x.pfx, rfl⟩) ?_
    rintro _ _ ⟨rfl, rfl⟩
    rcases List.mem_cons.mp hmem with rfl | hmem
    · rw [h.registered]
      simp only [ne_eq, not_true_eq_false, or_self, if_false]
      exact .bind (auditRecord_refused h) fun _ _ hf => hf.elim
    have hne : x.pfx ≠ e.pfx := by
      intro heq
      exact hn.1 (heq ▸ List.mem_map_of_mem hmem)
    cases hl : MemorySelectedRegistry.lookup _ ⟨role, x.pfx⟩ with
    | none => exact ih h hmem hn.2
    | some current =>
      have hpfx : current.pfx = x.pfx := h.wellFormed.pfx_eq hl
      dsimp only
      split
      · exact ih h hmem hn.2
      refine .bind (((auditRecord_stays cfg role current (rows x.pfx)).runs _).mono
        (fun _ _ hr => hr.1) fun _ _ _ => trivial) fun _ w' hr => ?_
      refine ih (h.reached hr fun hk => hne ?_) hmem hn.2
      exact hpfx ▸ congrArg SelectedRouteKey.pfx hk

theorem auditRole_refused (h : Refused role rows e w) :
    (auditRole cfg rows role).Safe clean (fun _ _ => False) (fun _ _ => True) w := by
  refine .bind (runs_memory (Q := fun _ w' => Refused role rows e w')
    ⟨h.wellFormed, h.registered, h.unparked, ?_, h.refused⟩) fun _ w' h' => ?_
  · exact (congrArg SelectedRoleState.restorePending
      (w.memory.roleState_setRole_self role role)).trans h.open_
  refine .bind (runs_read (Q := fun entries w'' =>
    entries = w'.registry.snapshot role ∧ w'' = w') ⟨rfl, rfl⟩) ?_
  rintro _ _ ⟨rfl, rfl⟩
  exact .bind (auditEntries_refused h' (h'.wellFormed.mem_snapshot_iff.mpr h'.registered)
    (h'.wellFormed.nodup_pfx_snapshot role)) fun _ _ hf => hf.elim

/-- A transaction of the reconciler writes its own record and the rows of its prefix, and
    does so whatever rows there are elsewhere. -/
theorem Transaction.independent (t : Transaction) (cfg : Config) (w : World) (k : Kernel) :
    Reached ⟨t.role, t.pfx⟩ w ((t.program cfg).run handle w).2 ∧
      Twin (· ≠ t.pfx) (t.program cfg) (t.program cfg) w
        (w.withKernel fun q => if q = t.pfx then w.kernel q else k q) := by
  have h : Stays ⟨t.role, t.pfx⟩ (t.program cfg) Any := by
    cases t with
    | visit role entry rows =>
      refine registryEntry_stays.bind fun
        | none, _ => .ret trivial
        | some e, he => ?_
      dsimp only
      split
      · exact .ret trivial
      · have := auditRecord_stays cfg role e rows
        rwa [he e rfl] at this
    | invalidation role pfx flags =>
      exact .of_follows ((lawful_withRecord _).prefixInvalidation (within_withRecord.mpr rfl))
  exact ⟨(h.reached w).1, h.twin (not_not.mpr rfl) ⟨rfl, fun q hq => if_pos (not_not.mp hq)⟩⟩

/-- What the audit of one role can have changed: of the others nothing but their
    tokens, which it can only drop, and it sets no startup freeze. -/
structure RoleReached (role : String) (w w' : World) : Prop where
  wellFormed : w.registry.WellFormed → w'.registry.WellFormed
  lookup : ∀ k, k.role ≠ role → w'.registry.lookup k = w.registry.lookup k
  restorePending : ∀ id, id ≠ role →
    (w'.memory.roleState id).restorePending = (w.memory.roleState id).restorePending
  tokens : ∀ id, id ≠ role → (w.memory.roleState id).KeepsTokens (w'.memory.roleState id)
  open_ : (w.memory.roleState role).restorePending = false →
    (w'.memory.roleState role).restorePending = false

theorem RoleReached.refl (role : String) (w : World) : RoleReached role w w :=
  ⟨id, fun _ _ => rfl, fun _ _ => rfl, fun _ _ _ _ h => h, id⟩

theorem Reached.forRole {pfx : Prefix} (h : Reached ⟨role, pfx⟩ w w') : RoleReached role w w' where
  wellFormed := h.wellFormed
  lookup k hk := h.lookup k fun heq => hk (heq ▸ rfl)
  restorePending id _ := h.restorePending id
  tokens := h.tokens
  open_ hopen := (h.restorePending role).trans hopen

theorem RoleReached.trans {w'' : World} (h : RoleReached role w w') (h' : RoleReached role w' w'') :
    RoleReached role w w'' where
  wellFormed hw := h'.wellFormed (h.wellFormed hw)
  lookup k hk := (h'.lookup k hk).trans (h.lookup k hk)
  restorePending id hid := (h'.restorePending id hid).trans (h.restorePending id hid)
  tokens id hid p token ht := h.tokens id hid p token (h'.tokens id hid p token ht)
  open_ hopen := h'.open_ (h.open_ hopen)

theorem auditEntries_reached (entries : List SelectedRoute) (complete : Bool) (w : World) :
    (auditEntries cfg role rows entries complete).Upholds clean (RoleReached role w) w := by
  induction entries generalizing w complete with
  | nil => exact ⟨trivial, .refl role w⟩
  | cons x xs ih =>
    refine .bind (runs_read (Q := fun _ w' => w' = w) rfl) ?_
    rintro current _ rfl
    cases current with
    | none => exact ih _ _
    | some current =>
      dsimp only
      split
      · exact ih _ _
      · refine .bind ((auditRecord_stays cfg role current (rows x.pfx)).runs _ |>.mono
          (fun _ _ hr => hr.1) fun _ _ hr => hr.forRole) fun _ w' hr => ?_
        exact (ih _ w').mono (fun _ _ h => hr.forRole.trans h) fun _ _ h => hr.forRole.trans h

theorem RoleReached.setRole (w : World) {state : SelectedRoleState}
    (h : (w.memory.roleState role).restorePending = false → state.restorePending = false) :
    RoleReached role w (w.withMemory (w.memory.setRole role state))  where
  wellFormed hw := hw
  lookup _ _ := rfl
  restorePending _ hid :=
    congrArg SelectedRoleState.restorePending (w.memory.roleState_setRole_of_ne hid state)
  tokens _ hid _ _ ht := w.memory.roleState_setRole_of_ne hid state ▸ ht
  open_ hopen :=
    (congrArg SelectedRoleState.restorePending (w.memory.roleState_setRole role state)).trans
      (h hopen)

theorem completeStartupRestore_reached (w : World) :
    (completeStartupRestore role).Upholds clean (RoleReached role w) w := by
  refine runs_memory ?_
  cases w.memory.roles role with
  | none => exact .refl role w
  | some state =>
    dsimp only
    split
    · exact .setRole w fun _ => rfl
    · exact .refl role w

theorem auditRole_reached (w : World) :
    (auditRole cfg rows role).Upholds clean (RoleReached role w) w := by
  refine .bind (runs_memory (Q := fun _ w' => RoleReached role w w') (.setRole w id))
    fun _ w1 h1 => ?_
  refine .bind (runs_read (Q := fun _ w' => RoleReached role w w') h1)
    fun entries w1 h1 => ?_
  refine .bind ((auditEntries_reached entries _ w1).mono (fun _ _ h => h1.trans h)
    fun _ _ h => h1.trans h) fun complete w2 h2 => ?_
  refine .bind (runs_memory (Q := fun _ w' => RoleReached role w w')
    (h2.trans (.setRole w2 id))) fun state w3 h3 => ?_
  split
  · exact .bind ((completeStartupRestore_reached w3).mono (fun _ _ h => h3.trans h)
      fun _ _ h => h3.trans h) fun _ _ h => ⟨trivial, h⟩
  · exact ⟨trivial, h3⟩

theorem reconcileSnapshotChecked_refused (cfg : Config) {roles : List String}
    (h : Refused role rows e w) (hmem : role ∈ roles) :
    (reconcileSnapshotChecked cfg roles rows).Safe clean (fun _ _ => False) (fun _ _ => True)
      w := by
  induction roles generalizing w with
  | nil => cases hmem
  | cons x xs ih =>
    by_cases hx : x = role
    · subst hx
      exact .bind (auditRole_refused h) fun _ _ hf => hf.elim
    refine .bind ((auditRole_reached w).mono (fun _ _ hr => hr) fun _ _ _ => trivial)
      fun _ w' hr => ih ?_ ?_
    · exact ⟨hr.wellFormed h.wellFormed, (hr.lookup _ (Ne.symm hx)).trans h.registered, h.unparked,
        (hr.restorePending role (Ne.symm hx)).trans h.open_, h.refused⟩
    · exact (List.mem_cons.mp hmem).resolve_left (Ne.symm hx)

end Refused

-- === Records that are not judged ===

/-- Of the prefixes in `S` only the role `A` has records. -/
structure Sole (A : String) (S : Prefix → Prop) (w : World) : Prop where
  wellFormed : w.registry.WellFormed
  others : ∀ pfx, S pfx → ∀ role, role ≠ A → w.registry.lookup ⟨role, pfx⟩ = none

def Waits (A : String) (S : Prefix → Prop) (w : World) : Prop :=
  (w.memory.roleState A).restorePending = true ∨
    ∀ pfx, S pfx → ∀ e, w.registry.lookup ⟨A, pfx⟩ = some e → e.park.isSome = true

section Spared

variable {cfg : Config} {role A : String} {S : Prefix → Prop} {rows rows' : Kernel}
  {e : SelectedRoute} {w w' : World} {key : SelectedRouteKey} {entries : List SelectedRoute}
  {complete : Bool} {P : Prop} {roles : List String}

theorem Sole.reached (h : Sole A S w) (hr : Reached key w w') (hk : ¬ S key.pfx) :
    Sole A S w'  where
  wellFormed := hr.wellFormed h.wellFormed
  others pfx hS id hid :=
    (hr.lookup _ fun heq => hk (heq ▸ hS)).trans (h.others pfx hS id hid)

theorem Waits.reached (h : Waits A S w) (hr : Reached key w w') (hk : ¬ S key.pfx) :
    Waits A S w' := by
  rcases h with h | h
  · exact .inl ((hr.restorePending A).trans h)
  · refine .inr fun pfx hS e he => h pfx hS e ?_
    rwa [hr.lookup _ fun heq => hk (heq ▸ hS)] at he

def lookAt (role : String) (e : SelectedRoute) (w : World) : World :=
  let touched := w.withMemory (w.memory.setRole role (w.memory.roleState role))
  let reason := if e.park.isSome then "resume checkpointed managed park transaction"
    else "resume restored managed ownership"
  if (w.memory.roleState role).restorePending then
    { touched with notices := .requestRecovery role reason :: w.notices }
  else touched

theorem auditRecord_run_lookAt (cfg : Config) (rows : List SelectedKernelRow)
    (h : e.park.isSome = true ∨ (w.memory.roleState role).restorePending = true) :
    (auditRecord cfg role e rows).run handle w = (.ok (), lookAt role e w) := by
  by_cases hp : e.park.isSome = true
  · by_cases hr : (w.memory.roleState role).restorePending = true
    · simp [auditRecord, roleState, memory, Prog.perform, Prog.run, handle, hp, hr, lookAt, notify,
        World.withMemory]
    · simp [auditRecord, roleState, memory, Prog.perform, Prog.run, handle, hp, hr, lookAt]
  · have hr := h.resolve_left hp
    simp [auditRecord, roleState, memory, Prog.perform, Prog.run, handle, hp, hr, lookAt, notify,
      World.withMemory]

theorem memory_lookAt (role : String) (e : SelectedRoute) (w : World) :
    (lookAt role e w).memory = w.memory.setRole role (w.memory.roleState role) := by
  unfold lookAt
  dsimp only
  split <;> rfl

theorem Sole.of_registry (h : Sole A S w) (hr : w'.registry = w.registry) : Sole A S w' :=
  ⟨hr ▸ h.wellFormed, hr ▸ h.others⟩

theorem Waits.of_registry (h : Waits A S w) (hr : w'.registry = w.registry)
    (hp : (w'.memory.roleState A).restorePending = (w.memory.roleState A).restorePending) :
    Waits A S w' := by
  unfold Waits
  rw [hr, hp]
  exact h

theorem registry_lookAt (role : String) (e : SelectedRoute) (w : World) :
    (lookAt role e w).registry = w.registry := by
  rw [World.registry, memory_lookAt]
  rfl

theorem Waits.lookAt (h : Waits A S w) : Waits A S (lookAt role e w) :=
  h.of_registry (registry_lookAt role e w) (by rw [memory_lookAt, w.memory.roleState_setRole_self])

theorem Alike.lookAt (h : Alike S w w') : Alike S (lookAt role e w) (lookAt role e w') := by
  obtain ⟨heq, hrows⟩ := h
  have hm : (w.withKernel w'.kernel).memory = w.memory := rfl
  rw [heq]
  cases hr : (w.memory.roleState role).restorePending <;>
    simp only [Control.lookAt, hm, hr] <;> exact ⟨rfl, hrows⟩

/-- The record loop of one role runs alike when the rows differ only at prefixes
    whose records it does not judge. -/
theorem auditEntries_twin (h : Sole A S w) (hwaits : role = A → Waits A S w)
    (hentries : ∀ x ∈ entries, S x.pfx → role = A) (hrows : ∀ q, ¬ S q → rows' q = rows q)
    (ha : Alike S w w') :
    Twin S (auditEntries cfg role rows entries complete)
      (auditEntries cfg role rows' entries complete)
      w w' := by
  induction entries generalizing w w' complete with
  | nil => exact .ret _ ha
  | cons x xs ih =>
    rw [List.forall_mem_cons] at hentries
    refine .bind (.memory _ ha) fun current w1 w1' hrun ha => ?_
    obtain ⟨hcurrent, rfl⟩ : registryEntryOf w.registry role x.pfx = current ∧ w = w1 := by
      cases hrun
      exact ⟨rfl, rfl⟩
    cases current with
    | none => exact ih h hwaits hentries.2 ha
    | some current =>
      dsimp only
      split
      · exact ih h hwaits hentries.2 ha
      rw [registryEntryOf_eq h.wellFormed] at hcurrent
      have hpfx : current.pfx = x.pfx := h.wellFormed.pfx_eq hcurrent
      by_cases hS : S x.pfx
      · -- a record of `A` that is only looked at, whatever its rows are
        obtain rfl := hentries.1 hS
        have hspared : current.park.isSome = true ∨
            (w.memory.roleState role).restorePending = true := by
          rcases hwaits rfl with hw | hw
          · exact .inr hw
          · exact .inl (hw _ hS current hcurrent)
        have hspared' : current.park.isSome = true ∨
            (w1'.memory.roleState role).restorePending = true := by
          rw [ha.eq]
          exact hspared
        have hlook : Twin S (auditRecord cfg role current (rows x.pfx))
            (auditRecord cfg role current (rows' x.pfx)) w w1' := by
          unfold Twin
          rw [auditRecord_run_lookAt cfg _ hspared, auditRecord_run_lookAt cfg _ hspared']
          exact ⟨rfl, ha.lookAt⟩
        refine hlook.bind fun _ w2 w2' hrun ha => ?_
        rw [auditRecord_run_lookAt cfg _ hspared] at hrun
        cases hrun
        exact ih (h.of_registry (registry_lookAt ..)) (fun _ => (hwaits rfl).lookAt) hentries.2 ha
      · rw [hrows _ hS]
        have hstays := auditRecord_stays cfg role current (rows x.pfx)
        refine (hstays.twin (hpfx ▸ hS) ha).bind fun _ w2 w2' hrun ha => ?_
        have hr := (hstays.reached w).1
        rw [hrun] at hr
        exact ih (h.reached hr (hpfx ▸ hS)) (fun hA => (hwaits hA).reached hr (hpfx ▸ hS))
          hentries.2 ha

theorem auditEntries_sole (h : Sole A S w) (hwaits : P → Waits A S w) (hP : role = A → P)
    (hentries : ∀ x ∈ entries, S x.pfx → role = A) :
    (auditEntries cfg role rows entries complete).Safe clean
      (fun _ w' => Sole A S w' ∧ (P → Waits A S w')) (fun _ w' => Sole A S w') w := by
  induction entries generalizing w complete with
  | nil => exact ⟨trivial, h, hwaits⟩
  | cons x xs ih =>
    rw [List.forall_mem_cons] at hentries
    refine .bind (runs_read (Q := fun b w' =>
      b = w.registry.lookup ⟨role, x.pfx⟩ ∧ w' = w)
      ⟨registryEntryOf_eq h.wellFormed role x.pfx, rfl⟩) ?_
    rintro _ w ⟨rfl, rfl⟩
    cases hcurrent : MemorySelectedRegistry.lookup _ ⟨role, x.pfx⟩ with
    | none => exact ih h hwaits hentries.2
    | some current =>
      dsimp only
      split
      · exact ih h hwaits hentries.2
      have hpfx : current.pfx = x.pfx := h.wellFormed.pfx_eq hcurrent
      by_cases hS : S x.pfx
      · obtain rfl := hentries.1 hS
        have hspared : current.park.isSome = true ∨
            (w.memory.roleState role).restorePending = true := by
          rcases hwaits (hP rfl) with hw | hw
          · exact .inr hw
          · exact .inl (hw _ hS current hcurrent)
        have hrun := auditRecord_run_lookAt cfg (rows x.pfx) hspared
        refine .bind (Q := fun _ w' => Sole role S w' ∧ (P → Waits role S w'))
          (.of_ends (fun a _ => ?_) fun err herr => ?_) fun _ w' hw' => ih hw'.1 hw'.2 hentries.2
        · rw [hrun]
          exact ⟨h.of_registry (registry_lookAt ..), fun hp => (hwaits hp).lookAt⟩
        · rw [hrun] at herr
          cases herr
      · refine .bind (((auditRecord_stays cfg role current (rows x.pfx)).runs _).mono
          (fun _ _ hr => hr.1) fun _ _ hr => h.reached hr (hpfx ▸ hS)) fun _ w' hr => ?_
        exact ih (h.reached hr (hpfx ▸ hS)) (fun hp => (hwaits hp).reached hr
          (hpfx ▸ hS)) hentries.2

/-- The records that the loop lists at the prefixes in `S` are records of `A`. -/
theorem Sole.listed (h : Sole A S w) : ∀ x ∈ w.registry.snapshot role, S x.pfx → role = A := by
  intro x hx hS
  by_contra hne
  have hl := h.wellFormed.mem_snapshot_iff.mp hx
  rw [h.others _ hS role hne] at hl
  cases hl

theorem auditRole_sole (h : Sole A S w) (hwaits : P → Waits A S w) (hP : role = A → P) :
    (auditRole cfg rows role).Safe clean
      (fun _ w' => Sole A S w' ∧ (role ≠ A → P → Waits A S w')) (fun _ w' => Sole A S w') w := by
  have htouch (w : World) (h : Sole A S w ∧ (P → Waits A S w)) :
      Sole A S (w.touched role) ∧
        (P → Waits A S (w.touched role)) :=
    ⟨h.1.of_registry rfl, fun hp => (h.2 hp).of_registry rfl
      (congrArg _ (w.memory.roleState_setRole_self role A))⟩
  refine .bind (runs_memory (Q := fun _ w' => Sole A S w' ∧ (P → Waits A S w'))
    (htouch w ⟨h, hwaits⟩)) fun _ w1 h1 => ?_
  refine .bind (runs_read (Q := fun entries w' => entries = w1.registry.snapshot role ∧
    w' = w1) ⟨rfl, rfl⟩) ?_
  rintro _ _ ⟨rfl, rfl⟩
  refine .bind (auditEntries_sole h1.1 h1.2 hP h1.1.listed) fun complete w2 h2 => ?_
  refine .bind (runs_memory (Q := fun _ w' => Sole A S w' ∧ (P → Waits A S w'))
    (htouch w2 h2)) fun state w3 h3 => ?_
  split
  · -- the end of the startup freeze touches the flags of this role only
    refine .bind (Q := fun _ w' => Sole A S w' ∧ (role ≠ A → P → Waits A S w'))
      (runs_memory ?_) fun _ _ h => ⟨trivial, h⟩
    cases w3.memory.roles role with
    | none => exact ⟨h3.1, fun _ => h3.2⟩
    | some state =>
      dsimp only
      split
      · exact ⟨h3.1.of_registry rfl, fun hne hp => (h3.2 hp).of_registry rfl
          (congrArg _ (w3.memory.roleState_setRole_of_ne (Ne.symm hne) _))⟩
      · exact ⟨h3.1, fun _ => h3.2⟩
  · exact ⟨trivial, h3.1, fun _ => h3.2⟩

theorem auditRole_twin (h : Sole A S w) (hwaits : role = A → Waits A S w)
    (hrows : ∀ q, ¬ S q → rows' q = rows q) (ha : Alike S w w') :
    Twin S (auditRole cfg rows role) (auditRole cfg rows' role) w w' := by
  refine .bind (.memory _ ha) fun _ w1 w1' hrun ha => ?_
  cases hrun
  have h1 : Sole A S (w.touched role) :=
    h.of_registry rfl
  have hwaits1 (hA : role = A) :
      Waits A S (w.touched role) :=
    (hwaits hA).of_registry rfl (congrArg _ (w.memory.roleState_setRole_self role A))
  refine .bind (.memory _ ha) fun entries w2 w2' hrun ha => ?_
  cases hrun
  refine .bind (auditEntries_twin h1 hwaits1 h1.listed hrows ha) fun complete w3 w3' _ ha => ?_
  refine .bind (.memory _ ha) fun state w4 w4' _ ha => ?_
  split
  · exact .bind (.memory _ ha) fun _ w5 w5' _ ha => .ret _ ha
  · exact .ret _ ha

/-- An audit runs alike when the rows differ only at prefixes whose records it does
    not judge. -/
theorem reconcileSnapshotChecked_twin (h : Sole A S w) (hwaits : A ∈ roles → Waits A S w)
    (hn : roles.Nodup) (hrows : ∀ q, ¬ S q → rows' q = rows q) (ha : Alike S w w') :
    Twin S (reconcileSnapshotChecked cfg roles rows) (reconcileSnapshotChecked cfg roles rows')
      w w' := by
  induction roles generalizing w w' with
  | nil => exact .ret _ ha
  | cons role roles ih =>
    rw [List.nodup_cons] at hn
    have hhead (hA : role = A) : Waits A S w := hwaits (List.mem_cons.mpr (.inl hA.symm))
    refine .bind (auditRole_twin h hhead hrows ha) fun _ w1 w1' hrun ha => ?_
    have hsole : (auditRole cfg rows role).Safe clean _ _ w :=
      auditRole_sole h hwaits fun hA => List.mem_cons.mpr (.inl hA.symm)
    rcases hsole.ofHandler with ⟨_, _, h1⟩ | ⟨_, herr, _⟩
    · rw [hrun] at h1
      refine ih h1.1 (fun hmem => h1.2 ?_ (List.mem_cons_of_mem _ hmem)) hn.2 ha
      rintro rfl
      exact hn.1 hmem
    · rw [hrun] at herr
      cases herr

theorem reconcileSnapshotChecked_sole (h : Sole A S w) (hwaits : A ∈ roles → Waits A S w)
    (hn : roles.Nodup) :
    (reconcileSnapshotChecked cfg roles rows).Upholds clean (Sole A S) w := by
  induction roles generalizing w with
  | nil => exact ⟨trivial, h⟩
  | cons role roles ih =>
    rw [List.nodup_cons] at hn
    refine .bind (auditRole_sole h hwaits fun hA => List.mem_cons.mpr (.inl hA.symm))
      fun _ w' h' => ih h'.1 (fun hmem => h'.2 ?_ (List.mem_cons_of_mem _ hmem)) hn.2
    rintro rfl
    exact hn.1 hmem

end Spared

-- === Isolation ===

def OwnPrefix (A : String) (w : World) (pfx : Prefix) : Prop :=
  (w.registry.lookup ⟨A, pfx⟩).isSome = true ∧
    ∀ role, role ≠ A → w.registry.lookup ⟨role, pfx⟩ = none

def Notice.role : Notice → String
  | requestRecovery role _ => role
  | diagnostic role _ => role

/-- What an audit leaves of one role: its records, its flags and tokens, its
    checkpoint, the rows of its prefixes, and what the owner was told of it. -/
structure RoleView where
  records : List SelectedRoute
  state : Option SelectedRoleState
  file : Option SelectedRoutesCheckpoint
  rows : Prefix → List SelectedKernelRow
  notices : List Notice

def roleView (role : String) (w : World) : RoleView where
  records := w.registry.snapshot role
  state := w.memory.roles role
  file := w.disk role
  rows pfx := if (w.registry.lookup ⟨role, pfx⟩).isSome then w.kernel pfx else []
  notices := w.notices.filter fun notice => notice.role = role

def gateOpens (cfg : Config) (roles : List String) (w : World) : Bool :=
  ((initialAuthorityProof cfg roles).run handle w).1.isOk

/-- Whatever rows are at the own prefixes of `A`, an audit leaves the same of `B`
    and the gate opens or stays closed. -/
def Isolated (cfg : Config) (roles : List String) (A B : String) (w : World) : Prop :=
  ∀ k : Kernel, (∀ pfx, ¬ OwnPrefix A w pfx → k pfx = w.kernel pfx) →
    gateOpens cfg roles (w.withKernel k) = gateOpens cfg roles w ∧
    roleView B ((audit cfg roles).run handle (w.withKernel k)).2 =
      roleView B ((audit cfg roles).run handle w).2

/-- The audit judges the rows of no own prefix of the role: it waits for its
    startup restore, or every such record is parked. -/
def Unjudged (A : String) (w : World) : Prop := Waits A (OwnPrefix A w) w

section Isolation

variable {cfg : Config} {roles : List String} {A B : String} {S : Prefix → Prop} {w w' : World}

theorem audit_run (hcfg : cfg.routesResolved = true) (w : World) :
    (audit cfg roles).run handle w =
      ((reconcileSnapshotChecked cfg roles w.kernel).tryCatch fun e =>
        clearAllVerification.bind fun _ => .fail e).run handle w := by
  rw [Prog.run_tryCatch]
  unfold audit
  rw [hcfg, if_neg (by simp), Prog.run_tryCatch, Prog.run_bind]
  rfl

theorem initialAuthorityProof_run (hcfg : cfg.routesResolved = true) (w : World) :
    (initialAuthorityProof cfg roles).run handle w =
      ((reconcileSnapshotChecked cfg roles w.kernel).tryCatch fun e =>
        .fail (.wrapped "initial reconcile failed" e)).run handle w := by
  unfold initialAuthorityProof
  rw [hcfg, if_neg (by simp), Prog.bind_eq, Prog.run_bind, Prog.run_tryCatch]
  rfl

theorem Alike.roleView_eq (h : Alike S w w') (hs : Sole A S w) (hB : B ≠ A) :
    roleView B w' = roleView B w := by
  have hrows (pfx : Prefix) : (if (w.registry.lookup ⟨B, pfx⟩).isSome then w'.kernel pfx else []) =
      if (w.registry.lookup ⟨B, pfx⟩).isSome then w.kernel pfx else [] := by
    by_cases hS : S pfx
    · rw [hs.others pfx hS B hB]
      rfl
    · rw [h.rows pfx hS]
  rw [h.eq]
  exact congrArg (fun rows => { roleView B w with rows := rows }) (funext hrows)

theorem audit_sole (h : Sole A S w) (hwaits : A ∈ roles → Waits A S w) (hn : roles.Nodup) :
    Sole A S ((audit cfg roles).run handle w).2 := by
  cases hcfg : cfg.routesResolved with
  | false =>
    unfold audit
    rw [hcfg]
    exact h
  | true =>
    have hsafe : ((reconcileSnapshotChecked cfg roles w.kernel).tryCatch fun e =>
        clearAllVerification.bind fun _ => .fail e).Upholds clean (Sole A S) w :=
      .tryCatch (reconcileSnapshotChecked_sole h hwaits hn) fun e w' h' =>
        .bind (runs_memory (Q := fun _ w' => Sole A S w') (h'.of_registry rfl))
          fun _ _ h'' => ⟨trivial, h''⟩
    rw [audit_run hcfg]
    rcases hsafe.ofHandler with ⟨_, _, hs⟩ | ⟨_, _, hs⟩
    · exact hs
    · exact hs

/-- Rows that no record is judged by make no difference to the audit and to the
    initial proof. -/
theorem audit_twin (cfg : Config) (h : Sole A S w) (hwaits : A ∈ roles → Waits A S w)
    (hn : roles.Nodup) (ha : Alike S w w') :
    Twin S (audit cfg roles) (audit cfg roles) w w' ∧
      gateOpens cfg roles w' = gateOpens cfg roles w := by
  cases hcfg : cfg.routesResolved with
  | false =>
    unfold gateOpens audit initialAuthorityProof
    rw [hcfg]
    exact ⟨.ret _ ha, rfl⟩
  | true =>
    have hreconcile : Twin S (reconcileSnapshotChecked cfg roles w.kernel)
        (reconcileSnapshotChecked cfg roles w'.kernel) w w' :=
      reconcileSnapshotChecked_twin h hwaits hn ha.rows ha
    constructor
    · unfold Twin
      rw [audit_run hcfg, audit_run hcfg]
      exact hreconcile.tryCatch fun e w1 w1' ha =>
        .bind (.memory _ ha) fun _ w2 w2' _ ha => ⟨rfl, ha⟩
    unfold gateOpens
    rw [initialAuthorityProof_run hcfg, initialAuthorityProof_run hcfg]
    have hfail (e : ManagerError) (w1 w1' : World) (ha : Alike S w1 w1') :
        Twin S (α := Unit) (.fail (.wrapped "initial reconcile failed" e))
          (.fail (.wrapped "initial reconcile failed" e)) w1 w1' :=
      ⟨rfl, ha⟩
    exact congrArg Except.isOk (hreconcile.tryCatch hfail).1

theorem run_refused (cfg : Config) {e : SelectedRoute} (h : Refused A w.kernel e w)
    (hA : A ∈ roles) :
    ∃ err w', (reconcileSnapshotChecked cfg roles w.kernel).run handle w = (.error err, w') := by
  rcases (reconcileSnapshotChecked_refused cfg h hA).ofHandler with ⟨_, _, hf⟩ | ⟨err, herr, _⟩
  · exact hf.elim
  · exact ⟨err, _, Prod.ext herr rfl⟩

theorem gateOpens_refused {e : SelectedRoute} (h : Refused A w.kernel e w) (hA : A ∈ roles) :
    gateOpens cfg roles w = false := by
  unfold gateOpens
  cases hcfg : cfg.routesResolved with
  | false =>
    unfold initialAuthorityProof
    rw [hcfg]
    rfl
  | true =>
    obtain ⟨err, w', hrun⟩ := run_refused cfg h hA
    rw [initialAuthorityProof_run hcfg, Prog.run_tryCatch, hrun]
    rfl

/-- The audits of two roles are isolated when none of the first role's own records
    is judged. When the initial proof succeeds they are isolated only then. -/
theorem audit_isolates (hw : w.registry.WellFormed) (hn : roles.Nodup) (hA : A ∈ roles)
    (hB : B ≠ A) :
    (Unjudged A w → Isolated cfg roles A B w) ∧
      (gateOpens cfg roles w = true → Isolated cfg roles A B w → Unjudged A w) := by
  constructor
  · intro hu k hk
    have hs : Sole A (OwnPrefix A w) w := ⟨hw, fun _ hS => hS.2⟩
    have ha : Alike (OwnPrefix A w) w (w.withKernel k) := ⟨rfl, hk⟩
    obtain ⟨htwin, hgate⟩ := audit_twin cfg hs (fun _ => hu) hn ha
    exact ⟨hgate, htwin.2.roleView_eq (audit_sole hs (fun _ => hu) hn) hB⟩
  · intro hgate hiso
    by_contra hu
    simp only [Unjudged, Waits, not_or, not_forall, Bool.not_eq_true] at hu
    obtain ⟨hopen, pfx, hown, e, he, hpark⟩ := hu
    have hpfx : e.pfx = pfx := hw.pfx_eq he
    subst hpfx
    -- a foreign row at a record of `A` that the audit judges
    let k : Kernel := fun q => if q = e.pfx then [.foreign "row"] else w.kernel q
    have hk : ∀ q, ¬ OwnPrefix A w q → k q = w.kernel q := by
      intro q hq
      refine if_neg ?_
      rintro rfl
      exact hq hown
    have hrefused : Refused A k e (w.withKernel k) :=
      ⟨hw, he, by simpa using hpark, hopen,
        planSelectedRoute_unauthorized e (.foreign "row") (by simp [k]) id⟩
    have hclosed : gateOpens cfg roles (w.withKernel k) = false :=
      gateOpens_refused (w := w.withKernel k) hrefused hA
    have hsame := (hiso k hk).1
    rw [hclosed, hgate] at hsame
    cases hsame

end Isolation

def homePrefix : Prefix := ⟨.v4 0x0a000003#32, 32⟩

def homeOps : List RegistryOp :=
  [.reserve { sampleReservation 9 with role := "home", pfx := homePrefix },
    .record "home" homePrefix .markApplying,
    .record "home" homePrefix (.markActive (sampleIdentity 9))]

def twoRows (rows : List SelectedKernelRow) : Kernel := fun pfx =>
  if pfx = samplePrefix then rows
  else if pfx = homePrefix then [.route (sampleIdentity 9)]
  else []

def twoRoles (ops : List RegistryOp) (rows : List SelectedKernelRow) : World :=
  { memory := { registry := runOps (ops ++ homeOps) .empty }
    kernel := twoRows rows
    platform := samplePlatform }

theorem key_of_lookup {r : MemorySelectedRegistry} {k : SelectedRouteKey} {e : SelectedRoute}
    {ks : List SelectedRouteKey} (hkeys : r.entries.keys = ks) (h : r.lookup k = some e) :
    k ∈ ks :=
  hkeys ▸ AList.lookup_isSome.mp (Option.isSome_of_eq_some h)

def parkedTwoRoles : World :=
  twoRoles (parkedOps [.markParkApplying, .markParkActive samplePark])
    [.route (sampleIdentity 7), .park samplePark]

/-- A parked record of `work` does not get in the way of `home`. -/
theorem audit_isolates_parked : Isolated {} ["work", "home"] "work" "home" parkedTwoRoles := by
  have hkeys : parkedTwoRoles.registry.entries.keys =
      [⟨"home", homePrefix⟩, ⟨"work", samplePrefix⟩] := by
    decide +kernel
  have hpark : (parkedTwoRoles.registry.lookup ⟨"work", samplePrefix⟩).all
      (·.park.isSome) = true := by
    decide +kernel
  refine (audit_isolates (wellFormed_run _ MemorySelectedRegistry.wellFormed_empty) (by decide)
    (by decide) (by decide)).1 (.inr fun pfx _ e he => ?_)
  have hmem := key_of_lookup hkeys he
  simp only [List.mem_cons, SelectedRouteKey.mk.injEq, List.not_mem_nil, or_false] at hmem
  rcases hmem with ⟨hrole, _⟩ | ⟨_, rfl⟩
  · exact absurd hrole (by decide)
  · rw [he] at hpark
    exact hpark

/-- A foreign row at the record of `work` keeps the gate closed for `home` and
    takes away the token of its exact row. -/
theorem conflict_reaches_other_role :
    let roles := ["work", "home"]
    let calm := twoRoles (activeOps 7) [.route (sampleIdentity 7)]
    let conflicted := twoRoles (activeOps 7) [.route (sampleIdentity 7), .foreign "row"]
    gateOpens {} roles calm = true ∧ gateOpens {} roles conflicted = false ∧
    ((((audit {} roles).run handle calm).2.memory.roleState "home").verification
      homePrefix).isSome = true ∧
    ((((audit {} roles).run handle conflicted).2.memory.roleState "home").verification
      homePrefix).isSome = false ∧
    ¬ Isolated {} roles "work" "home" calm := by
  intro roles calm conflicted
  have hopen : gateOpens {} roles calm = true := by decide +kernel
  have hclosed : gateOpens {} roles conflicted = false := by decide +kernel
  refine ⟨hopen, hclosed, by decide +kernel, by decide +kernel, fun hiso => ?_⟩
  have hkeys : calm.registry.entries.keys = [⟨"home", homePrefix⟩, ⟨"work", samplePrefix⟩] := by
    decide +kernel
  have hown : OwnPrefix "work" calm samplePrefix := by
    refine ⟨by decide +kernel, fun role hrole => ?_⟩
    rw [Option.eq_none_iff_forall_ne_some]
    intro e he
    have hmem := key_of_lookup hkeys he
    simp only [List.mem_cons, SelectedRouteKey.mk.injEq, List.not_mem_nil, or_false] at hmem
    rcases hmem with ⟨_, hpfx⟩ | ⟨h, _⟩
    · exact absurd hpfx (by decide)
    · exact hrole h
  have hsame := (hiso conflicted.kernel fun pfx hpfx => by
    have hne : pfx ≠ samplePrefix := by
      rintro rfl
      exact hpfx hown
    simp [calm, conflicted, twoRoles, twoRows, hne]).1
  have heq : calm.withKernel conflicted.kernel = conflicted := rfl
  rw [heq, hopen, hclosed] at hsame
  cases hsame

end Kikimora.Control

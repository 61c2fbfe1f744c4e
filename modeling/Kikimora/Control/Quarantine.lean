import Kikimora.Control.Isolation

/-!
# Lifting a quarantine

A retry looks for explicit foreign rows on the prefixes of the role, and the audit
asks the planner about the records that have no park. The two agree only where
every refusal of the planner comes with such a row, and every such row with a
refusal.
-/

namespace Kikimora.Control

open Net Routing Platform Lib

def World.quarantined (w : World) (role : String) : Bool :=
  (w.memory.roleState role).integrityQuarantined

/-- What the planner refuses, of one record and the rows of its prefix. -/
def Unplannable (e : SelectedRoute) (rows : List SelectedKernelRow) : Prop :=
  e.state = .retiring ∨ (∃ row ∈ rows, ¬ row.AuthorizedBy e) ∨
    1 < rows.count (.route e.desired) ∨
    (e.owned = none ∧ e.state ≠ .applying ∧ .route e.desired ∈ rows)

theorem unplannable_iff {e : SelectedRoute} {rows : List SelectedKernelRow} :
    (∃ message, planSelectedRoute rows (some e) = .error message) ↔ Unplannable e rows := by
  cases hplan : planSelectedRoute rows (some e) with
  | ok action =>
    obtain ⟨hs, hall, hcount, hadopt, -⟩ := planSelectedRoute_eq_ok_iff.mp hplan
    refine ⟨nofun, ?_⟩
    rintro (h | ⟨row, hrow, h⟩ | h | ⟨ho, h, hmem⟩)
    · exact absurd h hs
    · exact absurd (hall row hrow) h
    · omega
    · exact absurd (hadopt ho hmem) h
  | error message =>
    refine ⟨fun _ => ?_, fun _ => ⟨message, rfl⟩⟩
    by_contra h
    simp only [Unplannable, not_or, not_exists, not_and, not_not, not_lt] at h
    obtain ⟨hs, hall, hcount, hadopt⟩ := h
    have hok := planSelectedRoute_eq_ok_iff.mpr ⟨hs, hall, hcount,
      fun ho hmem => by_contra fun ha => hadopt ho ha hmem, rfl⟩
    cases hplan.symm.trans hok

-- === The retry ===

section

variable {cfg : Config} {role : String} {w : World}

def retried (cfg : Config) (role : String) (w : World) : World :=
  ((retryQuarantinedRole cfg role).run handle w).2

def ForeignRow (role : String) (w : World) : Prop :=
  ∃ e ∈ w.registry.snapshot role, ∃ text, .foreign text ∈ w.kernel e.pfx

theorem remainingConflict_eq_none_iff :
    remainingConflict (w.registry.snapshot role) w.kernel = none ↔ ¬ ForeignRow role w := by
  simp only [remainingConflict, List.findSome?_eq_none_iff, ForeignRow, not_exists, not_and]
  refine forall₂_congr fun e _ => ⟨fun h text hrow => ?_, fun h row hrow => ?_⟩
  · cases h _ hrow
  · cases row with
    | foreign text => exact absurd hrow (h text)
    | route _ | park _ => rfl

theorem Memory.setRole_setRole (m : Memory) (role : String) (s s' : SelectedRoleState) :
    (m.setRole role s).setRole role s' = m.setRole role s' := by
  unfold Memory.setRole
  congr 1
  funext id
  dsimp only
  split_ifs <;> rfl

/-- A retry writes the flags of the role only, and of them the quarantine. -/
theorem retried_eq (hq : w.quarantined role = true) (hcfg : cfg.routesResolved = true) :
    ∃ state, retried cfg role w = w.withMemory (w.memory.setRole role state) ∧
      state.frozen = (w.memory.roleState role).frozen ∧
      state.restorePending = (w.memory.roleState role).restorePending ∧
      (state.integrityQuarantined = false ↔ ¬ ForeignRow role w) := by
  have hstate : (w.memory.roleState role).integrityQuarantined = true := hq
  have hnone : remainingConflict (w.registry.snapshot role) w.kernel = none ↔ ¬ ForeignRow role w :=
    remainingConflict_eq_none_iff
  cases hc : remainingConflict (w.registry.snapshot role) w.kernel with
  | some conflict =>
    rw [hc] at hnone
    refine ⟨w.memory.roleState role, ?_, rfl, rfl, by simpa [hstate] using hnone⟩
    simp [retried, retryQuarantinedRole, roleState, memory, routes, snapshot, Prog.perform,
      Prog.run, handle, hstate, hcfg, Prog.ofExcept, RouteCall.plan, World.withMemory,
      World.withKernel, hc, failText, Except.mapError]
  | none =>
    refine ⟨{ w.memory.roleState role with integrityQuarantined := false, integrityReason := "" },
      ?_, rfl, rfl, by simpa [hc] using hnone⟩
    simp [retried, retryQuarantinedRole, roleState, memory, routes, snapshot, Prog.perform,
      Prog.run, handle, hstate, hcfg, Prog.ofExcept, RouteCall.plan, World.withMemory,
      World.withKernel, hc, clearQuarantine, modifyRole, Except.mapError, Memory.setRole_setRole]

end

-- === The next audit ===

def Effect.Spares (role : String) ⦃β : Type⦄ : Effect β → Prop
  | .memory f => ∀ m, ((f m).2.roleState role).integrityQuarantined =
      (m.roleState role).integrityQuarantined
  | _ => True

section Audit

variable {α : Type} {cfg : Config} {role id : String} {rows : Kernel} {w w' : World}
  {roles : List String}

theorem Quiet.spares {p : ManagerM α} (h : Quiet p) (role : String) :
    p.Calls (Effect.Spares role) :=
  h.mono fun _ c hc => by
    cases c with
    | memory f => exact fun m => congrArg (fun state => state.integrityQuarantined) (hc m role)
    | _ => trivial

theorem spares_run {p : ManagerM α} (h : p.Calls (Effect.Spares role)) (w : World) :
    (p.run handle w).2.quarantined role = w.quarantined role := by
  induction p generalizing w with
  | ret a | fail e => rfl
  | call c k ih =>
    refine (ih _ (h.2 _) _).trans ?_
    cases c with
    | memory f => exact h.1 w.memory
    | _ => rfl

theorem auditRecord_spares (hid : id ≠ role) (e : SelectedRoute) (rows : List SelectedKernelRow) :
    (auditRecord cfg id e rows).Calls (Effect.Spares role) := by
  cases hplan : planSelectedRoute rows (some e) with
  | ok action => exact (auditRecord_quiet cfg id (.inr ⟨action, hplan⟩)).spares role
  | error message =>
    refine .bind (roleState_quiet.spares role) fun state => ?_
    split
    · split
      · exact .perform trivial
      · exact .ret _
    split
    · exact .perform trivial
    rw [hplan]
    refine .bind (.bind (.perform fun m => ?_) fun _ => .perform trivial) fun _ => .fail _
    exact congrArg _ (m.roleState_setRole_of_ne (Ne.symm hid) _)

theorem auditEntries_spares (hid : id ≠ role) (entries : List SelectedRoute) (complete : Bool) :
    (auditEntries cfg id rows entries complete).Calls (Effect.Spares role) := by
  induction entries generalizing complete with
  | nil => exact .ret _
  | cons x xs ih =>
    refine .bind ((read_quiet _).spares role) fun
      | none => ih _
      | some current => ?_
    dsimp only
    split
    · exact ih _
    · exact .bind (auditRecord_spares hid current _) fun _ => ih _

theorem completeStartupRestore_spares (id : String) :
    (completeStartupRestore id).Calls (Effect.Spares role) := by
  refine .perform fun m => ?_
  dsimp only
  split
  · rfl
  next state hs =>
  split
  · by_cases hid : role = id
    · subst hid
      rw [Memory.roleState_setRole, Memory.roleState, hs]
      rfl
    · exact congrArg _ (m.roleState_setRole_of_ne hid _)
  · rfl

theorem auditRole_spares (hid : id ≠ role) :
    (auditRole cfg rows id).Calls (Effect.Spares role) := by
  refine .bind (roleState_quiet.spares role) fun _ =>
    .bind ((read_quiet _).spares role) fun entries =>
    .bind (auditEntries_spares hid _ _) fun complete =>
    .bind (roleState_quiet.spares role) fun state => ?_
  split
  · exact .bind (completeStartupRestore_spares id) fun _ => .ret _
  · exact .ret _

theorem reconcileSnapshotChecked_spares (h : role ∉ roles) :
    (reconcileSnapshotChecked cfg roles rows).Calls (Effect.Spares role) := by
  induction roles with
  | nil => exact .ret _
  | cons id ids ih =>
    rw [List.mem_cons, not_or] at h
    exact .bind (auditRole_spares (Ne.symm h.1)) fun _ => ih h.2

/-- The audit of a record that it does not judge, or accepts. -/
theorem auditRecord_keeps (cfg : Config) {e : SelectedRoute} (hw : w.registry.WellFormed)
    (hl : w.registry.lookup ⟨role, e.pfx⟩ = some e) (h : ¬ Refused role rows e w) :
    ((auditRecord cfg role e (rows e.pfx)).run handle w).2.quarantined role =
      w.quarantined role := by
  by_cases hspared : e.park.isSome = true ∨ (w.memory.roleState role).restorePending = true
  · rw [auditRecord_run_lookAt cfg _ hspared, World.quarantined, memory_lookAt,
      w.memory.roleState_setRole_self]
    rfl
  simp only [not_or, Bool.not_eq_true, Option.isSome_eq_false_iff, Option.isNone_iff_eq_none]
    at hspared
  refine spares_run ((auditRecord_quiet cfg role (.inr ?_)).spares role) w
  cases hplan : planSelectedRoute (rows e.pfx) (some e) with
  | ok action => exact ⟨action, rfl⟩
  | error message => exact absurd ⟨hw, hl, hspared.1, hspared.2, message, hplan⟩ h

/-- No record of the list is refused, and the role is not quarantined. -/
structure Clear (role : String) (rows : Kernel) (S : Prefix → Prop) (w : World) : Prop where
  wellFormed : w.registry.WellFormed
  open_ : w.quarantined role = false
  accepted : ∀ e, S e.pfx → ¬ Refused role rows e w

theorem Clear.of_eq {S S' : Prefix → Prop} (h : Clear role rows S w)
    (hw : w'.registry.WellFormed) (hq : w'.quarantined role = w.quarantined role)
    (hp : (w'.memory.roleState role).restorePending = (w.memory.roleState role).restorePending)
    (hl : ∀ pfx, S' pfx → S pfx ∧ w'.registry.lookup ⟨role, pfx⟩ = w.registry.lookup ⟨role, pfx⟩) :
    Clear role rows S' w' where
  wellFormed := hw
  open_ := hq.trans h.open_
  accepted e hS hr := h.accepted e (hl _ hS).1
    ⟨h.wellFormed, (hl _ hS).2 ▸ hr.registered, hr.unparked, hp ▸ hr.open_, hr.refused⟩

theorem auditEntries_clear {entries : List SelectedRoute} {complete : Bool}
    (hn : (entries.map SelectedRoute.pfx).Nodup)
    (h : Clear role rows (· ∈ entries.map SelectedRoute.pfx) w) :
    (auditEntries cfg role rows entries complete).Upholds clean
      (fun w' => w'.quarantined role = false) w := by
  induction entries generalizing w complete with
  | nil => exact ⟨trivial, h.open_⟩
  | cons x xs ih =>
    rw [List.map_cons, List.nodup_cons] at hn
    have htail : Clear role rows (· ∈ xs.map SelectedRoute.pfx) w :=
      h.of_eq h.wellFormed rfl rfl fun _ hS => ⟨List.mem_cons_of_mem _ hS, rfl⟩
    refine .step (runs_read ?_)
    rw [registryEntryOf_eq h.wellFormed]
    cases hl : w.registry.lookup ⟨role, x.pfx⟩ with
    | none => exact ih hn.2 htail
    | some current =>
      dsimp only
      split
      · exact ih hn.2 htail
      have hpfx : current.pfx = x.pfx := h.wellFormed.pfx_eq hl
      rw [← hpfx] at hl hn ⊢
      have hkeeps := auditRecord_keeps cfg h.wellFormed hl
        (h.accepted current (hpfx ▸ List.mem_cons_self))
      have hr := ((auditRecord_stays cfg role current (rows current.pfx)).reached w).1
      have hnext := htail.of_eq (hr.wellFormed h.wellFormed) hkeeps (hr.restorePending role)
        fun pfx hS => ⟨hS, hr.lookup _ fun hk => hn.1 (by cases hk; exact hS)⟩
      exact .bind (Q := fun _ w' => Clear role rows (· ∈ xs.map SelectedRoute.pfx) w')
        (.of_ends (fun _ _ => hnext) fun _ _ => hnext.open_) fun _ _ hclear => ih hn.2 hclear

theorem auditRole_clear (cfg : Config) (h : Clear role rows (fun _ => True) w) :
    (auditRole cfg rows role).Upholds clean (fun w' => w'.quarantined role = false) w := by
  refine .step (runs_memory ?_)
  refine .step (runs_read ?_)
  have h1 : Clear role rows
      (· ∈ (w.registry.snapshot role).map SelectedRoute.pfx)
      (w.touched role) :=
    h.of_eq h.wellFormed (congrArg _ (w.memory.roleState_setRole_self role role))
      (congrArg _ (w.memory.roleState_setRole_self role role)) fun _ _ => ⟨trivial, rfl⟩
  refine .bind (auditEntries_clear (h.wellFormed.nodup_pfx_snapshot role) h1)
    fun complete w2 h2 => ?_
  have hrest : ((roleState role).bind fun state => if state.restorePending && complete then
      (completeStartupRestore role).bind fun _ => .ret () else .ret ()).Calls
        (Effect.Spares role) := by
    refine .bind (roleState_quiet.spares role) fun state => ?_
    split
    · exact .bind (completeStartupRestore_spares role) fun _ => .ret _
    · exact .ret _
  exact .of_ends (fun _ _ => (spares_run hrest w2).trans h2) fun _ _ =>
    (spares_run hrest w2).trans h2

theorem reconcileSnapshotChecked_clear (hn : roles.Nodup) (h : Clear role rows (fun _ => True) w) :
    (reconcileSnapshotChecked cfg roles rows).Upholds clean
      (fun w' => w'.quarantined role = false) w := by
  induction roles generalizing w with
  | nil => exact ⟨trivial, h.open_⟩
  | cons id ids ih =>
    rw [List.nodup_cons] at hn
    by_cases hid : id = role
    · subst hid
      refine .bind (auditRole_clear cfg h) fun _ w1 h1 => ?_
      have hrest : (reconcileSnapshotChecked cfg ids rows).Calls _ :=
        reconcileSnapshotChecked_spares hn.1
      exact .of_ends (fun _ _ => (spares_run hrest w1).trans h1)
        fun _ _ => (spares_run hrest w1).trans h1
    · have hspares : (auditRole cfg rows id).Calls _ := auditRole_spares hid
      have hr : RoleReached id w ((auditRole cfg rows id).run handle w).2 := by
        rcases (auditRole_reached w).ofHandler with ⟨_, _, hr⟩ | ⟨_, _, hr⟩ <;> exact hr
      have hnext : Clear role rows (fun _ => True) _ := h.of_eq (hr.wellFormed h.wellFormed)
        (spares_run hspares w) (hr.restorePending role (Ne.symm hid))
        fun _ _ => ⟨trivial, hr.lookup _ (Ne.symm hid)⟩
      exact .bind (Q := fun _ w' => Clear role rows (fun _ => True) w')
        (.of_ends (fun _ _ => hnext) fun _ _ => hnext.open_) fun _ _ hclear => ih hn.2 hclear

/-- An audit that refuses no record of the role does not quarantine it. -/
theorem audit_clear (hcfg : cfg.routesResolved = true) (hn : roles.Nodup)
    (h : Clear role w.kernel (fun _ => True) w) :
    ((audit cfg roles).run handle w).2.quarantined role = false := by
  rw [audit_run hcfg]
  have hsafe : ((reconcileSnapshotChecked cfg roles w.kernel).tryCatch fun e =>
      clearAllVerification.bind fun _ => .fail e).Upholds clean
        (fun w' => w'.quarantined role = false) w := by
    refine .tryCatch (reconcileSnapshotChecked_clear hn h) fun e w1 h1 => .step (runs_memory ?_)
    refine ⟨trivial, Eq.trans ?_ h1⟩
    exact congrArg (fun state => state.integrityQuarantined)
      (w1.memory.admission_keepVerification _ role)
  rcases hsafe.ofHandler with ⟨_, _, hq⟩ | ⟨_, _, hq⟩ <;> exact hq

end Audit

-- === Agreement ===

/-- A foreign row of the role comes with a record that the audit judges and the
    planner refuses, and such a record with a foreign row of the role. -/
structure RetryExact (role : String) (w : World) : Prop where
  judged : ∀ e ∈ w.registry.snapshot role, ∀ text, .foreign text ∈ w.kernel e.pfx →
    (w.memory.roleState role).restorePending = false ∧
      ∃ e' ∈ w.registry.snapshot role, e'.park = none ∧ Unplannable e' (w.kernel e'.pfx)
  named : (w.memory.roleState role).restorePending = false →
    ∀ e ∈ w.registry.snapshot role, e.park = none → Unplannable e (w.kernel e.pfx) →
      ∃ e' ∈ w.registry.snapshot role, ∃ text, .foreign text ∈ w.kernel e'.pfx

section

variable {cfg : Config} {role : String} {w : World}

theorem exists_refused_iff (hw : w.registry.WellFormed) :
    (∃ e, Refused role w.kernel e w) ↔ (w.memory.roleState role).restorePending = false ∧
      ∃ e ∈ w.registry.snapshot role, e.park = none ∧ Unplannable e (w.kernel e.pfx) := by
  simp only [hw.mem_snapshot_iff, ← unplannable_iff]
  exact ⟨fun ⟨e, h⟩ => ⟨h.open_, e, h.registered, h.unparked, h.refused⟩,
    fun ⟨hopen, e, hl, hp, hr⟩ => ⟨e, hw, hl, hp, hopen, hr⟩⟩

/-- A retry writes nothing but the quarantine. It lifts it exactly when the audit
    accepts the role, and the next audit does not quarantine the role again, exactly
    when explicit foreign rows and refusals go together. -/
theorem retry_agrees_iff (hw : w.registry.WellFormed) (hq : w.quarantined role = true)
    (hcfg : cfg.routesResolved = true) :
    ((retried cfg role w).registry = w.registry ∧ (retried cfg role w).kernel = w.kernel ∧
      (retried cfg role w).disk = w.disk ∧
      ((retried cfg role w).memory.roleState role).frozen = (w.memory.roleState role).frozen) ∧
    ((((retried cfg role w).quarantined role = false ↔ ∀ e, ¬ Refused role w.kernel e w) ∧
      ((retried cfg role w).quarantined role = false → ∀ roles : List String, roles.Nodup →
        ((audit cfg roles).run handle (retried cfg role w)).2.quarantined role = false)) ↔
      RetryExact role w) := by
  obtain ⟨state, heq, hfrozen, hpending, hlifted⟩ := retried_eq hq hcfg
  have hstate : (retried cfg role w).memory.roleState role = state := by
    rw [heq]
    exact w.memory.roleState_setRole role state
  have hcleared : (retried cfg role w).quarantined role = false ↔ ¬ ForeignRow role w := by
    rw [World.quarantined, hstate, hlifted]
  refine ⟨⟨by rw [heq]; rfl, by rw [heq]; rfl, by rw [heq]; rfl, by rw [hstate, hfrozen]⟩, ?_⟩
  constructor
  · rintro ⟨hiff, -⟩
    rw [hcleared, ← not_exists, not_iff_not, exists_refused_iff hw] at hiff
    exact ⟨fun e he text hrow => hiff.mp ⟨e, he, text, hrow⟩,
      fun hopen e he hp hu => hiff.mpr ⟨hopen, e, he, hp, hu⟩⟩
  intro h
  have hiff : (retried cfg role w).quarantined role = false ↔ ∀ e, ¬ Refused role w.kernel e w := by
    rw [hcleared, ← not_exists, not_iff_not, exists_refused_iff hw]
    exact ⟨fun ⟨e, he, text, hrow⟩ => h.judged e he text hrow,
      fun ⟨hopen, e, he, hp, hu⟩ => h.named hopen e he hp hu⟩
  refine ⟨hiff, fun hopen roles hn => audit_clear hcfg hn ⟨?_, hopen, fun e _ hr => ?_⟩⟩
  · rw [heq]
    exact hw
  have hpending' := hr.open_
  rw [hstate, hpending] at hpending'
  rw [heq] at hr
  exact hiff.mp hopen e ⟨hw, hr.registered, hr.unparked, hpending', hr.refused⟩

end

/-- The role `work` is quarantined, with an Active record on interface 7. -/
def quarantinedWorld (rows : List SelectedKernelRow) : World :=
  (openWorld (activeOps 7) rows 7).withMemory
    ((openWorld (activeOps 7) rows 7).memory.setRole "work"
      { frozen := true, integrityQuarantined := true })

theorem snapshot_quarantinedWorld (rows : List SelectedKernelRow) :
    (quarantinedWorld rows).registry.snapshot "work" = [activeRecord 7] := by
  change (runOps (activeOps 7) .empty).snapshot "work" = _
  decide +kernel

theorem retryExact_quarantinedWorld :
    RetryExact "work" (quarantinedWorld [.route (sampleIdentity 7)]) := by
  have hrows : (quarantinedWorld [.route (sampleIdentity 7)]).kernel (activeRecord 7).pfx =
      [.route (sampleIdentity 7)] := by decide +kernel
  constructor
  · intro e he text hrow
    rw [snapshot_quarantinedWorld, List.mem_singleton] at he
    subst he
    simp [hrows] at hrow
  intro _ e he _ hu
  rw [snapshot_quarantinedWorld, List.mem_singleton] at he
  subst he
  refine absurd (unplannable_iff.mpr hu) ?_
  rintro ⟨message, hplan⟩
  cases hplan

/-- Once its exact row is back alone, the role is released and stays so. -/
theorem retry_agrees_iff_exact :
    ((audit {} ["work"]).run handle
      (retried {} "work" (quarantinedWorld [.route (sampleIdentity 7)]))).2.quarantined "work" =
        false :=
  ((retry_agrees_iff (wellFormed_run _ MemorySelectedRegistry.wellFormed_empty) rfl rfl).2.mpr
    retryExact_quarantinedWorld).2 (by decide +kernel) ["work"] (by decide)

/-- A row of another identity is no foreign row to the retry, and is one to the
    planner: the quarantine is lifted and set again by the next audit. -/
theorem retry_ignores_other_identity :
    (∃ e, Refused "work" (quarantinedWorld [.route (sampleIdentity 9)]).kernel e
      (quarantinedWorld [.route (sampleIdentity 9)])) ∧
    (retried {} "work" (quarantinedWorld [.route (sampleIdentity 9)])).quarantined "work" = false ∧
    ((audit {} ["work"]).run handle
      (retried {} "work" (quarantinedWorld [.route (sampleIdentity 9)]))).2.quarantined "work" =
        true :=
  ⟨⟨activeRecord 7, wellFormed_run _ MemorySelectedRegistry.wellFormed_empty, by decide +kernel,
    rfl, rfl, _, rfl⟩, by decide +kernel, by decide +kernel⟩

end Kikimora.Control

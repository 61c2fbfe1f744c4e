import Kikimora.Control.Isolation
import Kikimora.Control.RecoveryCorrect

/-!
# The end of the startup freeze

A role whose checkpoint was not empty starts frozen, with `restorePending` set.
Only `CompleteStartupRestore` clears that flag, and only an audit calls it, when
every record is Active, unparked and has a token of the current generation. The
audit itself mints no token while the flag is set, and Unfreeze makes the tokens
of a recovery stale.
-/

namespace Kikimora.Control

open Routing Platform Kikimora.Core Lib

def Proven (role : String) (w : World) : Prop :=
  w.registry.snapshot role ≠ [] ∧
    (w.registry.snapshot role).all (w.memory.roleState role).provesStartup = true

instance (role : String) (w : World) : Decidable (Proven role w) :=
  inferInstanceAs (Decidable (_ ∧ _))

-- === An audit under the startup freeze ===

/-- The second world has the records and the roles of the first. -/
structure Resting (w w' : World) : Prop where
  registry : w'.registry = w.registry
  roles : ∀ id, w'.memory.roleState id = w.memory.roleState id

section Visit

variable {cfg : Config} {role : String} {rows : Kernel} {w w' w'' : World}

theorem Resting.refl (w : World) : Resting w w := ⟨rfl, fun _ => rfl⟩

theorem Resting.trans (h : Resting w w') (h' : Resting w' w'') : Resting w w'' :=
  ⟨h'.registry.trans h.registry, fun id => (h'.roles id).trans (h.roles id)⟩

theorem resting_touch (w : World) (role : String) :
    Resting w (w.touched role) :=
  ⟨rfl, w.memory.roleState_setRole_self role⟩

theorem resting_lookAt (role : String) (e : SelectedRoute) (w : World) :
    Resting w (lookAt role e w) := by
  refine ⟨registry_lookAt role e w, fun id => ?_⟩
  rw [memory_lookAt, w.memory.roleState_setRole_self]

theorem auditEntries_pending {entries : List SelectedRoute} {complete : Bool}
    (hw : w.registry.WellFormed) (hp : (w.memory.roleState role).restorePending = true)
    (hl : ∀ e ∈ entries, w.registry.lookup ⟨role, e.pfx⟩ = some e) :
    (auditEntries cfg role rows entries complete).Safe clean
      (fun b w' => b = (complete && entries.all (·.state = .active)) ∧ Resting w w')
      (fun _ _ => False) w := by
  induction entries generalizing w complete with
  | nil => exact ⟨trivial, by simp, .refl w⟩
  | cons x xs ih =>
    rw [List.forall_mem_cons] at hl
    refine .step (runs_read ?_)
    rw [registryEntryOf_eq hw, hl.1]
    simp only [ne_eq, not_true_eq_false, or_self, if_false]
    have hrun := auditRecord_run_lookAt cfg (rows x.pfx) (.inr hp) (e := x)
    have hm := resting_lookAt role x w
    refine .bind (Q := fun _ w' => w' = lookAt role x w) (.of_ends (fun _ _ => ?_)
      fun _ h => ?_) ?_
    · rw [hrun]
    · rw [hrun] at h
      cases h
    rintro _ _ rfl
    refine (ih (hm.registry ▸ hw) (by rw [hm.roles]; exact hp) ?_).mono ?_ fun _ _ h => h
    · rw [hm.registry]
      exact hl.2
    · rintro _ w' ⟨rfl, hu⟩
      exact ⟨by simp [Bool.and_assoc], hm.trans hu⟩

theorem auditRole_pending (hw : w.registry.WellFormed)
    (hp : (w.memory.roleState role).restorePending = true) :
    (auditRole cfg rows role).Safe clean
      (fun _ w' => w'.registry = w.registry ∧
        ((w'.memory.roleState role).restorePending = false ↔ Proven role w) ∧
        (¬ Proven role w → Resting w w')) (fun _ _ => False) w := by
  refine .step (runs_memory ?_)
  have h1 := resting_touch w role
  refine .step (runs_read ?_)
  refine .bind (auditEntries_pending (h1.registry ▸ hw) (by rw [h1.roles]; exact hp)
    fun e he => (h1.registry ▸ hw).mem_snapshot_iff.mp he) ?_
  rintro _ w2 ⟨rfl, h2⟩
  replace h2 := h1.trans h2
  refine .step (runs_memory ?_)
  have h3 := h2.trans (resting_touch w2 role)
  have hrole : (w2.memory.setRole role (w2.memory.roleState role)).roles role =
      some (w.memory.roleState role) := by
    simp [Memory.setRole, h2.roles]
  have hsnap : (w2.memory.setRole role (w2.memory.roleState role)).registry.snapshot role =
      w.registry.snapshot role := congrArg (·.snapshot role) h2.registry
  rw [show (w2.memory.roleState role).restorePending = true by rw [h2.roles]; exact hp]
  simp only [h1.registry, Bool.true_and]
  by_cases hproven : Proven role w
  · have hactive : (w.registry.snapshot role).all (·.state = .active) = true := by
      refine List.all_eq_true.mpr fun e he => ?_
      have h := List.all_eq_true.mp hproven.2 e he
      simp only [SelectedRoleState.provesStartup, Bool.and_eq_true] at h
      exact h.1.1.1
    rw [hactive, Bool.and_true, show (!(w.registry.snapshot role).isEmpty) = true by
      simpa using hproven.1, if_pos rfl]
    refine .step (runs_memory ⟨trivial, ?_⟩)
    simp only [World.withMemory, hrole, hsnap, hproven.2, if_true]
    exact ⟨h2.registry, by simp [hproven], fun h => absurd hproven h⟩
  · have hresting : ∀ w', Resting w w' → w'.registry = w.registry ∧
        ((w'.memory.roleState role).restorePending = false ↔ Proven role w) ∧
        (¬ Proven role w → Resting w w') := fun w' h =>
      ⟨h.registry, by simp [h.roles, hp, hproven], fun _ => h⟩
    split
    · next hcomplete =>
      have hnot : (w.registry.snapshot role).all (w.memory.roleState role).provesStartup =
          false := by
        simp only [Bool.and_eq_true, Bool.not_eq_true', List.isEmpty_eq_false_iff] at hcomplete
        exact Bool.eq_false_iff.mpr fun h => hproven ⟨hcomplete.1, h⟩
      refine .step (runs_memory ⟨trivial, ?_⟩)
      simp only [World.withMemory, hrole, hsnap, hnot]
      exact hresting _ h3
    · exact ⟨trivial, hresting _ h3⟩

end Visit

-- === Steps after a restart ===

/-- The steps of recoveries of the role and of audits, and what happens around
    them. -/
inductive StartupStep
  | freeze
  | operation (op : RecoveryOperation)
  | unfreeze
  /-- an audit comes to a role, with the rows of its snapshot -/
  | visit (id : String) (rows : Kernel)
  /-- an audit has failed and clears the tokens -/
  | auditFailed
  | environment (kernel : Kernel) (platform : RoutePlatform)
      (runtime : String → Option RoleRuntime)

namespace StartupStep

def apply (cfg : Config) (role : String) (w : World) : StartupStep → World
  | freeze => ((Control.freeze role).run handle w).2
  | operation op => ((op.program cfg role).run handle w).2
  | unfreeze => ((Control.unfreeze role).run handle w).2
  | visit id rows => ((auditRole cfg rows id).run handle w).2
  | auditFailed => (clearAllVerification.run handle w).2
  | environment kernel platform runtime =>
    { w with kernel := kernel, platform := platform, runtime := runtime }

def isAudit : StartupStep → Bool
  | visit _ _ | auditFailed | environment _ _ _ => true
  | _ => false

end StartupStep

def runSteps (cfg : Config) (role : String) (steps : List StartupStep) (w : World) : World :=
  steps.foldl (StartupStep.apply cfg role) w

section Steps

variable {cfg : Config} {role : String} {w : World}

theorem visit_reached (id : String) (rows : Kernel) :
    RoleReached id w (StartupStep.apply cfg role w (.visit id rows)) := by
  have hsafe : (auditRole cfg rows id).Safe clean (fun _ => RoleReached id w) _ w :=
    auditRole_reached w
  rcases hsafe.ofHandler with ⟨_, _, h⟩ | ⟨_, _, h⟩ <;> exact h

theorem StartupStep.wellFormed (s : StartupStep) (hw : w.registry.WellFormed) :
    (s.apply cfg role w).registry.WellFormed := by
  cases s with
  | operation op =>
    have hexec := Prog.exec_run faultStep_handle (op.program cfg role) w
    exact (coverage_sound (op.covered hw) hexec).2.1.2
  | visit id rows => exact (visit_reached id rows).wellFormed hw
  | freeze | unfreeze | auditFailed | environment kernel platform runtime => exact hw

theorem RecoveryOperation.quiet (op : RecoveryOperation) : Quiet (op.program cfg role) := by
  cases op with
  | parkRegistered => exact parkRegistered_quiet cfg role
  | withdrawSelected => exact withdrawSelected_quiet cfg role
  | restore v4Ready v6Ready => exact restore_quiet cfg role v4Ready v6Ready
  | observeRestoration => exact observeRestoration_quiet cfg role

/-- Only an audit that finds every record proven lifts the startup freeze, and
    nothing sets it. -/
theorem StartupStep.restorePending_apply (s : StartupStep) (hw : w.registry.WellFormed) :
    ((s.apply cfg role w).memory.roleState role).restorePending = false ↔
      (w.memory.roleState role).restorePending = false ∨
        (∃ rows, s = .visit role rows) ∧ Proven role w := by
  have hsame (h : ∀ rows, s ≠ .visit role rows)
      (heq : ((s.apply cfg role w).memory.roleState role).restorePending =
        (w.memory.roleState role).restorePending) :
      ((s.apply cfg role w).memory.roleState role).restorePending = false ↔
        (w.memory.roleState role).restorePending = false ∨
          (∃ rows, s = .visit role rows) ∧ Proven role w := by
    rw [heq]
    exact ⟨.inl, fun hr => hr.resolve_right fun hv => hv.1.elim h⟩
  cases s with
  | freeze => exact hsame (by simp) (by simp [apply, Control.freeze, memory,
      Prog.perform, Prog.run, handle, World.withMemory])
  | unfreeze => exact hsame (by simp) (by simp [apply, Control.unfreeze, memory,
      Prog.perform, Prog.run, handle, World.withMemory])
  | environment kernel platform runtime => exact hsame (by simp) rfl
  | auditFailed =>
    exact hsame (by simp) (SelectedRoleState.restorePending_of_admission
      (w.memory.admission_keepVerification _ role))
  | operation op =>
    have hexec := Prog.exec_run faultStep_handle (op.program cfg role) w
    exact hsame (by simp) (SelectedRoleState.restorePending_of_admission
      (op.quiet.admission_eq hexec role))
  | visit id rows =>
    by_cases hid : id = role
    · subst hid
      cases hp : (w.memory.roleState id).restorePending with
      | false => simp [(visit_reached id rows).open_ hp]
      | true =>
        rcases (auditRole_pending hw hp).ofHandler with ⟨_, _, _, h, _⟩ | ⟨_, _, hf⟩
        · exact h.trans (by simp)
        · exact hf.elim
    · refine hsame ?_ ((visit_reached id rows).restorePending role (Ne.symm hid))
      rintro rows' h
      cases h
      exact hid rfl

theorem runSteps_cons (s : StartupStep) (steps : List StartupStep) (w : World) :
    runSteps cfg role (s :: steps) w = runSteps cfg role steps (s.apply cfg role w) := rfl

theorem restorePending_runSteps (steps : List StartupStep) (hw : w.registry.WellFormed) :
    ((runSteps cfg role steps w).memory.roleState role).restorePending = false ↔
      (w.memory.roleState role).restorePending = false ∨
        ∃ before rows rest, steps = before ++ .visit role rows :: rest ∧
          Proven role (runSteps cfg role before w) := by
  induction steps generalizing w with
  | nil =>
    refine ⟨.inl, fun h => h.resolve_right ?_⟩
    rintro ⟨before, rows, rest, h, _⟩
    simp at h
  | cons s steps ih =>
    rw [runSteps_cons, ih (s.wellFormed hw), s.restorePending_apply hw, or_assoc]
    refine or_congr_right ⟨?_, ?_⟩
    · rintro (⟨⟨rows, rfl⟩, hp⟩ | ⟨before, rows, rest, rfl, hp⟩)
      · exact ⟨[], rows, steps, rfl, hp⟩
      · exact ⟨s :: before, rows, rest, rfl, hp⟩
    rintro ⟨before, rows, rest, h, hp⟩
    cases before with
    | nil =>
      cases h
      exact .inl ⟨⟨rows, rfl⟩, hp⟩
    | cons x before =>
      cases h
      exact .inr ⟨before, rows, rest, rfl, hp⟩

def Untokened (role : String) (w : World) : Prop :=
  ∀ p, (w.memory.roleState role).verification p = none

theorem Untokened.not_proven (h : Untokened role w) : ¬ Proven role w := by
  rintro ⟨hne, hall⟩
  obtain ⟨e, he⟩ := List.exists_mem_of_ne_nil _ hne
  have hproves := List.all_eq_true.mp hall e he
  simp [SelectedRoleState.provesStartup, h e.pfx] at hproves

theorem Untokened.of_keepsTokens {w' : World} (h : Untokened role w)
    (hk : (w.memory.roleState role).KeepsTokens (w'.memory.roleState role)) :
    Untokened role w' := by
  intro p
  rw [Option.eq_none_iff_forall_ne_some]
  intro token ht
  have := hk p token ht
  rw [h p] at this
  cases this

theorem StartupStep.untokened_apply {s : StartupStep} (hs : s.isAudit = true)
    (hw : w.registry.WellFormed) (hp : (w.memory.roleState role).restorePending = true)
    (h : Untokened role w) : Untokened role (s.apply cfg role w) := by
  cases s with
  | visit id rows =>
    by_cases hid : id = role
    · subst hid
      rcases (auditRole_pending hw hp).ofHandler with ⟨_, _, _, _, hresting⟩ | ⟨_, _, hf⟩
      · intro p
        exact (congrArg (·.verification p) ((hresting h.not_proven).roles id)).trans (h p)
      · exact hf.elim
    · exact h.of_keepsTokens ((visit_reached id rows).tokens role (Ne.symm hid))
  | auditFailed => exact h.of_keepsTokens (w.memory.keepsTokens_keepVerification _ role)
  | environment kernel platform runtime => exact h
  | freeze | operation op | unfreeze => cases hs

theorem restorePending_audits {steps : List StartupStep} (hs : ∀ s ∈ steps, s.isAudit = true)
    (hw : w.registry.WellFormed) (hp : (w.memory.roleState role).restorePending = true)
    (h : Untokened role w) :
    ((runSteps cfg role steps w).memory.roleState role).restorePending = true := by
  induction steps generalizing w with
  | nil => exact hp
  | cons s steps ih =>
    rw [List.forall_mem_cons] at hs
    refine ih hs.2 (s.wellFormed hw) ?_ (StartupStep.untokened_apply hs.1 hw hp h)
    refine Bool.eq_true_of_not_eq_false fun hlifted => ?_
    rcases (s.restorePending_apply hw).mp hlifted with hp' | ⟨_, hproven⟩
    · rw [hp] at hp'
      cases hp'
    · exact h.not_proven hproven

end Steps

-- === The release ===

/-- The role is open, and an audit of a restored record mints its token instead of
    asking for another recovery. -/
structure Released (cfg : Config) (role : String) (w : World) : Prop where
  lifted : (w.memory.roleState role).restorePending = false
  open_ : (w.memory.roleState role).frozen = false
  audited : ∀ e : SelectedRoute, e.state = .active → e.owned = some e.desired → e.park = none →
    ((auditRecord cfg role e [.route e.desired]).run handle w).2.notices = w.notices ∧
    ((((auditRecord cfg role e [.route e.desired]).run handle w).2.memory.roleState
      role).verification e.pfx).isSome = true

section

variable {cfg : Config} {role : String} {w w₀ : World}

theorem auditRecord_run_exact {e : SelectedRoute} (hs : e.state = .active)
    (ho : e.owned = some e.desired) (hpark : e.park = none)
    (hopen : (w.memory.roleState role).restorePending = false) :
    (auditRecord cfg role e [.route e.desired]).run handle w =
      (.ok (),
        w.withMemory ((w.memory.setRole role (w.memory.roleState role)).mintToken role e)) := by
  have hplan : planSelectedRoute [.route e.desired] (some e) =
      .ok (plannedAction e [.route e.desired]) :=
    planSelectedRoute_eq_ok_iff.mpr ⟨by simp [hs], by simp [SelectedKernelRow.AuthorizedBy],
      by simp, by simp [ho], rfl⟩
  simp [auditRecord, roleState, memory, Prog.perform, Prog.run, handle, hpark, hopen, hplan, hs,
    exactRow, mintVerificationToken, World.withMemory]

theorem released_of_lifted (hopen : (w.memory.roleState role).restorePending = false)
    (hfrozen : (w.memory.roleState role).frozen = false) : Released cfg role w := by
  refine ⟨hopen, hfrozen, fun e hs ho hpark => ?_⟩
  rw [auditRecord_run_exact hs ho hpark hopen]
  refine ⟨rfl, ?_⟩
  simp [World.withMemory, Memory.mintToken, Memory.setRole, Memory.roleState]

theorem untokened_restart (h : restart cfg role w₀ = .ok w) : Untokened role w := by
  unfold restart at h
  split at h
  · cases h
    exact fun _ => rfl
  split at h
  · cases h
  split_ifs at h
  split at h
  · cases h
  · cases h
    intro p
    simp [World.withMemory, seededRole]

/-- A role that was restored at startup is released by the recoveries and audits
    that follow exactly when an audit comes to it while every record is Active,
    unparked and has a token of the current generation. Audits alone never get
    there. -/
theorem startup_released_iff (hrestart : restart cfg role w₀ = .ok w)
    (hpending : (w.memory.roleState role).restorePending = true) (steps : List StartupStep) :
    (Released cfg role (runSteps cfg role (steps ++ [.unfreeze]) w) ↔
      ∃ before rows rest, steps = before ++ .visit role rows :: rest ∧
        Proven role (runSteps cfg role before w)) ∧
    ((∀ s ∈ steps, s.isAudit = true) →
      ((runSteps cfg role steps w).memory.roleState role).restorePending = true) := by
  have hw := wellFormed_restart hrestart
  refine ⟨?_, fun hs => restorePending_audits hs hw hpending (untokened_restart hrestart)⟩
  have hlast : runSteps cfg role (steps ++ [.unfreeze]) w =
      StartupStep.apply cfg role (runSteps cfg role steps w) .unfreeze := by
    simp [runSteps]
  have hkeeps :
      ((runSteps cfg role (steps ++ [.unfreeze]) w).memory.roleState role).restorePending =
      ((runSteps cfg role steps w).memory.roleState role).restorePending := by
    rw [hlast]
    simp [StartupStep.apply, unfreeze, memory, Prog.perform, Prog.run, handle, World.withMemory]
  have hlift : (((runSteps cfg role steps w).memory.roleState role).restorePending = false ↔
      ∃ before rows rest, steps = before ++ .visit role rows :: rest ∧
        Proven role (runSteps cfg role before w)) := by
    rw [restorePending_runSteps steps hw, hpending]
    simp
  rw [← hlift, ← hkeeps]
  refine ⟨fun h => h.lifted, fun h => released_of_lifted h ?_⟩
  rw [hlast]
  simp [StartupStep.apply, unfreeze, memory, Prog.perform, Prog.run, handle, World.withMemory]

end

/-- The sample record is on disk, Active with its row on interface 7, and the Toad
    of the role is on interface 8. -/
def stoppedWorld : World :=
  { sampleWorld [] [.route (sampleIdentity 7)] 8 with
    memory := {}
    disk := fun _ =>
      some (checkpointOf (runOps (activeOps 7) .empty) "work" checkpointPlatformLinux 1) }

def startedWorld : World := restarted {} "work" stoppedWorld

theorem restart_stoppedWorld : restart {} "work" stoppedWorld = .ok startedWorld :=
  restart_of_isOk (by decide +kernel)

def recoverySteps : List StartupStep :=
  [.freeze, .operation .parkRegistered, .operation .withdrawSelected,
    .operation (.restore true true), .operation .observeRestoration]

/-- An audit between the restoration and the Unfreeze releases the role. -/
theorem startup_released_iff_window :
    Released {} "work" (runSteps {} "work"
      (recoverySteps ++ [.visit "work" fun _ => []] ++ [.unfreeze]) startedWorld) :=
  (startup_released_iff restart_stoppedWorld (by decide +kernel) _).1.mpr
    ⟨recoverySteps, _, [], rfl, by decide +kernel⟩

/-- A complete recovery leaves the startup freeze on, and the next audit asks for
    another one and mints nothing. Without a recovery no number of audits lifts
    it, with the exact row in the kernel all the time. -/
theorem recovery_leaves_restorePending :
    let recovered := ((managedRecovery {} "work").run handle startedWorld).2
    let audited := ((audit {} ["work"]).run handle recovered).2
    let restored := ((audit {} ["work"]).run handle startedWorld).2
    ((managedRecovery {} "work").run handle startedWorld).1.isOk = true ∧
    recovered.kernel samplePrefix = [.route (sampleIdentity 8)] ∧
    (recovered.memory.roleState "work").frozen = false ∧
    (recovered.memory.roleState "work").restorePending = true ∧
    audited.notices = [.requestRecovery "work" "resume restored managed ownership"] ∧
    startedWorld.kernel samplePrefix = [.route (sampleIdentity 7)] ∧
    ((((audit {} ["work"]).run handle restored).2.memory.roleState "work").restorePending = true) ∧
    (((((audit {} ["work"]).run handle restored).2.memory.roleState "work").verification
      samplePrefix).isNone = true) := by
  refine ⟨by decide +kernel, by decide +kernel, by decide +kernel, by decide +kernel,
    by decide +kernel, by decide +kernel, by decide +kernel, by decide +kernel⟩

end Kikimora.Control

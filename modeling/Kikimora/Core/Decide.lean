import Kikimora.Core.Controller

/-!
# Choosing a recovery

`DecideRole`, the step lists of a recovery transaction, and the request that
starts a managed recovery: it writes the product state, and the engine derives
the action from that state again.
-/

namespace Kikimora.Core

inductive RecoveryAction
  | stop
  | waitForUnderlay
  | validate
  | rebind
  | restartTransport
  | restartToad
  | none
  deriving DecidableEq, Repr

def restartAction (caps : Capabilities) : RecoveryAction :=
  if caps.restartTransportKeepingTUN then .restartTransport else .restartToad

def decideRole (r : RoleRuntime) (underlay : Underlay) (caps : Capabilities) : RecoveryAction :=
  if !r.desired then .stop
  else if !underlay.hasPath then .waitForUnderlay
  else if r.state = .stopped || r.state = .failed then .restartToad
  else if r.state = .validating then .validate
  else if r.state = .recovering && r.toadGeneration ≠ 0 && !r.toad.routeReady then
    restartAction caps
  else if r.toadGeneration ≠ 0 && r.toad.routeReady && r.toad.state = "reconnecting" then
    restartAction caps
  else if r.validatedEpoch ≠ underlay.epoch then
    if caps.rebind then .rebind else restartAction caps
  else if r.state = .ready then .none
  else .validate

def recoverySequence : List RecoveryStep :=
  [.observeRoutes, .park, .withdraw, .quiesce, .applyEndpoint, .startTransport, .validate,
    .publish, .resyncLeshy, .observeRestore]

def recoverySequenceForAction : RecoveryAction → List RecoveryStep
  | .validate => [.validate]
  | .rebind =>
    [.observeRoutes, .park, .withdraw, .quiesce, .applyEndpoint, .rebind, .validate, .publish,
      .resyncLeshy, .observeRestore]
  | .restartTransport =>
    [.observeRoutes, .park, .withdraw, .quiesce, .applyEndpoint, .startTransport, .validate,
      .publish, .resyncLeshy, .observeRestore]
  | .restartToad => recoverySequence
  | _ => []

def managedSequence (transport : RecoveryStep) : List RecoveryStep :=
  [.freezeSelected, .observeRoutes, .park, .withdrawSelected, .withdraw, .quiesce, .applyEndpoint,
    transport, .validate, .restoreSelected, .observeRestore, .publish, .resyncLeshy,
    .unfreezeSelected]

def managedRecoverySequenceForAction : RecoveryAction → List RecoveryStep
  | .validate => [.validate]
  | .rebind => managedSequence .rebind
  | .restartTransport => managedSequence .startTransport
  | .restartToad => managedSequence .startTransport
  | _ => []

def recoverSteps (c : Controller) (managedSelectedRoutes : String → Bool) (role : String) :
    Except String (List RecoveryStep) :=
  match c.role role with
  | none => .error ("unknown role " ++ role.quote)
  | some current =>
    let action := decideRole current c.underlay current.toad.capabilities
    .ok (if managedSelectedRoutes role then managedRecoverySequenceForAction action
      else recoverySequenceForAction action)

-- === The managed recovery request ===

/-- The manager's own record of a role. -/
structure ManagerRole where
  enabled : Bool
  process : Bool
  recoveryInFlight : Bool
  deriving DecidableEq, Repr

/-- The part of the manager that the recovery request reads and writes. -/
structure RecoveryManager where
  roles : String → Option ManagerRole
  recoveryDriver : Bool
  underlayEpoch : UInt64
  managedSelectedRoles : String → Bool
  selectedRoutes : Bool
  product : Controller

namespace RecoveryManager

def managedSelected (m : RecoveryManager) (role : String) : Bool :=
  m.managedSelectedRoles role && m.selectedRoutes

def setInFlight (m : RecoveryManager) (role : String) (value : Bool) : RecoveryManager :=
  { m with roles := fun id =>
      if id = role then (m.roles id).map fun r => { r with recoveryInFlight := value }
      else m.roles id }

/-- `requestManagedSelectedRecovery`: the operation and epoch of the launched
    worker, if one is launched, and the manager. -/
def requestManagedSelectedRecovery (m : RecoveryManager) (role reason : String) :
    Option (UInt64 × UInt64) × RecoveryManager :=
  match m.roles role with
  | none => (none, m)
  | some current =>
    if !current.enabled || !current.process || !m.recoveryDriver || current.recoveryInFlight then
      (none, m)
    else
      let product := (m.product.role role).getD {}
      let m := m.setInFlight role true
      match m.product.setRecovery role product.recovery .recovering reason with
      | (false, _) => (none, m.setInFlight role false)
      | (true, c) => (some (product.operation, m.underlayEpoch), { m with product := c })

end RecoveryManager

def FullManagedRecovery (steps : List RecoveryStep) : Prop :=
  steps.head? = some .freezeSelected ∧
  [.park, .withdrawSelected, .restoreSelected, .observeRestore].Sublist steps ∧
  steps.getLast? = some .unfreezeSelected

instance (steps : List RecoveryStep) : Decidable (FullManagedRecovery steps) :=
  inferInstanceAs (Decidable (_ ∧ _ ∧ _))

/-- A role whose validation is stale, or whose Toad lost its route target or its
    session. -/
def RoleRuntime.NeedsTransport (r : RoleRuntime) (epoch : UInt64) : Prop :=
  r.validatedEpoch ≠ epoch ∨
    (r.toadGeneration ≠ 0 ∧ (r.toad.routeReady = false ∨ r.toad.state = "reconnecting"))

theorem fullManagedRecovery_managedSequence (transport : RecoveryStep) :
    FullManagedRecovery (managedSequence transport) := by
  cases transport <;> decide

theorem fullManagedRecovery_restartAction (caps : Capabilities) :
    FullManagedRecovery (managedRecoverySequenceForAction (restartAction caps)) := by
  unfold restartAction
  split <;> exact fullManagedRecovery_managedSequence _

/-- The action for a recovering role decides between the whole managed sequence
    and a plain validation. -/
theorem fullManagedRecovery_decideRole_iff {r : RoleRuntime} {underlay : Underlay}
    {caps : Capabilities} (hd : r.desired = true) (hpath : underlay.hasPath = true)
    (hstate : r.state = .recovering) :
    FullManagedRecovery (managedRecoverySequenceForAction (decideRole r underlay caps)) ↔
      r.NeedsTransport underlay.epoch := by
  have hrestart := fullManagedRecovery_restartAction caps
  unfold decideRole
  simp only [hd, hpath, hstate, Bool.not_true, Bool.false_eq_true, if_false, reduceCtorEq,
    decide_false, Bool.or_self, decide_true, Bool.true_and, Bool.and_eq_true, decide_eq_true_eq,
    Bool.not_eq_true']
  split_ifs with hlost hstale hepoch hrebind
  · exact iff_of_true hrestart (.inr ⟨hlost.1, .inl hlost.2⟩)
  · exact iff_of_true hrestart (.inr ⟨hstale.1.1, .inr hstale.2⟩)
  · exact iff_of_true (fullManagedRecovery_managedSequence .rebind) (.inl hepoch)
  · exact iff_of_true hrestart (.inl hepoch)
  refine iff_of_false (by decide) ?_
  rintro (h | ⟨hg, h | h⟩)
  · exact hepoch h
  · exact hlost ⟨hg, h⟩
  · cases hr : r.toad.routeReady with
    | true => exact hstale ⟨⟨hg, hr⟩, h⟩
    | false => exact hlost ⟨hg, hr⟩

theorem request_launched {m m' : RecoveryManager} {role reason : String}
    {launch : UInt64 × UInt64}
    (h : m.requestManagedSelectedRecovery role reason = (some launch, m')) :
    ∃ r, m.product.roles role = some r ∧
      m'.product =
        ((m.product.setRole role { r with state := .recovering, reason := reason }).bump) ∧
      m'.managedSelected = m.managedSelected := by
  unfold RecoveryManager.requestManagedSelectedRecovery at h
  split at h
  · cases h
  split at h
  · cases h
  simp only [RecoveryManager.setInFlight, Controller.setRecovery] at h
  rcases Controller.update_spec m.product role _ with hu | ⟨r, r', hr, hf, hu⟩
  · rw [hu] at h
    cases h
  rw [hu] at h
  simp only [Controller.role, hr, Option.getD_some, Option.some.injEq] at hf h
  cases h
  subst hf
  exact ⟨r, hr, rfl, rfl⟩

/-- A launched managed recovery runs the managed sequence exactly when the role
    needed a transport: the request keeps the validated epoch, so a role that is
    validated for the current epoch and has a live session is only validated. -/
theorem managed_recovery_runs_iff {m m' : RecoveryManager} {role reason : String}
    {launch : UInt64 × UInt64} {r : RoleRuntime}
    (hlaunch : m.requestManagedSelectedRecovery role reason = (some launch, m'))
    (hmanaged : m.managedSelected role = true) (hr : m.product.role role = some r)
    (hdesired : r.desired = true) (hpath : m.product.underlay.hasPath = true) :
    (∃ steps, recoverSteps m'.product m'.managedSelected role = .ok steps ∧
        FullManagedRecovery steps) ↔
      r.NeedsTransport m.product.underlay.epoch := by
  obtain ⟨r', hr', hproduct, hmsel⟩ := request_launched hlaunch
  cases hr.symm.trans hr'
  have hrole : m'.product.role role = some { r with state := .recovering, reason := reason } := by
    simp [hproduct, Controller.role]
  have hunder : m'.product.underlay = m.product.underlay := by simp [hproduct]
  simp only [recoverSteps, hrole, hmsel, hmanaged, if_true, Except.ok.injEq, exists_eq_left',
    hunder]
  exact fullManagedRecovery_decideRole_iff hdesired hpath rfl

def sampleManager (r : RoleRuntime) : RecoveryManager :=
  { roles := fun id => if id = "work" then some ⟨true, true, false⟩ else none
    recoveryDriver := true
    underlayEpoch := 3
    managedSelectedRoles := fun id => id = "work"
    selectedRoutes := true
    product :=
      { roles := fun id => if id = "work" then some r else none
        underlay := { epoch := 3, ipv4 := some ⟨4, 2, "eth0", .zero, .zero, 1500, 254, 100⟩ } } }

def sampleReadyRole : RoleRuntime :=
  { desired := true, state := .ready, toadGeneration := 1, validatedEpoch := 3,
    toad := { generation := 1, state := "ready", routeReady := true, ifIndex := 7 } }

/-- After the interface changed under a role validated for an older epoch. -/
theorem managed_recovery_runs_stale_epoch :
    let r := { sampleReadyRole with validatedEpoch := 2 }
    let launched := (sampleManager r).requestManagedSelectedRecovery "work" "startup restore"
    ∃ steps, recoverSteps launched.2.product launched.2.managedSelected "work" = .ok steps ∧
      FullManagedRecovery steps := by
  intro r launched
  have hlaunch : launched = (some (0, 3), launched.2) := rfl
  exact (managed_recovery_runs_iff hlaunch rfl rfl rfl rfl).mpr (.inl (by decide))

/-- The audit asks for a recovery of a Ready role: the engine only validates. -/
theorem managed_recovery_only_validates :
    let launched := (sampleManager sampleReadyRole).requestManagedSelectedRecovery "work"
      "selected route drift"
    launched.1 = some (0, 3) ∧ sampleReadyRole.desired = true ∧
    (sampleManager sampleReadyRole).product.underlay.hasPath = true ∧
    recoverSteps launched.2.product launched.2.managedSelected "work" = .ok [.validate] ∧
    ¬ FullManagedRecovery [.validate] := by
  exact ⟨rfl, rfl, rfl, rfl, by decide⟩

end Kikimora.Core

import Kikimora.Core.Model

/-!
# The product controller

The locked steps of the product controller, one function per method. Each method
returns its result together with the controller it leaves behind.
-/

namespace Kikimora.Core

/-- The state behind the controller's mutex. The change notification channel and
    the event queue are not part of it. -/
structure Controller where
  roles : String → Option RoleRuntime
  underlay : Underlay := {}
  revision : UInt64 := 1
  lastReason : ChangeReason := .unspecified

namespace Controller

def new (specs : List String) : Controller :=
  { roles := fun id => if id ∈ specs then some {} else none }

def bump (c : Controller) : Controller := { c with revision := c.revision + 1 }

def bumpReason (c : Controller) (reason : ChangeReason) : Controller :=
  { c with lastReason := reason, revision := c.revision + 1 }

def setRole (c : Controller) (role : String) (r : RoleRuntime) : Controller :=
  { c with roles := fun id => if id = role then some r else c.roles id }

def role (c : Controller) (role : String) : Option RoleRuntime := c.roles role

/-- The shape of every method on one role: look the role up, give up without a
    change when it is unknown or the method refuses, write it back and bump. -/
def update (c : Controller) (role : String) (f : RoleRuntime → Option RoleRuntime) :
    Bool × Controller :=
  match (c.roles role).bind f with
  | none => (false, c)
  | some r => (true, (c.setRole role r).bump)

def setRoleDesired (c : Controller) (role : String) (enabled : Bool) :
    Except String Unit × Controller :=
  match c.roles role with
  | none => (.error ("unknown role " ++ role.quote), c)
  | some r =>
    if r.desired = enabled then (.ok (), c)
    else
      let next := { r with desired := enabled, operation := r.operation + 1 }
      let next := if enabled then
          { next with state := .starting, reason := "desired state enabled" }
        else { next with state := .stopped, reason := "desired state disabled" }
      (.ok (), (c.setRole role next).bump)

def underlayRole (initial : Bool) (next : Underlay) (reason : ChangeReason) (r : RoleRuntime) :
    RoleRuntime :=
  if !r.desired then r
  else if !next.hasPath then
    { r with validatedEpoch := 0, state := .waitingForUnderlay,
             reason := "physical underlay unavailable" }
  else if !initial && (r.state = .ready || r.state = .waitingForUnderlay) &&
      r.validatedEpoch ≠ next.epoch then
    -- returning from an outage must re-enter recovery
    { r with state := .recovering, validatedEpoch := 0, reason := reason.text }
  else r

def applyUnderlay (c : Controller) (next : Underlay) (reason : ChangeReason) : Controller :=
  let initial := c.underlay.epoch = 0
  ({ c with underlay := next,
            roles := fun id => (c.roles id).map (underlayRole initial next reason) }).bumpReason
    reason

/-- `SetUnderlay`. An observation without an epoch is numbered here; a numbered
    one is never renumbered, and a stale one is dropped. -/
def setUnderlay (c : Controller) (next : Underlay) (reason : ChangeReason) : Controller :=
  if next.epoch = 0 then
    let (merged, computedReason, changed) := compareUnderlay c.underlay next
    if !changed then c
    else c.applyUnderlay merged (if reason = .unspecified then computedReason else reason)
  else if next.epoch < c.underlay.epoch then c
  else if next.epoch = c.underlay.epoch then
    if identityEqual c.underlay next then
      { c with underlay := { c.underlay with observedAt := next.observedAt } }
    else c
  else c.applyUnderlay next reason

def observedRole (epoch : UInt64) (snapshot : ToadSnapshot) (r : RoleRuntime) : RoleRuntime :=
  let r := { r with toadGeneration := snapshot.generation, toad := snapshot }
  let r :=
    if !snapshot.routeReady then
      let r := { r with validatedEpoch := 0 }
      if r.desired then
        if snapshot.state = "failed" then
          { r with state := .failed, lastError := snapshot.reason }
        else if snapshot.state = "stopped" then { r with state := .stopped }
        else if r.state ≠ .recovering then
          -- an active recovery outlives a transport that is not ready
          { r with state := .validating, reason := "managed route target requires validation" }
        else r
      else r
    else if snapshot.state = "failed" then
      { r with state := .failed, validatedEpoch := 0, lastError := snapshot.reason }
    else if snapshot.state = "stopped" then { r with state := .stopped, validatedEpoch := 0 }
    else if snapshot.state = "recovering" || snapshot.state = "quiesced" then
      { r with state := .recovering, validatedEpoch := 0 }
    else if snapshot.state = "reconnecting" then
      { r with state := .recovering, validatedEpoch := 0 }
    else if snapshot.state = "ready" || snapshot.state = "online" then
      -- a positive observation is not validation authority
      if r.desired && r.validatedEpoch ≠ epoch && r.state ≠ .recovering then
        { r with state := .validating,
                 reason := "managed route target ready; validation required" }
      else r
    else r
  if r.reason = "" then { r with reason := snapshot.reason } else r

/-- `ObserveToad`: another generation is refused, a repeated snapshot is
    accepted without a change. -/
def observeToad (c : Controller) (role : String) (snapshot : ToadSnapshot) : Bool × Controller :=
  match c.roles role with
  | none => (false, c)
  | some r =>
    if r.toadGeneration ≠ 0 ∧ r.toadGeneration ≠ snapshot.generation then (false, c)
    else if r.toadGeneration = snapshot.generation ∧ r.toad = snapshot then (true, c)
    else (true, (c.setRole role (observedRole c.underlay.epoch snapshot r)).bump)

def setRecovery (c : Controller) (role : String) (recovery : RecoveryState) (state : RoleState)
    (reason : String) : Bool × Controller :=
  c.update role fun r => some
    { r with
      recovery := { recovery with nextRetryAt := r.recovery.nextRetryAt }
      state := state, reason := reason }

def setRetrySchedule (c : Controller) (role : String) (next : Option Int) : Bool × Controller :=
  c.update role fun r => some { r with recovery := { r.recovery with nextRetryAt := next } }

def canValidate (c : Controller) (r : RoleRuntime) : Bool :=
  r.desired && r.toadGeneration ≠ 0 && r.toad.routeReady && c.underlay.epoch ≠ 0 &&
    c.underlay.hasPath

def beginValidation (c : Controller) (role : String) : Option ValidationToken × Controller :=
  match c.roles role with
  | none => (none, c)
  | some r =>
    if c.canValidate r then
      (some ⟨role, r.operation, r.toadGeneration, c.underlay.epoch⟩,
        (c.setRole role { r with state := .validating, reason := "validation requested" }).bump)
    else (none, c)

def tokenCurrent (c : Controller) (token : ValidationToken) (r : RoleRuntime) : Bool :=
  r.desired && r.toad.routeReady && r.operation = token.operation &&
    r.toadGeneration = token.toadGeneration && c.underlay.epoch = token.underlayEpoch

def orDefault (text default : String) : String := if text = "" then default else text

def completeValidation (c : Controller) (token : ValidationToken) (result : ValidationResult) :
    Bool × Controller :=
  c.update token.role fun r =>
    if !c.tokenCurrent token r then none
    else if result.healthy then
      some { r with
        validation := result, state := .ready, validatedEpoch := token.underlayEpoch,
        lastError := "", reason := orDefault result.reason "validation complete" }
    else
      let reason := orDefault result.reason "validation failed"
      some { r with
        validation := result, state := .failed, validatedEpoch := 0, lastError := reason,
        reason := reason }

def completeValidationPending (c : Controller) (token : ValidationToken)
    (result : ValidationResult) : Bool × Controller :=
  c.update token.role fun r =>
    if !c.tokenCurrent token r then none
    else
      let reason := orDefault result.reason "validation temporarily unhealthy"
      some { r with
        validation := result, state := .recovering, validatedEpoch := 0, lastError := reason,
        reason := reason }

def resumedRole (r : RoleRuntime) : RoleRuntime :=
  if r.desired && r.state = .ready then
    { r with validatedEpoch := 0, state := .validating, reason := "resume validation requested" }
  else r

def requestResumeValidation (c : Controller) : Controller :=
  ({ c with roles := fun id => (c.roles id).map resumedRole }).bump

def requestRoleValidation (c : Controller) (role reason : String) : Bool × Controller :=
  c.update role fun r =>
    if !r.desired || r.toadGeneration = 0 || !r.toad.routeReady then none
    else some { r with
      validatedEpoch := 0, state := .validating,
      reason := orDefault reason "validation requested" }

def markRecovering (c : Controller) (role reason : String) : Bool × Controller :=
  c.update role fun r =>
    if !r.desired then none
    else some { r with state := .recovering, validatedEpoch := 0, reason := reason }

def beginToadGeneration (c : Controller) (role : String) : Bool × Controller :=
  c.update role fun r => some
    { r with
      toadGeneration := 0, toad := {}, validatedEpoch := 0, validation := {},
      state := if r.desired then .starting else r.state }

def setRoleDiagnostic (c : Controller) (role reason : String) : Bool × Controller :=
  c.update role fun r => some { r with lastError := reason }

def updateRoleResources (c : Controller) (role : String) (endpoint : EndpointState)
    (publication : PublicationState) (parking : ParkingState) (validation : ValidationResult) :
    Bool × Controller :=
  c.update role fun r =>
    let lastError :=
      if validation.state ≠ "" || validation.reason ≠ "" || validation.healthy then
        if !validation.healthy && validation.reason ≠ "" then validation.reason else ""
      else r.lastError
    some { r with
      endpoint := endpoint, publication := publication, parking := parking,
      validation := validation, lastError := lastError }

-- === Lookups ===

@[simp] theorem roles_bump (c : Controller) : c.bump.roles = c.roles := rfl

@[simp] theorem underlay_bump (c : Controller) : c.bump.underlay = c.underlay := rfl

@[simp] theorem roles_setRole (c : Controller) (role id : String) (r : RoleRuntime) :
    (c.setRole role r).roles id = if id = role then some r else c.roles id := rfl

@[simp] theorem underlay_setRole (c : Controller) (role : String) (r : RoleRuntime) :
    (c.setRole role r).underlay = c.underlay := rfl

theorem update_spec (c : Controller) (role : String) (f : RoleRuntime → Option RoleRuntime) :
    c.update role f = (false, c) ∨
      ∃ r r', c.roles role = some r ∧ f r = some r' ∧
        c.update role f = (true, (c.setRole role r').bump) := by
  unfold update
  cases hr : c.roles role with
  | none => exact .inl rfl
  | some r =>
    cases hf : f r with
    | none => exact .inl (by simp [hf])
    | some r' => exact .inr ⟨r, r', rfl, hf, by simp [hf]⟩

end Controller

end Kikimora.Core

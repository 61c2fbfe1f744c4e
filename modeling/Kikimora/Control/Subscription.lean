import Kikimora.Control.Snapshot
import Kikimora.Core.Engine

/-!
# Subscriptions

A subscriber waits for a revision newer than the last one it has seen. The manager
counts its revision in most of its locked sections; the product controller is also
written outside of them, and a snapshot reads it piece by piece.
-/

namespace Kikimora.Control

open Kikimora.Core Lib
open Controller

-- === The locked sections of the manager ===

def observedOf (snapshot : ToadSnapshot) : ObservedState where
  state := snapshot.state
  reason := snapshot.reason
  routeReady := snapshot.routeReady
  connected := snapshot.sessionConnected

namespace Manager

/-- A section that writes one role and counts the revision; `none` when it does neither. -/
def lockedRole (m : Manager) (role : String) (f : Role → Option Role) : Option Manager :=
  if role ∈ m.names then (f (m.roles role)).map fun r => (m.setRole role r).bump else none

def writeError (m : Manager) (role error : String) : Manager :=
  m.setRole role { m.roles role with lastError := error }

def deferStart (m : Manager) (role reason : String) : Option Manager :=
  m.lockedRole role fun r =>
    if r.enabled && r.process.isNone then
      some { r with startPending := true, startReason := reason, lastError := "" }
    else none

def prepareStart (m : Manager) (role : String) : Option Manager :=
  (m.lockedRole role fun r => some { r with startPending := false, startReason := "" }).map
    fun next =>
      { next with
        startBackoffs := fun id => if id = role then none else m.startBackoffs id
        startRetryPending := fun id => if id = role then false else m.startRetryPending id }

def beginStart (m : Manager) (role : String) : Option Manager :=
  let r := m.roles role
  if role ∈ m.names && r.enabled && r.process.isNone then
    let next :=
      m.setRole role { r with stateValid := false, startPending := false, startReason := "" }
    some { next with product := (m.product.beginToadGeneration role).2 }
  else none

def startFailed (m : Manager) (role error : String) : Option Manager :=
  m.lockedRole role fun r => some { r with lastError := error }

def processStarted (m : Manager) (role : String) (process : Nat) : Option Manager :=
  m.lockedRole role fun r =>
    if r.process.isSome || !r.enabled then none
    else some { r with process := some process, lastError := "" }

def stopRoleProcess (m : Manager) (role : String) : Option Manager :=
  (m.lockedRole role fun r => some { r with process := none }).map fun next =>
    { next with
      recoveryRetryPending := fun id => if id = role then false else m.recoveryRetryPending id
      recoveryBackoffs := fun id => if id = role then none else m.recoveryBackoffs id }

def wait (m : Manager) (role : String) (process : Nat) (error : String)
    (schedule : Option (Option Int)) : Option Manager :=
  (m.lockedRole role fun r =>
    if r.process = some process then some { r with process := none, lastError := error }
    else none).map fun next =>
      match schedule with
      | none => next
      | some at? => { next with product := (next.product.setRetrySchedule role at?).2 }

def restartRole (m : Manager) (role : String) : Option Manager :=
  m.lockedRole role fun r =>
    if r.process.isNone then none
    else some { r with
      process := none, stateValid := false, streamed := false, operation := r.operation + 1 }

def retryRole (m : Manager) (role : String) : Option Manager :=
  m.lockedRole role fun r =>
    if !r.enabled then none
    else if r.process.isSome then some r
    else some { r with lastError := "" }

def observeToadSnapshotForProcess (m : Manager) (role : String) (process : Nat)
    (snapshot : ToadSnapshot) : Option Manager :=
  (m.lockedRole role fun r =>
    if r.process = some process then
      some { r with observed := observedOf snapshot, stateValid := true, streamed := true }
    else none).map fun next =>
      { next with product := (next.product.observeToad role snapshot).2 }

/-- An observation from the state file, with the snapshot that the product gets of it. -/
def observePublished (m : Manager) (role : String) (process : Nat) (published : ObservedState)
    (snapshot : ToadSnapshot) (unlessStreamed : Bool) : Option Manager :=
  (m.lockedRole role fun r =>
    if r.process = some process && !(unlessStreamed && r.streamed) then
      some { r with observed := published, stateValid := true }
    else none).map fun next =>
      { next with product := (next.product.observeToad role snapshot).2 }

def observeCompatibilityStateForProcess (m : Manager) (role : String) (process : Nat)
    (published : ObservedState) (snapshot : ToadSnapshot) : Option Manager :=
  m.observePublished role process published snapshot true

def refreshState (m : Manager) (role : String) (process : Nat) (published : ObservedState)
    (snapshot : ToadSnapshot) : Option Manager :=
  m.observePublished role process published snapshot false

def releaseFailed (m : Manager) (role error : String) : Option Manager :=
  m.lockedRole role fun r => some { r with lastError := "cleanup incomplete: " ++ error }

def releaseDone (m : Manager) (role : String) : Option Manager :=
  m.lockedRole role fun r => if r.lastError ≠ "" then some { r with lastError := "" } else none

def disableByConfiguration (m : Manager) (role error : String) : Option Manager :=
  m.lockedRole role fun r => some { r with enabled := false, lastError := error }

def ownershipUnknown (m : Manager) (role error : String) : Option Manager :=
  m.lockedRole role fun r => some { r with lastError := error }

/-- `ensureManagedInterfaceOwnership` for one role. The revision is counted when the
    ownership, or whether it blocks the role, has changed. -/
def noteOwnership (m : Manager) (role : String) (blocked : Option String)
    (wasBlocked changed : Bool) : Option Manager :=
  if role ∈ m.names then
    let next :=
      match blocked with
      | some reason => m.writeError role reason
      | none => if wasBlocked then m.writeError role "" else m
    some (if changed || wasBlocked ≠ blocked.isSome then next.bump else next)
  else none

def trackRecoveryFailure (m : Manager) (role error : String) : Option Manager :=
  if role ∈ m.names then some (m.writeError role error) else none

/-- `RestoreDesiredState`: the flags from the store, and the roles whose configuration
    blocks them. -/
def restoreDesiredState (m : Manager) (profile : String) (flags : String → Bool)
    (blocked : String → Option String) : Manager :=
  let profile := if profile = "" then "default" else profile
  let profile := if m.knownProfile profile then profile else "default"
  let restore (next : Manager) (role : String) : Manager :=
    match flags role, blocked role with
    | true, some error =>
      (next.setRole role
        { next.roles role with enabled := false, lastError := error }).setRoleDesired role false
    | want, _ =>
      (next.setRole role { next.roles role with enabled := want }).setRoleDesired role want
  { m.names.foldl restore { m with activeProfile := profile } with
    desiredStateStatus := "restored" }.bump

def setTunnelProfiles (m : Manager) (role : String) (profiles : List String) : Option Manager :=
  m.lockedRole role fun r => some { r with profiles := profiles }

def createProfile (m : Manager) (name : String) : Manager :=
  { m with
    declaredProfiles :=
      if m.declaredProfiles.contains name then m.declaredProfiles
      else m.declaredProfiles ++ [name] }.bump

def setProfileRoles (m : Manager) (changes : String → Option (List String)) : Manager :=
  { m with
    roles := fun id =>
      match changes id with
      | some profiles => { m.roles id with profiles := profiles }
      | none => m.roles id }.bump

end Manager

/-- The locked sections that write what a snapshot reads. -/
inductive Section
  | command (store : Option (PersistedDesiredState → Option String)) (cmd : Command)
  | deferStart (role reason : String)
  | prepareStart (role : String)
  | beginStart (role : String)
  | startFailed (role error : String)
  | processStarted (role : String) (process : Nat)
  | stopRoleProcess (role : String)
  | wait (role : String) (process : Nat) (error : String) (schedule : Option (Option Int))
  | restartRole (role : String)
  | retryRole (role : String)
  | observeToadSnapshot (role : String) (process : Nat) (snapshot : ToadSnapshot)
  | observeCompatibilityState (role : String) (process : Nat) (published : ObservedState)
      (snapshot : ToadSnapshot)
  | refreshState (role : String) (process : Nat) (published : ObservedState)
      (snapshot : ToadSnapshot)
  | releaseFailed (role error : String)
  | releaseDone (role : String)
  | disableByConfiguration (role error : String)
  | ownershipUnknown (role error : String)
  | noteOwnership (role : String) (blocked : Option String) (wasBlocked changed : Bool)
  | trackRecoveryFailure (role error : String)
  | applyUnderlayChange (change : Change)
  | restoreDesiredState (profile : String) (flags : String → Bool)
      (blocked : String → Option String)
  | setTunnelProfiles (role : String) (profiles : List String)
  | createProfile (name : String)
  | setProfileRoles (changes : String → Option (List String))
  /-- the sections that count the revision and write nothing that is shown -/
  | tick

/-- The command fails by its credentials; that is `disableByConfiguration` and a call of
    the product after it. -/
def credentialsFail (m : Manager) : Command → Bool
  | .connectRole role => role ∈ m.names && (m.roles role).credentialError.isSome
  | _ => false

def Manager.runSection (m : Manager) : Section → Option Manager
  | .command store cmd => if credentialsFail m cmd then none else some (m.command store cmd).2
  | .deferStart role reason => m.deferStart role reason
  | .prepareStart role => m.prepareStart role
  | .beginStart role => m.beginStart role
  | .startFailed role error => m.startFailed role error
  | .processStarted role process => m.processStarted role process
  | .stopRoleProcess role => m.stopRoleProcess role
  | .wait role process error schedule => m.wait role process error schedule
  | .restartRole role => m.restartRole role
  | .retryRole role => m.retryRole role
  | .observeToadSnapshot role process snapshot =>
    m.observeToadSnapshotForProcess role process snapshot
  | .observeCompatibilityState role process published snapshot =>
    m.observeCompatibilityStateForProcess role process published snapshot
  | .refreshState role process published snapshot => m.refreshState role process published snapshot
  | .releaseFailed role error => m.releaseFailed role error
  | .releaseDone role => m.releaseDone role
  | .disableByConfiguration role error => m.disableByConfiguration role error
  | .ownershipUnknown role error => m.ownershipUnknown role error
  | .noteOwnership role blocked wasBlocked changed =>
    m.noteOwnership role blocked wasBlocked changed
  | .trackRecoveryFailure role error => m.trackRecoveryFailure role error
  | .applyUnderlayChange change => m.takeUnderlayChange change
  | .restoreDesiredState profile flags blocked => some (m.restoreDesiredState profile flags blocked)
  | .setTunnelProfiles role profiles => m.setTunnelProfiles role profiles
  | .createProfile name => some (m.createProfile name)
  | .setProfileRoles changes => some (m.setProfileRoles changes)
  | .tick => some m.bump

-- === Snapshots and a subscriber ===

/-- A call of the product outside of the manager's sections. -/
inductive ProductCall
  | call (c : ControllerCall)
  | setRecovery (role : String) (recovery : RecoveryState) (state : RoleState) (reason : String)

def productCall (c : Controller) : ProductCall → Controller
  | .call (.setRoleDesired role enabled) => (c.setRoleDesired role enabled).2
  | .call (.setUnderlay _ _) => c
  | .call (.observeToad _ _) => c
  | .call (.beginValidation role) => (c.beginValidation role).2
  | .call (.completeValidation token result) => (c.completeValidation token result).2
  | .call (.completeValidationPending token result) => (c.completeValidationPending token result).2
  | .call .requestResumeValidation => c.requestResumeValidation
  | .call (.requestRoleValidation role reason) => (c.requestRoleValidation role reason).2
  | .call (.markRecovering role reason) => (c.markRecovering role reason).2
  | .call (.beginToadGeneration role) => (c.beginToadGeneration role).2
  | .call (.updateRoleResources role endpoint publication parking validation) =>
    (c.updateRoleResources role endpoint publication parking validation).2
  | .call (.setRetrySchedule role next) => (c.setRetrySchedule role next).2
  | .call (.setRoleDiagnostic role reason) => (c.setRoleDiagnostic role reason).2
  | .setRecovery role recovery state reason => (c.setRecovery role recovery state reason).2

/-- Who takes a snapshot. -/
inductive Reader
  | client
  | subscribe
  | serve
  deriving DecidableEq, Repr

/-- A snapshot that is being taken; the manager's lock is held. -/
structure Reading where
  reader : Reader
  rows : List VisibleRole
  remaining : List String

/-- `serveSubscription`: its variables, and the last snapshot that the client got. -/
structure Subscription where
  revision : UInt64
  last : String
  sent : VisibleSnapshot

structure Feed where
  manager : Manager
  reading : Option Reading := none
  /-- the snapshots taken so far, with their revision -/
  taken : List (UInt64 × VisibleSnapshot) := []
  subscription : Option Subscription := none

inductive FeedAction
  | locked (sec : Section)
  | product (c : ProductCall)
  | beginSnapshot (reader : Reader)
  | readRole
  | endSnapshot

namespace Subscription

def receive (sub : Subscription) (revision : UInt64) (snapshot : VisibleSnapshot) : Subscription :=
  if subscriptionFingerprint snapshot = sub.last then { sub with revision := revision }
  else { revision := revision, last := subscriptionFingerprint snapshot, sent := snapshot }

end Subscription

namespace Feed

/-- The reader may take the lock: a subscriber that is served has seen an older revision. -/
def admits (s : Feed) : Reader → Bool
  | .client => true
  | .subscribe => s.subscription.isNone
  | .serve => s.subscription.any fun sub => sub.revision < s.manager.revision

def deliver (s : Feed) (snapshot : VisibleSnapshot) : Reader → Option Subscription
  | .client => s.subscription
  | .subscribe => some { revision := s.manager.revision, last := "", sent := snapshot }
  | .serve => s.subscription.map fun sub => sub.receive s.manager.revision snapshot

def step (s : Feed) : FeedAction → Option Feed
  | .locked sec =>
    if s.reading.isSome then none
    else (s.manager.runSection sec).map fun m => { s with manager := m }
  | .product c =>
    some { s with manager := { s.manager with product := productCall s.manager.product c } }
  | .beginSnapshot reader =>
    if s.reading.isNone && s.admits reader then
      some { s with reading := some ⟨reader, [], s.manager.names⟩ }
    else none
  | .readRole =>
    match s.reading with
    | some ⟨reader, rows, role :: remaining⟩ =>
      some { s with reading := some ⟨reader, rows ++ [s.manager.snapshotRow role], remaining⟩ }
    | _ => none
  | .endSnapshot =>
    match s.reading with
    | some ⟨reader, rows, []⟩ =>
      let snapshot := s.manager.snapshotWith rows
      some { s with
        reading := none
        taken := (s.manager.revision, snapshot) :: s.taken
        subscription := s.deliver snapshot reader }
    | _ => none

def Waiting (s : Feed) (sub : Subscription) : Prop :=
  s.subscription = some sub ∧ (∀ rd, s.reading = some rd → rd.reader ≠ .serve) ∧
    ¬sub.revision < s.manager.revision

end Feed

/-- The call is refused, or writes of what is shown the values that are there already. -/
def Redundant (c : Controller) : ProductCall → Prop
  | .call (.setRoleDesired role enabled) => ∀ r, c.roles role = some r → r.desired = enabled
  | .call (.beginValidation role) => ∀ r, c.roles role = some r → c.canValidate r = true →
      r.state = .validating ∧ r.reason = "validation requested"
  | .call (.completeValidation token result) =>
      ∀ r, c.roles token.role = some r → c.tokenCurrent token r = true →
        if result.healthy then
          r.state = .ready ∧ r.lastError = "" ∧
            r.reason = orDefault result.reason "validation complete"
        else
          r.state = .failed ∧ r.lastError = orDefault result.reason "validation failed" ∧
            r.reason = orDefault result.reason "validation failed"
  | .call (.completeValidationPending token result) =>
      ∀ r, c.roles token.role = some r → c.tokenCurrent token r = true →
        r.state = .recovering ∧
          r.lastError = orDefault result.reason "validation temporarily unhealthy" ∧
          r.reason = orDefault result.reason "validation temporarily unhealthy"
  | .call .requestResumeValidation =>
      ∀ role r, c.roles role = some r → r.desired = true → r.state ≠ .ready
  | .call (.requestRoleValidation role reason) => ∀ r, c.roles role = some r →
      r.desired = true → r.toadGeneration ≠ 0 → r.toad.routeReady = true →
        r.state = .validating ∧ r.reason = orDefault reason "validation requested"
  | .call (.markRecovering role reason) => ∀ r, c.roles role = some r → r.desired = true →
      r.state = .recovering ∧ r.reason = reason
  | .call (.beginToadGeneration role) => ∀ r, c.roles role = some r → r.desired = true →
      r.state = .starting
  | .call (.updateRoleResources role endpoint publication parking validation) =>
      ∀ r, c.roles role = some r →
        r.endpoint.state = endpoint.state ∧ r.publication.zone = publication.zone ∧
          r.publication.published = publication.published ∧ r.parking.active = parking.active ∧
          ((validation.state ≠ "" ∨ validation.reason ≠ "" ∨ validation.healthy = true) →
            r.lastError = if validation.healthy then "" else validation.reason)
  | .call (.setRoleDiagnostic role reason) => ∀ r, c.roles role = some r → r.lastError = reason
  | .setRecovery role _ state reason => ∀ r, c.roles role = some r →
      r.state = state ∧ r.reason = reason
  | .call (.setUnderlay _ _) | .call (.observeToad _ _) | .call (.setRetrySchedule _ _) => True

def hiddenError (m : Manager) (role error : String) : Prop :=
  (m.roles role).lastError = error ∨ (m.roles role).process ≠ none

/-- The condition on a section: the revision does not overflow, and a section that does not
    count it writes nothing new that is shown. -/
def Section.Careful (m : Manager) : Section → Prop
  | .command store cmd => m.revision + 1 ≠ 0 ∧
      ∀ e, (m.command store cmd).1 = .error e → e.persists = false
  | .beginStart role => (m.roles role).startPending = false ∧
      ∀ r, m.product.roles role = some r → r.desired = true → r.state = .starting
  | .trackRecoveryFailure role error => hiddenError m role error
  | .noteOwnership role blocked wasBlocked changed => m.revision + 1 ≠ 0 ∧
      ∀ reason, blocked = some reason → wasBlocked = true → changed = false →
        hiddenError m role reason
  | _ => m.revision + 1 ≠ 0

namespace Feed

def Careful (s : Feed) : FeedAction → Prop
  | .locked sec => sec.Careful s.manager
  | .product c => Redundant s.manager.product c
  | .endSnapshot => Plain s.manager.visible
  | _ => True

end Feed

/-- The runs from any manager, with no snapshot taken yet. -/
inductive FeedRun (R : Feed → FeedAction → Prop) : Feed → Prop
  | start (m : Manager) : FeedRun R { manager := m }
  | step {s s' : Feed} {a : FeedAction} (h : FeedRun R s) (ha : R s a) (hs : s.step a = some s') :
      FeedRun R s'

-- === Calls that show nothing new ===

variable {c : Controller} {role : String} {m m' : Manager} {f : Role → Option Role}
  {store : Option (PersistedDesiredState → Option String)}

theorem shown_update {f : RoleRuntime → Option RoleRuntime}
    (h : ∀ r r', c.roles role = some r → f r = some r' → shown r' = shown r) (id : String) :
    ((c.update role f).2.roles id).map shown = (c.roles id).map shown := by
  rcases c.update_spec role f with hu | ⟨r, r', hr, hf, hu⟩
  · rw [hu]
  rw [hu]
  simp only [roles_bump, roles_setRole]
  split
  · next hid => rw [hid, hr, Option.map_some, Option.map_some, h r r' hr hf]
  · rfl

theorem shown_setRole {r r' : RoleRuntime} (hr : c.roles role = some r) (h : shown r' = shown r)
    (id : String) : ((c.setRole role r').bump.roles id).map shown = (c.roles id).map shown := by
  simp only [roles_bump, roles_setRole]
  split
  · next hid => rw [hid, hr, Option.map_some, Option.map_some, h]
  · rfl

theorem shown_beginToadGeneration
    (h : ∀ r, c.roles role = some r → r.desired = true → r.state = .starting) (id : String) :
    ((c.beginToadGeneration role).2.roles id).map shown = (c.roles id).map shown := by
  refine shown_update (fun r r' hr hf => ?_) id
  cases hf
  cases hd : r.desired with
  | false => simp [shown, hd]
  | true => simp [shown, hd, h r hr hd]

theorem shown_productCall {call : ProductCall} (h : Redundant c call) (id : String) :
    ((productCall c call).roles id).map shown = (c.roles id).map shown := by
  cases call with
  | setRecovery role recovery state reason =>
    refine shown_update (fun r r' hr hf => ?_) id
    cases hf
    obtain ⟨hs, hreason⟩ := h r hr
    simp [shown, hs, hreason]
  | call call =>
    cases call with
    | setRoleDesired role enabled =>
      simp only [productCall, roles_setRoleDesired]
      split
      · next hid =>
        subst hid
        cases hr : c.roles id with
        | none => rfl
        | some r => simp [desire, h r hr]
      · rfl
    | setUnderlay next reason | observeToad role snapshot => rfl
    | beginValidation role =>
      simp only [productCall, beginValidation]
      cases hr : c.roles role with
      | none => rfl
      | some r =>
        dsimp only
        split
        · next hcan =>
          obtain ⟨hs, hreason⟩ := h r hr hcan
          exact shown_setRole hr (by simp [shown, hs, hreason]) id
        · rfl
    | completeValidation token result =>
      refine shown_update (fun r r' hr hf => ?_) id
      cases ht : c.tokenCurrent token r with
      | false => simp [ht] at hf
      | true =>
        have hshown := h r hr ht
        cases hh : result.healthy with
        | true =>
          simp only [ht, hh, Bool.not_true, Bool.false_eq_true, if_false, if_true] at hf hshown
          cases hf
          simp [shown, hshown]
        | false =>
          simp only [ht, hh, Bool.not_true, Bool.false_eq_true, if_false] at hf hshown
          cases hf
          simp [shown, hshown]
    | completeValidationPending token result =>
      refine shown_update (fun r r' hr hf => ?_) id
      cases ht : c.tokenCurrent token r with
      | false => simp [ht] at hf
      | true =>
        have hshown := h r hr ht
        simp only [ht, Bool.not_true, Bool.false_eq_true, if_false] at hf
        cases hf
        simp [shown, hshown]
    | requestResumeValidation =>
      show ((c.roles id).map resumedRole).map shown = _
      cases hr : c.roles id with
      | none => rfl
      | some r =>
        have hr' := h id r hr
        by_cases hd : r.desired = true
        · simp [resumedRole, hd, hr' hd]
        · simp [resumedRole, hd]
    | requestRoleValidation role reason =>
      refine shown_update (fun r r' hr hf => ?_) id
      split_ifs at hf with hrefused
      cases hf
      simp only [Bool.or_eq_true, Bool.not_eq_true', decide_eq_true_eq, not_or] at hrefused
      obtain ⟨hs, hreason⟩ := h r hr (by simpa using hrefused.1.1) hrefused.1.2
        (by simpa using hrefused.2)
      simp [shown, hs, hreason]
    | markRecovering role reason =>
      refine shown_update (fun r r' hr hf => ?_) id
      split_ifs at hf with hd
      cases hf
      obtain ⟨hs, hreason⟩ := h r hr (by simpa using hd)
      simp [shown, hs, hreason]
    | beginToadGeneration role => exact shown_beginToadGeneration h id
    | updateRoleResources role endpoint publication parking validation =>
      refine shown_update (fun r r' hr hf => ?_) id
      cases hf
      obtain ⟨he, hz, hp, hk, herror⟩ := h r hr
      simp only [shown, he, hz, hp, hk, Prod.mk.injEq, true_and, and_true]
      split
      · next hv =>
        rw [herror (by simpa [or_assoc] using hv)]
        cases validation.healthy with
        | true => simp
        | false => by_cases hreason : validation.reason = "" <;> simp [hreason]
      · rfl
    | setRetrySchedule role next =>
      refine shown_update (fun r r' hr hf => ?_) id
      cases hf
      rfl
    | setRoleDiagnostic role reason =>
      refine shown_update (fun r r' hr hf => ?_) id
      cases hf
      simp [shown, h r hr]

-- === Sections ===

/-- The same revision, and the same to be seen. -/
structure SameView (m m' : Manager) : Prop where
  revision : m'.revision = m.revision
  names : m'.names = m.names
  rows : ∀ role, m'.snapshotRow role = m.snapshotRow role
  visible : m'.visible = m.visible

theorem SameView.refl (m : Manager) : SameView m m := ⟨rfl, rfl, fun _ => rfl, rfl⟩

theorem sameView_product (h : ∀ id, (c.roles id).map shown = (m.product.roles id).map shown) :
    SameView m { m with product := c } := by
  have hrows : ∀ role, ({ m with product := c } : Manager).snapshotRow role = m.snapshotRow role :=
    fun role => snapshotRole_congr role _ (h role)
  exact ⟨rfl, rfl, hrows, visible_congr rfl hrows h rfl rfl rfl⟩

theorem sameView_setRole {r : Role} (hp : r.profiles = (m.roles role).profiles)
    (hrow : ∀ product, snapshotRole role r product = snapshotRole role (m.roles role) product) :
    SameView m (m.setRole role r) := by
  have hrows : ∀ id, (m.setRole role r).snapshotRow id = m.snapshotRow id := by
    intro id
    by_cases hid : id = role
    · subst hid
      simp only [Manager.snapshotRow, Manager.setRole, if_true]
      exact hrow _
    · simp only [Manager.snapshotRow, Manager.setRole, if_neg hid]
  have hprofiles : (m.setRole role r).profileNames = m.profileNames := by
    have : ∀ id, ((m.setRole role r).roles id).profiles = (m.roles id).profiles := by
      intro id
      by_cases hid : id = role
      · subst hid
        simpa only [Manager.setRole, if_true] using hp
      · simp only [Manager.setRole, if_neg hid]
    simp only [Manager.profileNames, this]
    rfl
  exact ⟨rfl, rfl, hrows, visible_congr rfl hrows (fun _ => rfl) rfl hprofiles rfl⟩

theorem SameView.trans {m1 m2 m3 : Manager} (h : SameView m1 m2) (h' : SameView m2 m3) :
    SameView m1 m3 :=
  ⟨h'.revision.trans h.revision, h'.names.trans h.names,
    fun role => (h'.rows role).trans (h.rows role), h'.visible.trans h.visible⟩

theorem sameView_writeError {error : String} (h : hiddenError m role error) :
    SameView m (m.writeError role error) := by
  refine sameView_setRole rfl fun product => ?_
  rcases h with h | h
  · rw [← h]
  · obtain ⟨p, hp⟩ := Option.ne_none_iff_exists'.mp h
    simp only [snapshotRole, shownState, shownEndpoint, observedState, hp]

theorem revision_lockedRole (h : m.lockedRole role f = some m') : m'.revision = m.revision + 1 := by
  unfold Manager.lockedRole at h
  split at h
  · obtain ⟨r, _, rfl⟩ := Option.map_eq_some_iff.mp h
    rfl
  · cases h

theorem revision_lockedRole_map {g : Manager → Manager} (h : (m.lockedRole role f).map g = some m')
    (hg : ∀ m, (g m).revision = m.revision) : m'.revision = m.revision + 1 := by
  obtain ⟨next, hnext, rfl⟩ := Option.map_eq_some_iff.mp h
  rw [hg, revision_lockedRole hnext]

theorem revision_observePublished {process : Nat} {published : ObservedState}
    {snapshot : ToadSnapshot} {unlessStreamed : Bool}
    (h : m.observePublished role process published snapshot unlessStreamed = some m') :
    m'.revision = m.revision + 1 :=
  revision_lockedRole_map h fun _ => rfl

theorem revision_saved {next : Manager} (h : m.persistDesired store = (none, next)) :
    next.revision = m.revision := by
  unfold Manager.persistDesired at h
  split at h
  · cases h
    rfl
  split at h
  · cases h
  · cases h
    rfl

theorem revision_setEnabled (m : Manager) (role : String) (want : Bool) :
    (m.setEnabled role want).revision = m.revision := rfl

theorem revision_setDisconnected (m : Manager) (role : String) :
    (m.setDisconnected role).revision = m.revision := rfl

theorem revision_switchRole (m : Manager) (role : String) (want : Bool) :
    (m.switchRole role want).revision = m.revision := by
  unfold Manager.switchRole
  dsimp only
  split <;> rfl

theorem command_cases {cmd : Command} (hcred : credentialsFail m cmd = false)
    (h : ∀ e, (m.command store cmd).1 = .error e → e.persists = false) :
    (m.command store cmd).2 = m ∨ (m.command store cmd).2.revision = m.revision + 1 := by
  have failed : ∀ error, ¬(CommandError.persistDesired error).persists = false :=
    fun _ h => by cases h
  cases cmd with
  | connectAll =>
    simp only [Manager.command, Manager.connectAll] at h ⊢
    rcases hp : Manager.persistDesired store _ with ⟨_ | error, next⟩
    · refine .inr (congrArg (· + 1) ((revision_saved hp).trans ?_))
      exact foldl_preserves Manager.revision (fun m role => revision_setEnabled m role _) _ _
    · simp only [hp] at h
      exact absurd (h _ rfl) (failed error)
  | disconnectAll =>
    simp only [Manager.command, Manager.disconnectAll] at h ⊢
    rcases hp : Manager.persistDesired store _ with ⟨_ | error, next⟩
    · refine .inr (congrArg (· + 1) ((revision_saved hp).trans ?_))
      exact foldl_preserves Manager.revision (fun m role => by
        rw [revision_setDisconnected, revision_setEnabled]) _ _
    · simp only [hp] at h
      exact absurd (h _ rfl) (failed error)
  | connectRole role =>
    by_cases hrole : role ∈ m.names
    · cases herror : (m.roles role).credentialError with
      | some error => simp [credentialsFail, herror, hrole] at hcred
      | none =>
        simp only [Manager.command, Manager.connectRole, hrole, herror, not_true_eq_false,
          if_false] at h ⊢
        rcases hp : Manager.persistDesired store _ with ⟨_ | error, next⟩
        · have hrev := revision_saved hp
          exact .inr (congrArg (· + 1) hrev)
        · simp only [hp] at h
          exact absurd (h _ rfl) (failed error)
    · exact .inl (by simp only [Manager.command, Manager.connectRole, hrole, not_false_eq_true,
        if_true])
  | disconnectRole role =>
    by_cases hrole : role ∈ m.names
    · simp only [Manager.command, Manager.disconnectRole, hrole, not_true_eq_false,
        if_false] at h ⊢
      rcases hp : Manager.persistDesired store _ with ⟨_ | error, next⟩
      · have hrev := revision_saved hp
        exact .inr (congrArg (· + 1) hrev)
      · simp only [hp] at h
        exact absurd (h _ rfl) (failed error)
    · exact .inl (by simp only [Manager.command, Manager.disconnectRole, hrole, not_false_eq_true,
        if_true])
  | setActiveProfile profile =>
    cases hknown : m.knownProfile profile with
    | false => exact .inl (by simp [Manager.command, Manager.setActiveProfile, hknown])
    | true =>
      by_cases hsame : m.activeProfile = profile
      · exact .inl (by simp [Manager.command, Manager.setActiveProfile, hknown, hsame])
      simp only [Manager.command, Manager.setActiveProfile, hknown, Bool.not_true,
        Bool.false_eq_true, hsame, if_false] at h ⊢
      rcases hp : Manager.persistDesired store _ with ⟨_ | error, next⟩
      · refine .inr (congrArg (· + 1) ((revision_saved hp).trans ?_))
        exact foldl_preserves Manager.revision (fun m role => revision_switchRole m role _) _ _
      · simp only [hp] at h
        exact absurd (h _ rfl) fun h => by cases h

theorem revision_takeUnderlayChange {change : Change} (h : m.takeUnderlayChange change = some m') :
    m'.revision = m.revision + 1 := by
  obtain ⟨_, _, rfl⟩ := Option.map_eq_some_iff.mp h
  rfl

theorem revision_restoreDesiredState (m : Manager) (profile : String) (flags : String → Bool)
    (blocked : String → Option String) :
    (m.restoreDesiredState profile flags blocked).revision = m.revision + 1 := by
  refine congrArg (· + 1) (foldl_preserves Manager.revision (fun next role => ?_) _ _)
  split <;> rfl

/-- The start of a role without a process shows nothing new when nothing was deferred and
    the product has it starting already. -/
theorem sameView_beginStart (h : m.beginStart role = some m')
    (hc : (Section.beginStart role).Careful m) : SameView m m' := by
  obtain ⟨hpending, hstarting⟩ := hc
  unfold Manager.beginStart at h
  dsimp only at h
  split at h
  · next hguard =>
    cases h
    simp only [Bool.and_eq_true, decide_eq_true_eq, Option.isNone_iff_eq_none] at hguard
    have hrole : SameView m (m.setRole role
        { m.roles role with stateValid := false, startPending := false, startReason := "" }) := by
      refine sameView_setRole rfl fun product => ?_
      simp only [snapshotRole, shownState, shownEndpoint, observedState, hguard.2, hpending,
        Option.isSome_none, Bool.and_false, Bool.false_and, Bool.false_eq_true, if_false]
    exact hrole.trans (sameView_product (shown_beginToadGeneration hstarting))
  · cases h

/-- The ownership counts the revision, or writes an error that is not shown. -/
theorem noteOwnership_cases {blocked : Option String} {wasBlocked changed : Bool}
    (h : m.noteOwnership role blocked wasBlocked changed = some m')
    (hc : ∀ reason, blocked = some reason → wasBlocked = true → changed = false →
      hiddenError m role reason) : m'.revision = m.revision + 1 ∨ SameView m m' := by
  simp only [Manager.noteOwnership] at h
  split at h
  · cases h
    cases blocked with
    | none =>
      cases wasBlocked
      · cases changed
        · exact .inr (.refl m)
        · exact .inl rfl
      · cases changed <;> exact .inl rfl
    | some reason =>
      cases wasBlocked
      · cases changed <;> exact .inl rfl
      · cases changed
        · exact .inr (sameView_writeError (hc reason rfl rfl rfl))
        · exact .inl rfl
  · cases h

theorem section_cases {sec : Section} (h : m.runSection sec = some m') (hc : sec.Careful m) :
    (m'.revision = m.revision + 1 ∧ m.revision + 1 ≠ 0) ∨ SameView m m' := by
  cases sec with
  | command store cmd =>
    simp only [Manager.runSection] at h
    split at h
    · cases h
    next hcred =>
    cases h
    rcases command_cases (by simpa using hcred) hc.2 with hm | hm
    · rw [hm]
      exact .inr (.refl m)
    · exact .inl ⟨hm, hc.1⟩
  | beginStart role => exact .inr (sameView_beginStart h hc)
  | trackRecoveryFailure role error =>
    simp only [Manager.runSection, Manager.trackRecoveryFailure] at h
    split at h
    · cases h
      exact .inr (sameView_writeError hc)
    · cases h
  | noteOwnership role blocked wasBlocked changed =>
    exact (noteOwnership_cases h hc.2).imp (fun hm => ⟨hm, hc.1⟩) id
  | applyUnderlayChange change => exact .inl ⟨revision_takeUnderlayChange h, hc⟩
  | restoreDesiredState profile flags blocked =>
    cases h
    exact .inl ⟨revision_restoreDesiredState m profile flags blocked, hc⟩
  | createProfile | setProfileRoles | tick =>
    cases h
    exact .inl ⟨rfl, hc⟩
  | prepareStart | stopRoleProcess | observeToadSnapshot =>
    exact .inl ⟨revision_lockedRole_map h fun _ => rfl, hc⟩
  | wait role process error schedule =>
    refine .inl ⟨revision_lockedRole_map h fun next => ?_, hc⟩
    cases schedule <;> rfl
  | observeCompatibilityState | refreshState => exact .inl ⟨revision_observePublished h, hc⟩
  | _ =>
    simp only [Manager.runSection, Manager.deferStart, Manager.startFailed, Manager.processStarted,
      Manager.restartRole, Manager.retryRole, Manager.releaseFailed, Manager.releaseDone,
      Manager.disableByConfiguration, Manager.ownershipUnknown, Manager.setTunnelProfiles] at h
    exact .inl ⟨revision_lockedRole h, hc⟩

-- === Runs ===

/-- What holds of the snapshots taken so far, of the one being taken, and of the
    subscriber. -/
structure Feed.Honest (s : Feed) : Prop where
  past : ∀ rev v, (rev, v) ∈ s.taken →
    rev ≤ s.manager.revision ∧ (rev = s.manager.revision → v = s.manager.visible)
  agree : ∀ rev v v', (rev, v) ∈ s.taken → (rev, v') ∈ s.taken → v = v'
  rows : ∀ rd, s.reading = some rd →
    rd.rows ++ rd.remaining.map s.manager.snapshotRow = s.manager.names.map s.manager.snapshotRow
  seen : ∀ sub, s.subscription = some sub → sub.revision ≤ s.manager.revision ∧
    (sub.revision = s.manager.revision → sub.sent = s.manager.visible)
  last : ∀ sub, s.subscription = some sub → Plain sub.sent ∧
    (sub.last = "" ∨ sub.last = subscriptionFingerprint sub.sent)

namespace Feed.Honest

variable {s s' : Feed}

theorem sameView (h : s.Honest) (hm : SameView s.manager m) :
    Feed.Honest { s with manager := m } := by
  have hrow : m.snapshotRow = s.manager.snapshotRow := funext hm.rows
  constructor
  · show ∀ rev v, (rev, v) ∈ s.taken → rev ≤ m.revision ∧ (rev = m.revision → v = m.visible)
    rw [hm.revision, hm.visible]
    exact h.past
  · exact h.agree
  · show ∀ rd, s.reading = some rd →
      rd.rows ++ rd.remaining.map m.snapshotRow = m.names.map m.snapshotRow
    rw [hrow, hm.names]
    exact h.rows
  · show ∀ sub, s.subscription = some sub →
      sub.revision ≤ m.revision ∧ (sub.revision = m.revision → sub.sent = m.visible)
    rw [hm.revision, hm.visible]
    exact h.seen
  · exact h.last

theorem counted (h : s.Honest) (hr : s.reading = none) (hm : m.revision = s.manager.revision + 1)
    (hn : s.manager.revision + 1 ≠ 0) : Feed.Honest { s with manager := m } := by
  have hlt : s.manager.revision < m.revision := by
    rw [hm]
    exact lt_succ_of_ne hn
  -- an older revision is neither the new one nor above it
  have holder : ∀ rev ≤ s.manager.revision, ∀ {P : Prop},
      rev ≤ m.revision ∧ (rev = m.revision → P) :=
    fun rev hle _ => ⟨UInt64.le_of_lt (UInt64.lt_of_le_of_lt hle hlt),
      fun heq => absurd heq (UInt64.ne_of_lt (UInt64.lt_of_le_of_lt hle hlt))⟩
  refine ⟨fun rev v hmem => holder rev (h.past rev v hmem).1, h.agree, fun rd hrd => ?_,
    fun sub hsub => holder sub.revision (h.seen sub hsub).1, h.last⟩
  have hrd' : s.reading = some rd := hrd
  rw [hr] at hrd'
  cases hrd'

theorem snapshot_eq (h : s.Honest) {reader : Reader} {rows : List VisibleRole}
    (hr : s.reading = some ⟨reader, rows, []⟩) :
    s.manager.snapshotWith rows = s.manager.visible := by
  have hrows := h.rows _ hr
  simp only [List.map_nil, List.append_nil] at hrows
  rw [hrows]
  rfl

theorem deliver (h : s.Honest) (hp : Plain s.manager.visible) (reader : Reader) (sub : Subscription)
    (hsub : s.deliver s.manager.visible reader = some sub) :
    (sub.revision ≤ s.manager.revision ∧
        (sub.revision = s.manager.revision → sub.sent = s.manager.visible)) ∧
      Plain sub.sent ∧ (sub.last = "" ∨ sub.last = subscriptionFingerprint sub.sent) := by
  cases reader with
  | client => exact ⟨h.seen sub hsub, h.last sub hsub⟩
  | subscribe =>
    cases hsub
    exact ⟨⟨UInt64.le_refl _, fun _ => rfl⟩, hp, .inl rfl⟩
  | serve =>
    obtain ⟨old, hold, rfl⟩ := Option.map_eq_some_iff.mp hsub
    obtain ⟨hplain, hlast⟩ := h.last old hold
    unfold Subscription.receive
    by_cases hfp : subscriptionFingerprint s.manager.visible = old.last
    · rw [if_pos hfp]
      refine ⟨⟨UInt64.le_refl _, fun _ => ?_⟩, hplain, hlast⟩
      rcases hlast with hempty | hlast
      · exact absurd (hfp.trans hempty) (fingerprint_ne_empty _)
      · exact fingerprint_injective hplain hp (hlast.symm.trans hfp.symm)
    · rw [if_neg hfp]
      exact ⟨⟨UInt64.le_refl _, fun _ => rfl⟩, hp, .inr rfl⟩

theorem step {a : FeedAction} (h : s.Honest) (ha : s.Careful a) (hs : s.step a = some s') :
    s'.Honest := by
  cases a with
  | locked sec =>
    simp only [Feed.step] at hs
    split at hs
    · cases hs
    next hr =>
    obtain ⟨m, hm, rfl⟩ := Option.map_eq_some_iff.mp hs
    rcases section_cases hm ha with ⟨hcount, hn⟩ | hview
    · exact h.counted (by simpa using hr) hcount hn
    · exact h.sameView hview
  | product c =>
    cases hs
    exact h.sameView (sameView_product (shown_productCall ha))
  | beginSnapshot reader =>
    simp only [Feed.step] at hs
    split at hs
    · cases hs
      refine ⟨h.past, h.agree, fun rd hrd => ?_, h.seen, h.last⟩
      cases hrd
      rfl
    · cases hs
  | readRole =>
    simp only [Feed.step] at hs
    split at hs
    · next reader rows role remaining hr =>
      cases hs
      refine ⟨h.past, h.agree, fun rd hrd => ?_, h.seen, h.last⟩
      cases hrd
      simpa using h.rows _ hr
    · cases hs
  | endSnapshot =>
    simp only [Feed.step] at hs
    split at hs
    · next reader rows hr =>
      cases hs
      rw [h.snapshot_eq hr]
      have hsub := h.deliver ha reader
      refine ⟨?_, ?_, fun rd hrd => ?_, fun sub h' => (hsub sub h').1,
        fun sub h' => (hsub sub h').2⟩
      · intro rev v hmem
        rcases List.mem_cons.mp hmem with heq | hmem
        · cases heq
          exact ⟨UInt64.le_refl _, fun _ => rfl⟩
        · exact h.past rev v hmem
      · intro rev v v' hv hv'
        rcases List.mem_cons.mp hv with heq | hv <;> rcases List.mem_cons.mp hv' with heq' | hv'
        · cases heq
          cases heq'
          rfl
        · cases heq
          exact ((h.past _ _ hv').2 rfl).symm
        · cases heq'
          exact (h.past _ _ hv).2 rfl
        · exact h.agree rev v v' hv hv'
      · cases hrd
    · cases hs

end Feed.Honest

namespace FeedRun

variable {s : Feed}

/-- Snapshots of one revision are equal, and a subscriber that waits has been sent what is
    to be seen. -/
theorem equal_revisions (h : FeedRun Feed.Careful s) :
    (∀ rev v v', (rev, v) ∈ s.taken → (rev, v') ∈ s.taken → v = v') ∧
      ∀ sub, s.Waiting sub → sub.sent = s.manager.visible := by
  have hinv : s.Honest := by
    induction h with
    | start m =>
      exact ⟨fun _ _ h => (by cases h), fun _ _ _ h => (by cases h), fun _ h => (by cases h),
        fun _ h => (by cases h), fun _ h => (by cases h)⟩
    | step _ ha hs ih => exact ih.step ha hs
  refine ⟨hinv.agree, fun sub ⟨hsub, _, hwait⟩ => ?_⟩
  obtain ⟨hle, hsent⟩ := hinv.seen sub hsub
  exact hsent (UInt64.le_antisymm hle (UInt64.not_lt.mp hwait))

def freshManager : Manager where
  names := ["work"]
  nodup := List.nodup_singleton _
  roles := fun _ => {}
  product := .new ["work"]

def readySnapshot : ToadSnapshot :=
  { generation := 1, revision := 1, state := "ready", routeReady := true, sessionConnected := true }

def play (s : Feed) : List FeedAction → Option Feed
  | [] => some s
  | a :: actions => (s.step a).bind fun s => play s actions

theorem run_play {s' : Feed} (h : FeedRun (fun _ _ => True) s) (actions : List FeedAction)
    (hp : play s actions = some s') : FeedRun (fun _ _ => True) s' := by
  induction actions generalizing s with
  | nil =>
    cases hp
    exact h
  | cons a actions ih =>
    obtain ⟨next, hnext, hp⟩ := Option.bind_eq_some_iff.mp hp
    exact ih (h.step trivial hnext) hp

def validatingFeed : List FeedAction :=
  [.locked (.command none (.connectRole "work")),
    .locked (.applyUnderlayChange ⟨sampleUnderlay, .unspecified, false⟩),
    .locked (.beginStart "work"), .locked (.processStarted "work" 1),
    .locked (.observeToadSnapshot "work" 1 readySnapshot),
    .product (.call (.beginValidation "work")),
    .beginSnapshot .subscribe, .readRole, .endSnapshot]

def validatedFeed : List FeedAction :=
  [.product (.call (.completeValidation ⟨"work", 1, 1, 1⟩ sampleHealthy)),
    .beginSnapshot .client, .readRole, .endSnapshot]

theorem plain_freshManager : Plain freshManager.visible := by
  constructor <;> decide

def connectedManager : Manager := (freshManager.command none (.connectRole "work")).2

theorem plain_connectedManager : Plain connectedManager.visible := by
  constructor <;> decide

/-- A role is connected between two snapshots of a subscriber. A third snapshot, of another
    client, has the revision of the second. -/
theorem equal_revisions_connected : ∃ s sub, FeedRun Feed.Careful s ∧
    s.taken.map (fun t => (t.1, t.2.aggregateState)) =
      [(2, "Connecting"), (2, "Connecting"), (1, "Stopped")] ∧
    (∀ v v', (2, v) ∈ s.taken → (2, v') ∈ s.taken → v = v') ∧
    s.Waiting sub ∧ sub.sent = s.manager.visible := by
  have h₁ := (FeedRun.start (R := Feed.Careful) freshManager).step
    (a := .beginSnapshot .subscribe) trivial rfl
  have h₂ := h₁.step (a := .readRole) trivial rfl
  have h₃ := h₂.step (a := .endSnapshot) plain_freshManager rfl
  have hcount : Section.Careful freshManager (.command none (.connectRole "work")) :=
    ⟨by decide, fun _ h => by cases h⟩
  have h₄ := h₃.step (a := .locked (.command none (.connectRole "work"))) hcount rfl
  have h₅ := h₄.step (a := .product (.call (.setRetrySchedule "work" none))) trivial rfl
  have h₆ := h₅.step (a := .beginSnapshot .serve) trivial rfl
  have h₇ := h₆.step (a := .readRole) trivial rfl
  have h₈ := h₇.step (a := .endSnapshot) plain_connectedManager rfl
  have h₉ := h₈.step (a := .beginSnapshot .client) trivial rfl
  have h₁₀ := h₉.step (a := .readRole) trivial rfl
  have h₁₁ := h₁₀.step (a := .endSnapshot) plain_connectedManager rfl
  obtain ⟨hequal, hsent⟩ := equal_revisions h₁₁
  exact ⟨_, _, h₁₁, by decide, hequal 2, ⟨rfl, fun _ h => (by cases h), by decide⟩,
    hsent _ ⟨rfl, fun _ h => (by cases h), by decide⟩⟩

/-- The subscriber is told that a role is being validated and hears of nothing else, while
    the role is ready. -/
theorem stale_subscriber : ∃ s rev v v' sub, FeedRun (fun _ _ => True) s ∧
    (rev, v) ∈ s.taken ∧ (rev, v') ∈ s.taken ∧ v ≠ v' ∧
      s.Waiting sub ∧ sub.sent ≠ s.manager.visible := by
  refine ⟨_, 5, _, _, _, run_play (.start freshManager) (validatingFeed ++ validatedFeed) rfl,
    .tail _ (.head _), .head _, ?_, ⟨rfl, fun _ h => (by cases h), by decide⟩, ?_⟩
  · intro h
    exact absurd (congrArg VisibleSnapshot.aggregateState h) (by decide)
  · intro h
    exact absurd (congrArg VisibleSnapshot.aggregateState h) (by decide)

end FeedRun

end Kikimora.Control

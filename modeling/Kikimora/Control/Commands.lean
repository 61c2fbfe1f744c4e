import Kikimora.Core.Controller
import Kikimora.Lib.Fold

/-!
# The operator's commands

The locked part of the lifecycle commands: they write the wish into the roles and
into the product state, save it, and take it back when the save fails. The work
that follows a saved command is in `Kikimora.Control.Lifecycle`.
-/

namespace Kikimora.Control

open Kikimora.Core Lib
open Controller

-- === The manager ===

/-- The part of a Toad's published state that the manager shows. -/
structure ObservedState where
  state : String := ""
  reason : String := ""
  routeReady : Bool := false
  connected : Bool := false
  deriving DecidableEq, Repr

structure Role where
  profiles : List String := []
  /-- the verdict on the credentials in the role's configuration -/
  credentialError : Option String := none
  process : Option Nat := none
  lastError : String := ""
  enabled : Bool := false
  observed : ObservedState := {}
  stateValid : Bool := false
  streamed : Bool := false
  operation : UInt64 := 0
  startPending : Bool := false
  startReason : String := ""
  deriving DecidableEq, Repr

structure Manager where
  names : List String
  nodup : names.Nodup
  roles : String → Role
  activeProfile : String := "default"
  declaredProfiles : List String := []
  underlay : Underlay := {}
  product : Controller
  startRetryPending : String → Bool := fun _ => false
  /-- the attempts of a start's backoff -/
  startBackoffs : String → Option Int := fun _ => none
  recoveryRetryPending : String → Bool := fun _ => false
  recoveryBackoffs : String → Option Int := fun _ => none
  desiredStateStatus : String := ""
  revision : UInt64 := 1

structure PersistedDesiredState where
  activeProfile : String
  roles : List (String × Bool)
  deriving DecidableEq, Repr

inductive CommandError
  | unknownToad (role : String)
  | unknownProfile (profile : String)
  | credentials (error : String)
  | persistDesired (error : String)
  | persistProfile (error : String)
  deriving DecidableEq, Repr

def CommandError.text : CommandError → String
  | .unknownToad role => "unknown Toad " ++ role.quote
  | .unknownProfile profile => "unknown profile " ++ profile.quote
  | .credentials error => error
  | .persistDesired error => "persist desired state: " ++ error
  | .persistProfile error => "persist active profile: " ++ error

def CommandError.persists : CommandError → Bool
  | .persistDesired _ | .persistProfile _ => true
  | _ => false

/-- What a saved command leaves to be done for a role. -/
inductive RoleWork
  | start (role : String)
  | stop (role : String)
  deriving DecidableEq, Repr

inductive Command
  | connectAll
  | disconnectAll
  | connectRole (role : String)
  | disconnectRole (role : String)
  | setActiveProfile (profile : String)
  deriving DecidableEq, Repr

namespace Manager

def bump (m : Manager) : Manager := { m with revision := m.revision + 1 }

def setRole (m : Manager) (role : String) (r : Role) : Manager :=
  { m with roles := fun id => if id = role then r else m.roles id }

def setRoleDesired (m : Manager) (role : String) (want : Bool) : Manager :=
  { m with product := (m.product.setRoleDesired role want).2 }

def setDisconnected (m : Manager) (role : String) : Manager :=
  let product := (m.product.setRecovery role {} .stopped "disconnected").2
  { m with product := (product.setRetrySchedule role none).2 }

def wanted (m : Manager) (profile role : String) : Bool :=
  profile = "default" || (m.roles role).profiles.contains profile

def knownProfile (m : Manager) (profile : String) : Bool :=
  profile = "default" || (profile ≠ "" && m.declaredProfiles.contains profile) ||
    m.names.any (m.wanted profile)

def desiredState (m : Manager) : PersistedDesiredState where
  activeProfile := m.activeProfile
  roles := m.names.map fun role => (role, (m.roles role).enabled)

def persistDesired (store : Option (PersistedDesiredState → Option String)) (m : Manager) :
    Option String × Manager :=
  match store with
  | none => (none, m)
  | some save =>
    match save m.desiredState with
    | some error => (some error, { m with desiredStateStatus := "save failed: " ++ error })
    | none => (none, { m with desiredStateStatus := "persisted" })

def setEnabled (m : Manager) (role : String) (want : Bool) : Manager :=
  let r := m.roles role
  let operation := if r.enabled ≠ want then r.operation + 1 else r.operation
  (m.setRole role { r with enabled := want, operation := operation }).setRoleDesired role want

def unsetEnabled (m : Manager) (role : String) (previous : Bool) : Manager :=
  let r := m.roles role
  let operation := if r.enabled ≠ previous then r.operation - 1 else r.operation
  (m.setRole role
    { r with enabled := previous, operation := operation }).setRoleDesired role previous

def resetEnabled (m : Manager) (role : String) (previous : Role) : Manager :=
  (m.setRole role
    { m.roles role with
      enabled := previous.enabled
      operation := previous.operation }).setRoleDesired role previous.enabled

def connectAll (store : Option (PersistedDesiredState → Option String)) (m : Manager) :
    Except CommandError (List RoleWork) × Manager :=
  let next :=
    m.names.foldl (fun next role => next.setEnabled role (m.wanted m.activeProfile role)) m
  match next.persistDesired store with
  | (some error, next) =>
    (.error (.persistDesired error),
      m.names.foldl (fun next role => next.unsetEnabled role (m.roles role).enabled) next)
  | (none, next) => (.ok (m.names.map .start), next.bump)

def disconnectAll (store : Option (PersistedDesiredState → Option String)) (m : Manager) :
    Except CommandError (List RoleWork) × Manager :=
  let next := m.names.foldl (fun next role => (next.setEnabled role false).setDisconnected role) m
  match next.persistDesired store with
  | (some error, next) =>
    (.error (.persistDesired error),
      m.names.foldl (fun next role => next.unsetEnabled role (m.roles role).enabled) next)
  | (none, next) => (.ok (m.names.map .stop), next.bump)

def failByConfiguration (m : Manager) (role error : String) : Manager :=
  (m.setRole role { m.roles role with enabled := false, lastError := error }).bump.setRoleDesired
    role false

def connectRole (store : Option (PersistedDesiredState → Option String)) (m : Manager)
    (role : String) : Except CommandError (List RoleWork) × Manager :=
  if role ∉ m.names then (.error (.unknownToad role), m)
  else
    match (m.roles role).credentialError with
    | some error => (.error (.credentials error), m.failByConfiguration role error)
    | none =>
      match (m.setEnabled role true).persistDesired store with
      | (some error, next) =>
        (.error (.persistDesired error), next.resetEnabled role (m.roles role))
      | (none, next) => (.ok [.start role], next.bump)

def disconnectRole (store : Option (PersistedDesiredState → Option String)) (m : Manager)
    (role : String) : Except CommandError (List RoleWork) × Manager :=
  if role ∉ m.names then (.error (.unknownToad role), m)
  else
    let next := m.setRole role { m.roles role with startPending := false, startReason := "" }
    let next := { next with
      startRetryPending := fun id => if id = role then false else m.startRetryPending id
      startBackoffs := fun id => if id = role then none else m.startBackoffs id }
    match ((next.setEnabled role false).setDisconnected role).persistDesired store with
    | (some error, next) => (.error (.persistDesired error), next.resetEnabled role (m.roles role))
    | (none, next) =>
      (.ok [.stop role], (next.setRole role { next.roles role with lastError := "" }).bump)

/-- `SetActiveProfile` writes the roles that it changes; the operation counts the ones
    that it disables. -/
def switchRole (m : Manager) (role : String) (want : Bool) : Manager :=
  let r := m.roles role
  if r.enabled = want then m
  else
    let operation := if r.enabled then r.operation + 1 else r.operation
    (m.setRole role { r with enabled := want, operation := operation }).setRoleDesired role want

def setActiveProfile (store : Option (PersistedDesiredState → Option String)) (m : Manager)
    (profile : String) : Except CommandError (List RoleWork) × Manager :=
  if !m.knownProfile profile then (.error (.unknownProfile profile), m)
  else if m.activeProfile = profile then (.ok [], m)
  else
    let next := m.names.foldl (fun next role => next.switchRole role (m.wanted profile role))
      { m with activeProfile := profile }
    match next.persistDesired store with
    | (some error, next) =>
      let next := m.names.foldl (fun next role => next.resetEnabled role (m.roles role)) next
      (.error (.persistProfile error), { next with activeProfile := m.activeProfile })
    | (none, next) =>
      let changed := m.names.filter fun role => (m.roles role).enabled ≠ m.wanted profile role
      (.ok (changed.map fun role => if m.wanted profile role then .start role else .stop role),
        next.bump)

def command (store : Option (PersistedDesiredState → Option String)) (m : Manager) :
    Command → Except CommandError (List RoleWork) × Manager
  | .connectAll => m.connectAll store
  | .disconnectAll => m.disconnectAll store
  | .connectRole role => m.connectRole store role
  | .disconnectRole role => m.disconnectRole store role
  | .setActiveProfile profile => m.setActiveProfile store profile

end Manager

-- === What a failed command should leave ===

def progress (r : RoleRuntime) : Bool × RoleState × UInt64 × UInt64 × RecoveryState :=
  (r.desired, r.state, r.operation, r.validatedEpoch, r.recovery)

/-- Everything but the revisions and the status of the save. -/
structure Unchanged (m m' : Manager) : Prop where
  activeProfile : m'.activeProfile = m.activeProfile
  enabled : ∀ role, (m'.roles role).enabled = (m.roles role).enabled
  operation : ∀ role, (m'.roles role).operation = (m.roles role).operation
  startPending : ∀ role, (m'.roles role).startPending = (m.roles role).startPending
  startReason : ∀ role, (m'.roles role).startReason = (m.roles role).startReason
  startRetryPending : m'.startRetryPending = m.startRetryPending
  startBackoffs : m'.startBackoffs = m.startBackoffs
  recoveryRetryPending : m'.recoveryRetryPending = m.recoveryRetryPending
  recoveryBackoffs : m'.recoveryBackoffs = m.recoveryBackoffs
  product : ∀ role, (m'.product.roles role).map progress = (m.product.roles role).map progress

def Disconnected (r : RoleRuntime) : Prop :=
  r.desired = false ∧ r.state = .stopped ∧ r.recovery = {}

def Command.Settled (m : Manager) : Command → Prop
  | .connectAll => ∀ role ∈ m.names, ∀ r, m.product.roles role = some r →
      (m.roles role).enabled = m.wanted m.activeProfile role ∧
        r.desired = m.wanted m.activeProfile role
  | .disconnectAll => ∀ role ∈ m.names, ∀ r, m.product.roles role = some r →
      (m.roles role).enabled = false ∧ Disconnected r
  | .connectRole role => ∀ r, m.product.roles role = some r →
      (m.roles role).enabled = true ∧ r.desired = true
  | .disconnectRole role =>
      (m.roles role).startPending = false ∧ (m.roles role).startReason = "" ∧
        m.startRetryPending role = false ∧ m.startBackoffs role = none ∧
        ∀ r, m.product.roles role = some r → (m.roles role).enabled = false ∧ Disconnected r
  | .setActiveProfile profile => ∀ role ∈ m.names, ∀ r, m.product.roles role = some r →
      (m.roles role).enabled = m.wanted profile role ∧ r.desired = (m.roles role).enabled

-- === One role at a time ===

def desire (want : Bool) (r : RoleRuntime) : RoleRuntime :=
  if r.desired = want then r
  else
    { r with
      desired := want, operation := r.operation + 1
      state := if want then .starting else .stopped
      reason := if want then "desired state enabled" else "desired state disabled" }

theorem roles_setRoleDesired (c : Controller) (role id : String) (want : Bool) :
    (c.setRoleDesired role want).2.roles id =
      if id = role then (c.roles role).map (desire want) else c.roles id := by
  unfold setRoleDesired
  cases hr : c.roles role with
  | none =>
    show c.roles id = if id = role then none else c.roles id
    split
    · next h => rw [h, hr]
    · rfl
  | some r =>
    by_cases hd : r.desired = want
    · simp only [hd, if_true, Option.map_some, desire]
      split
      · next h => rw [h, hr]
      · rfl
    · simp only [hd, if_false, Option.map_some, desire, roles_bump,
        roles_setRole]
      cases want <;> rfl

theorem roles_update (c : Controller) (role id : String) (f : RoleRuntime → RoleRuntime) :
    (c.update role fun r => some (f r)).2.roles id =
      if id = role then (c.roles role).map f else c.roles id := by
  unfold update
  cases hr : c.roles role with
  | none =>
    show c.roles id = if id = role then none else c.roles id
    split
    · next h => rw [h, hr]
    · rfl
  | some r =>
    simp only [Option.bind_some, Option.map_some, roles_bump, roles_setRole]

/-- What a command reads and writes of one role: the manager's record and the product's. -/
abbrev RoleRecords := Role × Option RoleRuntime

namespace RoleRecords

def setEnabled (want : Bool) (v : RoleRecords) : RoleRecords :=
  ({ v.1 with
      enabled := want
      operation := if v.1.enabled ≠ want then v.1.operation + 1 else v.1.operation },
    v.2.map (desire want))

def unsetEnabled (previous : Bool) (v : RoleRecords) : RoleRecords :=
  ({ v.1 with
      enabled := previous
      operation := if v.1.enabled ≠ previous then v.1.operation - 1 else v.1.operation },
    v.2.map (desire previous))

def resetEnabled (previous : Role) (v : RoleRecords) : RoleRecords :=
  ({ v.1 with enabled := previous.enabled, operation := previous.operation },
    v.2.map (desire previous.enabled))

def setDisconnected (v : RoleRecords) : RoleRecords :=
  (v.1, v.2.map fun r => { r with recovery := {}, state := .stopped, reason := "disconnected" })

def switchRole (want : Bool) (v : RoleRecords) : RoleRecords :=
  if v.1.enabled = want then v
  else
    ({ v.1 with
        enabled := want
        operation := if v.1.enabled then v.1.operation + 1 else v.1.operation },
      v.2.map (desire want))

def wish (v : RoleRecords) :=
  (v.1.enabled, v.1.operation, v.1.startPending, v.1.startReason, v.2.map progress)

end RoleRecords

namespace Manager

def records (m : Manager) (role : String) : RoleRecords := (m.roles role, m.product.roles role)

def shared (m : Manager) :=
  (m.activeProfile, m.startRetryPending, m.startBackoffs, m.recoveryRetryPending,
    m.recoveryBackoffs)

theorem records_setEnabled (m : Manager) (role : String) (want : Bool) (id : String) :
    (m.setEnabled role want).records id =
      if id = role then (m.records role).setEnabled want else m.records id := by
  by_cases h : id = role
  · subst h
    simp only [records, setEnabled, setRoleDesired, setRole, RoleRecords.setEnabled,
      roles_setRoleDesired, if_true]
    rfl
  · simp only [records, setEnabled, setRoleDesired, setRole, roles_setRoleDesired, if_neg h]

theorem records_unsetEnabled (m : Manager) (role : String) (previous : Bool) (id : String) :
    (m.unsetEnabled role previous).records id =
      if id = role then (m.records role).unsetEnabled previous else m.records id := by
  by_cases h : id = role
  · subst h
    simp only [records, unsetEnabled, setRoleDesired, setRole, RoleRecords.unsetEnabled,
      roles_setRoleDesired, if_true]
    rfl
  · simp only [records, unsetEnabled, setRoleDesired, setRole, roles_setRoleDesired, if_neg h]

theorem records_resetEnabled (m : Manager) (role : String) (previous : Role) (id : String) :
    (m.resetEnabled role previous).records id =
      if id = role then (m.records role).resetEnabled previous else m.records id := by
  by_cases h : id = role
  · subst h
    simp only [records, resetEnabled, setRoleDesired, setRole, RoleRecords.resetEnabled,
      roles_setRoleDesired, if_true]
  · simp only [records, resetEnabled, setRoleDesired, setRole, roles_setRoleDesired, if_neg h]

theorem records_setDisconnected (m : Manager) (role id : String) :
    (m.setDisconnected role).records id =
      if id = role then (m.records role).setDisconnected else m.records id := by
  simp only [records, setDisconnected, setRecovery, setRetrySchedule,
    RoleRecords.setDisconnected, roles_update, if_true, Option.map_map, Function.comp_def]
  by_cases h : id = role
  · subst h
    simp only [if_true]
  · simp only [if_neg h]

theorem records_switchRole (m : Manager) (role : String) (want : Bool) (id : String) :
    (m.switchRole role want).records id =
      if id = role then (m.records role).switchRole want else m.records id := by
  simp only [switchRole, RoleRecords.switchRole]
  by_cases h : (m.roles role).enabled = want
  · have h' : (m.records role).1.enabled = want := h
    rw [if_pos h, if_pos h']
    split
    · next hid => rw [hid]
    · rfl
  · have h' : (m.records role).1.enabled ≠ want := h
    rw [if_neg h, if_neg h']
    by_cases hid : id = role
    · subst hid
      simp only [records, setRoleDesired, setRole, roles_setRoleDesired, if_true]
      rfl
    · simp only [records, setRoleDesired, setRole, roles_setRoleDesired, if_neg hid]

theorem shared_switchRole (m : Manager) (role : String) (want : Bool) :
    (m.switchRole role want).shared = m.shared := by
  unfold switchRole
  by_cases h : (m.roles role).enabled = want
  · rw [if_pos h]
  · rw [if_neg h]
    rfl

end Manager

/-- Nothing is changed when the shared bookkeeping and each role's wish are as before. -/
theorem unchanged_iff (m m' : Manager) :
    Unchanged m m' ↔
      m'.shared = m.shared ∧ ∀ role, (m'.records role).wish = (m.records role).wish := by
  simp only [Manager.shared, RoleRecords.wish, Manager.records, Prod.mk.injEq]
  constructor
  · intro h
    exact ⟨⟨h.activeProfile, h.startRetryPending, h.startBackoffs, h.recoveryRetryPending,
      h.recoveryBackoffs⟩, fun role => ⟨h.enabled role, h.operation role, h.startPending role,
      h.startReason role, h.product role⟩⟩
  · rintro ⟨⟨h1, h2, h3, h4, h5⟩, h⟩
    exact ⟨h1, fun role => (h role).1, fun role => (h role).2.1, fun role => (h role).2.2.1,
      fun role => (h role).2.2.2.1, h2, h3, h4, h5, fun role => (h role).2.2.2.2⟩

-- === A wish and its rollback ===

/-- The rollback of a wish counts a second change. Only a wish that changed nothing, taken
    back to the same wish, leaves the role's operation alone. -/
theorem progress_desire_desire (r : RoleRuntime) (want previous : Bool) :
    progress (desire previous (desire want r)) = progress r ↔
      previous = want ∧ r.desired = want := by
  have h1 : r.operation + 1 ≠ r.operation := by grind
  have h2 : r.operation + 1 + 1 ≠ r.operation := by grind
  cases hd : r.desired <;> cases want <;> cases previous <;> simp [desire, progress, hd, h1, h2]

/-- A disconnect that is taken back leaves the role stopped and without its recovery, or
    starting. -/
theorem progress_desire_disconnected (r : RoleRuntime) (previous : Bool) :
    progress (desire previous
        { desire false r with recovery := {}, state := .stopped, reason := "disconnected" }) =
      progress r ↔ previous = false ∧ Disconnected r := by
  simp only [progress, Prod.mk.injEq, Disconnected]
  cases hd : r.desired <;> cases previous <;> grind [desire]

namespace RoleRecords

theorem wish_unsetEnabled_setEnabled (v : RoleRecords) (want : Bool) :
    ((v.setEnabled want).unsetEnabled v.1.enabled).wish = v.wish ↔
      ∀ r, v.2 = some r → v.1.enabled = want ∧ r.desired = want := by
  obtain ⟨role, _ | r⟩ := v
  · have h : role.operation + 1 - 1 = role.operation := by grind
    simp only [wish, setEnabled, unsetEnabled, Option.map_none, Prod.mk.injEq]
    by_cases he : role.enabled = want <;> simp [he, eq_comm (a := want), h]
  have h : role.operation + 1 - 1 = role.operation := by grind
  simp only [wish, setEnabled, unsetEnabled, Option.map_some, Prod.mk.injEq, Option.some.injEq,
    progress_desire_desire, forall_eq']
  by_cases he : role.enabled = want <;> simp [he, eq_comm (a := want), h]

theorem wish_unsetEnabled_setDisconnected (v : RoleRecords) :
    ((v.setEnabled false).setDisconnected.unsetEnabled v.1.enabled).wish = v.wish ↔
      ∀ r, v.2 = some r → v.1.enabled = false ∧ Disconnected r := by
  obtain ⟨role, _ | r⟩ := v
  · have h : role.operation + 1 - 1 = role.operation := by grind
    simp only [wish, setEnabled, setDisconnected, unsetEnabled, Option.map_none, Prod.mk.injEq]
    cases he : role.enabled <;> simp [h]
  have h : role.operation + 1 - 1 = role.operation := by grind
  simp only [wish, setEnabled, setDisconnected, unsetEnabled, Option.map_some, Prod.mk.injEq,
    Option.some.injEq, progress_desire_disconnected, forall_eq']
  cases he : role.enabled <;> simp [h]

theorem wish_resetEnabled_setEnabled (v : RoleRecords) (want : Bool) :
    ((v.setEnabled want).resetEnabled v.1).wish = v.wish ↔
      ∀ r, v.2 = some r → v.1.enabled = want ∧ r.desired = want := by
  obtain ⟨role, _ | r⟩ := v
  · simp [wish, setEnabled, resetEnabled]
  · simp [wish, setEnabled, resetEnabled, progress_desire_desire]

def clearStart (v : RoleRecords) : RoleRecords :=
  ({ v.1 with startPending := false, startReason := "" }, v.2)

theorem wish_resetEnabled_setDisconnected (v : RoleRecords) :
    ((v.clearStart.setEnabled false).setDisconnected.resetEnabled v.1).wish = v.wish ↔
      v.1.startPending = false ∧ v.1.startReason = "" ∧
        ∀ r, v.2 = some r → v.1.enabled = false ∧ Disconnected r := by
  obtain ⟨role, _ | r⟩ := v
  · simp [wish, clearStart, setEnabled, setDisconnected, resetEnabled, eq_comm (a := false),
      eq_comm (a := "")]
  · simp [wish, clearStart, setEnabled, setDisconnected, resetEnabled,
      progress_desire_disconnected, eq_comm (a := false), eq_comm (a := "")]

theorem wish_resetEnabled_switchRole (v : RoleRecords) (want : Bool) :
    ((v.switchRole want).resetEnabled v.1).wish = v.wish ↔
      ∀ r, v.2 = some r → v.1.enabled = want ∧ r.desired = v.1.enabled := by
  obtain ⟨role, r⟩ := v
  by_cases he : role.enabled = want
  · have hd : ∀ r, progress (desire want r) = progress r ↔ r.desired = want := by
      intro r
      have := progress_desire_desire r want want
      have hdd : desire want (desire want r) = desire want r := by
        unfold desire
        split <;> simp_all
      rw [hdd] at this
      simpa using this
    cases r <;> simp [wish, switchRole, resetEnabled, he, hd]
  · cases r <;> simp [wish, switchRole, resetEnabled, he, progress_desire_desire]

end RoleRecords

-- === A failed save ===

namespace Manager

variable {store : Option (PersistedDesiredState → Option String)} {m : Manager}

theorem persistDesired_failed {next : Manager} {error : String}
    (h : m.persistDesired store = (some error, next)) :
    next.shared = m.shared ∧ next.records = m.records := by
  unfold persistDesired at h
  split at h
  · cases h
  split at h
  · cases h
    exact ⟨rfl, rfl⟩
  · cases h

end Manager

/-- The step of a command's loop: it acts on the records of its own role. -/
structure ActsOn (step : Manager → String → Manager) (g : String → RoleRecords → RoleRecords) :
    Prop where
  records : ∀ m role id,
    (step m role).records id = if id = role then g role (m.records role) else m.records id
  shared : ∀ m role, (step m role).shared = m.shared

namespace ActsOn

variable {step undo : Manager → String → Manager} {g k : String → RoleRecords → RoleRecords}
  {store : Option (PersistedDesiredState → Option String)} {names : List String}

theorem trans (hg : ActsOn step g) (hk : ActsOn undo k) :
    ActsOn (fun m role => undo (step m role) role) (fun role v => k role (g role v)) where
  records m role id := by
    rw [hk.records, hg.records, hg.records]
    split <;> simp
  shared m role := by rw [hk.shared, hg.shared]

theorem records_foldl (hg : ActsOn step g) (hn : names.Nodup) (m : Manager) (id : String) :
    (names.foldl step m).records id =
      if id ∈ names then g id (m.records id) else m.records id :=
  foldl_at Manager.records hg.records hn m id

theorem shared_foldl (hg : ActsOn step g) (m : Manager) :
    (names.foldl step m).shared = m.shared :=
  foldl_preserves Manager.shared hg.shared names m

theorem records_rollback (hg : ActsOn step g) (hk : ActsOn undo k) (hn : names.Nodup)
    {m next : Manager} {error : String}
    (h : (names.foldl step m).persistDesired store = (some error, next)) (id : String) :
    (names.foldl undo next).records id =
      if id ∈ names then k id (g id (m.records id)) else m.records id := by
  rw [hk.records_foldl hn, (Manager.persistDesired_failed h).2, hg.records_foldl hn]
  split <;> rfl

theorem shared_rollback (hg : ActsOn step g) (hk : ActsOn undo k)
    {m next : Manager} {error : String}
    (h : (names.foldl step m).persistDesired store = (some error, next)) :
    (names.foldl undo next).shared = m.shared := by
  rw [hk.shared_foldl, (Manager.persistDesired_failed h).1, hg.shared_foldl]

theorem setEnabled (want : String → Bool) :
    ActsOn (fun m role => m.setEnabled role (want role)) fun role => .setEnabled (want role) :=
  ⟨fun m role => m.records_setEnabled role (want role), fun _ _ => rfl⟩

theorem unsetEnabled (previous : String → Bool) :
    ActsOn (fun m role => m.unsetEnabled role (previous role))
      fun role => .unsetEnabled (previous role) :=
  ⟨fun m role => m.records_unsetEnabled role (previous role), fun _ _ => rfl⟩

theorem resetEnabled (previous : String → Role) :
    ActsOn (fun m role => m.resetEnabled role (previous role))
      fun role => .resetEnabled (previous role) :=
  ⟨fun m role => m.records_resetEnabled role (previous role), fun _ _ => rfl⟩

theorem setDisconnected : ActsOn Manager.setDisconnected fun _ => .setDisconnected :=
  ⟨fun m role => m.records_setDisconnected role, fun _ _ => rfl⟩

theorem switchRole (want : String → Bool) :
    ActsOn (fun m role => m.switchRole role (want role)) fun role => .switchRole (want role) :=
  ⟨fun m role => m.records_switchRole role (want role),
    fun m role => m.shared_switchRole role (want role)⟩

end ActsOn

/-- A command that took back its roles has changed nothing when each of them has its wish
    back. -/
theorem unchanged_iff_forall {m m' : Manager} {names : List String} {f : String → RoleRecords}
    (hs : m'.shared = m.shared)
    (hr : ∀ id, m'.records id = if id ∈ names then f id else m.records id) :
    Unchanged m m' ↔ ∀ role ∈ names, (f role).wish = (m.records role).wish := by
  rw [unchanged_iff]
  constructor
  · rintro ⟨-, h⟩ role hrole
    simpa [hr, hrole] using h role
  intro h
  refine ⟨hs, fun role => ?_⟩
  rw [hr]
  split
  · next hrole => exact h role hrole
  · rfl

namespace Manager

variable {store : Option (PersistedDesiredState → Option String)} {m : Manager} {e : CommandError}

theorem connectAll_unchanged (h : (m.connectAll store).1 = .error e) :
    Unchanged m (m.connectAll store).2 ↔ Command.connectAll.Settled m := by
  unfold connectAll at h ⊢
  dsimp only at h ⊢
  have hg := ActsOn.setEnabled (m.wanted m.activeProfile)
  have hk := ActsOn.unsetEnabled fun role => (m.roles role).enabled
  split at h
  · next error next hp =>
    rw [unchanged_iff_forall (hg.shared_rollback hk hp) (hg.records_rollback hk m.nodup hp)]
    exact forall₂_congr fun role _ => (m.records role).wish_unsetEnabled_setEnabled _
  · cases h

theorem disconnectAll_unchanged (h : (m.disconnectAll store).1 = .error e) :
    Unchanged m (m.disconnectAll store).2 ↔ Command.disconnectAll.Settled m := by
  unfold disconnectAll at h ⊢
  dsimp only at h ⊢
  have hg := (ActsOn.setEnabled fun _ => false).trans .setDisconnected
  have hk := ActsOn.unsetEnabled fun role => (m.roles role).enabled
  split at h
  · next error next hp =>
    rw [unchanged_iff_forall (hg.shared_rollback hk hp) (hg.records_rollback hk m.nodup hp)]
    exact forall₂_congr fun role _ => (m.records role).wish_unsetEnabled_setDisconnected
  · cases h

theorem connectRole_unchanged {role : String} (he : e.persists = true)
    (h : (m.connectRole store role).1 = .error e) :
    Unchanged m (m.connectRole store role).2 ↔ (Command.connectRole role).Settled m := by
  unfold connectRole at h ⊢
  split at h
  · cases h
    cases he
  next hrole =>
  rw [if_neg hrole]
  split at h
  · cases h
    cases he
  split at h
  · next error next hp =>
    -- one role is a loop over one name
    have hg := ActsOn.setEnabled fun _ => true
    have hk := ActsOn.resetEnabled m.roles
    have hp' : ([role].foldl (fun m role => m.setEnabled role true) m).persistDesired store =
        (some error, next) := hp
    have hn : [role].Nodup := List.nodup_singleton role
    show Unchanged m ([role].foldl (fun next id => next.resetEnabled id (m.roles id)) next) ↔ _
    rw [unchanged_iff_forall (hg.shared_rollback hk hp') (hg.records_rollback hk hn hp')]
    simp only [List.mem_singleton, forall_eq]
    exact (m.records role).wish_resetEnabled_setEnabled true
  · cases h

def clearStart (m : Manager) (role : String) : Manager :=
  { m.setRole role { m.roles role with startPending := false, startReason := "" } with
    startRetryPending := fun id => if id = role then false else m.startRetryPending id
    startBackoffs := fun id => if id = role then none else m.startBackoffs id }

theorem records_clearStart (role id : String) :
    (m.clearStart role).records id =
      if id = role then (m.records role).clearStart else m.records id := by
  by_cases h : id = role
  · subst h
    simp only [records, clearStart, setRole, RoleRecords.clearStart, if_true]
  · simp only [records, clearStart, setRole, if_neg h]

theorem shared_clearStart (role : String) :
    (m.clearStart role).shared = m.shared ↔
      m.startRetryPending role = false ∧ m.startBackoffs role = none := by
  simp only [shared, clearStart, setRole, Prod.mk.injEq, and_true, true_and, funext_iff]
  refine and_congr ⟨fun h => by simpa using (h role).symm, fun h id => ?_⟩
    ⟨fun h => by simpa using (h role).symm, fun h id => ?_⟩
  all_goals
    split
    · next hid => rw [hid, h]
    · rfl

theorem disconnectRole_unchanged {role : String} (he : e.persists = true)
    (h : (m.disconnectRole store role).1 = .error e) :
    Unchanged m (m.disconnectRole store role).2 ↔ (Command.disconnectRole role).Settled m := by
  unfold disconnectRole at h ⊢
  split at h
  · cases h
    cases he
  next hrole =>
  rw [if_neg hrole]
  dsimp only at h ⊢
  split at h
  · next error next hp =>
    have hg := (ActsOn.setEnabled fun _ => false).trans .setDisconnected
    have hk := ActsOn.resetEnabled m.roles
    have hp' : ([role].foldl (fun m role => (m.setEnabled role false).setDisconnected role)
        (m.clearStart role)).persistDesired store = (some error, next) := hp
    have hn : [role].Nodup := List.nodup_singleton role
    have hshared := hg.shared_rollback hk hp'
    have hrecords := hg.records_rollback hk hn hp'
    have hat := (m.records role).wish_resetEnabled_setDisconnected
    show Unchanged m ([role].foldl (fun next id => next.resetEnabled id (m.roles id)) next) ↔ _
    rw [unchanged_iff, hshared, shared_clearStart]
    constructor
    · rintro ⟨⟨hretry, hbackoff⟩, hwish⟩
      have hw := hwish role
      rw [hrecords, if_pos (List.mem_singleton_self role), records_clearStart, if_pos rfl] at hw
      obtain ⟨hpending, hreason, hproduct⟩ := hat.mp hw
      exact ⟨hpending, hreason, hretry, hbackoff, hproduct⟩
    · rintro ⟨hpending, hreason, hretry, hbackoff, hproduct⟩
      refine ⟨⟨hretry, hbackoff⟩, fun id => ?_⟩
      rw [hrecords, records_clearStart]
      by_cases hid : id = role
      · subst hid
        rw [if_pos (List.mem_singleton_self id), if_pos rfl]
        exact hat.mpr ⟨hpending, hreason, hproduct⟩
      · rw [if_neg (by simpa using hid), if_neg hid]
  · cases h

theorem setActiveProfile_unchanged {profile : String} (he : e.persists = true)
    (h : (m.setActiveProfile store profile).1 = .error e) :
    Unchanged m (m.setActiveProfile store profile).2 ↔
      (Command.setActiveProfile profile).Settled m := by
  unfold setActiveProfile at h ⊢
  split at h
  · cases h
    cases he
  next hknown =>
  split at h
  · cases h
  next hother =>
  rw [if_neg hknown, if_neg hother]
  dsimp only at h ⊢
  split at h
  · next error next hp =>
    have hg := ActsOn.switchRole (m.wanted profile)
    have hk := ActsOn.resetEnabled m.roles
    have hshared := hg.shared_rollback hk hp
    simp only [shared, Prod.mk.injEq] at hshared
    have hrecords := hg.records_rollback hk m.nodup hp
    refine Iff.trans (unchanged_iff_forall ?_ hrecords) ?_
    · -- the profile is set back, and no loop touches the rest
      simp only [shared, hshared]
    · exact forall₂_congr fun role _ => (m.records role).wish_resetEnabled_switchRole _
  · cases h

/-- A command whose save fails has changed nothing exactly when it asked for what was there
    already. -/
theorem unchanged_iff_settled (store : Option (PersistedDesiredState → Option String))
    (m : Manager) (cmd : Command) (e : CommandError) (he : e.persists = true)
    (h : (m.command store cmd).1 = .error e) :
    Unchanged m (m.command store cmd).2 ↔ cmd.Settled m := by
  cases cmd with
  | connectAll => exact connectAll_unchanged h
  | disconnectAll => exact disconnectAll_unchanged h
  | connectRole role => exact connectRole_unchanged he h
  | disconnectRole role => exact disconnectRole_unchanged he h
  | setActiveProfile profile => exact setActiveProfile_unchanged he h

def readyManager : Manager where
  names := ["work"]
  nodup := List.nodup_singleton _
  roles := fun _ => { enabled := true, operation := 1 }
  product :=
    { roles := fun id => if id = "work" then
          some { desired := true, state := .ready, operation := 1, validatedEpoch := 1 }
        else none }

def fullDisk : Option (PersistedDesiredState → Option String) := some fun _ => some "disk full"

theorem unchanged_iff_settled_connectRole :
    (readyManager.command fullDisk (.connectRole "work")).1 =
        .error (.persistDesired "disk full") ∧
      Unchanged readyManager (readyManager.command fullDisk (.connectRole "work")).2 :=
  ⟨rfl, (unchanged_iff_settled fullDisk readyManager (.connectRole "work") _ rfl rfl).mpr
    fun _ h => ⟨rfl, by cases h; rfl⟩⟩

/-- A disconnect whose save fails leaves a ready role starting, with nothing that starts
    it. -/
theorem failed_disconnect_restarts :
    (readyManager.command fullDisk (.disconnectRole "work")).1 =
        .error (.persistDesired "disk full") ∧
      (readyManager.product.roles "work").map progress = some (true, .ready, 1, 1, {}) ∧
      ((readyManager.command fullDisk (.disconnectRole "work")).2.product.roles "work").map
          progress = some (true, .starting, 3, 1, {}) ∧
      ¬Unchanged readyManager (readyManager.command fullDisk (.disconnectRole "work")).2 := by
  refine ⟨rfl, rfl, rfl, fun h => ?_⟩
  have hp := h.product "work"
  have hstate : some (true, RoleState.starting, (3 : UInt64), (1 : UInt64), ({} : RecoveryState)) =
      some (true, RoleState.ready, 1, 1, {}) := hp
  cases hstate

end Manager

end Kikimora.Control

import Kikimora.Core.Decide
import Kikimora.Lib.Ownership

/-!
# The lifecycle of the roles

The commands of the operator commit their desired state under the manager's lock
and leave the processes to be started and stopped afterwards. That work, the
recoveries and the retries run side by side, each as a task whose jobs are done
one after the other. A job is the part of a function between two places where the
lock is taken, or between an outside call and its return.

Timers, backoffs and the schedulers that read Toad snapshots are not modelled:
the workers that they start may come at any time.
-/

namespace Kikimora.Control

open Kikimora.Core
open Function

/-- What the configuration says about the roles. -/
structure Fleet where
  names : List String
  profiles : String → List String
  declaredProfiles : List String := []
  /-- automatic recovery is on and the driver is installed -/
  recovering : Bool := true

namespace Fleet

def wanted (f : Fleet) (profile role : String) : Bool :=
  profile = "default" || (f.profiles role).contains profile

def profileToRoles (f : Fleet) (profile : String) : Option (List String) :=
  if profile = "default" || (profile ≠ "" && f.declaredProfiles.contains profile) ||
      f.names.any (f.wanted profile) then
    some (f.names.filter (f.wanted profile))
  else none

end Fleet

/-- What is left of a function of the manager. -/
inductive Job
  /-- `startRoleProcess` -/
  | start (role : String)
  /-- `prepareRoleStart` applies the endpoint policy -/
  | applyEndpoint (role : String)
  /-- the second check of `startRoleProcess` -/
  | begin (role : String)
  | launch (role : String)
  /-- the launched process is handed over -/
  | commit (role : String) (pid : Nat)
  /-- the launched process is not needed -/
  | discard (role : String) (pid : Nat)
  /-- `stopRoleProcess` -/
  | stop (role : String)
  | kill (role : String) (pid : Nat)
  /-- `releaseRoleResources` -/
  | release (role : String)
  | releasing (role : String)
  /-- `DisconnectRole` returns -/
  | returned (role : String)
  /-- an armed retry of a deferred start -/
  | startRetry (role : String)
  /-- `RetryRole`, also after the backoff of an exited process -/
  | retryRole (role : String)
  /-- `wait` sees the end of a process -/
  | exited (role : String) (pid : Nat)
  /-- `ValidateRole` of a process -/
  | validate (role : String) (pid : Nat)
  /-- `activateReadyRole` with its remaining driver calls -/
  | activate (role : String) (calls : List RecoveryStep)
  /-- `Engine.Recover` before its next step -/
  | recover (role : String) (steps : List RecoveryStep)
  /-- inside a driver call of the recovery -/
  | driving (role : String) (step : RecoveryStep) (rest : List RecoveryStep)
  /-- `restartRole` -/
  | restart (role : String)
  | restartKill (role : String) (pid : Nat)
  /-- the `ConnectRole` at the end of `restartRole` -/
  | reconnect (role : String)
  /-- `recoverRole` after `Engine.Recover` -/
  | track (role : String)
  /-- `trackRecoveryFailure` of a failed recovery -/
  | countFailure (role : String)
  /-- `recoverRole` drops its cancel function -/
  | endRecovery (role : String)
  /-- `SetRoleDesired` after a failure streak or a configuration error -/
  | undesire (role : String)
  deriving DecidableEq, Repr

def Job.process? : Job → Option (String × Nat)
  | .commit role pid | .discard role pid | .kill role pid | .restartKill role pid =>
    some (role, pid)
  | _ => none

/-- How an outside call ends. A Toad may not support the restart of its transport. -/
inductive CallResult
  | done
  | failed
  | unsupported
  deriving DecidableEq, Repr

/-- The part of the manager's role that the lifecycle reads. -/
structure ManagedRole where
  enabled : Bool := false
  process : Option Nat := none
  startPending : Bool := false
  deriving DecidableEq, Repr

structure Lifecycle where
  roles : String → ManagedRole := fun _ => {}
  /-- Desired in the product state -/
  desired : String → Bool := fun _ => false
  /-- the desired flags on disk -/
  persisted : String → Bool := fun _ => false
  activeProfile : String := "default"
  /-- the processes that run, with their roles -/
  alive : Nat → Option String := fun _ => none
  launched : Nat := 0
  /-- the task whose recovery the next stop of the role cancels -/
  recoveryCancels : String → Option Nat := fun _ => none
  /-- the recoveries whose context has ended -/
  cancelled : Nat → Bool := fun _ => false
  failureStreak : String → Nat := fun _ => 0
  tasks : Nat → List Job := fun _ => []
  /-- the disconnects of the role that have committed and not failed, while no connect
      has followed -/
  disconnecting : String → List Nat := fun _ => []
  /-- a disconnect of the role has returned nil and no connect has followed -/
  disconnected : String → Bool := fun _ => false

namespace Lifecycle

def setRole (s : Lifecycle) (role : String) (r : ManagedRole) : Lifecycle :=
  { s with roles := update s.roles role r }

def setDesired (s : Lifecycle) (role : String) (want : Bool) : Lifecycle :=
  { s with desired := update s.desired role want }

def setStreak (s : Lifecycle) (role : String) (streak : Nat) : Lifecycle :=
  { s with failureStreak := update s.failureStreak role streak }

def persist (s : Lifecycle) : Lifecycle :=
  { s with persisted := fun id => (s.roles id).enabled }

def setTask (s : Lifecycle) (task : Nat) (jobs : List Job) : Lifecycle :=
  { s with tasks := update s.tasks task jobs }

def launch (s : Lifecycle) (role : String) : Lifecycle :=
  { s with alive := update s.alive s.launched (some role), launched := s.launched + 1 }

def kill (s : Lifecycle) (pid : Nat) : Lifecycle :=
  { s with alive := update s.alive pid none }

def disconnectFails (s : Lifecycle) (role : String) (task : Nat) : Lifecycle :=
  { s with
    disconnecting := update s.disconnecting role ((s.disconnecting role).erase task) }

def enable (s : Lifecycle) (role : String) (saved : Bool) : Lifecycle :=
  if saved then
    ((s.setRole role { s.roles role with enabled := true }).setDesired role true).persist
  else s.setDesired role (s.roles role).enabled

/-- The locked part of `stopRoleProcess`: the process is taken and a recovery of
    the role is cancelled. -/
def takeProcess (s : Lifecycle) (role : String) : Lifecycle :=
  let s := (s.setRole role { s.roles role with process := none }).setStreak role 0
  match s.recoveryCancels role with
  | none => s
  | some worker =>
    { s with
      recoveryCancels := update s.recoveryCancels role none
      cancelled := update s.cancelled worker true }

variable (s : Lifecycle)

include s

variable (role : String)

include role

@[simp] theorem tasks_disconnectFails (task : Nat) : (s.disconnectFails role task).tasks = s.tasks
    := rfl

@[simp] theorem roles_disconnectFails (task : Nat) : (s.disconnectFails role task).roles = s.roles
    := rfl

@[simp] theorem alive_disconnectFails (task : Nat) : (s.disconnectFails role task).alive = s.alive
    := rfl

@[simp] theorem launched_disconnectFails (task : Nat) : (s.disconnectFails role task).launched =
    s.launched := rfl

@[simp] theorem launched_enable (saved : Bool) : (s.enable role saved).launched = s.launched := by
  cases saved <;> rfl

@[simp] theorem alive_enable (saved : Bool) : (s.enable role saved).alive = s.alive := by
  cases saved <;> rfl

@[simp] theorem tasks_enable (saved : Bool) : (s.enable role saved).tasks = s.tasks := by
  cases saved <;> rfl

@[simp] theorem launched_takeProcess : (s.takeProcess role).launched = s.launched :=
    by
  unfold takeProcess
  dsimp only
  split <;> rfl

@[simp] theorem tasks_takeProcess : (s.takeProcess role).tasks = s.tasks := by
  unfold takeProcess
  dsimp only
  split <;> rfl

omit role

theorem roles_setRole (role id : String) (r : ManagedRole) : (s.setRole role r).roles id = if id =
    role then r else s.roles id :=
  update_apply ..

@[simp] theorem alive_setRole (role : String) (r : ManagedRole) : (s.setRole role r).alive = s.alive
    := rfl

@[simp] theorem roles_setDesired (role : String) (want : Bool) : (s.setDesired role want).roles =
    s.roles := rfl

@[simp] theorem roles_launch (role : String) : (s.launch role).roles = s.roles := rfl

@[simp] theorem tasks_kill (pid : Nat) : (s.kill pid).tasks = s.tasks := rfl

@[simp] theorem roles_kill (pid : Nat) : (s.kill pid).roles = s.roles := rfl

omit s

theorem process_setRole {s : Lifecycle} {role : String} {r : ManagedRole}
    (h : r.process = (s.roles role).process) (id : String) :
    ((s.setRole role r).roles id).process = (s.roles id).process := by
  rw [roles_setRole]
  split_ifs with hid
  · rw [h, hid]
  · rfl

include s

@[simp] theorem process_enable (role id : String) (saved : Bool) :
    ((s.enable role saved).roles id).process = (s.roles id).process := by
  cases saved with
  | false => rfl
  | true => exact process_setRole (r := { s.roles role with enabled := true }) rfl id

theorem desired_setDesired (role id : String) (want : Bool) : (s.setDesired role want).desired id =
    if id = role then want else s.desired id :=
  update_apply ..

theorem enabled_enable (role id : String) (saved : Bool) : ((s.enable role saved).roles id).enabled
    = if id = role ∧ saved then true else (s.roles id).enabled := by
  cases saved with
  | false => simp [enable, setDesired]
  | true =>
    simp only [enable, if_true, and_true]
    show ((s.setRole role { s.roles role with enabled := true }).roles id).enabled = _
    rw [roles_setRole]
    split_ifs <;> rfl

theorem desired_enable (role id : String) (saved : Bool) : (s.enable role saved).desired id = if id
    = role then saved || (s.roles role).enabled else s.desired id := by
  cases saved <;> exact desired_setDesired ..

theorem persisted_enable (role id : String) (saved : Bool) : (s.enable role saved).persisted id = if
    saved then ((s.enable role saved).roles id).enabled else s.persisted id := by
  cases saved <;> rfl

theorem roles_takeProcess (role id : String) : (s.takeProcess role).roles id = if id = role then
    { s.roles role with process := none } else s.roles id := by
  rw [← roles_setRole]
  unfold takeProcess
  dsimp only
  split <;> rfl

include role

@[simp] theorem alive_takeProcess : (s.takeProcess role).alive = s.alive := by
  unfold takeProcess
  dsimp only
  split <;> rfl

@[simp] theorem desired_takeProcess : (s.takeProcess role).desired = s.desired := by
  unfold takeProcess
  dsimp only
  split <;> rfl

@[simp] theorem persisted_takeProcess : (s.takeProcess role).persisted = s.persisted := by
  unfold takeProcess
  dsimp only
  split <;> rfl

@[simp] theorem disconnecting_takeProcess : (s.takeProcess role).disconnecting = s.disconnecting :=
    by
  unfold takeProcess
  dsimp only
  split <;> rfl

@[simp] theorem disconnected_takeProcess : (s.takeProcess role).disconnected = s.disconnected := by
  unfold takeProcess
  dsimp only
  split <;> rfl

omit role

omit s

def needsProcess (s : Lifecycle) (role : String) : Bool :=
  (s.roles role).enabled && (s.roles role).process.isNone

def perform (f : Fleet) (s : Lifecycle) (task : Nat) (result : CallResult) :
    Job → Lifecycle × List Job
  | .start role =>
    (s, if !s.needsProcess role then [] else if f.recovering then [.applyEndpoint role]
      else [.begin role])
  | .applyEndpoint role =>
    if result = .done then
      (s.setRole role { s.roles role with startPending := false }, [.begin role])
    else if result = .failed && s.needsProcess role then
      -- the prerequisite may still come: the start is deferred
      (s.setRole role { s.roles role with startPending := true }, [])
    else (s, [])
  | .begin role =>
    if s.needsProcess role then
      (s.setRole role { s.roles role with startPending := false }, [.launch role])
    else (s, [])
  | .launch role =>
    if result = .done then (s.launch role, [.commit role s.launched]) else (s, [])
  | .commit role pid =>
    if s.needsProcess role then (s.setRole role { s.roles role with process := some pid }, [])
    else (s, [.discard role pid])
  | .discard _ pid => (if result = .done then s.kill pid else s, [])
  | .stop role =>
    (s.takeProcess role,
      match (s.roles role).process with
      | none => []
      | some pid => [.kill role pid])
  | .kill role pid =>
    (if result = .done then s.kill pid else s.disconnectFails role task, [])
  | .release role =>
    -- a role that was enabled again is left alone
    (s, if !f.recovering || (s.roles role).enabled then [] else [.releasing role])
  | .releasing role => (if result = .done then s else s.disconnectFails role task, [])
  | .returned role =>
    (if task ∈ s.disconnecting role then
        { s.disconnectFails role task with disconnected := update s.disconnected role true }
      else s, [])
  | .startRetry role =>
    (s, if s.needsProcess role && (s.roles role).startPending then [.start role] else [])
  | .retryRole role => (s, if result = .done && s.needsProcess role then [.start role] else [])
  | .exited role pid =>
    (if (s.roles role).process = some pid then
        s.setRole role { s.roles role with process := none }
      else s, [])
  | .validate role pid =>
    -- a healthy result counts for the current process of a desired role
    (s, if result = .done && (s.roles role).process = some pid && s.desired role then
        [.activate role [.observeRoutes, .applyEndpoint, .publish, .resyncLeshy, .observeRestore]]
      else [])
  | .activate role (_ :: calls) => (s, if result = .done then [.activate role calls] else [])
  | .activate _ [] => (s, [])
  | .recover role (step :: rest) =>
    (s, if (s.roles role).enabled then [.driving role step rest] else [])
  | .recover _ [] => (s, [])
  | .driving role step rest =>
    (s, if result = .done then [.recover role rest]
      else if result = .unsupported && step = .startTransport then [.restart role]
      else [])
  | .restart role =>
    match (s.roles role).process with
    | none => (s, [.start role])
    | some pid =>
      (s.setRole role { s.roles role with process := none }, [.restartKill role pid])
  | .restartKill role pid => if result = .done then (s.kill pid, [.reconnect role]) else (s, [])
  | .reconnect role =>
    -- without credentials nothing is committed
    if result = .unsupported then (s, [])
    else
      -- the save looks at the context of the recovery first
      let saved := result = .done && !s.cancelled task
      (s.enable role saved, if saved then [.start role] else [])
  | .track role =>
    -- a role that was disabled meanwhile is not counted, nor is a pending validation
    if !(s.roles role).enabled || result = .done then (s.setStreak role 0, [])
    else (s, if result = .failed then [.countFailure role] else [])
  | .countFailure role =>
    let streak := s.failureStreak role + 1
    (s.setStreak role streak,
      if 3 ≤ streak && (s.roles role).enabled then [.undesire role] else [])
  | .endRecovery role =>
    ({ s with recoveryCancels := update s.recoveryCancels role none }, [])
  | .undesire role => (s.setDesired role false, [])

@[simp] theorem tasks_perform (f : Fleet) (s : Lifecycle) (task : Nat) (result : CallResult)
    (job : Job) : (s.perform f task result job).1.tasks = s.tasks := by
  unfold perform
  grind [tasks_takeProcess, tasks_disconnectFails, tasks_enable, setRole, setDesired, setStreak,
    launch, kill]

theorem alive_launch (s : Lifecycle) (role : String) (id : Nat) :
    (s.launch role).alive id = if id = s.launched then some role else s.alive id :=
  update_apply ..

theorem alive_kill (s : Lifecycle) (pid id : Nat) :
    (s.kill pid).alive id = if id = pid then none else s.alive id :=
  update_apply ..

theorem alive_perform {f : Fleet} {s : Lifecycle} {task : Nat} {result : CallResult} {job : Job}
    {pid : Nat} {role : String} (h : (s.perform f task result job).1.alive pid = some role) :
    s.alive pid = some role ∨ job = .launch role ∧ pid = s.launched := by
  unfold perform at h
  grind [alive_takeProcess, alive_disconnectFails, alive_enable, setRole, setDesired, setStreak,
    alive_launch, alive_kill]

theorem launched_perform (f : Fleet) (s : Lifecycle) (task : Nat) (result : CallResult)
    (job : Job) :
    s.launched ≤ (s.perform f task result job).1.launched := by
  unfold perform
  grind [launched_takeProcess, launched_disconnectFails, launched_enable, setRole, setDesired,
    setStreak, launch, kill]

theorem length_perform (s : Lifecycle) (f : Fleet) (task : Nat) (result : CallResult) (job : Job) :
    (s.perform f task result job).2.length ≤ 1 := by
  unfold perform
  grind

end Lifecycle

-- === Commands and runs ===

/-- What can happen next. A command, a worker and the end of a process bring a new
    task; `saved` is the outcome of the save. -/
inductive LifecycleAction
  | connectAll (task : Nat) (saved : Bool)
  | disconnectAll (task : Nat) (saved : Bool)
  | connectRole (task : Nat) (role : String) (saved : Bool)
  | disconnectRole (task : Nat) (role : String) (saved : Bool)
  /-- `order` is the order in which the map of roles is walked -/
  | setActiveProfile (task : Nat) (profile : String) (order : List String) (saved : Bool)
  /-- the next job of a task -/
  | work (task : Nat) (result : CallResult)
  /-- the driver call that a task is in changes routes, endpoint policy or publication -/
  | mutate (task : Nat)
  /-- a timer or an accepted snapshot starts a worker -/
  | spawn (task : Nat) (job : Job)
  | recoverRole (task : Nat) (role : String) (managed : Bool) (action : RecoveryAction)
  /-- the context of a recovery ends by itself -/
  | timeout (task : Nat)
  | exit (task : Nat) (pid : Nat)
  | failByConfiguration (task : Nat) (role : String)

def Job.isWorker : Job → Bool
  | .startRetry _ | .retryRole _ | .validate _ _ => true
  | _ => false

def mutating : RecoveryStep → Bool
  | .park | .withdrawSelected | .withdraw | .applyEndpoint | .publish | .resyncLeshy
  | .observeRestore | .restoreSelected => true
  | _ => false

def Job.mutates : Job → Option String
  | .applyEndpoint role => some role
  | .activate role (step :: _) => if mutating step then some role else none
  | .driving role step _ => if mutating step then some role else none
  | _ => none

namespace Lifecycle

def setEnabled (s : Lifecycle) (names : List String) (want : String → Bool) : Lifecycle :=
  { s with
    roles := fun id => if id ∈ names then { s.roles id with enabled := want id } else s.roles id
    desired := fun id => if id ∈ names then want id else s.desired id }

def rollback (s : Lifecycle) (names : List String) : Lifecycle :=
  { s with desired := fun id => if id ∈ names then (s.roles id).enabled else s.desired id }

def connects (s : Lifecycle) : Lifecycle :=
  { s with disconnecting := fun _ => [], disconnected := fun _ => false }

def connectsRole (s : Lifecycle) (role : String) : Lifecycle :=
  { s with
    disconnecting := update s.disconnecting role []
    disconnected := update s.disconnected role false }

def changed (s : Lifecycle) (f : Fleet) (profile : String) : List String :=
  f.names.filter fun role => (s.roles role).enabled != f.wanted profile role

def switchProfile (f : Fleet) (s : Lifecycle) (task : Nat) (profile : String)
    (order : List String) :
    Lifecycle :=
  let switched :=
    { s with
      activeProfile := profile
      roles := fun id =>
        if id ∈ f.names then { s.roles id with enabled := f.wanted profile id } else s.roles id
      desired := fun id => if id ∈ order then f.wanted profile id else s.desired id }
  switched.persist.setTask task (order.flatMap fun role =>
    if f.wanted profile role then [.start role] else [.stop role, .release role])

def step (f : Fleet) (s : Lifecycle) : LifecycleAction → Option Lifecycle
  | .connectAll task saved =>
    if s.tasks task ≠ [] then none
    else if saved then
      some ((s.connects.setEnabled f.names (f.wanted s.activeProfile)).persist.setTask task
        (f.names.map .start))
    else some (s.connects.rollback f.names)
  | .disconnectAll task saved =>
    if s.tasks task ≠ [] then none
    else if saved then
      some ((s.setEnabled f.names fun _ => false).persist.setTask task
        (f.names.flatMap fun role => [.stop role, .release role]))
    else some (s.rollback f.names)
  | .connectRole task role saved =>
    if s.tasks task ≠ [] then none
    else if role ∉ f.names then some s
    else
      let s := (s.connectsRole role).enable role saved
      some (if saved then s.setTask task [.start role] else s)
  | .disconnectRole task role saved =>
    if s.tasks task ≠ [] then none
    else if role ∉ f.names then some s
    else if saved then
      let r := { s.roles role with enabled := false, startPending := false }
      let s := ((s.setRole role r).setDesired role false).persist
      some { s.setTask task [.stop role, .release role, .returned role] with
        disconnecting := update s.disconnecting role (task :: s.disconnecting role) }
    else
      some ((s.setRole role { s.roles role with startPending := false }).setDesired role
        (s.roles role).enabled)
  | .setActiveProfile task profile order saved =>
    if s.tasks task ≠ [] then none
    else if (f.profileToRoles profile).isNone || s.activeProfile = profile then some s.connects
    else if saved then
      if order.isPerm (s.changed f profile) then
        some (switchProfile f s.connects task profile order)
      else none
    else some (s.connects.rollback f.names)
  | .work task result =>
    match s.tasks task with
    | [] => none
    | job :: rest =>
      let (s, jobs) := s.perform f task result job
      some (s.setTask task (jobs ++ rest))
  | .mutate task =>
    if ((s.tasks task).head?.bind Job.mutates).isSome then some s else none
  | .spawn task job =>
    if s.tasks task ≠ [] || !job.isWorker then none else some (s.setTask task [job])
  | .recoverRole task role managed action =>
    if s.tasks task ≠ [] then none
    else
      let steps := if managed then managedRecoverySequenceForAction action
        else recoverySequenceForAction action
      let s := { s with
        recoveryCancels := update s.recoveryCancels role (some task)
        cancelled := update s.cancelled task false }
      some (s.setTask task [.recover role steps, .track role, .endRecovery role])
  | .timeout task => some { s with cancelled := update s.cancelled task true }
  | .exit task pid =>
    if s.tasks task ≠ [] then none
    else (s.alive pid).map fun role => (s.kill pid).setTask task [.exited role pid]
  | .failByConfiguration task role =>
    if s.tasks task ≠ [] then none
    else some
      ((s.setRole role { s.roles role with enabled := false }).setTask task [.undesire role])

end Lifecycle

section Steps

variable {f : Fleet} {s s' : Lifecycle} {task : Nat} {job : Job} {rest : List Job}
  {result : CallResult}

def Lifecycle.worked (f : Fleet) (s : Lifecycle) (task : Nat) (result : CallResult) (job : Job)
    (rest : List Job) : Lifecycle :=
  (s.perform f task result job).1.setTask task ((s.perform f task result job).2 ++ rest)

variable {id : Nat} {job' : Job} {a : LifecycleAction}

theorem Lifecycle.mem_tasks_worked : job' ∈ (s.worked f task result job rest).tasks id ↔
      if id = task then job' ∈ (s.perform f task result job).2 ∨ job' ∈ rest
      else job' ∈ s.tasks id := by
  unfold Lifecycle.worked Lifecycle.setTask
  by_cases h : id = task
  · subst h
    simp
  · simp [h]

theorem Lifecycle.mem_tasks_of_worked (ht : s.tasks task = job :: rest)
    (h : job' ∈ (s.worked f task result job rest).tasks id) :
    id = task ∧ job' ∈ (s.perform f task result job).2 ∨ job' ∈ s.tasks id := by
  rw [mem_tasks_worked] at h
  split_ifs at h with hid
  · subst hid
    rw [ht]
    exact h.imp (fun hj => ⟨rfl, hj⟩) fun hj => List.mem_cons_of_mem _ hj
  · exact .inr h

theorem Lifecycle.mem_tasks_of_ne (ht : s.tasks task = job :: rest) (h : job' ∈ s.tasks id)
    (hne : job' ≠ job) : job' ∈ (s.worked f task result job rest).tasks id := by
  rw [mem_tasks_worked]
  split_ifs with hid
  · subst hid
    rw [ht] at h
    exact .inr ((List.mem_cons.mp h).resolve_left hne)
  · exact h

/-- A job leaves at most one behind, so that what is behind the head was there. -/
theorem Lifecycle.mem_tail_worked (h : job' ∈ ((s.worked f task result job rest).tasks task).tail) :
    job' ∈ rest := by
  have hlen := s.length_perform f task result job
  simp only [worked, setTask, Function.update_self] at h
  cases hnew : (s.perform f task result job).2 with
  | nil =>
    rw [hnew] at h
    exact List.mem_of_mem_tail h
  | cons next more =>
    rw [hnew] at h hlen
    obtain rfl := List.eq_nil_of_length_eq_zero (Nat.le_zero.mp (Nat.le_of_succ_le_succ hlen))
    exact h

def Job.opens : Job → Bool
  | .start _ | .stop _ | .release _ | .returned _ | .startRetry _ | .retryRole _ | .validate _ _
  | .recover _ _ | .track _ | .endRecovery _ | .undesire _ => true
  | _ => false

/-- The action brings one task at most and leaves the processes alone. -/
structure Lifecycle.Brings (s s' : Lifecycle) : Prop where
  process : ∀ role, (s'.roles role).process = (s.roles role).process
  alive : s'.alive = s.alive
  launched : s'.launched = s.launched
  tasks : ∀ id, s'.tasks id = s.tasks id ∨ s.tasks id = [] ∧ ∀ job ∈ s'.tasks id, job.opens = true

theorem Lifecycle.Brings.of_setTask {jobs : List Job}
    (hproc : ∀ role, (s'.roles role).process = (s.roles role).process) (halive : s'.alive = s.alive)
    (hlaunched : s'.launched = s.launched) (hfree : s.tasks task = [])
    (htasks : s'.tasks = update s.tasks task jobs) (hjobs : ∀ job ∈ jobs, job.opens = true) :
    s.Brings s' := by
  refine ⟨hproc, halive, hlaunched, fun id => ?_⟩
  rw [htasks, update_apply]
  split_ifs with hid
  · subst hid
    exact .inr ⟨hfree, hjobs⟩
  · exact .inl rfl

theorem Lifecycle.Brings.of_tasks (hproc : ∀ role, (s'.roles role).process = (s.roles role).process)
    (halive : s'.alive = s.alive) (hlaunched : s'.launched = s.launched)
    (htasks : s'.tasks = s.tasks) : s.Brings s' :=
  ⟨hproc, halive, hlaunched, fun id => .inl (by rw [htasks])⟩

theorem Lifecycle.brings_command (h : s.step f a = some s')
    (hwork : ∀ task result, a ≠ .work task result) (hexit : ∀ task pid, a ≠ .exit task pid) :
    s.Brings s' := by
  cases a with
  | work task result => exact absurd rfl (hwork task result)
  | exit task pid => exact absurd rfl (hexit task pid)
  | connectAll task saved =>
    simp only [step] at h
    split_ifs at h with hfree
    · cases h
      refine .of_setTask (fun role => ?_) rfl rfl (not_not.mp hfree) rfl (by simp [Job.opens])
      simp only [setTask, persist, setEnabled, connects]
      split_ifs <;> rfl
    · cases h
      exact .of_tasks (fun _ => rfl) rfl rfl rfl
  | disconnectAll task saved =>
    simp only [step] at h
    split_ifs at h with hfree
    · cases h
      refine .of_setTask (fun role => ?_) rfl rfl (not_not.mp hfree) rfl ?_
      · simp only [setTask, persist, setEnabled]
        split_ifs <;> rfl
      · grind [Job.opens]
    · cases h
      exact .of_tasks (fun _ => rfl) rfl rfl rfl
  | connectRole task role saved =>
    simp only [step] at h
    split_ifs at h with hfree hsaved hrole
    · cases h
      exact .of_setTask (process_enable _ role · saved) (alive_enable _ role saved)
        (launched_enable _ role saved) (not_not.mp hfree)
        (congrArg (update · task _) (tasks_enable _ role saved)) (by simp [Job.opens])
    · cases h
      exact .of_tasks (process_enable _ role · saved) (alive_enable _ role saved)
        (launched_enable _ role saved) (tasks_enable _ role saved)
    · cases h
      exact .of_tasks (fun _ => rfl) rfl rfl rfl
  | disconnectRole task role saved =>
    simp only [step] at h
    split_ifs at h with hfree
    · cases h
      exact .of_setTask (process_setRole rfl) rfl rfl (not_not.mp hfree) rfl (by simp [Job.opens])
    · cases h
      exact .of_tasks (process_setRole rfl) rfl rfl rfl
    · cases h
      exact .of_tasks (fun _ => rfl) rfl rfl rfl
  | setActiveProfile task profile order saved =>
    simp only [step] at h
    split_ifs at h with hfree
    · cases h
      exact .of_tasks (fun _ => rfl) rfl rfl rfl
    · cases h
      refine .of_setTask (fun role => ?_) rfl rfl (not_not.mp hfree) rfl ?_
      · simp only [switchProfile, setTask, persist, connects]
        split_ifs <;> rfl
      · grind [Job.opens]
    · cases h
      exact .of_tasks (fun _ => rfl) rfl rfl rfl
  | mutate task =>
    simp only [step] at h
    split_ifs at h
    cases h
    exact .of_tasks (fun _ => rfl) rfl rfl rfl
  | spawn task job =>
    simp only [step] at h
    split_ifs at h with hfree
    cases h
    simp only [Bool.or_eq_true, not_or, decide_eq_true_eq, not_not] at hfree
    refine .of_setTask (fun _ => rfl) rfl rfl hfree.1 rfl (List.forall_mem_singleton.mpr ?_)
    cases job <;> simp_all [Job.opens, Job.isWorker]
  | recoverRole task role managed action =>
    simp only [step] at h
    split_ifs at h with hfree
    all_goals
      cases h
      exact .of_setTask (fun _ => rfl) rfl rfl (not_not.mp hfree) rfl (by simp [Job.opens])
  | timeout task =>
    cases h
    exact .of_tasks (fun _ => rfl) rfl rfl rfl
  | failByConfiguration task role =>
    simp only [step] at h
    split_ifs at h with hfree
    cases h
    refine .of_setTask (fun id => ?_) rfl rfl (not_not.mp hfree) rfl (by simp [Job.opens])
    simp only [setTask, roles_setRole]
    split_ifs with hid
    · rw [hid]
    · rfl

theorem Lifecycle.step_cases (h : s.step f a = some s') :
    (∃ task result job rest, a = .work task result ∧ s.tasks task = job :: rest ∧
      s' = s.worked f task result job rest) ∨
    (∃ task pid role, a = .exit task pid ∧ s.alive pid = some role ∧ s.tasks task = [] ∧
      s' = (s.kill pid).setTask task [.exited role pid]) ∨
    (∀ task result, a ≠ .work task result) ∧ s.Brings s' := by
  cases a with
  | work task result =>
    simp only [step] at h
    split at h
    · cases h
    · next job rest ht =>
      cases h
      exact .inl ⟨task, result, job, rest, rfl, ht, rfl⟩
  | exit task pid =>
    simp only [step] at h
    split_ifs at h with hfree
    obtain ⟨role, halive, rfl⟩ := Option.map_eq_some_iff.mp h
    exact .inr (.inl ⟨task, pid, role, rfl, halive, not_not.mp hfree, rfl⟩)
  | _ => exact .inr (.inr ⟨nofun, brings_command h nofun nofun⟩)

theorem Lifecycle.mem_tasks_of_step (h : s.step f a = some s')
    (hwork : ∀ task result, a ≠ .work task result) (hj : job ∈ s.tasks id) : job ∈ s'.tasks id := by
  obtain ⟨task, result, _, _, rfl, _⟩ | ⟨task, pid, role, rfl, _, hfree, rfl⟩ | ⟨_, hb⟩ :=
    step_cases h
  · exact absurd rfl (hwork task result)
  · have hid : id ≠ task := by
      rintro rfl
      simp [hfree] at hj
    simpa [setTask, hid] using hj
  · rcases hb.tasks id with heq | ⟨hnil, _⟩
    · rwa [heq]
    · simp [hnil] at hj

end Steps

/-- `RestoreDesiredState`: the flags on disk, except for the roles that lack
    credentials. An unknown profile falls back to the default. -/
def Lifecycle.restoreDesired (f : Fleet) (task : Nat) (profile : String) (persisted : String → Bool)
    (blocked : String → Bool) : Lifecycle :=
  let profile := if (f.profileToRoles profile).isSome then profile else "default"
  let s : Lifecycle := { activeProfile := profile, persisted := persisted }
  let want role := persisted role && !blocked role
  (s.setEnabled f.names want).setTask task ((f.names.filter want).map .start)

/-- The runs of a manager that starts with every role stopped, or with the desired
    state from the disk, under a rule for its actions. -/
inductive LifecycleRun (f : Fleet) (R : Lifecycle → LifecycleAction → Prop) : Lifecycle → Prop
  | start (profile : String) (persisted : String → Bool) :
      LifecycleRun f R { activeProfile := profile, persisted := persisted }
  | restore (task : Nat) (profile : String) (persisted blocked : String → Bool) :
      LifecycleRun f R (.restoreDesired f task profile persisted blocked)
  | step {s s' : Lifecycle} {a : LifecycleAction} (h : LifecycleRun f R s) (ha : R s a)
      (hs : s.step f a = some s') : LifecycleRun f R s'

def Lifecycle.play (f : Fleet) : List LifecycleAction → Lifecycle → Option Lifecycle
  | [], s => some s
  | a :: actions, s => (s.step f a).bind (play f actions)

theorem LifecycleRun.play {f : Fleet} {R : Lifecycle → LifecycleAction → Prop} {s s' : Lifecycle}
    (h : LifecycleRun f R s) (actions : List LifecycleAction) (hR : ∀ a ∈ actions, ∀ s, R s a)
    (hs : s.play f actions = some s') : LifecycleRun f R s' := by
  induction actions generalizing s with
  | nil =>
    cases hs
    exact h
  | cons a actions ih =>
    obtain ⟨s1, hs1, hs⟩ := Option.bind_eq_some_iff.mp hs
    obtain ⟨ha, hR⟩ := List.forall_mem_cons.mp hR
    exact ih (h.step (ha s) hs1) hR hs

def sampleFleet : Fleet where
  names := ["home", "work"]
  profiles role := if role = "home" then ["office"] else []

theorem lifecycleRun_play (actions : List LifecycleAction) {s : Lifecycle}
    (h : ({ activeProfile := "office" } : Lifecycle).play sampleFleet actions = some s) :
    LifecycleRun sampleFleet (fun _ _ => True) s :=
  (LifecycleRun.start "office" fun _ => false).play actions (fun _ _ _ => trivial) h

def startWork (task : Nat) : List LifecycleAction := List.replicate 5 (.work task .done)

end Kikimora.Control

import Mathlib.Tactic.SplitIfs
import Mathlib.Data.List.Basic

/-!
# The recoveries of one role

Seven places launch `recoverRole`. Four of them test and set `recoveryInFlight`, the
retry timer only sets it, and a failed activation does neither. A run that ends
clears the flag first and drops the role's cancel function later, whoever has
stored it meanwhile.

Product states, underlay and process of the role change at any time; the triggers
are taken when they like, as far as their own checks allow.
-/

namespace Kikimora.Control

/-- The role, its product state and the underlay, as the triggers see them. -/
structure RecoveryView where
  enabled : Bool := true
  process : Option Nat := none
  stateValid : Bool := false
  routeReady : Bool := false
  everRouteReady : Bool := false
  /-- the product state is Recovering -/
  recovering : Bool := false
  operation : Nat := 0
  validatedEpoch : Nat := 0
  underlayEpoch : Nat := 0
  underlayAvailable : Bool := true
  suspended : Bool := false
  autoRecovery : Bool := true
  recoveryDriver : Bool := true
  deriving DecidableEq, Repr

/-- Where a run was launched. -/
inductive RecoverSite
  | recoverStaleRoles
  | routeTarget (process : Nat)
  | managed
  | retryRole
  | activation
  | retryTimer
  deriving DecidableEq, Repr

/-- A run is claimed by its launch, has stored its cancel function, or has cleared
    the flag and not dropped the cancel function yet. -/
inductive RecoverPhase
  | claimed
  | running
  | closing
  deriving DecidableEq, Repr

structure RecoverRun where
  id : Nat
  site : RecoverSite
  operation : Nat
  epoch : Nat
  phase : RecoverPhase := .claimed
  deriving DecidableEq, Repr

/-- How `Engine.Recover` ends, as `recoverRole` tells the errors apart. -/
inductive TransactionEnd
  | cancelled
  | succeeded
  | stillParked
  | validationPending
  | restartPending
  | failed
  deriving DecidableEq, Repr

structure Recoveries where
  view : RecoveryView := {}
  recoveryInFlight : Bool := false
  recoveryRetryPending : Bool := false
  restartHandoffPending : Bool := false
  validationInFlight : Bool := false
  recoveryCancel : Option Nat := none
  runs : List RecoverRun := []
  launched : Nat := 0
  /-- the runs whose context a stop has cancelled -/
  cancelled : List Nat := []
  /-- the processes whose validation is in flight -/
  validations : List Nat := []
  /-- the operator's retries that have passed their check, with operation and epoch -/
  kicks : List (Nat × Nat) := []
  /-- the armed retries -/
  timers : List (Nat × Nat) := []
  /-- the retries that have passed their check -/
  retries : List (Nat × Nat) := []
  /-- the armed deadlines of restart handoffs -/
  handoffs : List (Nat × Nat) := []
  deriving DecidableEq, Repr

inductive RecoveryEvent
  | observe (view : RecoveryView)
  | recoverStaleRoles (epoch : Nat)
  | scheduleRouteTargetRecovery (process : Nat)
  | requestManagedSelectedRecovery
  | retryRole
  /-- `RetryRole` launches after its check -/
  | retryKicks (operation epoch : Nat)
  /-- the product refuses to go to Recovering for a claimed run -/
  | refuse (run : Nat)
  | scheduleValidation (process : Nat)
  | finishValidationSchedule (process : Nat)
  /-- the end of a validation that launches nothing -/
  | validationEnds (process : Nat)
  /-- the end of a validation that fails, or whose activation fails -/
  | activationFails (process : Nat)
  | scheduleRecoveryRetry (operation epoch : Nat)
  | retryFires (operation epoch : Nat)
  | retryLaunches (operation epoch : Nat)
  | handoffDeadline (operation epoch : Nat)
  /-- `recoverRole` stores its cancel function -/
  | enter (run : Nat)
  /-- `recoverRole` clears the flag -/
  | finish (run : Nat) (outcome : TransactionEnd)
  /-- the deferred part of `recoverRole` -/
  | leave (run : Nat)
  | stopRoleProcess
  /-- a start or an exit drops the handoff -/
  | replaceProcess
  deriving DecidableEq, Repr

namespace Recoveries

def launch (s : Recoveries) (site : RecoverSite) (operation epoch : Nat) : Recoveries :=
  { s with
    runs := s.runs ++ [{ id := s.launched, site, operation, epoch }]
    launched := s.launched + 1 }

def setPhase (s : Recoveries) (run : Nat) (phase : RecoverPhase) : Recoveries :=
  { s with runs := s.runs.map fun r => if r.id = run then { r with phase } else r }

def find (s : Recoveries) (run : Nat) (phase : RecoverPhase) : Option RecoverRun :=
  s.runs.find? fun r => r.id = run && r.phase = phase

/-- What `recoverRole` does with the flags of the role, by the end of the transaction. -/
def finished (s : Recoveries) (r : RecoverRun) : TransactionEnd → Recoveries
  | .cancelled => { s with recoveryInFlight := false, recoveryRetryPending := false }
  | .succeeded =>
    { s with
      recoveryInFlight := false
      recoveryRetryPending := false
      restartHandoffPending := false }
  | .restartPending =>
    { s with
      recoveryInFlight := false
      restartHandoffPending := true
      handoffs := (r.operation, r.epoch) :: s.handoffs }
  | _ => { s with recoveryInFlight := false }

/-- The deadline of a restart handoff still finds the handoff that armed it. -/
def takesHandoff (s : Recoveries) (operation epoch : Nat) : Bool :=
  s.restartHandoffPending && s.view.enabled && s.view.process.isSome &&
    s.view.operation = operation && s.view.underlayEpoch = epoch

def step (s : Recoveries) : RecoveryEvent → Option Recoveries
  | .observe view => some { s with view }
  | .recoverStaleRoles epoch =>
    if s.view.enabled && s.view.process.isSome && !s.recoveryInFlight && s.view.recovering then
      some ({ s with recoveryInFlight := true }.launch .recoverStaleRoles s.view.operation epoch)
    else none
  | .scheduleRouteTargetRecovery process =>
    if s.view.process = some process && s.view.enabled && s.view.stateValid && !s.view.routeReady &&
        s.view.everRouteReady && !s.recoveryInFlight && !s.restartHandoffPending &&
        !s.view.suspended && s.view.autoRecovery && s.view.recoveryDriver &&
        s.view.underlayEpoch ≠ 0 && s.view.underlayAvailable then
      some ({ s with recoveryInFlight := true }.launch (.routeTarget process) s.view.operation
        s.view.underlayEpoch)
    else none
  | .requestManagedSelectedRecovery =>
    if s.view.enabled && s.view.process.isSome && s.view.recoveryDriver && !s.recoveryInFlight then
      some
        ({ s with recoveryInFlight := true }.launch .managed s.view.operation s.view.underlayEpoch)
    else none
  | .retryRole =>
    if s.view.enabled && s.view.process.isSome && s.view.recovering && s.view.recoveryDriver &&
        s.view.underlayEpoch ≠ 0 then
      some { s with kicks := (s.view.operation, s.view.underlayEpoch) :: s.kicks }
    else none
  | .retryKicks operation epoch =>
    if (operation, epoch) ∈ s.kicks then
      let s := { s with kicks := s.kicks.erase (operation, epoch) }
      some (if !s.recoveryInFlight then
        { s with recoveryInFlight := true }.launch .retryRole operation epoch
      else s)
    else none
  | .refuse run =>
    (s.find run .claimed).bind fun r =>
      let runs := s.runs.filter fun r => r.id ≠ run
      match r.site with
      | .managed => some { s with runs, recoveryInFlight := false }
      | .routeTarget process =>
        -- the flag stays when the process was replaced meanwhile
        some { s with
          runs
          recoveryInFlight := s.recoveryInFlight && !(s.view.process = some process) }
      | _ => none
  | .scheduleValidation process =>
    if s.view.process = some process && s.view.enabled && s.view.stateValid && s.view.routeReady &&
        !s.validationInFlight && s.view.underlayEpoch ≠ 0 && s.view.underlayAvailable &&
        s.view.validatedEpoch ≠ s.view.underlayEpoch &&
        !(s.recoveryInFlight || s.recoveryRetryPending) then
      some { s with
        recoveryInFlight := false
        restartHandoffPending := false
        validationInFlight := true
        validations := process :: s.validations }
    else none
  | .finishValidationSchedule process =>
    if process ∈ s.validations then
      some (if s.view.process = some process then { s with validationInFlight := false } else s)
    else none
  | .validationEnds process =>
    if process ∈ s.validations then some { s with validations := s.validations.erase process }
    else none
  | .activationFails process =>
    if process ∈ s.validations && s.view.autoRecovery && s.view.recoveryDriver then
      some
        ({ s with validations := s.validations.erase process }.launch .activation s.view.operation
        s.view.underlayEpoch)
    else none
  | .scheduleRecoveryRetry operation epoch =>
    if !s.recoveryRetryPending && s.view.underlayEpoch = epoch && s.view.enabled &&
        s.view.process.isSome && s.view.recovering && s.view.operation = operation then
      some { s with recoveryRetryPending := true, timers := (operation, epoch) :: s.timers }
    else none
  | .retryFires operation epoch =>
    if (operation, epoch) ∈ s.timers then
      let canRetry := s.view.enabled && s.view.process.isSome && s.view.underlayEpoch = epoch &&
        s.view.recovering && s.view.operation = operation
      some { s with
        recoveryRetryPending := false
        timers := s.timers.erase (operation, epoch)
        retries := if canRetry then (operation, epoch) :: s.retries else s.retries }
    else none
  | .retryLaunches operation epoch =>
    if (operation, epoch) ∈ s.retries then
      some ({ s with
        recoveryInFlight := true
        retries := s.retries.erase (operation, epoch) }.launch .retryTimer operation epoch)
    else none
  | .handoffDeadline operation epoch =>
    if (operation, epoch) ∈ s.handoffs then
      let s := { s with handoffs := s.handoffs.erase (operation, epoch) }
      some (if s.takesHandoff operation epoch then
        { s with restartHandoffPending := false, recoveryInFlight := false }
      else s)
    else none
  | .enter run =>
    (s.find run .claimed).map fun _ => { s.setPhase run .running with recoveryCancel := some run }
  | .finish run outcome =>
    (s.find run .running).map fun r => (s.setPhase run .closing).finished r outcome
  | .leave run =>
    (s.find run .closing).map fun _ =>
      { s with runs := s.runs.filter fun r => r.id ≠ run, recoveryCancel := none }
  | .stopRoleProcess =>
    some { s with
      restartHandoffPending := false
      recoveryRetryPending := false
      recoveryCancel := none
      cancelled := s.recoveryCancel.toList ++ s.cancelled }
  | .replaceProcess => some { s with restartHandoffPending := false }

end Recoveries

/-- The runs of the recovery triggers, under a rule for the events. -/
inductive RecoveriesRun (R : Recoveries → RecoveryEvent → Prop) : Recoveries → Prop
  | start (view : RecoveryView) : RecoveriesRun R { view }
  | step {s s' : Recoveries} {e : RecoveryEvent} (h : RecoveriesRun R s) (he : R s e)
      (hs : s.step e = some s') : RecoveriesRun R s'

/-- One run at most; the flag is set exactly from its launch to its end; the stored
    cancel function is its own, and it is stored until a stop has used it. -/
structure OneRecovery (s : Recoveries) : Prop where
  single : s.runs.length ≤ 1
  inFlight : s.recoveryInFlight = true ↔ ∃ r ∈ s.runs, r.phase ≠ .closing
  own : ∀ id, s.recoveryCancel = some id → ∃ r ∈ s.runs, r.id = id ∧ r.phase ≠ .claimed
  stored : ∀ r ∈ s.runs, r.phase = .running → s.recoveryCancel = some r.id ∨ r.id ∈ s.cancelled

/-- No run stands between clearing the flag and its deferred part. -/
def Recoveries.NoneClosing (s : Recoveries) : Prop := ∀ r ∈ s.runs, r.phase ≠ .closing

/-- A launch waits for the deferred part of the run before it, and that of a retry timer
    also for the flag, which it does not test. A failed activation launches nothing, a
    claim is refused before its process is replaced, and no deadline takes a handoff while
    the flag is set. -/
def Separate (s : Recoveries) : RecoveryEvent → Prop
  | .recoverStaleRoles _ | .scheduleRouteTargetRecovery _
  | .requestManagedSelectedRecovery => s.NoneClosing
  | .retryKicks _ _ => s.recoveryInFlight = true ∨ s.NoneClosing
  | .retryLaunches _ _ => s.recoveryInFlight = false ∧ s.NoneClosing
  | .activationFails _ => False
  | .refuse run => ∀ r ∈ s.runs, r.id = run → ∀ process, r.site = .routeTarget process →
      s.view.process = some process
  | .handoffDeadline operation epoch =>
    s.recoveryInFlight = false ∨ s.takesHandoff operation epoch = false
  | _ => True

section Steps

variable {s s' : Recoveries} {r : RecoverRun} {run operation epoch : Nat} {site : RecoverSite}

theorem mem_of_find {phase : RecoverPhase} (h : s.find run phase = some r) :
    r ∈ s.runs ∧ r.id = run ∧ r.phase = phase := by
  have hr := List.find?_some h
  simp only [Bool.and_eq_true, decide_eq_true_eq] at hr
  exact ⟨List.mem_of_find?_eq_some h, hr⟩

theorem OneRecovery.runs_eq (h : OneRecovery s) (hr : r ∈ s.runs) : s.runs = [r] := by
  have hsingle := h.single
  match hruns : s.runs with
  | [] => simp [hruns] at hr
  | [_] =>
    rw [hruns] at hr
    rw [List.mem_singleton.mp hr]
  | _ :: _ :: _ =>
    rw [hruns] at hsingle
    simp at hsingle

/-- What the test of the flag buys: no run is left that has not cleared it. -/
theorem OneRecovery.runs_eq_nil (h : OneRecovery s) (hflag : s.recoveryInFlight = false)
    (hopen : s.NoneClosing) : s.runs = [] := by
  refine List.eq_nil_iff_forall_not_mem.mpr fun r hr => ?_
  have hset := h.inFlight.mpr ⟨r, hr, hopen r hr⟩
  rw [hflag] at hset
  cases hset

theorem OneRecovery.of_eq (h : OneRecovery s) (hruns : s'.runs = s.runs)
    (hflag : s'.recoveryInFlight = s.recoveryInFlight)
    (hcancel : s'.recoveryCancel = s.recoveryCancel) (hcancelled : s'.cancelled = s.cancelled) :
    OneRecovery s' := by
  refine ⟨?_, ?_, ?_, ?_⟩
  · rw [hruns]
    exact h.single
  · rw [hflag, hruns]
    exact h.inFlight
  · rw [hcancel, hruns]
    exact h.own
  · rw [hruns, hcancel, hcancelled]
    exact h.stored

theorem OneRecovery.launch (h : OneRecovery s) (hclear : s.recoveryInFlight = false)
    (hopen : s.NoneClosing) (hflag : s'.recoveryInFlight = true) (hruns' : s'.runs = s.runs)
    (hcancel : s'.recoveryCancel = s.recoveryCancel) :
    OneRecovery (s'.launch site operation epoch) := by
  have hruns := h.runs_eq_nil hclear hopen
  have hnone : s'.recoveryCancel = none := by
    rw [hcancel]
    refine Option.eq_none_iff_forall_ne_some.mpr fun id hid => ?_
    obtain ⟨r, hr, _⟩ := h.own id hid
    simp [hruns] at hr
  have hlaunched : (s'.launch site operation epoch).runs =
      [{ id := s'.launched, site, operation, epoch }] := by
    simp [Recoveries.launch, hruns', hruns]
  refine ⟨?_, ?_, fun id hid => ?_, fun r hr hphase => ?_⟩
  · simp [hlaunched]
  · refine iff_of_true hflag ⟨_, by rw [hlaunched]; exact List.mem_singleton_self _, by simp⟩
  · cases hnone.symm.trans hid
  · rw [hlaunched] at hr
    rw [List.mem_singleton.mp hr] at hphase
    cases hphase

theorem OneRecovery.of_nil (hruns : s'.runs = []) (hflag : s'.recoveryInFlight = false)
    (hcancel : s'.recoveryCancel = none) : OneRecovery s' := by
  refine ⟨by simp [hruns], ?_, fun id hid => ?_, fun r hr => ?_⟩
  · simp [hruns, hflag]
  · cases hcancel.symm.trans hid
  · simp [hruns] at hr

variable (h : OneRecovery s)

include h

theorem OneRecovery.refuse (he : Separate s (.refuse run)) (hs : s.step (.refuse run) = some s') :
    OneRecovery s' := by
  obtain ⟨r, hfind, hs⟩ := Option.bind_eq_some_iff.mp hs
  obtain ⟨hr, hid, hphase⟩ := mem_of_find hfind
  have hruns := h.runs_eq hr
  have hnone : s.recoveryCancel = none := by
    refine Option.eq_none_iff_forall_ne_some.mpr fun id hsome => ?_
    obtain ⟨other, hother, _, hne⟩ := h.own id hsome
    rw [hruns, List.mem_singleton] at hother
    exact hne (hother ▸ hphase)
  have hgone : s.runs.filter (fun r => r.id ≠ run) = [] := by simp [hruns, hid]
  cases hsite : r.site with
  | managed =>
    simp only [hsite] at hs
    cases hs
    exact .of_nil hgone rfl hnone
  | routeTarget process =>
    have hsame := he r hr hid process hsite
    simp only [hsite, hsame] at hs
    cases hs
    exact .of_nil hgone (by simp) hnone
  | _ =>
    simp only [hsite] at hs
    cases hs

theorem OneRecovery.enter (hs : s.step (.enter run) = some s') : OneRecovery s' := by
  obtain ⟨r, hfind, rfl⟩ := Option.map_eq_some_iff.mp hs
  obtain ⟨hr, hid, hphase⟩ := mem_of_find hfind
  have hruns : (s.setPhase run .running).runs = [{ r with phase := .running }] := by
    simp [Recoveries.setPhase, h.runs_eq hr, hid]
  refine ⟨?_, ?_, fun id heq => ?_, fun other hother _ => ?_⟩
  · simp [hruns]
  · have hflag : s.recoveryInFlight = true := h.inFlight.mpr ⟨r, hr, by simp [hphase]⟩
    exact iff_of_true hflag ⟨{ r with phase := .running }, by simp [hruns], by simp⟩
  · cases heq
    exact ⟨{ r with phase := .running }, by simp [hruns], hid, by simp⟩
  · left
    rw [hruns, List.mem_singleton] at hother
    rw [hother, ← hid]

theorem OneRecovery.finish {outcome : TransactionEnd}
    (hs : s.step (.finish run outcome) = some s') : OneRecovery s' := by
  obtain ⟨r, hfind, rfl⟩ := Option.map_eq_some_iff.mp hs
  obtain ⟨hr, hid, hphase⟩ := mem_of_find hfind
  have hflag : ((s.setPhase run .closing).finished r outcome).recoveryInFlight = false := by
    cases outcome <;> rfl
  have hcancel : ((s.setPhase run .closing).finished r outcome).recoveryCancel =
      s.recoveryCancel := by
    cases outcome <;> rfl
  have hruns : ((s.setPhase run .closing).finished r outcome).runs =
      [{ r with phase := .closing }] := by
    have hclosing : (s.setPhase run .closing).runs = [{ r with phase := .closing }] := by
      simp [Recoveries.setPhase, h.runs_eq hr, hid]
    cases outcome <;> exact hclosing
  refine ⟨?_, ?_, fun id heq => ?_, fun other hother hrunning => ?_⟩
  · simp [hruns]
  · simp [hruns, hflag]
  · rw [hcancel] at heq
    obtain ⟨other, hother, hid, _⟩ := h.own id heq
    rw [h.runs_eq hr, List.mem_singleton] at hother
    exact ⟨{ r with phase := .closing }, by simp [hruns], hother ▸ hid, by simp⟩
  · rw [hruns, List.mem_singleton] at hother
    rw [hother] at hrunning
    cases hrunning

theorem OneRecovery.leave (hs : s.step (.leave run) = some s') : OneRecovery s' := by
  obtain ⟨r, hfind, rfl⟩ := Option.map_eq_some_iff.mp hs
  obtain ⟨hr, hid, hphase⟩ := mem_of_find hfind
  have hruns := h.runs_eq hr
  refine .of_nil (by simp [hruns, hid]) (Bool.eq_false_iff.mpr fun hflag => ?_) rfl
  obtain ⟨other, hother, hne⟩ := h.inFlight.mp hflag
  rw [hruns, List.mem_singleton] at hother
  exact hne (hother ▸ hphase)

theorem OneRecovery.stop (hs : s.step .stopRoleProcess = some s') : OneRecovery s' := by
  cases hs
  refine ⟨h.single, h.inFlight, nofun, fun r hr hrunning => ?_⟩
  rcases h.stored r hr hrunning with hcancel | hcancelled
  · exact .inr (by simp [hcancel])
  · exact .inr (List.mem_append_right _ hcancelled)

theorem OneRecovery.step {e : RecoveryEvent} (he : Separate s e) (hs : s.step e = some s') :
    OneRecovery s' := by
  cases e with
  | refuse run => exact h.refuse he hs
  | enter run => exact h.enter hs
  | finish run outcome => exact h.finish hs
  | leave run => exact h.leave hs
  | stopRoleProcess => exact h.stop hs
  | activationFails process => exact he.elim
  | recoverStaleRoles | scheduleRouteTargetRecovery | requestManagedSelectedRecovery =>
    simp only [Recoveries.step] at hs
    split_ifs at hs with hguard
    cases hs
    have hclear : s.recoveryInFlight = false := by
      by_contra hset
      simp [hset] at hguard
    exact h.launch hclear he rfl rfl rfl
  | retryLaunches operation epoch =>
    simp only [Recoveries.step] at hs
    split_ifs at hs
    cases hs
    exact h.launch he.1 he.2 rfl rfl rfl
  | retryKicks operation epoch =>
    simp only [Recoveries.step] at hs
    split_ifs at hs with _ htest
    · cases hs
      have hclear : s.recoveryInFlight = false := by simpa using htest
      exact h.launch hclear (he.resolve_left (by simp [hclear])) rfl rfl rfl
    · cases hs
      exact h.of_eq rfl rfl rfl rfl
  | handoffDeadline operation epoch =>
    simp only [Recoveries.step] at hs
    split_ifs at hs with _ htaken
    · cases hs
      refine h.of_eq rfl (Eq.symm (he.resolve_right fun hnot => ?_)) rfl rfl
      exact Bool.false_ne_true (hnot.symm.trans htaken)
    · cases hs
      exact h.of_eq rfl rfl rfl rfl
  | scheduleValidation process =>
    simp only [Recoveries.step] at hs
    split_ifs at hs with hguard
    cases hs
    refine h.of_eq rfl ?_ rfl rfl
    simp only [Bool.and_eq_true, Bool.not_eq_true', Bool.or_eq_false_iff] at hguard
    exact hguard.2.1.symm
  | observe view | replaceProcess =>
    cases hs
    exact h.of_eq rfl rfl rfl rfl
  | _ =>
    simp only [Recoveries.step] at hs
    split_ifs at hs
    all_goals
      cases hs
      exact h.of_eq rfl rfl rfl rfl

end Steps

theorem oneRecovery_start (view : RecoveryView) : OneRecovery { view } :=
  .of_nil rfl rfl rfl

/-- One recovery at a time, while the triggers keep apart. -/
theorem RecoveriesRun.oneRecovery {s : Recoveries} (h : RecoveriesRun Separate s) :
    OneRecovery s := by
  induction h with
  | start view => exact oneRecovery_start view
  | step _ he hs ih => exact ih.step he hs

def recoveringView : RecoveryView :=
  { process := some 0, stateValid := true, routeReady := true, recovering := true, operation := 1,
    underlayEpoch := 1 }

/-- The operator's retry meets the flag of a stale role's run and launches nothing. -/
theorem RecoveriesRun.oneRecovery_stale :
    ∃ s, RecoveriesRun Separate s ∧ s.runs.length = 1 ∧ s.recoveryCancel = some 0 ∧
      OneRecovery s := by
  have h₀ : RecoveriesRun Separate _ := .start recoveringView
  have h₁ := h₀.step (e := .recoverStaleRoles 1) (by simp [Separate, Recoveries.NoneClosing]) rfl
  have h₂ := h₁.step (e := .enter 0) trivial rfl
  have h₃ := h₂.step (e := .retryRole) trivial rfl
  have h₄ := h₃.step (e := .retryKicks 1 1) (.inl rfl) rfl
  exact ⟨_, h₄, rfl, rfl, RecoveriesRun.oneRecovery h₄⟩

def Recoveries.play : List RecoveryEvent → Recoveries → Option Recoveries
  | [], s => some s
  | e :: events, s => (s.step e).bind (play events)

theorem RecoveriesRun.play {s s' : Recoveries} (h : RecoveriesRun (fun _ _ => True) s)
    (events : List RecoveryEvent) (hs : s.play events = some s') :
    RecoveriesRun (fun _ _ => True) s' := by
  induction events generalizing s with
  | nil =>
    cases hs
    exact h
  | cons e events ih =>
    obtain ⟨s1, hs1, hs⟩ := Option.bind_eq_some_iff.mp hs
    exact ih (h.step trivial hs1) hs

def retryDuringRecovery : List RecoveryEvent :=
  [.scheduleRecoveryRetry 1 1, .requestManagedSelectedRecovery, .enter 0, .retryFires 1 1,
    .retryLaunches 1 1, .enter 1]

def failedActivation : List RecoveryEvent := [.scheduleValidation 0, .activationFails 0, .enter 0]

def lateHandoff : List RecoveryEvent :=
  [.requestManagedSelectedRecovery, .enter 0, .finish 0 .restartPending, .leave 0,
    .requestManagedSelectedRecovery, .enter 1, .handoffDeadline 1 1,
    .requestManagedSelectedRecovery, .enter 2]

def earlyTrigger : List RecoveryEvent :=
  [.requestManagedSelectedRecovery, .enter 0, .finish 0 .failed, .requestManagedSelectedRecovery,
    .enter 1, .leave 0]

def staleClaim : List RecoveryEvent :=
  [.observe { recoveringView with routeReady := false, everRouteReady := true },
    .scheduleRouteTargetRecovery 0, .observe { recoveringView with process := some 1 }, .refuse 0]

/-- Two runs at once; a run without the flag; the flag cleared under a run, and two
    runs at once; a run whose cancel function another run has dropped; and the flag
    without a run. -/
theorem overlapping_recoveries :
    (∃ s, RecoveriesRun (fun _ _ => True) s ∧ s.runs.map (·.phase) = [.running, .running]) ∧
    (∃ s, RecoveriesRun (fun _ _ => True) s ∧ s.runs.map (·.phase) = [.running] ∧
      s.recoveryInFlight = false) ∧
    (∃ s, RecoveriesRun (fun _ _ => True) s ∧ s.handoffs = [] ∧
      s.runs.map (·.phase) = [.running, .running]) ∧
    (∃ s, RecoveriesRun (fun _ _ => True) s ∧ s.runs.map (·.phase) = [.running] ∧
      s.recoveryCancel = none ∧ s.cancelled = []) ∧
    ∃ s, RecoveriesRun (fun _ _ => True) s ∧ s.runs = [] ∧ s.recoveryInFlight = true := by
  have h₀ : RecoveriesRun (fun _ _ => True) _ := .start recoveringView
  exact ⟨⟨_, h₀.play retryDuringRecovery rfl, rfl⟩, ⟨_, h₀.play failedActivation rfl, rfl, rfl⟩,
    ⟨_, h₀.play lateHandoff rfl, rfl, rfl⟩, ⟨_, h₀.play earlyTrigger rfl, rfl, rfl, rfl⟩,
    ⟨_, h₀.play staleClaim rfl, rfl, rfl⟩⟩

end Kikimora.Control

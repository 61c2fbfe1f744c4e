import Kikimora.Core.Calls
import Kikimora.Core.Decide

/-!
# The recovery engine

The product controller together with any number of recovery transactions. A
transaction holds the controller's lock only for its single reads and writes, so
every action below may come between two steps of a transaction.
-/

namespace Kikimora.Core

/-- Where a run of `Engine.Recover` stands. -/
inductive RecoveryPhase
  /-- the role has been copied, the underlay not yet read -/
  | copied (current : RoleRuntime)
  /-- the remaining steps -/
  | steps (recovery : RecoveryState) (remaining : List RecoveryStep)
  /-- inside the validate step, between begin and complete -/
  | validating (recovery : RecoveryState) (rest : List RecoveryStep) (token : ValidationToken)
  /-- a step has failed and the failure is not yet written -/
  | stopped (recovery : RecoveryState)
  deriving DecidableEq, Repr

structure RecoveryRun where
  role : String
  operation : UInt64
  epoch : UInt64
  phase : RecoveryPhase
  deriving DecidableEq, Repr

/-- The failures `Engine.Recover` tells apart. -/
inductive RecoveryFailure
  | routesStillParked
  | validationPending
  | underlayPathUnavailable
  | endpointResolutionPending
  | toadRestartPending
  | other
  deriving DecidableEq, Repr

def RecoveryFailure.failedState : RecoveryFailure → RoleState
  | routesStillParked => .recovering
  | validationPending => .recovering
  | underlayPathUnavailable => .recovering
  | endpointResolutionPending => .recovering
  | toadRestartPending => .starting
  | other => .failed

/-- The controller, the validation tokens handed out, and the transactions. -/
structure System where
  controller : Controller
  issued : List ValidationToken := []
  runs : Nat → Option RecoveryRun := fun _ => none

/-- The steps of one transaction. -/
inductive TransactionStep
  /-- read the underlay and pick the steps -/
  | plan (managed : Bool)
  /-- a driver step other than validate succeeds -/
  | driverStep
  /-- the current driver step fails -/
  | driverFails (text : String)
  | validateBegin
  /-- the validate step completes; an unhealthy result is recorded as pending or
      as a failure -/
  | validateComplete (result : ValidationResult) (pending : Bool)
  /-- the failure of a step is written -/
  | writeFailure (failure : RecoveryFailure)
  /-- all steps are done, Ready is written -/
  | commitReady
  /-- the transaction was cancelled and writes nothing -/
  | cancel

inductive Action
  | call (c : ControllerCall)
  /-- `Engine.Recover` starts and copies the role -/
  | recover (id : Nat) (role : String) (operation epoch : UInt64)
  | transaction (id : Nat) (step : TransactionStep)

namespace System

def setRun (s : System) (id : Nat) (run : Option RecoveryRun) : System :=
  { s with runs := fun i => if i = id then run else s.runs i }

def withController (s : System) (c : Controller) : System := { s with controller := c }

def stepCall (s : System) : ControllerCall → Option System
  | .setRoleDesired role enabled => s.withController (s.controller.setRoleDesired role enabled).2
  | .setUnderlay next reason => s.withController (s.controller.setUnderlay next reason)
  | .observeToad role snapshot => s.withController (s.controller.observeToad role snapshot).2
  | .beginValidation role =>
    let (token, c) := s.controller.beginValidation role
    some { s with controller := c, issued := token.toList ++ s.issued }
  | .completeValidation token result =>
    if token ∈ s.issued then s.withController (s.controller.completeValidation token result).2
    else none
  | .completeValidationPending token result =>
    if token ∈ s.issued then
      s.withController (s.controller.completeValidationPending token result).2
    else none
  | .requestResumeValidation => s.withController s.controller.requestResumeValidation
  | .requestRoleValidation role reason =>
    s.withController (s.controller.requestRoleValidation role reason).2
  | .markRecovering role reason => s.withController (s.controller.markRecovering role reason).2
  | .beginToadGeneration role => s.withController (s.controller.beginToadGeneration role).2
  | .updateRoleResources role endpoint publication parking validation =>
    s.withController
      (s.controller.updateRoleResources role endpoint publication parking validation).2
  | .setRetrySchedule role next => s.withController (s.controller.setRetrySchedule role next).2
  | .setRoleDiagnostic role reason =>
    s.withController (s.controller.setRoleDiagnostic role reason).2

def openRecovery (recovery : RecoveryState) (operation epoch : UInt64) : RecoveryState :=
  { recovery with operation := operation, epoch := epoch, attempt := recovery.attempt + 1 }

def stepRun (s : System) (id : Nat) (run : RecoveryRun) :
    TransactionStep → RecoveryPhase → Option System
  | .plan managed, .copied current =>
    let action := decideRole current s.controller.underlay current.toad.capabilities
    let steps := if managed then managedRecoverySequenceForAction action
      else recoverySequenceForAction action
    -- without steps the transaction returns and writes nothing
    if steps.isEmpty then s.setRun id none
    else
      let phase := RecoveryPhase.steps (openRecovery current.recovery run.operation run.epoch) steps
      s.setRun id (some { run with phase := phase })
  | .driverStep, .steps recovery (step :: rest) =>
    if step = .validate then none
    else
      let phase := RecoveryPhase.steps { recovery with step := step, lastError := "" } rest
      s.setRun id (some { run with phase := phase })
  | .driverFails text, .steps recovery (step :: _) =>
    let phase := RecoveryPhase.stopped { recovery with step := step, lastError := text }
    s.setRun id (some { run with phase := phase })
  | .validateBegin, .steps recovery (.validate :: rest) =>
    match s.controller.beginValidation run.role with
    | (none, _) => none
    | (some token, c) =>
      let recovery := { recovery with step := .validate, lastError := "" }
      let s := { s with controller := c, issued := token :: s.issued }
      s.setRun id (some { run with phase := .validating recovery rest token })
  | .validateComplete result pending, .validating recovery rest token =>
    let (accepted, c) := if pending then s.controller.completeValidationPending token result
      else s.controller.completeValidation token result
    let phase := if accepted && result.healthy && !pending then
        RecoveryPhase.steps recovery rest
      else .stopped { recovery with lastError := result.reason }
    (s.withController c).setRun id (some { run with phase := phase })
  | .writeFailure failure, .stopped recovery =>
    let c := (s.controller.setRecovery run.role recovery failure.failedState recovery.lastError).2
    (s.withController c).setRun id none
  | .commitReady, .steps recovery [] =>
    let recovery := { recovery with step := .idle, lastError := "" }
    let c := (s.controller.setRecovery run.role recovery .ready "recovery complete").2
    (s.withController c).setRun id none
  | .cancel, _ => s.setRun id none
  | _, _ => none

def step (s : System) : Action → Option System
  | .call c => s.stepCall c
  | .recover id role operation epoch =>
    match s.runs id, s.controller.role role with
    | none, some current => s.setRun id (some ⟨role, operation, epoch, .copied current⟩)
    | _, _ => none
  | .transaction id t => (s.runs id).bind fun run => s.stepRun id run t run.phase

end System

/-- The states reachable from a fresh controller. -/
inductive SystemRun : System → Prop
  | start (specs : List String) : SystemRun { controller := .new specs }
  | step {s s' a} (h : SystemRun s) (hs : s.step a = some s') : SystemRun s'

/-- Ready is current: the role is wanted, its Toad has a route target, and it was
    validated for the underlay as it is now. -/
def RoleRuntime.ReadyCurrent (r : RoleRuntime) (u : Underlay) : Prop :=
  r.desired = true ∧ r.toadGeneration ≠ 0 ∧ r.toad.routeReady = true ∧ u.hasPath = true ∧
    u.epoch ≠ 0 ∧ r.validatedEpoch = u.epoch

/-- The steps that keep Ready current: a transaction writes Ready only over a
    wanted role that is validated for the current epoch, and the underlay is not
    renumbered past the end of the epoch counter. -/
def Action.Steady (s : System) : Action → Prop
  | .call (.setUnderlay next _) => next.epoch = 0 → s.controller.underlay.epoch + 1 ≠ 0
  | .transaction id .commitReady =>
    ∀ run r, s.runs id = some run → s.controller.roles run.role = some r →
      r.desired = true ∧ s.controller.underlay.epoch ≠ 0 ∧
        r.validatedEpoch = s.controller.underlay.epoch
  | _ => True

/-- Runs of steady steps. -/
inductive SteadyRun : System → Prop
  | start (specs : List String) : SteadyRun { controller := .new specs }
  | step {s s' a} (h : SteadyRun s) (ha : a.Steady s) (hs : s.step a = some s') : SteadyRun s'

-- === One role ===

/-- What a role's validation stands for. The first three fields hold of every
    role, so that a transaction that finds a validated role finds the rest of
    `ReadyCurrent` with it. -/
structure RoleRuntime.Consistent (r : RoleRuntime) (u : Underlay) : Prop where
  target : r.validatedEpoch ≠ 0 → r.toadGeneration ≠ 0 ∧ r.toad.routeReady = true
  past : r.validatedEpoch ≤ u.epoch
  path : r.validatedEpoch ≠ 0 → r.validatedEpoch = u.epoch → u.hasPath = true
  ready : r.state = .ready → r.desired = true ∧ u.epoch ≠ 0 ∧ r.validatedEpoch = u.epoch

variable {r : RoleRuntime} {u : Underlay}

theorem RoleRuntime.Consistent.readyCurrent (h : r.Consistent u) (hs : r.state = .ready) :
    r.ReadyCurrent u := by
  obtain ⟨hd, he, hv⟩ := h.ready hs
  have hne : r.validatedEpoch ≠ 0 := hv ▸ he
  obtain ⟨hg, hr⟩ := h.target hne
  exact ⟨hd, hg, hr, h.path hne hv, he, hv⟩

theorem RoleRuntime.consistent_of_invalidated (hv : r.validatedEpoch = 0) (hs : r.state ≠ .ready) :
    r.Consistent u :=
  ⟨fun h => absurd hv h, by rw [hv]; exact UInt64.zero_le, fun h => absurd hv h,
    fun h => absurd h hs⟩

theorem RoleRuntime.Consistent.of_state {r' : RoleRuntime} (h : r.Consistent u)
    (hv : r'.validatedEpoch = r.validatedEpoch) (hg : r'.toadGeneration = r.toadGeneration)
    (ht : r'.toad = r.toad) (hs : r'.state ≠ .ready) : r'.Consistent u :=
  ⟨by rw [hv, hg, ht]; exact h.target, by rw [hv]; exact h.past, by rw [hv]; exact h.path,
    fun h' => absurd h' hs⟩

theorem RoleRuntime.Consistent.of_eq {r' : RoleRuntime} (h : r.Consistent u)
    (hv : r'.validatedEpoch = r.validatedEpoch) (hg : r'.toadGeneration = r.toadGeneration)
    (ht : r'.toad = r.toad) (hd : r'.desired = r.desired) (hs : r'.state = r.state) :
    r'.Consistent u :=
  ⟨by rw [hv, hg, ht]; exact h.target, by rw [hv]; exact h.past, by rw [hv]; exact h.path,
    by rw [hs, hd, hv]; exact h.ready⟩

theorem RoleRuntime.Consistent.observed (h : r.Consistent u) {snapshot : ToadSnapshot}
    (hgen : r.toadGeneration = 0 ∨ r.toadGeneration = snapshot.generation) :
    (Controller.observedRole u.epoch snapshot r).Consistent u := by
  -- a role that keeps its validation has a generation, and it is the observed one
  have hkeep : snapshot.routeReady = true →
      ∀ state reason, (state = r.state ∨ state ≠ .ready) →
        ({ r with toadGeneration := snapshot.generation, toad := snapshot, state := state,
                  reason := reason } : RoleRuntime).Consistent u := by
    intro hready state reason hstate
    refine ⟨fun hv => ⟨?_, hready⟩, h.past, h.path, fun hs => ?_⟩
    · have hg := (h.target hv).1
      rcases hgen with h0 | hsame
      · exact absurd h0 hg
      · exact hsame ▸ hg
    · rcases hstate with hstate | hstate
      · exact h.ready (hstate ▸ hs)
      · exact absurd hs hstate
  unfold Controller.observedRole
  cases hready : snapshot.routeReady with
  | false =>
    simp only [Bool.not_false, if_true]
    -- losing readiness clears the validation and takes a Ready role out of Ready
    have hd : r.state = .ready → r.desired = true := fun hs => (h.ready hs).1
    refine RoleRuntime.consistent_of_invalidated ?_ ?_
    · split_ifs <;> rfl
    · split_ifs <;> simp_all
  | true =>
    simp only [Bool.not_true, Bool.false_eq_true, if_false]
    split_ifs
    all_goals first
      | exact hkeep hready r.state _ (.inl rfl)
      | exact hkeep hready .validating _ (.inr nofun)
      | exact RoleRuntime.consistent_of_invalidated rfl nofun

theorem RoleRuntime.Consistent.underlay {next : Underlay} (h : r.Consistent u)
    (hlt : u.epoch < next.epoch) (reason : ChangeReason) :
    (Controller.underlayRole (u.epoch = 0) next reason r).Consistent next := by
  have hpast : r.validatedEpoch < next.epoch := UInt64.lt_of_le_of_lt h.past hlt
  have hstale : r.validatedEpoch ≠ next.epoch := UInt64.ne_of_lt hpast
  -- an old validation is behind the new epoch, so only a Ready role must change
  have hkeep : r.state ≠ .ready → r.Consistent next := fun hs =>
    ⟨h.target, UInt64.le_of_lt hpast, fun _ he => absurd he hstale, fun hr => absurd hr hs⟩
  unfold Controller.underlayRole
  by_cases hs : r.state = .ready
  · obtain ⟨hd, he, _⟩ := h.ready hs
    simp only [hd, hs, he, hstale, Bool.not_true, Bool.false_eq_true, if_false, decide_false,
      Bool.not_false, decide_true, Bool.true_or, ne_eq, not_false_eq_true, Bool.and_self, if_true]
    split_ifs <;> exact RoleRuntime.consistent_of_invalidated rfl nofun
  · split_ifs <;> first
      | exact hkeep hs
      | exact RoleRuntime.consistent_of_invalidated rfl nofun

/-- What a token in circulation stands for. -/
structure ValidationToken.Sound (t : ValidationToken) (u : Underlay) : Prop where
  generation : t.toadGeneration ≠ 0
  epoch : t.underlayEpoch ≠ 0
  past : t.underlayEpoch ≤ u.epoch
  path : t.underlayEpoch = u.epoch → u.hasPath = true

theorem ValidationToken.Sound.later {t : ValidationToken} {next : Underlay} (h : t.Sound u)
    (hlt : u.epoch < next.epoch) : t.Sound next := by
  have hpast : t.underlayEpoch < next.epoch := UInt64.lt_of_le_of_lt h.past hlt
  exact ⟨h.generation, h.epoch, UInt64.le_of_lt hpast, fun he => absurd he (UInt64.ne_of_lt hpast)⟩

/-- A completion with a sound token: the guard makes the token's generation and
    epoch the role's own. -/
theorem RoleStep.consistent {c : Controller} {call : ControllerCall} {id : String}
    {r' : RoleRuntime} (hstep : RoleStep c call id r r') (h : r.Consistent c.underlay)
    (ht : ∀ token result, call = .completeValidation token result → token.Sound c.underlay) :
    r'.Consistent c.underlay := by
  cases hstep with
  | kept hsame hs hv => exact h.of_eq hv hsame.generation hsame.toad hsame.desired hs
  | moved hsame _ hs hv =>
    rcases hv with hv | hv
    · exact h.of_state hv hsame.generation hsame.toad hs
    · exact RoleRuntime.consistent_of_invalidated hv hs
  | validated hcurrent _ hsame _ hv =>
    have ht := ht _ _ rfl
    simp only [Controller.tokenCurrent, Bool.and_eq_true, decide_eq_true_eq] at hcurrent
    obtain ⟨⟨⟨⟨hd, hroute⟩, _⟩, hgen⟩, hepoch⟩ := hcurrent
    refine ⟨fun _ => ?_, hv ▸ ht.past, fun _ => hv ▸ ht.path, fun _ => ?_⟩
    · rw [hsame.generation, hsame.toad, hgen]
      exact ⟨ht.generation, hroute⟩
    · rw [hsame.desired, hv, hepoch]
      exact ⟨hd, ht.epoch, rfl⟩
  | switched _ _ _ hg ht hs hv =>
    refine h.of_state hv hg ht ?_
    rw [hs]
    split_ifs <;> simp
  | observed hg _ => exact h.observed hg
  | replaced _ _ _ _ hs hv =>
    -- an unwanted role keeps its state, and it is not Ready
    refine RoleRuntime.consistent_of_invalidated hv ?_
    rw [hs]
    split_ifs with hd
    · simp
    · exact fun hs => hd (h.ready hs).1

-- === The controller ===

def Controller.Consistent (c : Controller) : Prop :=
  ∀ id r, c.roles id = some r → r.Consistent c.underlay

namespace Controller

variable {c : Controller}

theorem consistent_new (specs : List String) : (new specs).Consistent := by
  intro id r hr
  simp only [new] at hr
  split_ifs at hr
  cases hr
  exact RoleRuntime.consistent_of_invalidated rfl nofun

theorem Consistent.of_relates {c' : Controller} (h : c.Consistent)
    (hr : Relates (fun _ r r' => r.Consistent c.underlay → r'.Consistent c'.underlay) c c') :
    c'.Consistent := by
  intro id r' hr'
  rcases hr id with ⟨_, hnone⟩ | ⟨r, r'', hr, hr'', hstep⟩
  · rw [hnone] at hr'
    cases hr'
  · cases hr''.symm.trans hr'
    exact hstep (h id r hr)

@[simp] theorem underlay_update (c : Controller) (role : String)
    (f : RoleRuntime → Option RoleRuntime) : (c.update role f).2.underlay = c.underlay := by
  rcases c.update_spec role f with hu | ⟨r, r', _, _, hu⟩
  · rw [hu]
  · rw [hu]
    rfl

theorem Consistent.applyUnderlay (h : c.Consistent) {next : Underlay}
    (hlt : c.underlay.epoch < next.epoch) (reason : ChangeReason) :
    (c.applyUnderlay next reason).Consistent := by
  intro id r hr
  obtain ⟨r0, hr0, rfl⟩ := Option.map_eq_some_iff.mp hr
  exact (h id r0 hr0).underlay hlt reason

/-- `SetUnderlay` keeps the controller, refreshes the observation time, or moves
    to a later epoch. -/
theorem setUnderlay_spec (c : Controller) (next : Underlay) (reason : ChangeReason)
    (hwrap : next.epoch = 0 → c.underlay.epoch + 1 ≠ 0) :
    c.setUnderlay next reason = c ∨
      (∃ t, c.setUnderlay next reason =
        { c with underlay := { c.underlay with observedAt := t } }) ∨
      ∃ u reason', c.underlay.epoch < u.epoch ∧
        c.setUnderlay next reason = c.applyUnderlay u reason' := by
  unfold setUnderlay
  by_cases h0 : next.epoch = 0
  · have hsucc := lt_succ_of_ne_zero (hwrap h0)
    rw [if_pos h0]
    unfold compareUnderlay
    by_cases hid : identityEqual c.underlay next = true
    · simp [hid]
    by_cases he : c.underlay.epoch = 0
    · simp only [he, hid, decide_true, Bool.not_false, Bool.and_self, if_true, Bool.not_true,
        Bool.false_eq_true, if_false]
      exact .inr (.inr ⟨_, _, (by decide : (0 : UInt64) < 1), rfl⟩)
    · simp only [he, hid, decide_false, Bool.false_and, Bool.not_true, Bool.false_eq_true, if_false]
      exact .inr (.inr ⟨_, _, hsucc, rfl⟩)
  · rw [if_neg h0]
    split_ifs with hlt heq
    · exact .inl rfl
    · exact .inr (.inl ⟨_, rfl⟩)
    · exact .inl rfl
    · have hgt : c.underlay.epoch < next.epoch :=
        UInt64.lt_of_le_of_ne (UInt64.not_lt.mp hlt) (Ne.symm heq)
      exact .inr (.inr ⟨next, reason, hgt, rfl⟩)

theorem sound_beginValidation {c : Controller} {role : String} {token : ValidationToken}
    (h : (c.beginValidation role).1 = some token) : token.Sound c.underlay := by
  obtain ⟨r, _, hc, rfl⟩ := beginValidation_eq_some h
  simp only [canValidate, Bool.and_eq_true, decide_eq_true_eq] at hc
  exact ⟨hc.1.1.1.2, hc.1.2, UInt64.le_refl _, fun _ => hc.2⟩

end Controller

-- === The system ===

structure System.Consistent (s : System) : Prop where
  roles : s.controller.Consistent
  issued : ∀ t ∈ s.issued, t.Sound s.controller.underlay
  held : ∀ id run recovery rest token, s.runs id = some run →
    run.phase = .validating recovery rest token → token ∈ s.issued

namespace System

variable {s s' : System} (h : s.Consistent)

include h

theorem Consistent.withController {c : Controller} (hc : c.Consistent)
    (hu : c.underlay = s.controller.underlay) : (s.withController c).Consistent :=
  ⟨hc, fun t ht => by simpa only [System.withController, hu] using h.issued t ht, h.held⟩

theorem Consistent.setRun (id : Nat) {run : Option RecoveryRun}
    (hrun : ∀ r recovery rest token, run = some r → r.phase = .validating recovery rest token →
      token ∈ s.issued) : (s.setRun id run).Consistent := by
  refine ⟨h.roles, h.issued, fun i r recovery rest token hr hphase => ?_⟩
  simp only [System.setRun] at hr
  split_ifs at hr
  · exact hrun r recovery rest token hr hphase
  · exact h.held i r recovery rest token hr hphase

theorem Consistent.setUnderlay {next : Underlay} {reason : ChangeReason}
    (hwrap : next.epoch = 0 → s.controller.underlay.epoch + 1 ≠ 0) :
    (s.withController (s.controller.setUnderlay next reason)).Consistent := by
  rcases s.controller.setUnderlay_spec next reason hwrap with hu | ⟨t, hu⟩ | ⟨u, reason', hlt, hu⟩
  · rw [hu]
    exact h
  · rw [hu]
    refine ⟨fun id r hr => ?_, fun t ht => ?_, h.held⟩
    · have hr := h.roles id r hr
      exact ⟨hr.target, hr.past, hr.path, hr.ready⟩
    · have ht := h.issued t ht
      exact ⟨ht.generation, ht.epoch, ht.past, ht.path⟩
  · rw [hu]
    exact ⟨h.roles.applyUnderlay hlt reason', fun t ht => (h.issued t ht).later hlt, h.held⟩

omit h

/-- What a call does beside its change of the controller: it hands out a token. -/
theorem stepCall_spec {call : ControllerCall} (hs : s.stepCall call = some s') :
    s'.controller = s.controller.perform call ∧ s'.runs = s.runs ∧
    (∃ issued, s'.issued = issued ++ s.issued ∧
      ∀ t ∈ issued, ∃ role, (s.controller.beginValidation role).1 = some t) ∧
    ∀ token result, call = .completeValidation token result → token ∈ s.issued := by
  cases call with
  | beginValidation role =>
    cases hs
    exact ⟨rfl, rfl, ⟨_, rfl, fun t ht => ⟨role, Option.mem_toList.mp ht⟩⟩, nofun⟩
  | completeValidation token result =>
    simp only [System.stepCall] at hs
    split_ifs at hs with hmem
    cases hs
    refine ⟨rfl, rfl, ⟨[], rfl, nofun⟩, fun token' _ heq => ?_⟩
    cases heq
    exact hmem
  | completeValidationPending token result =>
    simp only [System.stepCall] at hs
    split_ifs at hs
    cases hs
    exact ⟨rfl, rfl, ⟨[], rfl, nofun⟩, nofun⟩
  | _ =>
    cases hs
    exact ⟨rfl, rfl, ⟨[], rfl, nofun⟩, nofun⟩

theorem Consistent.stepCall (h : s.Consistent) (call : ControllerCall)
    (ha : (Action.call call).Steady s) (hs : s.stepCall call = some s') : s'.Consistent := by
  by_cases hcall : ∃ next reason, call = .setUnderlay next reason
  · obtain ⟨next, reason, rfl⟩ := hcall
    cases hs
    exact h.setUnderlay ha
  obtain ⟨hc, hruns, ⟨issued, hissued, hnew⟩, htoken⟩ := stepCall_spec hs
  have hu : s'.controller.underlay = s.controller.underlay := by
    rw [hc]
    exact s.controller.underlay_perform fun next reason heq => hcall ⟨next, reason, heq⟩
  refine ⟨h.roles.of_relates fun id => ?_, fun t ht => ?_,
    fun id run recovery rest token hr hp => ?_⟩
  · rw [hc] at hu ⊢
    refine (s.controller.relates_perform call id).imp_right ?_
    rintro ⟨r, r', hr, hr', hstep⟩
    refine ⟨r, r', hr, hr', fun hcons => hu ▸ hstep.consistent hcons fun token result heq => ?_⟩
    exact h.issued token (htoken token result heq)
  · rw [hu]
    rw [hissued] at ht
    rcases List.mem_append.mp ht with ht | ht
    · obtain ⟨role, hb⟩ := hnew t ht
      exact Controller.sound_beginValidation hb
    · exact h.issued t ht
  · rw [hissued]
    exact List.mem_append_right _ (h.held id run recovery rest token (hruns ▸ hr) hp)

variable (h : s.Consistent)

include h

theorem Consistent.setRun_of_phase (id : Nat) (run : RecoveryRun) {phase : RecoveryPhase}
    (hphase : ∀ recovery rest token, phase ≠ .validating recovery rest token) :
    (s.setRun id (some { run with phase := phase })).Consistent :=
  h.setRun id fun _ recovery rest token hr hp => by
    cases hr
    exact absurd hp (hphase recovery rest token)

theorem Consistent.setRun_none (id : Nat) : (s.setRun id none).Consistent :=
  h.setRun id fun _ _ _ _ hr => nomatch hr

theorem Consistent.setRecovery {role : String} {state : RoleState}
    (hready : state = .ready → ∀ r, s.controller.roles role = some r →
      r.desired = true ∧ s.controller.underlay.epoch ≠ 0 ∧
        r.validatedEpoch = s.controller.underlay.epoch) (recovery : RecoveryState)
    (reason : String) :
    (s.withController (s.controller.setRecovery role recovery state reason).2).Consistent := by
  have hu := s.controller.underlay_update role fun r => some { r with
    recovery := { recovery with nextRetryAt := r.recovery.nextRetryAt }
    state := state, reason := reason }
  refine h.withController (h.roles.of_relates (.update (fun _ _ => ?_)
    fun r r' hr hf hcons => ?_)) hu
  · exact hu ▸ id
  · cases hf
    exact hu ▸ ⟨hcons.target, hcons.past, hcons.path, fun hs => hready hs r hr⟩

omit h

theorem RecoveryFailure.failedState_ne_ready (failure : RecoveryFailure) :
    failure.failedState ≠ .ready := by
  cases failure <;> nofun

theorem Consistent.stepRun {id : Nat} {run : RecoveryRun} {t : TransactionStep} (h : s.Consistent)
    (ha : (Action.transaction id t).Steady s) (hrun : s.runs id = some run)
    (hs : s.stepRun id run t run.phase = some s') : s'.Consistent := by
  unfold System.stepRun at hs
  split at hs
  case h_1 managed current _ =>
    dsimp only at hs
    generalize (if managed = true then managedRecoverySequenceForAction _
      else recoverySequenceForAction _) = steps at hs
    split_ifs at hs
    · cases hs
      exact h.setRun_none id
    · cases hs
      exact h.setRun_of_phase id run fun _ _ _ hp => nomatch hp
  case h_2 =>
    split_ifs at hs
    cases hs
    exact h.setRun_of_phase id run fun _ _ _ hp => nomatch hp
  case h_3 =>
    cases hs
    exact h.setRun_of_phase id run fun _ _ _ hp => nomatch hp
  case h_4 recovery rest _ =>
    -- the token the transaction will hold is handed out in this step
    cases hb : s.controller.beginValidation run.role with
    | mk token? c =>
      rw [hb] at hs
      cases token? with
      | none => cases hs
      | some token =>
        cases hs
        have hcall :
            ({ s with controller := c, issued := token :: s.issued } : System).Consistent :=
          h.stepCall (.beginValidation run.role) trivial (by
            simp only [System.stepCall, hb]
            rfl)
        refine hcall.setRun id fun r recovery' rest' token' hr hp => ?_
        cases hr
        cases hp
        exact List.mem_cons_self
  case h_5 result pending recovery rest token hphase =>
    have hmem := h.held id run recovery rest token hrun hphase
    have hcall :
        (s.withController (if pending then s.controller.completeValidationPending token result
          else s.controller.completeValidation token result).2).Consistent := by
      split_ifs
      · exact h.stepCall (.completeValidationPending token result) trivial (if_pos hmem)
      · exact h.stepCall (.completeValidation token result) trivial (if_pos hmem)
    cases hs
    refine hcall.setRun_of_phase id run fun _ _ _ => ?_
    split_ifs <;> simp
  case h_6 failure recovery _ =>
    cases hs
    have hne := RecoveryFailure.failedState_ne_ready failure
    exact (h.setRecovery (fun hf => absurd hf hne) _ _).setRun_none id
  case h_7 recovery _ =>
    cases hs
    exact (h.setRecovery (fun _ r hr => ha run r hrun hr) _ _).setRun_none id
  case h_8 =>
    cases hs
    exact h.setRun_none id
  case h_9 => cases hs

theorem Consistent.step {a : Action} (h : s.Consistent) (ha : a.Steady s)
    (hs : s.step a = some s') :
    s'.Consistent := by
  cases a with
  | call c => exact h.stepCall c ha hs
  | recover id role operation epoch =>
    simp only [System.step] at hs
    split at hs
    · cases hs
      exact h.setRun id fun r recovery rest token hr hp => by cases hr; cases hp
    · cases hs
  | transaction id t =>
    obtain ⟨run, hrun, hs⟩ := Option.bind_eq_some_iff.mp hs
    exact h.stepRun ha hrun hs

end System

theorem SteadyRun.systemRun {s : System} (h : SteadyRun s) : SystemRun s := by
  induction h with
  | start specs => exact .start specs
  | step _ _ hs ih => exact ih.step hs

theorem SteadyRun.consistent {s : System} (h : SteadyRun s) : s.Consistent := by
  induction h with
  | start specs =>
    exact ⟨Controller.consistent_new specs, fun _ ht => absurd ht List.not_mem_nil,
      fun _ _ _ _ _ hr => nomatch hr⟩
  | step _ ha hs ih => exact ih.step ha hs

/-- In every state of a steady run a Ready role is wanted, has a route target and
    is validated for the current underlay. -/
theorem SteadyRun.ready_current {s : System} (h : SteadyRun s) {role : String} {r : RoleRuntime}
    (hr : s.controller.roles role = some r) (hs : r.state = .ready) :
    r.ReadyCurrent s.controller.underlay :=
  (h.consistent.roles role r hr).readyCurrent hs

def sampleUnderlay : Underlay := { ipv4 := some ⟨4, 2, "eth0", .zero, .zero, 1500, 254, 100⟩ }

def sampleHealthy : ValidationResult := { healthy := true }

def sampleSystem : System :=
  { controller :=
      let c := ((Controller.new ["work"]).setRoleDesired "work" true).2.setUnderlay sampleUnderlay
        .unspecified
      (c.observeToad "work" sampleReadyRole.toad).2 }

theorem steadyRun_sampleSystem : SteadyRun sampleSystem :=
  (((SteadyRun.start ["work"]).step
    (a := .call (.setRoleDesired "work" true)) trivial rfl).step
    (a := .call (.setUnderlay sampleUnderlay .unspecified)) (fun _ => by decide) rfl).step
    (a := .call (.observeToad "work" sampleReadyRole.toad)) trivial rfl

theorem systemRun_sampleSystem : SystemRun sampleSystem :=
  steadyRun_sampleSystem.systemRun

theorem SteadyRun.ready_current_recovered : ∃ s r, SteadyRun s ∧
    s.controller.roles "work" = some r ∧ r.state = .ready ∧
      r.ReadyCurrent s.controller.underlay := by
  have h₁ := steadyRun_sampleSystem.step (a := .recover 0 "work" 1 1) trivial rfl
  have h₂ := h₁.step (a := .transaction 0 (.plan true)) trivial rfl
  have h₃ := h₂.step (a := .transaction 0 .validateBegin) trivial rfl
  have h₄ := h₃.step (a := .transaction 0 (.validateComplete sampleHealthy false)) trivial rfl
  have h₅ := h₄.step (a := .transaction 0 .commitReady)
    (fun run r hrun hr => by cases hrun; cases hr; decide) rfl
  refine ⟨_, _, h₅, rfl, by decide, @SteadyRun.ready_current _ h₅ "work" _ rfl (by decide)⟩

/-- The role is disabled after its last step succeeded; the transaction still
    writes Ready. -/
theorem ready_commit_ignores_disable : ∃ s r, SystemRun s ∧
    s.controller.roles "work" = some r ∧ r.state = .ready ∧ r.desired = false ∧
      ¬ r.ReadyCurrent s.controller.underlay := by
  have h₁ := systemRun_sampleSystem.step (a := .recover 0 "work" 1 1) rfl
  have h₂ := h₁.step (a := .transaction 0 (.plan true)) rfl
  have h₃ := h₂.step (a := .transaction 0 .validateBegin) rfl
  have h₄ := h₃.step (a := .transaction 0 (.validateComplete sampleHealthy false)) rfl
  have h₅ := h₄.step (a := .call (.setRoleDesired "work" false)) rfl
  have h₆ := h₅.step (a := .transaction 0 .commitReady) rfl
  exact ⟨_, _, h₆, rfl, by decide, by decide, fun hc => absurd hc.1 (by decide)⟩

end Kikimora.Core

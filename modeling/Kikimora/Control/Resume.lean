import Kikimora.Control.Readiness
import Kikimora.Control.Underlay

/-!
# Resume after sleep

A resume event passes a bounded queue and the loop of the coalescer before it
invalidates the roles, while validations, recovery transactions and activations
go on.
-/

namespace Kikimora.Control

open Kikimora.Core

-- === The watch ===

/-- Where `Coalescer.Run` stands. -/
inductive CoalescerPhase
  /-- it has returned and is not started again yet -/
  | down
  /-- it waits for an invalidation, and no timer is armed -/
  | idle (current : Underlay)
  /-- the settle timer is armed -/
  | settling (current : Underlay) (resume : Bool)
  /-- a snapshot is being built -/
  | building (current : Underlay) (resume : Bool)
  /-- `applyUnderlayChange` has not taken the lock yet -/
  | reporting (current : Underlay) (change : Change)
  /-- `applyUnderlayChange` has released the lock, the resume is not applied yet -/
  | requesting (current : Underlay)
  deriving DecidableEq, Repr

/-- The product with its transactions, the manager's underlay, and the way of an
    invalidation to them. -/
structure SleepWatch where
  system : Core.System
  underlay : Underlay := {}
  suspended : Bool := false
  queue : List String := []
  coalescer : CoalescerPhase := .down
  /-- the validations begun, each with the resumes applied before it -/
  validations : List (ValidationToken × Nat) := []
  /-- the roles whose validation was accepted and whose activation goes on -/
  activations : List (String × Nat) := []
  /-- the activations that are about to write Ready -/
  finishing : List (String × Nat) := []
  /-- the resumes applied before a transaction began its validation -/
  runResumes : Nat → Nat := fun _ => 0
  /-- the same for the validation that a role's last Ready rests on -/
  basis : String → Nat := fun _ => 0
  /-- how often `RequestResumeValidation` has been applied -/
  resumes : Nat := 0
  /-- a resume event has come since -/
  awaiting : Bool := false

inductive SleepAction
  /-- `watchSleep` handles an event -/
  | sleepEvent (preparing : Bool)
  /-- the kernel or the audit queues an invalidation -/
  | invalidate (source : String)
  /-- the coalescer is started, after a failure with an invalidation of its own -/
  | start (kick : Bool)
  | receive
  /-- the timer fires, or the burst has lasted long enough -/
  | settle
  | build (result : Option Underlay)
  | report
  | request
  | beginValidation (role : String)
  | completeValidation (token : ValidationToken) (begun : Nat) (result : ValidationResult)
  /-- the activation has read an unfinished record -/
  | finishRecovery (role : String) (begun : Nat)
  | commitFinished (role : String) (begun : Nat)
  /-- the other writers of a recovery record -/
  | setRecovery (role : String) (recovery : RecoveryState) (state : RoleState) (reason : String)
  /-- any other step of the product or of a transaction -/
  | product (a : Core.Action)

def invalidationCapacity : Nat := 64

def queueUnderlayInvalidation (queue : List String) (source : String) : List String :=
  if queue.length < invalidationCapacity then queue ++ [source] else queue

def reserved : Core.Action → Bool
  | .call (.setUnderlay _ _) | .call .requestResumeValidation | .call (.beginValidation _)
  | .call (.completeValidation _ _) => true
  | _ => false

namespace SleepWatch

def accepts (s : SleepWatch) (token : ValidationToken) (result : ValidationResult) : Bool :=
  (s.system.controller.completeValidation token result).1 && result.healthy

def setBasis (s : SleepWatch) (role : String) (begun : Nat) : String → Nat :=
  fun id => if id = role then begun else s.basis id

def noteBegin (s : SleepWatch) : Core.Action → Nat → Nat
  | .transaction id .validateBegin => fun i => if i = id then s.resumes else s.runResumes i
  | _ => s.runResumes

def noteReady (s : SleepWatch) (action : Core.Action) (role : String) : Nat :=
  match action with
  | .transaction id (.validateComplete result false) =>
    match s.system.runs id with
    | some ⟨_, _, _, .validating _ _ token⟩ =>
      if s.accepts token result then s.setBasis token.role (s.runResumes id) role else s.basis role
    | _ => s.basis role
  | .transaction id .commitReady =>
    match s.system.runs id with
    | some run => s.setBasis run.role (s.runResumes id) role
    | none => s.basis role
  | _ => s.basis role

def step (s : SleepWatch) : SleepAction → Option SleepWatch
  | .sleepEvent true => some { s with suspended := true }
  | .sleepEvent false =>
    some { s with
      suspended := false
      queue := queueUnderlayInvalidation s.queue "resume"
      awaiting := true }
  | .invalidate source =>
    if source = "resume" then none
    else some { s with queue := queueUnderlayInvalidation s.queue source }
  | .start kick =>
    match s.coalescer with
    | .down =>
      some { s with
        queue := if kick then queueUnderlayInvalidation s.queue "coalescer-restart" else s.queue
        coalescer := .idle s.underlay }
    | _ => none
  | .receive =>
    match s.queue, s.coalescer with
    | source :: queue, .idle current =>
      some { s with queue := queue, coalescer := .settling current (source = "resume") }
    | source :: queue, .settling current resume =>
      some { s with
        queue := queue
        coalescer := .settling current (resume || source = "resume") }
    | _, _ => none
  | .settle =>
    match s.coalescer with
    | .settling current resume => some { s with coalescer := .building current resume }
    | _ => none
  | .build none =>
    match s.coalescer with
    -- the loop returns, and its resume flag with it
    | .building _ _ => some { s with coalescer := .down }
    | _ => none
  | .build (some next) =>
    match s.coalescer with
    | .building current resume =>
      match Coalescer.publish current next resume with
      | (current, none) => some { s with coalescer := .idle current }
      | (current, some change) => some { s with coalescer := .reporting current change }
    | _ => none
  | .report =>
    match s.coalescer with
    | .reporting current change =>
      match takeUnderlay s.underlay s.system.controller change with
      | none => some { s with coalescer := .idle current }
      | some (underlay, product) =>
        some { s with
          underlay := underlay
          system := s.system.withController product
          coalescer := if change.resume then .requesting current else .idle current }
    | _ => none
  | .request =>
    match s.coalescer with
    | .requesting current =>
      some { s with
        system := s.system.withController s.system.controller.requestResumeValidation
        coalescer := .idle current
        resumes := s.resumes + 1
        awaiting := false }
    | _ => none
  | .beginValidation role =>
    (s.system.step (.call (.beginValidation role))).map fun system =>
      { s with
        system := system
        validations := (s.system.controller.beginValidation role).1.toList.map (·, s.resumes) ++
          s.validations }
  | .completeValidation token begun result =>
    if (token, begun) ∈ s.validations then
      (s.system.step (.call (.completeValidation token result))).map fun system =>
        if s.accepts token result then
          { s with
            system := system
            basis := s.setBasis token.role begun
            activations := (token.role, begun) :: s.activations }
        else { s with system := system }
    else none
  | .finishRecovery role begun =>
    if (role, begun) ∈ s.activations ∧
        ((s.system.controller.role role).any fun r => RecoveryState.unfinished r.recovery) then
      some { s with finishing := (role, begun) :: s.finishing }
    else none
  | .commitFinished role begun =>
    if (role, begun) ∈ s.finishing then
      some { s with
        system := s.system.withController
          (s.system.controller.setRecovery role {} .ready "recovery complete").2
        finishing := s.finishing.erase (role, begun)
        basis := s.setBasis role begun }
    else none
  | .setRecovery role recovery state reason =>
    if state = .ready then none
    else some { s with
      system := s.system.withController
        (s.system.controller.setRecovery role recovery state reason).2 }
  | .product a =>
    if reserved a then none
    else (s.system.step a).map fun system =>
      { s with system := system, runResumes := s.noteBegin a, basis := s.noteReady a }

def Idle (s : SleepWatch) : Prop :=
  s.queue = [] ∧ (s.coalescer = .down ∨ ∃ current, s.coalescer = .idle current)

def Fresh (s : SleepWatch) : Prop :=
  ∀ role, s.system.controller.ReadyRole role → s.basis role = s.resumes

/-- The condition on a step. A resume event finds a place in the queue, and the snapshot
    that answers it is built. A resume finds no Ready role that is not wanted. What was
    validated before the last resume makes no role Ready. -/
def Careful (s : SleepWatch) : SleepAction → Prop
  | .sleepEvent false => s.queue.length < invalidationCapacity
  | .build none => ∀ current, s.coalescer ≠ .building current true
  | .request => ∀ role r, s.system.controller.roles role = some r → r.state = .ready →
      r.desired = true
  | .completeValidation token begun result => s.accepts token result = true → begun = s.resumes
  | .commitFinished _ begun => begun = s.resumes
  | .product (.transaction id (.validateComplete result false)) =>
      ∀ role operation epoch recovery rest token,
        s.system.runs id = some ⟨role, operation, epoch, .validating recovery rest token⟩ →
        s.accepts token result = true → s.runResumes id = s.resumes
  | .product (.transaction id .commitReady) => s.runResumes id = s.resumes
  | _ => True

end SleepWatch

/-- The runs of one process under a rule for its steps. -/
inductive SleepRun (R : SleepWatch → SleepAction → Prop) : SleepWatch → Prop
  | start (specs : List String) : SleepRun R { system := { controller := .new specs } }
  | step {s s' : SleepWatch} {a : SleepAction} (h : SleepRun R s) (ha : R s a)
      (hs : s.step a = some s') : SleepRun R s'

-- === A resume on its way ===

def CoalescerPhase.carries : CoalescerPhase → Bool
  | .settling _ resume | .building _ resume => resume
  | .reporting _ change => change.resume
  | .requesting _ => true
  | .down | .idle _ => false

theorem mem_queueUnderlayInvalidation {queue : List String} {source : String} (other : String)
    (h : source ∈ queue) : source ∈ queueUnderlayInvalidation queue other := by
  unfold queueUnderlayInvalidation
  split
  · exact List.mem_append_left _ h
  · exact h

theorem resume_publish {current next u : Underlay} {resume : Bool} {change : Option Change}
    (h : Coalescer.publish current next resume = (u, change)) :
    (change = none ∧ resume = false) ∨ ∃ c, change = some c ∧ c.resume = resume := by
  rcases publish_cases current next resume with ⟨hp, _, hr⟩ | ⟨u', reason, hp, _⟩
  · rw [hp] at h
    cases h
    exact .inl ⟨rfl, hr⟩
  · rw [hp] at h
    cases h
    exact .inr ⟨_, rfl, rfl⟩

theorem resume_takeUnderlay {underlay : Underlay} {product : Controller} {change : Change}
    (h : takeUnderlay underlay product change = none) : change.resume = false := by
  unfold takeUnderlay at h
  dsimp only at h
  split_ifs at h with hskip
  simpa using (Bool.and_eq_true_iff.mp hskip).2

namespace SleepWatch

variable {s s' : SleepWatch} {a : SleepAction}

def Carried (s : SleepWatch) : Prop :=
  s.awaiting = true → "resume" ∈ s.queue ∨ s.coalescer.carries = true

variable {role : String}

theorem Carried.of_phase (h : s.Carried) (ha : s'.awaiting = s.awaiting)
    (hq : "resume" ∈ s.queue → "resume" ∈ s'.queue ∨ s'.coalescer.carries = true)
    (hc : s.coalescer.carries = true → s'.coalescer.carries = true) : s'.Carried := by
  intro hw
  rw [ha] at hw
  exact (h hw).elim hq fun h' => .inr (hc h')

theorem Carried.of_eq (h : s.Carried) (ha : s'.awaiting = s.awaiting) (hq : s'.queue = s.queue)
    (hc : s'.coalescer = s.coalescer) : s'.Carried := by
  unfold Carried
  rw [ha, hq, hc]
  exact h

-- === What Ready rests on ===

theorem accepts_of_accepts {token : ValidationToken} {result : ValidationResult}
    (h : s.system.controller.Accepts token result role) :
    token.role = role ∧ result.healthy = true ∧ s.accepts token result = true := by
  obtain ⟨rfl, hh, r, hr, ht⟩ := h
  refine ⟨rfl, hh, ?_⟩
  simp [accepts, Controller.completeValidation, Controller.update, hr, ht, hh]

/-- The roles in `P` become Ready on a validation of now, and no other basis changes but
    to now. -/
theorem Fresh.of_readyWithin {P : String → Prop} (h : s.Fresh)
    (hr : Controller.ReadyWithin P s.system.controller s'.system.controller)
    (hn : s'.resumes = s.resumes)
    (hb : ∀ role, s'.basis role = s.basis role ∨ s'.basis role = s.resumes)
    (hP : ∀ role, P role → s'.basis role = s.resumes) : s'.Fresh := by
  intro role hready
  rw [hn]
  rcases hr role hready with hready | hp
  · rcases hb role with hb | hb
    · rw [hb]
      exact h role hready
    · exact hb
  · exact hP role hp

theorem Fresh.of_quiet (h : s.Fresh)
    (hr : Controller.ReadyWithin (fun _ => False) s.system.controller s'.system.controller)
    (hn : s'.resumes = s.resumes) (hb : s'.basis = s.basis) : s'.Fresh :=
  h.of_readyWithin hr hn (fun role => .inl (by rw [hb])) fun _ hP => hP.elim

theorem setBasis_cases {begun : Nat} (hbegun : begun = s.resumes) (id : String) :
    s.setBasis role begun id = s.basis id ∨ s.setBasis role begun id = s.resumes := by
  unfold setBasis
  split
  · exact .inr hbegun
  · exact .inl rfl

theorem setBasis_self (role : String) (begun : Nat) : s.setBasis role begun role = begun :=
  if_pos rfl

theorem noteReady_cases {action : Core.Action} (hc : s.Careful (.product action)) (role : String) :
    s.noteReady action role = s.basis role ∨ s.noteReady action role = s.resumes := by
  unfold noteReady
  split
  · next id result =>
    split
    · next token hrun =>
      by_cases hacc : s.accepts token result = true
      · rw [if_pos hacc]
        exact setBasis_cases (hc _ _ _ _ _ _ hrun hacc) role
      · rw [if_neg hacc]
        exact .inl rfl
    · exact .inl rfl
  · split
    · exact setBasis_cases hc role
    · exact .inl rfl
  · exact .inl rfl

theorem noteReady_of_readies {action : Core.Action} (hfree : reserved action = false)
    (hc : s.Careful (.product action)) (h : action.Readies s.system role) :
    s.noteReady action role = s.resumes := by
  unfold Core.Action.Readies at h
  split at h
  · cases hfree
  · next role id result =>
    obtain ⟨⟨role', operation, epoch, phase⟩, recovery, rest, token, hrun, hphase, hacc⟩ := h
    obtain ⟨rfl, _, hacc⟩ := accepts_of_accepts hacc
    cases hphase
    have hbegun : s.runResumes id = s.resumes := hc _ _ _ _ _ _ hrun hacc
    simp only [noteReady, hrun, if_pos hacc, setBasis_self, hbegun]
  · next role id =>
    obtain ⟨run, hrun, rfl, _⟩ := h
    have hbegun : s.runResumes id = s.resumes := hc
    simp only [noteReady, hrun, setBasis_self, hbegun]
  · exact h.elim

theorem not_ready_requestResumeValidation {c : Controller}
    (hd : ∀ role r, c.roles role = some r → r.state = .ready → r.desired = true) :
    ¬c.requestResumeValidation.ReadyRole role := by
  rintro ⟨r', hr', hready⟩
  obtain ⟨r, hr, rfl⟩ := Option.map_eq_some_iff.mp hr'
  unfold Controller.resumedRole at hready
  split at hready
  · cases hready
  · next hnot => exact hnot (by simp [hd role r hr hready, hready])

theorem readyWithin_takeUnderlay {P : String → Prop} {underlay u : Underlay}
    {product c : Controller} {change : Change}
    (h : takeUnderlay underlay product change = some (u, c)) :
    Controller.ReadyWithin P product c := by
  unfold takeUnderlay at h
  dsimp only at h
  split_ifs at h
  · cases h
    exact Controller.readyWithin_perform _ (.setUnderlay _ _) nofun
  · cases h
    exact .refl _

/-- A careful step keeps both: what is on its way, and what Ready rests on. -/
theorem kept_step (hw : s.Carried) (h : s.Fresh) (hc : s.Careful a) (hs : s.step a = some s') :
    s'.Carried ∧ s'.Fresh := by
  cases a with
  | sleepEvent preparing =>
    cases preparing with
    | true =>
      cases hs
      exact ⟨hw.of_eq rfl rfl rfl, h⟩
    | false =>
      cases hs
      have hroom : s.queue.length < invalidationCapacity := hc
      refine ⟨fun _ => .inl ?_, h⟩
      show "resume" ∈ queueUnderlayInvalidation s.queue "resume"
      rw [queueUnderlayInvalidation, if_pos hroom]
      exact List.mem_append_right _ (List.mem_singleton_self _)
  | invalidate source =>
    simp only [SleepWatch.step] at hs
    split_ifs at hs
    cases hs
    exact ⟨hw.of_phase rfl (fun h' => .inl (mem_queueUnderlayInvalidation _ h')) id, h⟩
  | start kick =>
    simp only [SleepWatch.step] at hs
    split at hs
    · next hphase =>
      cases hs
      refine ⟨hw.of_phase rfl (fun h' => .inl ?_) fun h' => ?_, h⟩
      · cases kick
        · exact h'
        · exact mem_queueUnderlayInvalidation _ h'
      · rw [hphase] at h'
        cases h'
    · cases hs
  | receive =>
    simp only [SleepWatch.step] at hs
    split at hs
    · next source queue current hq hphase =>
      cases hs
      refine ⟨hw.of_phase rfl (fun h' => ?_) fun h' => ?_, h⟩
      · rw [hq] at h'
        rcases List.mem_cons.mp h' with rfl | h'
        · exact .inr rfl
        · exact .inl h'
      · rw [hphase] at h'
        cases h'
    · next source queue current resume hq hphase =>
      cases hs
      refine ⟨hw.of_phase rfl (fun h' => ?_) fun h' => ?_, h⟩
      · rw [hq] at h'
        rcases List.mem_cons.mp h' with rfl | h'
        · exact .inr (by simp [CoalescerPhase.carries])
        · exact .inl h'
      · rw [hphase] at h'
        have hr : resume = true := h'
        simp [CoalescerPhase.carries, hr]
    · cases hs
  | settle =>
    simp only [SleepWatch.step] at hs
    split at hs
    · next hphase =>
      cases hs
      exact ⟨hw.of_phase rfl .inl fun h' => by rw [hphase] at h'; exact h', h⟩
    · cases hs
  | build result =>
    cases result with
    | none =>
      simp only [SleepWatch.step] at hs
      split at hs
      · next current resume hphase =>
        cases hs
        -- a flag that is set would be lost here
        refine ⟨hw.of_phase rfl .inl fun h' => ?_, h⟩
        rw [hphase] at h'
        obtain rfl : resume = true := h'
        exact absurd hphase (hc current)
      · cases hs
    | some next =>
      simp only [SleepWatch.step] at hs
      split at hs
      · next current resume hphase =>
        split at hs
        · next u hp =>
          cases hs
          obtain ⟨_, hr⟩ | ⟨_, hn, _⟩ := resume_publish hp
          · refine ⟨hw.of_phase rfl .inl fun h' => ?_, h⟩
            rw [hphase] at h'
            have hr' : resume = true := h'
            rw [hr] at hr'
            cases hr'
          · cases hn
        · next u change hp =>
          cases hs
          obtain ⟨hn, _⟩ | ⟨_, hsome, hr⟩ := resume_publish hp
          · cases hn
          cases hsome
          refine ⟨hw.of_phase rfl .inl fun h' => ?_, h⟩
          rw [hphase] at h'
          exact hr.trans h'
      · cases hs
  | report =>
    simp only [SleepWatch.step] at hs
    split at hs
    · next current change hphase =>
      have hresume (h' : s.coalescer.carries = true) : change.resume = true := by
        rw [hphase] at h'
        exact h'
      split at hs
      · next htake =>
        cases hs
        refine ⟨hw.of_phase rfl .inl fun h' => ?_, h⟩
        have hr := hresume h'
        rw [resume_takeUnderlay htake] at hr
        cases hr
      · next htake =>
        cases hs
        refine ⟨hw.of_phase rfl .inl fun h' => ?_,
          h.of_quiet (readyWithin_takeUnderlay htake) rfl rfl⟩
        simp [hresume h', CoalescerPhase.carries]
    · cases hs
  | request =>
    simp only [SleepWatch.step] at hs
    split at hs
    · cases hs
      exact ⟨nofun, fun role hready => absurd hready (not_ready_requestResumeValidation hc)⟩
    · cases hs
  | beginValidation role =>
    simp only [SleepWatch.step] at hs
    obtain ⟨system, hsys, rfl⟩ := Option.map_eq_some_iff.mp hs
    exact ⟨hw.of_eq rfl rfl rfl, h.of_quiet (Core.System.readyWithin_step hsys) rfl rfl⟩
  | completeValidation token begun result =>
    simp only [SleepWatch.step] at hs
    split_ifs at hs with hmem hacc
    · obtain ⟨system, hsys, rfl⟩ := Option.map_eq_some_iff.mp hs
      have hbegun : begun = s.resumes := hc hacc
      refine ⟨hw.of_eq rfl rfl rfl, h.of_readyWithin (Core.System.readyWithin_step hsys) rfl
        (setBasis_cases hbegun) fun role hP => ?_⟩
      obtain ⟨rfl, _, _⟩ := accepts_of_accepts hP
      exact (setBasis_self _ _).trans hbegun
    · obtain ⟨system, hsys, rfl⟩ := Option.map_eq_some_iff.mp hs
      exact ⟨hw.of_eq rfl rfl rfl, h.of_readyWithin (Core.System.readyWithin_step hsys) rfl
        (fun _ => .inl rfl) fun role hP => absurd (accepts_of_accepts hP).2.2 hacc⟩
  | finishRecovery role begun =>
    simp only [SleepWatch.step] at hs
    split_ifs at hs
    cases hs
    exact ⟨hw.of_eq rfl rfl rfl, h⟩
  | commitFinished role begun =>
    simp only [SleepWatch.step] at hs
    split_ifs at hs
    cases hs
    refine ⟨hw.of_eq rfl rfl rfl, h.of_readyWithin (Controller.readyWithin_setRecovery _ _ _ _ _)
      rfl (setBasis_cases hc) ?_⟩
    rintro id ⟨_, rfl, _⟩
    exact (setBasis_self _ _).trans hc
  | setRecovery role recovery state reason =>
    simp only [SleepWatch.step] at hs
    split_ifs at hs with hstate
    cases hs
    exact ⟨hw.of_eq rfl rfl rfl, h.of_readyWithin (Controller.readyWithin_setRecovery _ _ _ _ _)
      rfl (fun _ => .inl rfl) fun _ hP => absurd hP.1 hstate⟩
  | product action =>
    simp only [SleepWatch.step] at hs
    split_ifs at hs with hfree
    obtain ⟨system, hsys, rfl⟩ := Option.map_eq_some_iff.mp hs
    exact ⟨hw.of_eq rfl rfl rfl, h.of_readyWithin (Core.System.readyWithin_step hsys) rfl
      (noteReady_cases hc) fun _ hP => noteReady_of_readies (by simpa using hfree) hc hP⟩

end SleepWatch

namespace SleepRun

variable {s : SleepWatch}

/-- No resume is lost and none is undone: when the queue is empty and the coalescer idle,
    every resume so far has been applied, and at any time Ready rests on a validation begun
    after the last one. -/
theorem resume_kept (h : SleepRun SleepWatch.Careful s) :
    (s.Idle → s.awaiting = false) ∧ s.Fresh := by
  have hinv : s.Carried ∧ s.Fresh := by
    induction h with
    | start specs =>
      refine ⟨fun hw => (by cases hw), ?_⟩
      rintro role ⟨r, hr, hready⟩
      simp only [Controller.new] at hr
      split_ifs at hr
      cases hr
      cases hready
    | step _ ha hs ih => exact SleepWatch.kept_step ih.1 ih.2 ha hs
  refine ⟨fun hidle => ?_, hinv.2⟩
  obtain ⟨hq, hphase⟩ := hidle
  by_contra hw
  rcases hinv.1 (by simpa using hw) with hmem | hcarry
  · rw [hq] at hmem
    cases hmem
  rcases hphase with hphase | ⟨current, hphase⟩
  all_goals
    rw [hphase] at hcarry
    cases hcarry

def play (s : SleepWatch) (actions : List SleepAction) : Option SleepWatch :=
  actions.foldlM SleepWatch.step s

theorem of_play {s' : SleepWatch} (actions : List SleepAction) (h : SleepRun (fun _ _ => True) s)
    (hs : play s actions = some s') : SleepRun (fun _ _ => True) s' := by
  induction actions generalizing s with
  | nil =>
    cases hs
    exact h
  | cons a actions ih =>
    obtain ⟨s1, h1, h2⟩ := Option.bind_eq_some_iff.mp hs
    exact ih (h.step trivial h1) h2

def workWatch : SleepWatch := { system := { controller := .new ["work"] } }

def workToad : ToadSnapshot := { generation := 1, routeReady := true, state := "ready" }

def connects : List SleepAction :=
  [.start false, .invalidate "initial", .receive, .settle, .build (some sampleUnderlay), .report,
    .product (.call (.setRoleDesired "work" true)), .product (.call (.observeToad "work" workToad))]

def resumes : List SleepAction :=
  [.sleepEvent false, .receive, .settle, .build (some sampleUnderlay), .report, .request]

def fullQueue : List SleepAction :=
  List.replicate 64 (.invalidate "audit") ++ [.sleepEvent false, .start false] ++
    List.replicate 64 .receive ++ [.settle, .build (some sampleUnderlay), .report]

def failedBuild : List SleepAction :=
  [.start false, .sleepEvent false, .receive, .settle, .build none, .start true, .receive, .settle,
    .build (some sampleUnderlay), .report]

def staleCompletion : List SleepAction :=
  connects ++ [.beginValidation "work"] ++ resumes ++
    [.completeValidation ⟨"work", 1, 1, 1⟩ 0 sampleHealthy]

def staleCommit : List SleepAction :=
  connects ++ [.product (.recover 0 "work" 1 1), .product (.transaction 0 (.plan false)),
    .product (.transaction 0 .validateBegin),
    .product (.transaction 0 (.validateComplete sampleHealthy false))] ++ resumes ++
    [.product (.transaction 0 .commitReady)]

/-- Two runs lose a resume, and two runs have a role Ready on a validation from before the
    resume. All end with an empty queue and an idle coalescer. -/
theorem resume_lost :
    (∀ actions ∈ [fullQueue, failedBuild], ∃ s, SleepRun (fun _ _ => True) s ∧
        play workWatch actions = some s ∧ s.Idle ∧ s.awaiting = true) ∧
      ∀ actions ∈ [staleCompletion, staleCommit], ∃ s, SleepRun (fun _ _ => True) s ∧
        play workWatch actions = some s ∧ s.Idle ∧ s.system.controller.ReadyRole "work" ∧
        s.resumes = 1 ∧ s.basis "work" = 0 := by
  have hplay : ∀ {s : SleepWatch} (actions : List SleepAction),
      play workWatch actions = some s → SleepRun (fun _ _ => True) s :=
    fun actions => of_play actions (.start ["work"])
  constructor
  · intro actions h
    simp only [List.mem_cons, List.not_mem_nil, or_false] at h
    rcases h with rfl | rfl
    · -- 64 places are filled and emptied again
      set_option maxRecDepth 20000 in
      exact ⟨_, hplay fullQueue rfl, rfl, ⟨rfl, .inr ⟨_, rfl⟩⟩, rfl⟩
    · exact ⟨_, hplay failedBuild rfl, rfl, ⟨rfl, .inr ⟨_, rfl⟩⟩, rfl⟩
  · intro actions h
    simp only [List.mem_cons, List.not_mem_nil, or_false] at h
    rcases h with rfl | rfl
    · exact ⟨_, hplay staleCompletion rfl, rfl, ⟨rfl, .inr ⟨_, rfl⟩⟩, ⟨_, rfl, rfl⟩, rfl, rfl⟩
    · exact ⟨_, hplay staleCommit rfl, rfl, ⟨rfl, .inr ⟨_, rfl⟩⟩, ⟨_, rfl, rfl⟩, rfl, rfl⟩

/-- The first snapshot answers a resume, and the role is validated after it. -/
theorem resume_kept_validated : ∃ s, SleepRun SleepWatch.Careful s ∧ s.Idle ∧
    s.awaiting = false ∧ s.resumes = 1 ∧ s.system.controller.ReadyRole "work" ∧
    s.basis "work" = s.resumes := by
  have h₀ : SleepRun SleepWatch.Careful workWatch := .start ["work"]
  have h₁ := h₀.step (a := .start false) trivial rfl
  have h₂ := h₁.step (a := .sleepEvent false) (by decide : 0 < 64) rfl
  have h₃ := h₂.step (a := .receive) trivial rfl
  have h₄ := h₃.step (a := .settle) trivial rfl
  have h₅ := h₄.step (a := .build (some sampleUnderlay)) trivial rfl
  have h₆ := h₅.step (a := .report) trivial rfl
  have h₇ := h₆.step (a := .request) (fun role r hr hready => by
    obtain ⟨r₀, hr₀, rfl⟩ := Option.map_eq_some_iff.mp hr
    have hnew : (if role ∈ ["work"] then some ({} : RoleRuntime) else none) = some r₀ := hr₀
    split_ifs at hnew
    cases hnew
    cases hready) rfl
  have h₈ := h₇.step (a := .product (.call (.setRoleDesired "work" true))) trivial rfl
  have h₉ := h₈.step (a := .product (.call (.observeToad "work" workToad))) trivial rfl
  have h₁₀ := h₉.step (a := .beginValidation "work") trivial rfl
  have h₁₁ := h₁₀.step (a := .completeValidation ⟨"work", 1, 1, 1⟩ 1 sampleHealthy)
    (fun _ => rfl) rfl
  obtain ⟨hawaiting, hfresh⟩ := resume_kept h₁₁
  exact ⟨_, h₁₁, ⟨rfl, .inr ⟨_, rfl⟩⟩, hawaiting ⟨rfl, .inr ⟨_, rfl⟩⟩, rfl, ⟨_, rfl, rfl⟩,
    hfresh "work" ⟨_, rfl, rfl⟩⟩

end SleepRun

end Kikimora.Control

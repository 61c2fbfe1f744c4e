import Kikimora.Core.Engine

/-!
# The steps that make a role Ready

A role becomes Ready when a healthy validation is accepted, and when a recovery
transaction commits. Every other step of the product leaves a role that is not
Ready as it is in that respect.
-/

namespace Kikimora.Core

def Controller.ReadyRole (c : Controller) (role : String) : Prop :=
  ∃ r, c.roles role = some r ∧ r.state = .ready

def Controller.ReadyWithin (P : String → Prop) (c c' : Controller) : Prop :=
  ∀ role, c'.ReadyRole role → c.ReadyRole role ∨ P role

namespace Controller

def Accepts (c : Controller) (token : ValidationToken) (result : ValidationResult) (role : String) :
    Prop :=
  token.role = role ∧ result.healthy = true ∧
    ∃ r, c.roles role = some r ∧ c.tokenCurrent token r = true

section

variable {P : String → Prop} {c : Controller} {role : String} {r r' : RoleRuntime}

theorem ReadyWithin.refl (c : Controller) : ReadyWithin P c c := fun _ h => .inl h

theorem ReadyWithin.of_relates {c' : Controller}
    (h : Relates (fun id r r' => r'.state = .ready → r.state = .ready ∨ P id) c c') :
    ReadyWithin P c c' := by
  rintro id ⟨r', hr', hready⟩
  rcases h id with ⟨_, hnone⟩ | ⟨r, r'', hr, hr'', hstep⟩
  · rw [hnone] at hr'
    cases hr'
  · cases hr''.symm.trans hr'
    exact (hstep hready).imp_left fun h => ⟨r, hr, h⟩

theorem state_reason (x : RoleRuntime) (text : String) :
    (if x.reason = "" then { x with reason := text } else x).state = x.state := by
  split_ifs <;> rfl

theorem state_observedRole {epoch : UInt64} {snapshot : ToadSnapshot}
    (h : (observedRole epoch snapshot r).state = .ready) : r.state = .ready := by
  unfold observedRole at h
  dsimp only at h
  rw [state_reason] at h
  split_ifs at h
  all_goals exact h

/-- Of the calls only the completion of a validation makes a role Ready. -/
theorem readyWithin_perform (c : Controller) (call : ControllerCall)
    (hc : ∀ token result, call = .completeValidation token result →
      ∀ id, c.Accepts token result id → P id) : ReadyWithin P c (c.perform call) := by
  refine .of_relates fun id => (c.relates_perform call id).imp_right ?_
  rintro ⟨r, r', hr, hr', hstep⟩
  refine ⟨r, r', hr, hr', fun hready => ?_⟩
  cases hstep with
  | kept _ hs _ => exact .inl (hs ▸ hready)
  | moved _ _ hs _ => exact absurd hready hs
  | validated hcurrent hhealthy => exact .inr (hc _ _ rfl _ ⟨rfl, hhealthy, r, hr, hcurrent⟩)
  | switched _ _ _ _ _ hs _ =>
    rw [hs] at hready
    split_ifs at hready
  | observed => exact .inl (state_observedRole hready)
  | replaced _ _ _ _ hs _ =>
    rw [hs] at hready
    split_ifs at hready
    exact .inl hready

theorem readyWithin_setRecovery (c : Controller) (role : String) (recovery : RecoveryState)
    (state : RoleState) (reason : String) :
    ReadyWithin (fun id => state = .ready ∧ role = id ∧ (c.roles id).isSome = true) c
      (c.setRecovery role recovery state reason).2 := by
  refine .of_relates (.update (fun _ _ => .inl) fun r r' hr hf hready => ?_)
  cases hf
  exact .inr ⟨hready, rfl, by rw [hr]; rfl⟩

theorem ready_completeValidation {token : ValidationToken} {result : ValidationResult}
    (h : c.Accepts token result role) : (c.completeValidation token result).2.ReadyRole role := by
  obtain ⟨rfl, hh, r, hr, hc⟩ := h
  simp [completeValidation, update, hr, hc, hh, ReadyRole]

theorem ready_setRecovery (recovery : RecoveryState) (reason : String)
    (h : (c.roles role).isSome = true) :
    (c.setRecovery role recovery .ready reason).2.ReadyRole role := by
  obtain ⟨r, hr⟩ := Option.isSome_iff_exists.mp h
  simp [setRecovery, update, hr, ReadyRole]

end

end Controller

-- === The system ===

def Action.Readies (s : System) : Action → String → Prop
  | .call (.completeValidation token result), role => s.controller.Accepts token result role
  | .transaction id (.validateComplete result false), role =>
    ∃ run recovery rest token, s.runs id = some run ∧
      run.phase = .validating recovery rest token ∧ s.controller.Accepts token result role
  | .transaction id .commitReady, role =>
    ∃ run, s.runs id = some run ∧ run.role = role ∧ (s.controller.roles role).isSome = true
  | _, _ => False

namespace System

variable {s s' : System} {a : Action} {role : String}

theorem failedState_ne_ready (failure : RecoveryFailure) : failure.failedState ≠ .ready := by
  cases failure <;> exact nofun

theorem readyWithin_stepRun {id : Nat} {run : RecoveryRun} {t : TransactionStep}
    (hrun : s.runs id = some run) (hs : s.stepRun id run t run.phase = some s') :
    Controller.ReadyWithin ((Action.transaction id t).Readies s) s.controller s'.controller := by
  unfold stepRun at hs
  split at hs
  · dsimp only at hs
    split_ifs at hs
    all_goals
      cases hs
      exact .refl _
  · split_ifs at hs
    cases hs
    exact .refl _
  · cases hs
    exact .refl _
  · split at hs
    · cases hs
    next token c hb =>
    cases hs
    have h := s.controller.readyWithin_perform (.beginValidation run.role)
      (P := (Action.transaction id .validateBegin).Readies s) (by rintro _ _ ⟨⟩)
    rw [Controller.perform, hb] at h
    exact h
  · next result pending recovery rest token hphase =>
    cases hs
    cases pending with
    | true =>
      exact s.controller.readyWithin_perform (.completeValidationPending token result)
        (by rintro _ _ ⟨⟩)
    | false =>
      refine s.controller.readyWithin_perform (.completeValidation token result) ?_
      rintro _ _ ⟨⟩ role h
      exact ⟨run, recovery, rest, token, hrun, hphase, h⟩
  · next failure recovery _ =>
    cases hs
    exact fun role h => (Controller.readyWithin_setRecovery _ _ _ _ _ role h).imp_right
      fun h => absurd h.1 (failedState_ne_ready failure)
  · cases hs
    exact fun role h => (Controller.readyWithin_setRecovery _ _ _ _ _ role h).imp_right
      fun h => ⟨run, hrun, h.2⟩
  · cases hs
    exact .refl _
  · cases hs

theorem controller_driverStep {id : Nat} (hs : s.step (.transaction id .driverStep) = some s') :
    s'.controller = s.controller := by
  obtain ⟨run, _, hs⟩ := Option.bind_eq_some_iff.mp hs
  rcases hphase : run.phase with current | ⟨recovery, _ | ⟨step, rest⟩⟩ | _ | _
  all_goals simp only [hphase, stepRun, reduceCtorEq] at hs
  split_ifs at hs
  cases hs
  rfl

theorem readyWithin_step (hs : s.step a = some s') :
    Controller.ReadyWithin (a.Readies s) s.controller s'.controller := by
  cases a with
  | call c =>
    rw [(stepCall_spec hs).1]
    refine s.controller.readyWithin_perform _ fun token result hc id h => ?_
    subst hc
    exact h
  | recover id role operation epoch =>
    simp only [step] at hs
    split at hs
    · cases hs
      exact .refl _
    · cases hs
  | transaction id t =>
    obtain ⟨run, hrun, hs⟩ := Option.bind_eq_some_iff.mp hs
    exact readyWithin_stepRun hrun hs

theorem ready_of_readies (hs : s.step a = some s') (h : a.Readies s role) :
    s'.controller.ReadyRole role := by
  unfold Action.Readies at h
  split at h
  · simp only [step, stepCall] at hs
    split_ifs at hs
    cases hs
    exact Controller.ready_completeValidation h
  · obtain ⟨run, recovery, rest, token, hrun, hphase, haccepts⟩ := h
    simp only [step, hrun, Option.bind_some, hphase, stepRun] at hs
    cases hs
    exact Controller.ready_completeValidation haccepts
  · obtain ⟨run, hrun, rfl, hrole⟩ := h
    simp only [step, hrun, Option.bind_some] at hs
    rcases hphase : run.phase with current | ⟨recovery, _ | ⟨step, rest⟩⟩ | _ | _
    all_goals
      rw [hphase] at hs
      cases hs
    exact Controller.ready_setRecovery _ _ hrole
  · exact h.elim

end System

end Kikimora.Core

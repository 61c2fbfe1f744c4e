import Kikimora.Control.Snapshot
import Kikimora.Core.Ready

/-!
# Sessions

What the product controller says of the session of a role after any history of
calls: whether a Ready role has a live session, and whether an unwanted role stays
quiet.
-/

namespace Kikimora.Control

open Kikimora.Core Lib

/-- The controller after some calls, newest first. -/
def productAfter (specs : List String) (history : List ControllerCall) : Controller :=
  history.foldr (fun call c => c.perform call) (.new specs)

variable {specs : List String} {c : Controller} {call : ControllerCall} {id : String}
  {r r' : RoleRuntime} {snapshot : ToadSnapshot} {epoch : UInt64}

-- === Ready roles ===

/-- The Toad reports a session that carries nothing. -/
def Stale (snapshot : ToadSnapshot) : Prop :=
  snapshot.state ∈ ["failed", "stopped", "recovering", "quiesced", "reconnecting"]

instance (snapshot : ToadSnapshot) : Decidable (Stale snapshot) :=
  inferInstanceAs (Decidable (_ ∈ _))

def NoStaleReady (c : Controller) : Prop :=
  ∀ id r, c.roles id = some r → r.state = .ready → ¬ Stale r.toad

/-- A healthy result that is accepted finds a live session. -/
def CompletesLive (c : Controller) : ControllerCall → Prop
  | .completeValidation token result => result.healthy = true →
      ∀ r, c.roles token.role = some r → c.tokenCurrent token r = true → ¬ Stale r.toad
  | _ => True

def LiveReady (r : RoleRuntime) : Prop :=
  r.state = .ready → r.desired = true ∧ ¬ Stale r.toad

theorem not_stale_of_ready (hd : r.desired = true)
    (h : (Controller.observedRole epoch snapshot r).state = .ready) : ¬ Stale snapshot := by
  intro hstale
  have hs := Controller.state_observedRole h
  unfold Controller.observedRole at h
  dsimp only at h
  rw [Controller.state_reason] at h
  simp only [Stale, List.mem_cons, List.not_mem_nil, or_false] at hstale
  simp only [hs, hd, Bool.not_eq_true', Bool.or_eq_true, decide_eq_true_eq, ne_eq, reduceCtorEq,
    not_false_eq_true, if_true] at h
  split_ifs at h <;> tauto

theorem LiveReady.step (h : LiveReady r) (hr : c.roles id = some r) (hc : CompletesLive c call)
    (hstep : RoleStep c call id r r') : LiveReady r' := by
  intro hready
  cases hstep with
  | kept hsame hs _ =>
    rw [hsame.desired, hsame.toad]
    exact h (hs ▸ hready)
  | moved _ _ hs _ => exact absurd hready hs
  | validated hcurrent hhealthy hsame _ _ =>
    rw [hsame.desired, hsame.toad]
    refine ⟨?_, hc hhealthy r hr hcurrent⟩
    simp only [Controller.tokenCurrent, Bool.and_eq_true] at hcurrent
    exact hcurrent.1.1.1.1
  | switched _ _ _ _ _ hs _ =>
    rw [hs] at hready
    split_ifs at hready
  | @observed _ snapshot =>
    have hobserved := Controller.observedRole_keeps c.underlay.epoch snapshot r
    have hwanted := (h (Controller.state_observedRole hready)).1
    rw [hobserved.1, hobserved.2]
    exact ⟨hwanted, not_stale_of_ready hwanted hready⟩
  | replaced _ _ _ _ hs _ =>
    rw [hs] at hready
    split_ifs at hready with hd
    exact absurd (h hready).1 hd

/-- An invariant of the roles, kept by the steps that meet `C`. -/
def AllRoles (P : RoleRuntime → Prop) (c : Controller) : Prop :=
  ∀ id r, c.roles id = some r → P r

theorem AllRoles.new {P : RoleRuntime → Prop} (h : P {}) : AllRoles P (.new specs) := by
  intro id r hr
  simp only [Controller.new] at hr
  split_ifs at hr
  cases hr
  exact h

theorem AllRoles.perform {P : RoleRuntime → Prop} (h : AllRoles P c)
    (hstep : ∀ id r r', c.roles id = some r → RoleStep c call id r r' → P r → P r') :
    AllRoles P (c.perform call) := by
  intro id r' hr'
  rcases c.relates_perform call id with ⟨_, hnone⟩ | ⟨r, r'', hr, hr'', hrole⟩
  · rw [hnone] at hr'
    cases hr'
  · cases hr''.symm.trans hr'
    exact hstep id r _ hr hrole (h id r hr)

/-- In every state of a history a Ready role has a live session exactly if no healthy
    result is accepted for a role whose last snapshot reports a stale one. -/
theorem noStaleReady_iff (specs : List String) (history : List ControllerCall) :
    (∀ earlier, earlier <:+ history → NoStaleReady (productAfter specs earlier)) ↔
      ∀ call earlier, call :: earlier <:+ history →
        CompletesLive (productAfter specs earlier) call := by
  refine throughout_iff (I := AllRoles LiveReady) (.new nofun)
    (fun c call h hc => h.perform fun _ _ _ hr hstep hlive => hlive.step hr hc hstep)
    (fun c h id r hr hready => (h id r hr hready).2) (fun c call h => ?_) history
  cases call with
  | completeValidation token result =>
    intro hhealthy r hr hcurrent
    have hrole : ((c.perform (.completeValidation token result)).roles token.role).map
        (fun r => (r.state, r.toad)) = some (.ready, r.toad) := by
      simp [Controller.perform, Controller.completeValidation, Controller.update, hr, hcurrent,
        hhealthy]
    obtain ⟨r', hr', heq⟩ := Option.map_eq_some_iff.mp hrole
    obtain ⟨hs, htoad⟩ := Prod.mk.inj heq
    exact htoad ▸ h token.role r' hr' hs
  | _ => trivial

def readySnapshot : ToadSnapshot :=
  { generation := 1, state := "ready", routeReady := true }

def workToken : ValidationToken := ⟨"work", 1, 1, 1⟩

/-- A wanted role with a path, whose Toad has reported that it is ready. -/
def sessionHistory : List ControllerCall :=
  [.observeToad "work" readySnapshot, .setUnderlay sampleUnderlay .unspecified,
    .setRoleDesired "work" true]

def staleHistory : List ControllerCall :=
  [.completeValidation workToken sampleHealthy,
    .observeToad "work" { readySnapshot with state := "reconnecting" }, .beginValidation "work"] ++
    sessionHistory

/-- The session goes stale between the beginning and the end of its validation. -/
theorem stale_session_reads_ready :
    ((productAfter ["work"] sessionHistory).beginValidation "work").1 = some workToken ∧
    ∃ r, (productAfter ["work"] staleHistory).roles "work" = some r ∧ r.state = .ready ∧
      r.toad.state = "reconnecting" ∧ Stale r.toad :=
  ⟨by decide +kernel, _, rfl, by decide +kernel, by decide +kernel, by decide +kernel⟩

-- === Unwanted roles ===

/-- A report of a Toad at work, which makes a role Recovering. -/
def Busy (snapshot : ToadSnapshot) : Prop :=
  snapshot.routeReady = true ∧ snapshot.state ∈ ["recovering", "quiesced", "reconnecting"]

instance (snapshot : ToadSnapshot) : Decidable (Busy snapshot) :=
  inferInstanceAs (Decidable (_ ∧ _))

def QuietRole (r : RoleRuntime) : Prop :=
  r.desired = false → r.state = .stopped ∨ r.state = .failed

/-- The unwanted roles are Stopped or Failed, and without a wanted role so is the
    product. -/
def QuietProduct (specs : List String) (c : Controller) : Prop :=
  AllRoles QuietRole c ∧ (AllRoles (fun r => r.desired = false) c →
    aggregateState (specs.filterMap c.roles) = "Stopped" ∨
      aggregateState (specs.filterMap c.roles) = "Failed")

/-- A busy report on an unwanted role is one of another generation, or the last one
    once more. -/
def DropsBusy (c : Controller) : ControllerCall → Prop
  | .observeToad role snapshot => Busy snapshot → ∀ r, c.roles role = some r → r.desired = false →
      (r.toadGeneration ≠ 0 ∧ r.toadGeneration ≠ snapshot.generation) ∨
        (r.toadGeneration = snapshot.generation ∧ r.toad = snapshot)
  | _ => True

theorem state_observed_unwanted (hd : r.desired = false) :
    (Controller.observedRole epoch snapshot r).state =
      if Busy snapshot then .recovering
      else if snapshot.routeReady ∧ snapshot.state = "failed" then .failed
      else if snapshot.routeReady ∧ snapshot.state = "stopped" then .stopped
      else r.state := by
  unfold Controller.observedRole
  dsimp only
  rw [Controller.state_reason]
  simp only [Busy, List.mem_cons, List.not_mem_nil, or_false, hd, Bool.or_eq_true,
    decide_eq_true_eq, Bool.false_and, Bool.false_eq_true, if_false]
  cases snapshot.routeReady with
  | false => simp only [Bool.not_false, if_true, Bool.false_eq_true, false_and, if_false]
  | true =>
    simp only [Bool.not_true, Bool.false_eq_true, if_false, true_and]
    split_ifs <;> first | rfl | (exfalso; simp_all)

theorem aggregate_quiet {roles : List RoleRuntime}
    (h : ∀ r ∈ roles, r.desired = false ∧ (r.state = .stopped ∨ r.state = .failed)) :
    aggregateState roles = "Stopped" ∨ aggregateState roles = "Failed" := by
  have hdesired : (roles.filter fun r => r.desired) = [] :=
    List.filter_eq_nil_iff.mpr fun r hr => by simp [(h r hr).1]
  have hnever : ∀ state, state ≠ .stopped → state ≠ .failed →
      (roles.any fun r => r.state = state) = false := by
    intro state hstopped hfailed
    refine List.any_eq_false.mpr fun r hr => ?_
    rcases (h r hr).2 with hs | hs
    · simp [hs, hstopped.symm]
    · simp [hs, hfailed.symm]
  have hother : (roles.any fun r => r.state = .failed) = false →
      (roles.any fun r => r.state ≠ .stopped) = false := by
    intro hfailed
    refine List.any_eq_false.mpr fun r hr => ?_
    have hne := List.any_eq_false.mp hfailed r hr
    simp_all
  unfold aggregateState
  simp only [hdesired, hnever .recovering nofun nofun, hnever .waitingForUnderlay nofun nofun,
    List.isEmpty_nil, List.any_nil, Bool.not_true, Bool.false_and, Bool.false_eq_true, if_false]
  cases hfailed : roles.any fun r => r.state = .failed with
  | true => exact .inr rfl
  | false => exact .inl (by simp only [hother hfailed, Bool.false_eq_true, if_false])

theorem QuietRole.step (h : QuietRole r) (hr : c.roles id = some r) (hc : DropsBusy c call)
    (hstep : RoleStep c call id r r') : QuietRole r' := by
  intro hd
  cases hstep with
  | kept hsame hs _ => exact hs ▸ h (hsame.desired ▸ hd)
  | moved hsame hwanted _ _ =>
    rw [hsame.desired, hwanted] at hd
    cases hd
  | validated hcurrent _ hsame _ _ =>
    simp only [Controller.tokenCurrent, Bool.and_eq_true] at hcurrent
    rw [hsame.desired, hcurrent.1.1.1.1] at hd
    cases hd
  | switched _ hd' _ _ _ hs _ =>
    rw [hs, ← hd', hd]
    exact .inl rfl
  | observed hg hnew =>
    rw [(Controller.observedRole_keeps ..).1] at hd
    rw [state_observed_unwanted hd]
    split_ifs with hbusy
    · rcases hc hbusy r hr hd with ⟨hne, hne'⟩ | hsame
      · exact (hg.elim hne hne').elim
      · exact absurd hsame hnew
    · exact .inr rfl
    · exact .inl rfl
    · exact h hd
  | replaced hd' _ _ _ hs _ =>
    rw [hd'] at hd
    rw [hs, hd]
    exact h hd

theorem AllRoles.quiet (h : AllRoles QuietRole c) (specs : List String) : QuietProduct specs c := by
  refine ⟨h, fun hunwanted => aggregate_quiet fun r hr => ?_⟩
  obtain ⟨id, _, hid⟩ := List.mem_filterMap.mp hr
  exact ⟨hunwanted id r hid, h id r hid (hunwanted id r hid)⟩

/-- In every state of a history the unwanted roles are Stopped or Failed, and without a
    wanted role the product is, exactly if every busy report on an unwanted role is
    dropped. -/
theorem quiet_iff (specs : List String) (history : List ControllerCall) :
    (∀ earlier, earlier <:+ history → QuietProduct specs (productAfter specs earlier)) ↔
      ∀ call earlier, call :: earlier <:+ history →
        DropsBusy (productAfter specs earlier) call := by
  refine throughout_iff (I := AllRoles QuietRole) (.new fun _ => .inl rfl)
    (fun c call h hc => h.perform fun _ _ _ hr hstep hquiet => hquiet.step hr hc hstep)
    (fun c h => h.quiet specs) (fun c call h => ?_) history
  cases call with
  | observeToad role snapshot =>
    intro hbusy r hr hd
    by_contra hnew
    obtain ⟨hg, hsame⟩ := not_or.mp hnew
    have hrole : (c.perform (.observeToad role snapshot)).roles role =
        some (Controller.observedRole c.underlay.epoch snapshot r) := by
      simp only [Controller.perform, Controller.observeToad, hr, if_neg hg, if_neg hsame,
        Controller.roles_bump, Controller.roles_setRole, if_true]
    have hquiet := h.1 role _ hrole ((Controller.observedRole_keeps ..).1.trans hd)
    rw [state_observed_unwanted hd, if_pos hbusy] at hquiet
    rcases hquiet with hs | hs <;> cases hs
  | _ => trivial

/-- The role is switched off, and its Toad reports that it is quiesced. -/
def lateHistory : List ControllerCall :=
  [.observeToad "work" { readySnapshot with state := "quiesced" }, .setRoleDesired "work" false] ++
    sessionHistory

theorem late_snapshot_recovers_unwanted :
    ∃ r, (productAfter ["work"] lateHistory).roles "work" = some r ∧ r.desired = false ∧
      r.state = .recovering ∧
      aggregateState (["work"].filterMap (productAfter ["work"] lateHistory).roles) =
        "Recovering" :=
  ⟨_, rfl, by decide +kernel, by decide +kernel, by decide +kernel⟩

end Kikimora.Control

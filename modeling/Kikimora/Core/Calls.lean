import Kikimora.Core.Controller

/-!
# The calls of the controller

The methods of the product controller that any party may call, as data, and what
each of them can do to a role.
-/

namespace Kikimora.Core

/-- The methods of the controller that other parties call at any time. -/
inductive ControllerCall
  | setRoleDesired (role : String) (enabled : Bool)
  | setUnderlay (next : Underlay) (reason : ChangeReason)
  | observeToad (role : String) (snapshot : ToadSnapshot)
  | beginValidation (role : String)
  | completeValidation (token : ValidationToken) (result : ValidationResult)
  | completeValidationPending (token : ValidationToken) (result : ValidationResult)
  | requestResumeValidation
  | requestRoleValidation (role reason : String)
  | markRecovering (role reason : String)
  | beginToadGeneration (role : String)
  | updateRoleResources (role : String) (endpoint : EndpointState)
      (publication : PublicationState) (parking : ParkingState) (validation : ValidationResult)
  | setRetrySchedule (role : String) (next : Option Int)
  | setRoleDiagnostic (role reason : String)

/-- What a call makes of the controller. -/
def Controller.perform (c : Controller) : ControllerCall → Controller
  | .setRoleDesired role enabled => (c.setRoleDesired role enabled).2
  | .setUnderlay next reason => c.setUnderlay next reason
  | .observeToad role snapshot => (c.observeToad role snapshot).2
  | .beginValidation role => (c.beginValidation role).2
  | .completeValidation token result => (c.completeValidation token result).2
  | .completeValidationPending token result => (c.completeValidationPending token result).2
  | .requestResumeValidation => c.requestResumeValidation
  | .requestRoleValidation role reason => (c.requestRoleValidation role reason).2
  | .markRecovering role reason => (c.markRecovering role reason).2
  | .beginToadGeneration role => (c.beginToadGeneration role).2
  | .updateRoleResources role endpoint publication parking validation =>
    (c.updateRoleResources role endpoint publication parking validation).2
  | .setRetrySchedule role next => (c.setRetrySchedule role next).2
  | .setRoleDiagnostic role reason => (c.setRoleDiagnostic role reason).2

/-- The same intent and the same Toad, with the same last snapshot. -/
structure RoleRuntime.SameSession (r r' : RoleRuntime) : Prop where
  desired : r'.desired = r.desired
  operation : r'.operation = r.operation
  generation : r'.toadGeneration = r.toadGeneration
  toad : r'.toad = r.toad

/-- What a call can make of a role: of its session, its state and its validation. -/
inductive RoleStep (c : Controller) : ControllerCall → String → RoleRuntime → RoleRuntime → Prop
  | kept {call id r r'} (h : RoleRuntime.SameSession r r') (hs : r'.state = r.state)
      (hv : r'.validatedEpoch = r.validatedEpoch) : RoleStep c call id r r'
  /-- a wanted role is on its way to its next validation -/
  | moved {call id r r'} (h : RoleRuntime.SameSession r r') (hd : r.desired = true)
      (hs : r'.state ≠ .ready)
      (hv : r'.validatedEpoch = r.validatedEpoch ∨ r'.validatedEpoch = 0) : RoleStep c call id r r'
  | validated {token result r r'} (hcurrent : c.tokenCurrent token r = true)
      (hhealthy : ValidationResult.healthy result = true) (h : r.SameSession r')
      (hs : r'.state = .ready) (hv : r'.validatedEpoch = token.underlayEpoch) :
      RoleStep c (.completeValidation token result) token.role r r'
  | switched {id enabled} {r r' : RoleRuntime} (hd : r.desired ≠ enabled)
      (hd' : r'.desired = enabled) (ho : r'.operation = r.operation + 1)
      (hg : r'.toadGeneration = r.toadGeneration) (ht : r'.toad = r.toad)
      (hs : r'.state = if enabled then .starting else .stopped)
      (hv : r'.validatedEpoch = r.validatedEpoch) : RoleStep c (.setRoleDesired id enabled) id r r'
  | observed {id} {snapshot : ToadSnapshot} {r : RoleRuntime}
      (hg : r.toadGeneration = 0 ∨ r.toadGeneration = snapshot.generation)
      (hnew : ¬ (r.toadGeneration = snapshot.generation ∧ r.toad = snapshot)) :
      RoleStep c (.observeToad id snapshot) id r
        (Controller.observedRole c.underlay.epoch snapshot r)
  | replaced {id} {r r' : RoleRuntime} (hd : r'.desired = r.desired)
      (ho : r'.operation = r.operation) (hg : r'.toadGeneration = 0) (ht : r'.toad = {})
      (hs : r'.state = if r.desired then .starting else r.state) (hv : r'.validatedEpoch = 0) :
      RoleStep c (.beginToadGeneration id) id r r'

theorem RoleStep.refl {c : Controller} {call : ControllerCall} (id : String) (r : RoleRuntime) :
    RoleStep c call id r r :=
  .kept ⟨rfl, rfl, rfl, rfl⟩ rfl rfl

namespace Controller

/-- The same roles, each as `R` says. -/
def Relates (R : String → RoleRuntime → RoleRuntime → Prop) (c c' : Controller) : Prop :=
  ∀ id, (c.roles id = none ∧ c'.roles id = none) ∨
    ∃ r r', c.roles id = some r ∧ c'.roles id = some r' ∧ R id r r'

section

variable {R : String → RoleRuntime → RoleRuntime → Prop} {c : Controller} {role : String}

theorem Relates.map {c' : Controller} {g : RoleRuntime → RoleRuntime}
    (hroles : ∀ id, c'.roles id = (c.roles id).map g) (hg : ∀ id r, R id r (g r)) :
    Relates R c c' := by
  intro id
  cases hr : c.roles id with
  | none => exact .inl ⟨rfl, by rw [hroles, hr]; rfl⟩
  | some r => exact .inr ⟨r, g r, rfl, by rw [hroles, hr]; rfl, hg id r⟩

variable (hrefl : ∀ id r, R id r r)

include hrefl

theorem Relates.refl (c : Controller) : Relates R c c :=
  .map (g := id) (fun _ => by simp) hrefl

theorem Relates.setRole {r r' : RoleRuntime} (hr : c.roles role = some r) (h : R role r r') :
    Relates R c (c.setRole role r').bump := by
  intro id
  by_cases hid : id = role
  · subst hid
    exact .inr ⟨r, r', hr, by simp, h⟩
  · simpa [hid] using Relates.refl hrefl c id

theorem Relates.update {f : RoleRuntime → Option RoleRuntime}
    (hf : ∀ r r', c.roles role = some r → f r = some r' → R role r r') :
    Relates R c (c.update role f).2 := by
  rcases c.update_spec role f with hu | ⟨r, r', hr, hfr, hu⟩
  · rw [hu]
    exact .refl hrefl c
  · rw [hu]
    exact .setRole hrefl hr (hf r r' hr hfr)

end

/-- What a call makes of the controller: a step of one role or of every role, or
    nothing but a later time at which its underlay was seen. -/
inductive Acts (c : Controller) (call : ControllerCall) : Controller → Prop
  | none : Acts c call c
  | seen {next : Underlay} {reason : ChangeReason} (hcall : call = .setUnderlay next reason) :
      Acts c call { c with underlay := { c.underlay with observedAt := next.observedAt } }
  | role {id r r'} (hr : c.roles id = some r) (h : RoleStep c call id r r') :
      Acts c call (c.setRole id r').bump
  | all {c' : Controller} {g : RoleRuntime → RoleRuntime}
      (hroles : ∀ id, c'.roles id = (c.roles id).map g) (hg : ∀ id r, RoleStep c call id r (g r))
      (hrev : c'.revision = c.revision + 1)
      (hu : c'.underlay = c.underlay ∨ ∃ next reason, call = .setUnderlay next reason) :
      Acts c call c'

theorem Acts.update {c : Controller} {call : ControllerCall} {role : String}
    {f : RoleRuntime → Option RoleRuntime}
    (hf : ∀ r r', f r = some r' → RoleStep c call role r r') : Acts c call (c.update role f).2 := by
  rcases c.update_spec role f with hu | ⟨r, r', hr, hfr, hu⟩
  · rw [hu]
    exact .none
  · rw [hu]
    exact .role hr (hf r r' hfr)

theorem Acts.applyUnderlay {c : Controller} {next u : Underlay} {reason reason' : ChangeReason} :
    Acts c (.setUnderlay next reason) (c.applyUnderlay u reason') := by
  refine .all (fun _ => rfl) (fun id r => ?_) rfl (.inr ⟨_, _, rfl⟩)
  unfold underlayRole
  split_ifs with hd
  · exact .refl id r
  · exact .moved ⟨rfl, rfl, rfl, rfl⟩ (by simpa using hd) nofun (.inr rfl)
  · exact .moved ⟨rfl, rfl, rfl, rfl⟩ (by simpa using hd) nofun (.inr rfl)
  · exact .refl id r

/-- What each call can do. -/
theorem acts_perform (c : Controller) (call : ControllerCall) : Acts c call (c.perform call) := by
  have current {token r} (h : c.tokenCurrent token r = true) : r.desired = true := by
    simp only [tokenCurrent, Bool.and_eq_true] at h
    exact h.1.1.1.1
  cases call with
  | setRoleDesired role enabled =>
    simp only [perform, setRoleDesired]
    cases hr : c.roles role with
    | none => exact .none
    | some r =>
      dsimp only
      split_ifs with hd he
      · exact .none
      · exact .role hr (.switched hd rfl rfl rfl rfl (by rw [if_pos he]) rfl)
      · exact .role hr (.switched hd rfl rfl rfl rfl (by rw [if_neg he]) rfl)
  | setUnderlay next reason =>
    simp only [perform, setUnderlay]
    split_ifs
    · exact .none
    · exact .applyUnderlay
    · exact .applyUnderlay
    · exact .none
    · exact .seen rfl
    · exact .none
    · exact .applyUnderlay
  | observeToad role snapshot =>
    simp only [perform, observeToad]
    cases hr : c.roles role with
    | none => exact .none
    | some r =>
      dsimp only
      split_ifs with hg hsame
      · exact .none
      · exact .none
      · exact .role hr (.observed (by simpa [or_iff_not_imp_left] using hg) hsame)
  | beginValidation role =>
    simp only [perform, beginValidation]
    cases hr : c.roles role with
    | none => exact .none
    | some r =>
      dsimp only
      split_ifs with hc
      · simp only [canValidate, Bool.and_eq_true] at hc
        exact .role hr (.moved ⟨rfl, rfl, rfl, rfl⟩ hc.1.1.1.1 nofun (.inl rfl))
      · exact .none
  | completeValidation token result =>
    refine .update fun r r' hf => ?_
    split_ifs at hf with hc hh
    · cases hf
      exact .validated (by simpa using hc) hh ⟨rfl, rfl, rfl, rfl⟩ rfl rfl
    · cases hf
      exact .moved ⟨rfl, rfl, rfl, rfl⟩ (current (by simpa using hc)) nofun (.inr rfl)
  | completeValidationPending token result =>
    refine .update fun r r' hf => ?_
    split_ifs at hf with hc
    cases hf
    exact .moved ⟨rfl, rfl, rfl, rfl⟩ (current (by simpa using hc)) nofun (.inr rfl)
  | requestResumeValidation =>
    refine .all (fun _ => rfl) (fun id r => ?_) rfl (.inl rfl)
    unfold resumedRole
    split_ifs with hd
    · exact .moved ⟨rfl, rfl, rfl, rfl⟩ (by simp_all) nofun (.inr rfl)
    · exact .refl id r
  | requestRoleValidation role reason | markRecovering role reason =>
    refine .update fun r r' hf => ?_
    split_ifs at hf with hd
    cases hf
    exact .moved ⟨rfl, rfl, rfl, rfl⟩ (by simp_all) nofun (.inr rfl)
  | beginToadGeneration role =>
    refine .update fun r r' hf => ?_
    cases hf
    exact .replaced rfl rfl rfl rfl rfl rfl
  | updateRoleResources role endpoint publication parking validation | setRetrySchedule role next
  | setRoleDiagnostic role reason =>
    refine .update fun r r' hf => ?_
    cases hf
    exact .kept ⟨rfl, rfl, rfl, rfl⟩ rfl rfl

theorem relates_perform (c : Controller) (call : ControllerCall) :
    Relates (RoleStep c call) c (c.perform call) := by
  have hacts := c.acts_perform call
  generalize c.perform call = c' at hacts ⊢
  cases hacts with
  | none | seen => exact Relates.refl .refl c
  | role hr h => exact .setRole .refl hr h
  | all hroles hg => exact .map hroles hg

theorem underlay_perform (c : Controller) {call : ControllerCall}
    (h : ∀ next reason, call ≠ .setUnderlay next reason) :
    (c.perform call).underlay = c.underlay := by
  have hacts := c.acts_perform call
  generalize c.perform call = c' at hacts ⊢
  cases hacts with
  | none | role => rfl
  | seen hcall => exact absurd hcall (h _ _)
  | all _ _ _ hu => exact hu.resolve_right fun ⟨next, reason, hcall⟩ => h next reason hcall

/-- Whatever a call changes is announced by a new revision. -/
theorem revision_perform (c : Controller) (call : ControllerCall) :
    (c.perform call).revision = c.revision + 1 ∨ (c.perform call).revision = c.revision ∧
      (c.perform call).roles = c.roles ∧
        identityEqual c.underlay (c.perform call).underlay = true := by
  have hacts := c.acts_perform call
  generalize c.perform call = c' at hacts ⊢
  cases hacts with
  | none | seen => exact .inr ⟨rfl, rfl, by simp [identityEqual]⟩
  | role => exact .inl rfl
  | all _ _ hrev => exact .inl hrev

/-- After any calls, newest first: where the revision has not moved, nothing has. -/
theorem revision_counts_changes (c : Controller) (calls : List ControllerCall) :
    let c' := calls.foldr (fun call c => c.perform call) c
    ∃ n ≤ calls.length, c'.revision = c.revision + .ofNat n ∧
      (n = 0 → c'.roles = c.roles ∧ identityEqual c.underlay c'.underlay = true) := by
  induction calls with
  | nil => exact ⟨0, le_rfl, by simp, fun _ => ⟨rfl, by simp [identityEqual]⟩⟩
  | cons call calls ih =>
    obtain ⟨n, hn, hrev, hsame⟩ := ih
    rcases revision_perform (calls.foldr (fun call c => c.perform call) c) call with
      h | ⟨h, hroles, hid⟩
    · exact ⟨n + 1, by simpa using hn, by simp [h, hrev, UInt64.add_assoc], by omega⟩
    · exact ⟨n, by simp; omega, h.trans hrev, fun h0 =>
        ⟨hroles.trans (hsame h0).1, by have := hsame h0; simp_all [identityEqual]⟩⟩

end Controller

section

variable {c : Controller} {id : String}

/-- A snapshot replaces the one before and leaves the intent. -/
theorem Controller.observedRole_keeps (epoch : UInt64) (snapshot : ToadSnapshot) (r : RoleRuntime) :
    (observedRole epoch snapshot r).desired = r.desired ∧
      (observedRole epoch snapshot r).toad = snapshot := by
  simp only [observedRole, apply_ite RoleRuntime.desired, apply_ite RoleRuntime.toad, ite_self,
    and_self]

theorem Controller.beginValidation_eq_some {token : ValidationToken}
    (h : (c.beginValidation id).1 = some token) : ∃ r, c.roles id = some r ∧
      c.canValidate r = true ∧ token = ⟨id, r.operation, r.toadGeneration, c.underlay.epoch⟩ := by
  unfold beginValidation at h
  cases hr : c.roles id with
  | none => simp [hr] at h
  | some r =>
    simp only [hr] at h
    split_ifs at h with hc
    exact ⟨r, rfl, hc, (Option.some.inj h).symm⟩

theorem lt_succ_of_ne_zero {n : UInt64} (h : n + 1 ≠ 0) : n < n + 1 := by
  rw [← UInt64.toNat_inj.ne] at h
  rw [UInt64.lt_iff_toNat_lt]
  have hmax := n.toNat_lt
  simp only [UInt64.toNat_add, UInt64.reduceToNat] at h ⊢
  omega

end

end Kikimora.Core

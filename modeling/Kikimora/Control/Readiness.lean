import Kikimora.Core.Ready
import Kikimora.Control.Reconciler

/-!
# Readiness and the selected-route surface

The product state of a role and its selected-route surface are kept by two
components under separate locks. Here they are put together: the product with its
recovery transactions, the flags of the selected-route manager, and the route
authority gate. Any step of one may come between two steps of the other.
-/

namespace Kikimora.Control

open Kikimora.Core Lib

-- === The flags of a role ===

/-- The steps of the selected-route manager that touch the flags of a role. -/
inductive SelectedMove
  | freeze (role : String)
  | unfreeze (role : String)
  | quarantine (role text : String)
  | completeStartupRestore (role : String)
  | clearQuarantine (role : String)
  /-- every other effect -/
  | other
  deriving DecidableEq, Repr

def SelectedMove.apply : SelectedMove → World → World
  | freeze role, w => ((Control.freeze role).run handle w).2
  | unfreeze role, w => ((Control.unfreeze role).run handle w).2
  | quarantine role text, w => ((failSelectedRouteIntegrity role text).run handle w).2
  | completeStartupRestore role, w => ((Control.completeStartupRestore role).run handle w).2
  | clearQuarantine role, w => ((Control.clearQuarantine role).run handle w).2
  | other, w => w

def SelectedRoleState.Unhindered (state : SelectedRoleState) : Prop :=
  state.frozen = false ∧ state.restorePending = false ∧ state.integrityQuarantined = false

/-- The moves that close the role. -/
inductive SelectedMove.Closes (role : String) : SelectedMove → Prop
  | freeze : SelectedMove.Closes role (.freeze role)
  | quarantine (text : String) : SelectedMove.Closes role (.quarantine role text)

def SelectedStep (m : SelectedMove) (w w' : World) : Prop :=
  ∀ role, w'.admission role = (m.apply w).admission role

-- === The two components side by side ===

/-- The product, the selected-route manager, the route authority gate, and the
    activations that are about to write Ready. -/
structure Surface where
  system : Core.System
  world : World
  authorityReady : Bool := false
  finishing : List String := []

/-- The gate is open, and the role is neither frozen nor restorePending nor
    quarantined. -/
def Surface.Open (s : Surface) (role : String) : Prop :=
  s.authorityReady = true ∧ (s.world.admission role).Unhindered

def Surface.ReadyOpen (managed : String → Bool) (s : Surface) : Prop :=
  ∀ role, managed role = true → s.system.controller.ReadyRole role → s.Open role

def nextStep (s : Core.System) (id : Nat) : Option (String × RecoveryStep) :=
  match s.runs id with
  | some ⟨role, _, _, .steps _ (step :: _)⟩ => some (role, step)
  | _ => none

def RecoveryState.unfinished (r : RecoveryState) : Bool :=
  r.step ≠ .idle || r.operation ≠ 0 || r.epoch ≠ 0 || r.attempt ≠ 0 || r.lastError ≠ ""

inductive SurfaceAction
  /-- a step of the product or of a recovery transaction -/
  | product (a : Core.Action)
  /-- the other writers of a recovery record: disconnect, managed recovery request,
      failure streak -/
  | setRecovery (role : String) (recovery : RecoveryState) (state : RoleState) (reason : String)
  /-- `finishRecovery` has read an unfinished record -/
  | finishRecovery (role : String)
  /-- `finishRecovery` writes -/
  | commitFinished (role : String)
  /-- an effect of the selected-route manager -/
  | selected (m : SelectedMove)
  /-- the recovery step of that name; `drained` when no request is in flight -/
  | freezeSelected (role : String) (drained : Bool)
  | unfreezeSelected (role : String)
  /-- the initial authority proof has succeeded -/
  | openAuthorityGate
  /-- the observer is lost -/
  | closeAuthorityGate

inductive SurfaceStep (managed : String → Bool) (s : Surface) : SurfaceAction → Surface → Prop
  | product {a : Core.Action} {sys : Core.System} (hs : s.system.step a = some sys)
      (hsurface : ∀ id role, a = .transaction id .driverStep → managed role = true →
        nextStep s.system id ≠ some (role, .freezeSelected) ∧
          nextStep s.system id ≠ some (role, .unfreezeSelected)) :
      SurfaceStep managed s (.product a) { s with system := sys }
  | setRecovery (role : String) (recovery : RecoveryState) (state : RoleState) (reason : String)
      (hstate : state ≠ .ready) :
      SurfaceStep managed s (.setRecovery role recovery state reason)
        { s with
          system := s.system.withController
            (s.system.controller.setRecovery role recovery state reason).2 }
  | finishRecovery {role : String} {r : RoleRuntime} (hr : s.system.controller.role role = some r)
      (hrecovery : RecoveryState.unfinished r.recovery = true) :
      SurfaceStep managed s (.finishRecovery role) { s with finishing := role :: s.finishing }
  | commitFinished {role : String} (h : role ∈ s.finishing) :
      SurfaceStep managed s (.commitFinished role)
        { s with
          system := s.system.withController
            (s.system.controller.setRecovery role {} .ready "recovery complete").2
          finishing := s.finishing.erase role }
  | selected {m : SelectedMove} {w : World} (hm : ∀ role, m ≠ .freeze role ∧ m ≠ .unfreeze role)
      (hw : SelectedStep m s.world w) : SurfaceStep managed s (.selected m) { s with world := w }
  | freezeSelected (id : Nat) {role : String} {sys : Core.System} {w : World}
      (hn : nextStep s.system id = some (role, .freezeSelected)) (hm : managed role = true)
      (hs : s.system.step (.transaction id .driverStep) = some sys)
      (hw : SelectedStep (.freeze role) s.world w) :
      SurfaceStep managed s (.freezeSelected role true) { s with system := sys, world := w }
  | freezeWaits (id : Nat) {role : String} {w : World}
      (hn : nextStep s.system id = some (role, .freezeSelected)) (hm : managed role = true)
      (hw : SelectedStep (.freeze role) s.world w) :
      SurfaceStep managed s (.freezeSelected role false) { s with world := w }
  | unfreezeSelected (id : Nat) {role : String} {sys : Core.System} {w : World}
      (hn : nextStep s.system id = some (role, .unfreezeSelected)) (hm : managed role = true)
      (hs : s.system.step (.transaction id .driverStep) = some sys)
      (hw : SelectedStep (.unfreeze role) s.world w) :
      SurfaceStep managed s (.unfreezeSelected role) { s with system := sys, world := w }
  | openAuthorityGate : SurfaceStep managed s .openAuthorityGate { s with authorityReady := true }
  | closeAuthorityGate :
      SurfaceStep managed s .closeAuthorityGate { s with authorityReady := false }

/-- The runs of one process. It starts with a fresh product, a closed gate and the
    flags that the startup restoration has left. -/
inductive SurfaceRun (managed : String → Bool) (R : Surface → SurfaceAction → Prop) : Surface → Prop
  | start (specs : List String) (w : World) :
      SurfaceRun managed R { system := { controller := .new specs }, world := w }
  | step {s s' : Surface} {a : SurfaceAction} (h : SurfaceRun managed R s) (ha : R s a)
      (hs : SurfaceStep managed s a s') : SurfaceRun managed R s'

/-- A role becomes Ready while its surface is open, and a surface is closed while
    no role behind it is Ready. -/
def Surface.Coordinated (managed : String → Bool) (s : Surface) : SurfaceAction → Prop
  | .product a => ∀ role, managed role = true → a.Readies s.system role → s.Open role
  | .commitFinished role =>
    managed role = true → (s.system.controller.roles role).isSome = true → s.Open role
  | .freezeSelected role _ => ¬ s.system.controller.ReadyRole role
  | .selected (.quarantine role _) =>
    managed role = true → ¬ s.system.controller.ReadyRole role
  | .closeAuthorityGate => ∀ role, managed role = true → ¬ s.system.controller.ReadyRole role
  | _ => True

section

variable {role : String}

theorem admission_setRole (w : World) (id : String) (state : SelectedRoleState) :
    (w.withMemory (w.memory.setRole id state)).admission role =
      if role = id then state.admission else w.admission role := by
  split_ifs with h
  · subst h
    exact congrArg SelectedRoleState.admission (w.memory.roleState_setRole _ _)
  · exact congrArg SelectedRoleState.admission (w.memory.roleState_setRole_of_ne h _)

theorem unhindered_setRole {w : World} (h : (w.admission role).Unhindered) {id : String}
    {state : SelectedRoleState} (hstate : role = id → state.Unhindered) :
    ((w.withMemory (w.memory.setRole id state)).admission role).Unhindered := by
  rw [admission_setRole]
  split_ifs with hid
  · exact hstate hid
  · exact h

theorem SelectedMove.frozen_of_closes {m : SelectedMove} (h : m.Closes role) (w : World) :
    ((m.apply w).admission role).frozen = true := by
  cases h
  all_goals
    exact congrArg SelectedRoleState.frozen ((admission_setRole w role _).trans (if_pos rfl))

theorem SelectedMove.unhindered_of_not_closes {m : SelectedMove} (hm : ¬ m.Closes role) {w : World}
    (h : (w.admission role).Unhindered) : ((m.apply w).admission role).Unhindered := by
  cases m with
  | freeze id => exact unhindered_setRole h fun hid => absurd (hid ▸ .freeze) hm
  | quarantine id text =>
    exact unhindered_setRole h fun hid => absurd (hid ▸ .quarantine text) hm
  | unfreeze id =>
    refine unhindered_setRole h fun hid => ?_
    subst hid
    exact ⟨rfl, h.2⟩
  | clearQuarantine id =>
    refine unhindered_setRole h fun hid => ?_
    subst hid
    exact ⟨h.1, h.2.1, rfl⟩
  | other => exact h
  | completeStartupRestore id =>
    simp only [apply, Control.completeStartupRestore, memory, Prog.perform, Prog.run, handle]
    cases hid : w.memory.roles id with
    | none => exact h
    | some state =>
      dsimp only
      split_ifs
      · refine unhindered_setRole h fun hrole => ?_
        subst hrole
        have hstate : w.memory.roleState role = state := by simp [Memory.roleState, hid]
        exact ⟨rfl, rfl, hstate ▸ h.2.2⟩
      · exact h

end

section Invariant

variable {managed : String → Bool} {s s' : Surface} {a : SurfaceAction} {role : String}
  {sys : Core.System} {w : World} {m : SelectedMove}

/-- A step of the product under which roles with an open surface become Ready. -/
theorem Surface.ReadyOpen.product {P : String → Prop} {finishing : List String}
    (h : s.ReadyOpen managed)
    (hready : Core.Controller.ReadyWithin P s.system.controller sys.controller)
    (hP : ∀ role, managed role = true → P role → s.Open role) :
    Surface.ReadyOpen managed { s with system := sys, finishing := finishing } :=
  fun role hm hr => (hready role hr).elim (h role hm) (hP role hm)

theorem Surface.ReadyOpen.selected (h : s.ReadyOpen managed) (hw : SelectedStep m s.world w)
    (hm : ∀ role, managed role = true → m.Closes role → ¬ s.system.controller.ReadyRole role)
    (hsys : sys.controller = s.system.controller) :
    Surface.ReadyOpen managed { s with system := sys, world := w } := by
  intro role hrole hready
  have hready' : s.system.controller.ReadyRole role := hsys ▸ hready
  obtain ⟨hgate, hflags⟩ := h role hrole hready'
  refine ⟨hgate, ?_⟩
  show (w.admission role).Unhindered
  rw [hw role]
  exact SelectedMove.unhindered_of_not_closes (fun hc => hm role hrole hc hready') hflags

theorem not_open_of_closes (hc : m.Closes role) (hw : SelectedStep m s.world w) :
    ¬ Surface.Open { s with system := sys, world := w } role := by
  rintro ⟨_, hfrozen, _⟩
  have hclosed := SelectedMove.frozen_of_closes hc s.world
  rw [← hw role] at hclosed
  exact absurd (hfrozen.symm.trans hclosed) Bool.false_ne_true

theorem readyOpen_freeze_iff (h : s.ReadyOpen managed) (hm : managed role = true)
    (hw : SelectedStep (.freeze role) s.world w) (hsys : sys.controller = s.system.controller) :
    Surface.ReadyOpen managed { s with system := sys, world := w } ↔
      ¬ s.system.controller.ReadyRole role := by
  constructor
  · intro hopen hready
    exact not_open_of_closes .freeze hw (hopen role hm (hsys.symm ▸ hready))
  intro hnot
  refine h.selected hw (fun id _ hc => ?_) hsys
  cases hc
  exact hnot

theorem SurfaceStep.readyOpen_iff (hs : SurfaceStep managed s a s') (h : s.ReadyOpen managed) :
    s'.ReadyOpen managed ↔ s.Coordinated managed a := by
  cases hs with
  | product hs _ =>
    exact ⟨fun hopen role hm hr => hopen role hm (Core.System.ready_of_readies hs hr),
      h.product (Core.System.readyWithin_step hs)⟩
  | setRecovery role recovery state reason hstate =>
    refine iff_of_true (h.product (Core.Controller.readyWithin_setRecovery _ _ _ _ _) ?_) trivial
    exact fun _ _ hP => absurd hP.1 hstate
  | finishRecovery => exact iff_of_true h trivial
  | commitFinished _ =>
    constructor
    · exact fun hopen hm hrole => hopen _ hm (Core.Controller.ready_setRecovery _ _ hrole)
    intro hc
    refine h.product (Core.Controller.readyWithin_setRecovery _ _ _ _ _) ?_
    rintro _ hm ⟨_, rfl, hrole⟩
    exact hc hm hrole
  | @selected m w hm hw =>
    cases m with
    | freeze role => exact absurd rfl (hm role).1
    | quarantine role text =>
      constructor
      · exact fun hopen hrole hready => not_open_of_closes (.quarantine text) hw
          (hopen role hrole hready)
      intro hc
      refine h.selected hw (fun id hid hcl => ?_) rfl
      cases hcl
      exact hc hid
    | _ => exact iff_of_true (h.selected hw (nofun) rfl) trivial
  | freezeSelected _ _ hm hs hw =>
    exact readyOpen_freeze_iff h hm hw (Core.System.controller_driverStep hs)
  | freezeWaits _ _ hm hw => exact readyOpen_freeze_iff h hm hw rfl
  | unfreezeSelected _ _ _ hs hw =>
    exact iff_of_true (h.selected hw (nofun)
      (Core.System.controller_driverStep hs)) trivial
  | openAuthorityGate => exact iff_of_true (fun role hm hr => ⟨rfl, (h role hm hr).2⟩) trivial
  | closeAuthorityGate =>
    exact ⟨fun hopen role hm hr => absurd (hopen role hm hr).1 Bool.false_ne_true,
      fun hc role hm hr => absurd hr (hc role hm)⟩

/-- In a coordinated run a marker-managed role is Ready only while its surface is
    open. -/
theorem SurfaceRun.readyOpen (h : SurfaceRun managed (Surface.Coordinated managed) s) :
    s.ReadyOpen managed := by
  induction h with
  | start specs w =>
    rintro role _ ⟨r, hr, hready⟩
    simp only [Core.Controller.new] at hr
    split_ifs at hr
    cases hr
    cases hready
  | step _ ha hs ih => exact (hs.readyOpen_iff ih).mpr ha

end Invariant

section Samples

variable {managed : String → Bool} {R R' : Surface → SurfaceAction → Prop} {s : Surface}

theorem SurfaceRun.mono (h : SurfaceRun managed R s) (hR : ∀ s a, R s a → R' s a) :
    SurfaceRun managed R' s := by
  induction h with
  | start specs w => exact .start specs w
  | step _ ha hs ih => exact ih.step (hR _ _ ha) hs

theorem SurfaceRun.call {c : ControllerCall} {sys : Core.System} (h : SurfaceRun managed R s)
    (ha : R s (.product (.call c))) (hs : s.system.stepCall c = some sys) :
    SurfaceRun managed R { s with system := sys } :=
  h.step ha (.product hs nofun)

def rebindToad : ToadSnapshot :=
  { generation := 1, state := "ready", routeReady := true, ifIndex := 7,
    capabilities := { validate := true, rebind := true } }

def connectedSystem : Core.System :=
  { controller :=
      let c := ((Core.Controller.new ["work"]).setRoleDesired "work" true).2.setUnderlay
        sampleUnderlay .unspecified
      (c.observeToad "work" rebindToad).2 }

def sampleToken : ValidationToken := ⟨"work", 1, 1, 1⟩

def validatingSystem : Core.System :=
  { controller := (connectedSystem.controller.beginValidation "work").2, issued := [sampleToken] }

def validatedSystem : Core.System :=
  validatingSystem.withController
    (validatingSystem.controller.completeValidation sampleToken sampleHealthy).2

theorem surfaceRun_validating (w : World) :
    SurfaceRun managed (Surface.Coordinated managed)
      { system := validatingSystem, world := w, authorityReady := true } := by
  have h0 : SurfaceRun managed (Surface.Coordinated managed) _ := .start ["work"] w
  have h1 := h0.step (a := .openAuthorityGate) trivial .openAuthorityGate
  have h2 := h1.call (c := .setRoleDesired "work" true) (fun _ _ h => h.elim) rfl
  have h3 := h2.call (c := .setUnderlay sampleUnderlay .unspecified) (fun _ _ h => h.elim) rfl
  have h4 := h3.call (c := .observeToad "work" rebindToad) (fun _ _ h => h.elim) rfl
  exact h4.call (c := .beginValidation "work") (fun _ _ h => h.elim) rfl

theorem surfaceRun_validated (w : World) (hcoord : ∀ s a, Surface.Coordinated managed s a → R s a)
    (hR : R { system := validatingSystem, world := w, authorityReady := true }
      (.product (.call (.completeValidation sampleToken sampleHealthy)))) :
    SurfaceRun managed R { system := validatedSystem, world := w, authorityReady := true } :=
  ((surfaceRun_validating w).mono hcoord).call hR rfl

theorem readyRole_validated : validatedSystem.controller.ReadyRole "work" :=
  ⟨_, rfl, by decide⟩

/-- A role is validated behind an open gate. -/
theorem SurfaceRun.readyOpen_validated :
    Surface.ReadyOpen (fun _ => true)
      { system := validatedSystem, world := openWorld [] [] 7, authorityReady := true } ∧
    validatedSystem.controller.ReadyRole "work" := by
  refine ⟨SurfaceRun.readyOpen (surfaceRun_validated _ (fun _ _ h => h) fun role _ _ => ?_),
    readyRole_validated⟩
  exact ⟨rfl, rfl, rfl, rfl⟩

theorem SurfaceRun.drive (id : Nat) {role : String} {step : RecoveryStep} {sys : Core.System}
    (h : SurfaceRun managed (fun _ _ => True) s) (hn : nextStep s.system id = some (role, step))
    (hstep : step ≠ .freezeSelected ∧ step ≠ .unfreezeSelected)
    (hs : s.system.step (.transaction id .driverStep) = some sys) :
    SurfaceRun managed (fun _ _ => True) { s with system := sys } := by
  refine h.step (a := .product (.transaction id .driverStep)) trivial (.product hs ?_)
  rintro _ role' ⟨⟩ _
  rw [hn]
  exact ⟨fun h => hstep.1 (congrArg Prod.snd (Option.some.inj h)),
    fun h => hstep.2 (congrArg Prod.snd (Option.some.inj h))⟩

def movedUnderlay : Underlay := { ipv4 := some ⟨4, 3, "wlan0", .zero, .zero, 1500, 254, 100⟩ }

/-- The managed recovery of a validated role, up to its validate step: the role is
    Ready and frozen. -/
theorem surfaceRun_recovering :
    ∃ s, SurfaceRun (fun _ => true) (fun _ _ => True) s ∧
      s.system.controller.ReadyRole "work" ∧ (s.world.admission "work").frozen = true := by
  have h1 : SurfaceRun (fun _ => true) (fun _ _ => True) _ :=
    surfaceRun_validated (openWorld [] [] 7) (fun _ _ _ => trivial) trivial
  have h2 := h1.call (c := .setUnderlay movedUnderlay .unspecified) trivial rfl
  have h3 := h2.step (a := .product (.recover 0 "work" 1 2)) trivial
    (.product rfl nofun)
  have h4 := h3.step (a := .product (.transaction 0 (.plan true))) trivial
    (.product rfl nofun)
  have h5 := h4.step (a := .freezeSelected "work" true) trivial
    (.freezeSelected 0 rfl rfl rfl fun _ => rfl)
  -- observe, park, withdraw both, quiesce, apply the endpoint, rebind
  have h6 := h5.drive 0 rfl (by decide) rfl
  have h7 := h6.drive 0 rfl (by decide) rfl
  have h8 := h7.drive 0 rfl (by decide) rfl
  have h9 := h8.drive 0 rfl (by decide) rfl
  have h10 := h9.drive 0 rfl (by decide) rfl
  have h11 := h10.drive 0 rfl (by decide) rfl
  have h12 := h11.drive 0 rfl (by decide) rfl
  have h13 := h12.step (a := .product (.transaction 0 .validateBegin)) trivial
    (.product rfl nofun)
  have h14 :=
    h13.step (a := .product (.transaction 0 (.validateComplete sampleHealthy false))) trivial
    (.product rfl nofun)
  exact ⟨_, h14, ⟨_, rfl, by decide⟩, rfl⟩

def restoredWorld : World :=
  { openWorld [] [] 7 with
    memory :=
      { roles := fun id =>
          if id = "work" then some { frozen := true, restorePending := true, routeGeneration := 2 }
          else none } }

/-- A role is Ready in the middle of a managed recovery, during the startup
    restoration, after the loss of the observer, and under a quarantine. -/
theorem ready_while_closed :
    (∃ s, SurfaceRun (fun _ => true) (fun _ _ => True) s ∧
      s.system.controller.ReadyRole "work" ∧ (s.world.admission "work").frozen = true) ∧
    (∃ s, SurfaceRun (fun _ => true) (fun _ _ => True) s ∧
      s.system.controller.ReadyRole "work" ∧ (s.world.admission "work").restorePending = true) ∧
    (∃ s, SurfaceRun (fun _ => true) (fun _ _ => True) s ∧
      s.system.controller.ReadyRole "work" ∧ s.authorityReady = false) ∧
    (∃ s, SurfaceRun (fun _ => true) (fun _ _ => True) s ∧
      s.system.controller.ReadyRole "work" ∧
      (s.world.admission "work").integrityQuarantined = true) := by
  have hvalidated (w : World) : SurfaceRun (fun _ => true) (fun _ _ => True)
      { system := validatedSystem, world := w, authorityReady := true } :=
    surfaceRun_validated w (fun _ _ _ => trivial) trivial
  refine ⟨surfaceRun_recovering, ⟨_, hvalidated restoredWorld, readyRole_validated, rfl⟩, ?_, ?_⟩
  · have hlost := (hvalidated (openWorld [] [] 7)).step (a := .closeAuthorityGate) trivial
      .closeAuthorityGate
    exact ⟨_, hlost, readyRole_validated, rfl⟩
  have hquarantined := (hvalidated (openWorld [] [] 7)).step
    (a := .selected (.quarantine "work" "foreign row")) trivial
    (.selected (fun _ => ⟨nofun, nofun⟩) fun _ => rfl)
  exact ⟨_, hquarantined, readyRole_validated, rfl⟩

end Samples

end Kikimora.Control

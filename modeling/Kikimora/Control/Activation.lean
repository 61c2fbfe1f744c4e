import Kikimora.Control.FaultFree
import Kikimora.Control.ParkTracking

/-!
# The activation of a replacement Toad

A recovery that replaces the whole Toad process ends in the middle; the
activation of the ready replacement has to finish it. The activation is run over
services that answer as they like and leave the selected routes alone.
-/

namespace Kikimora.Control

open Net Routing Platform Kikimora.Core Lib
open RecoveryDriver

-- === Services ===

/-- The calls that leave the process. -/
def RecoveryCall.outside ⦃β : Type⦄ : RecoveryCall β → Bool
  | .memory _ | .capture _ _ | .product _ | .observe _ | .selected _ => false
  | _ => true

def RecoveryCall.isPublish ⦃β : Type⦄ : RecoveryCall β → Bool
  | .leshyPublish _ _ => true
  | _ => false

/-- What the services answer, by the call and the state. -/
abbrev DriverAnswers := ∀ ⦃β : Type⦄, RecoveryCall β → DriverSystem → β

def answeredHandle (d : RecoveryDriver) (a : DriverAnswers) ⦃β : Type⦄ (c : RecoveryCall β)
    (s : DriverSystem) : β × DriverSystem :=
  if c.outside then (a c s, s) else recoveryHandle d [] {} c s

-- === The hand-back ===

def Withheld (w : World) (e : SelectedRoute) : Prop :=
  ∃ p, e.park = some p ∧ p.state = .active ∧ p.owned = some p.desired ∧
    .park p.desired ∈ w.kernel e.pfx ∧ ∀ i, .route i ∉ w.kernel e.pfx

/-- A managed recovery has ended after the withdrawal with the launch of a
    replacement Toad, and the replacement is ready and healthy. -/
structure HandBackPending (d : RecoveryDriver) (role : String) (r : RoleEntry) (w : World) :
    Prop where
  wellFormed : w.registry.WellFormed
  frozen : (w.memory.roleState role).frozen = true
  registered : ∃ pfx e, w.registry.lookup ⟨role, pfx⟩ = some e
  withheld : ∀ pfx e, w.registry.lookup ⟨role, pfx⟩ = some e → Withheld w e
  enabled : d.enabled = true
  managed : d.managedSelected role = true
  entry : d.roles role = some r
  ifIndex_pos : 0 < r.ifIndex
  ready : ∃ runtime, w.runtime role = some runtime ∧
    runtime.parking = parkingState (w.registry.snapshot role) ∧
    runtime.toad.routeReady = true ∧ runtime.toad.ifIndex = r.ifIndex ∧
    runtime.validation.healthy = true ∧ runtime.validation.families.ipv4.ready = true ∧
    runtime.validation.families.ipv6.ready = true

def RowsRestored (role : String) (r : RoleEntry) (w : World) (k : Kernel) : Prop :=
  ∀ pfx e, w.registry.lookup ⟨role, pfx⟩ = some e →
    ∃ i, w.platform.normalizeSelectedRoute ⟨role, pfx, r.ifIndex, .zero⟩ = .ok i ∧ .route i ∈ k pfx

def activated (d : RecoveryDriver) (a : DriverAnswers) (role : String) (s : DriverSystem) :
    Except DriverError Unit × DriverSystem :=
  (d.activateReadyRole role).run (answeredHandle d a) s

/-- One activation completes the recovery: it returns nil, and then every record
    has its row, no record has a park, the role is open, and every publication
    came after the rows were back. -/
structure HandsBack (d : RecoveryDriver) (a : DriverAnswers) (role : String) (r : RoleEntry)
    (s : DriverSystem) : Prop where
  ok : (activated d a role s).1 = .ok ()
  restored : RowsRestored role r s.world (activated d a role s).2.world.kernel
  unparked : ∀ pfx e, (activated d a role s).2.world.registry.lookup ⟨role, pfx⟩ = some e →
    e.park = none
  unfrozen : ((activated d a role s).2.world.memory.roleState role).frozen = false
  published : ∀ ev ∈ (d.activateReadyRole role).events (answeredHandle d a) s,
    ev.call.isPublish = true → RowsRestored role r s.world ev.before.world.kernel

/-- The routes are as before, and so is the gate of the role. -/
structure Unmoved (role : String) (w w' : World) : Prop where
  registry : w'.registry = w.registry
  kernel : w'.kernel = w.kernel
  frozen : (w'.memory.roleState role).frozen = (w.memory.roleState role).frozen

section Activation

variable {cfg : Config} {d : RecoveryDriver} {a : DriverAnswers} {role : String} {r : RoleEntry}
  {w w' : World} {e : SelectedRoute} {s : DriverSystem}

theorem parkingState_active {entries : List SelectedRoute} (hne : entries ≠ [])
    (h : ∀ e ∈ entries, Withheld w e) : (parkingState entries).active = true := by
  have hkeep : (entries.filter fun entry => entry.park.any fun park =>
      park.owned.isSome && (park.state = .active || park.state = .retiring)) = entries := by
    refine List.filter_eq_self.mpr fun e he => ?_
    obtain ⟨p, hp, hs, ho, _⟩ := h e he
    simp [hp, hs, ho]
  have hproven : entries.all (fun entry => entry.state = .retiring || (provenPark entry).isSome) =
      true := by
    refine List.all_eq_true.mpr fun e he => ?_
    obtain ⟨p, hp, hs, ho, _⟩ := h e he
    simp [provenPark, hp, hs, ho]
  have hnil : entries.isEmpty = false := by simpa using hne
  simp only [parkingState, hkeep, hproven, hnil, List.length_map, decide_true, Bool.and_true,
    Bool.not_false]

theorem scanBeforeUnpark_of_no_route {pfx : Prefix} {desired : SelectedRouteIdentity}
    {p : SelectedParkIdentity} {rows : List SelectedKernelRow} {seen found : Bool}
    (hno : ∀ i, .route i ∉ rows) (h : scanBeforeUnpark pfx desired p rows seen = .ok found) :
    found = seen := by
  induction rows with
  | nil =>
    cases h
    rfl
  | cons row rows ih =>
    have hno' : ∀ i, .route i ∉ rows := fun i hi => hno i (List.mem_cons_of_mem row hi)
    cases row with
    | route i => exact absurd List.mem_cons_self (hno i)
    | foreign text => cases h
    | park i =>
      unfold scanBeforeUnpark at h
      split_ifs at h
      exact ih hno' h

/-- The park of a withheld record is not proven, whatever the record's state. -/
theorem runs_retireProvenPark_withheld {p : SelectedPark} (hpark : .park p.desired ∈ w.kernel e.pfx)
    (hno : ∀ i, .route i ∉ w.kernel e.pfx) :
    (retireProvenPark cfg role e p).Safe clean (fun _ _ => False) (fun _ w' => w' = w) w := by
  unfold retireProvenPark
  split_ifs
  · exact ⟨trivial, rfl⟩
  · exact ⟨trivial, rfl⟩
  refine .step (runs_reads (b := true) (by simp [RouteCall.plan, observeManagedPark, hpark])
    ?_)
  refine .step (.step (runs_reads (b := w.kernel) rfl ?_))
  refine .step (.ofExcept trivial (fun found hfound => ?_) fun _ _ => rfl)
  rw [scanBeforeUnpark_of_no_route hno hfound]
  exact ⟨trivial, rfl⟩

/-- The observation of withheld records changes nothing and reports that the
    routes are still parked. -/
theorem runs_observeRestoration_withheld (hw : w.registry.WellFormed)
    (hreg : ∃ pfx e, w.registry.lookup ⟨role, pfx⟩ = some e)
    (h : ∀ pfx e, w.registry.lookup ⟨role, pfx⟩ = some e → Withheld w e) :
    (observeRestoration cfg role).Safe clean (fun _ _ => False) (fun _ w' => Agrees w w') w := by
  have hrefl : Agrees w w := ⟨rfl, rfl, rfl, rfl, fun _ => rfl⟩
  have hmem : ∀ e ∈ w.registry.snapshot role, Withheld w e := fun e he =>
    h e.pfx e (hw.mem_snapshot_iff.mp he)
  unfold observeRestoration
  split_ifs
  · exact ⟨trivial, hrefl⟩
  refine .step (runs_roleState fun w1 h1 => ?_)
  refine .step (runs_read ?_)
  rw [show w1.memory.registry = w.registry from h1.registry]
  refine Prog.Safe.bind (Q := fun _ w' => Agrees w w') ?_ fun _ w2 h2 => ?_
  · refine (Prog.Safe.forEach (fun xs w' => (∀ e ∈ xs, Withheld w e) ∧ Agrees w w')
      (fun _ _ => trivial) (fun e xs w' hinv => ?_) _ ⟨hmem, h1⟩).mono (fun _ _ hs => hs.2)
      fun _ _ hx => hx
    obtain ⟨hall, hagree⟩ := hinv
    rw [List.forall_mem_cons] at hall
    obtain ⟨⟨p, hp, hs, _, hrow, hno⟩, hrest⟩ := hall
    simp only [observeRestorationOne, hp, hs]
    rw [← hagree.kernel] at hrow hno
    refine .tryCatch ((runs_retireProvenPark_withheld hrow hno).mono
      (fun _ _ hf => hf.elim) fun _ _ hx => hx) ?_
    rintro err _ rfl
    split_ifs
    · exact ⟨trivial, hrest, hagree⟩
    · exact ⟨trivial, hagree⟩
  · refine .step (runs_read ?_)
    obtain ⟨pfx, e, hl⟩ := hreg
    obtain ⟨p, hp, _⟩ := h pfx e hl
    have hany : ((w2.registry.snapshot role).any fun e => e.park.isSome) = true := by
      rw [h2.registry]
      have hpfx : e.pfx = pfx := hw.pfx_eq hl
      exact List.any_eq_true.mpr ⟨e, hw.mem_snapshot_iff.mpr (hpfx ▸ hl), by simp [hp]⟩
    rw [if_pos hany]
    exact ⟨trivial, h2⟩

-- === The driver's steps ===

theorem unmoved_aside ⦃β : Type⦄ {c : RecoveryCall β} (hc : c.Aside)
    (hs : Unmoved role w s.world) : Unmoved role w (answeredHandle d a c s).2.world := by
  cases c with
  | capture role baseline | selected p | apply role ops => exact hc.elim
  | product f => exact ⟨hs.registry, hs.kernel, hs.frozen⟩
  | _ => exact hs

/-- The programs that call neither the selected-route manager nor the executor leave
    the routes. -/
theorem unmoved_of_aside {α : Type} {p : RecoveryM α} (hp : p.Calls RecoveryCall.Aside)
    (hs : Unmoved role w s.world) :
    p.Upholds (.ofHandler (answeredHandle d a)) (fun s' => Unmoved role w s'.world) s := by
  refine hp.safe (fun _ _ => trivial) (fun _ c s b s' hc hs hstep => ⟨trivial, ?_⟩) hs
  obtain ⟨-, rfl⟩ := hstep
  exact unmoved_aside hc hs

theorem label_unmoved {p : RecoveryM Unit} {label : String} (hp : p.Calls RecoveryCall.Aside)
    (hs : Unmoved role w s.world) : (labelled label p).Upholds (.ofHandler (answeredHandle d a))
      (fun s' => Unmoved role w s'.world) s :=
  unmoved_of_aside (.tryCatch hp fun _ => trivial) hs

theorem observeRoutes_aside (hmanaged : d.managedSelected role = true) :
    (d.observeRoutes role).Calls RecoveryCall.Aside := by
  rw [observeRoutes, hmanaged]
  trivial

theorem applyEndpoint_aside : (d.applyEndpoint role).Calls RecoveryCall.Aside := by
  unfold applyEndpoint
  split_ifs
  · trivial
  refine .bind (role_aside d role) fun ⟨r, product⟩ => ?_
  dsimp only
  split_ifs
  · trivial
  · trivial
  refine .bind (.perform trivial) fun _ => .bind (.ofExcept _) fun _ => ?_
  split_ifs
  · trivial
  · exact .bind (.ofExcept _) fun _ => .bind (service_aside trivial) fun _ => .perform trivial

theorem publish_aside (hmanaged : d.managedSelected role = true) :
    (d.publish role).Calls RecoveryCall.Aside := by
  unfold publish
  split_ifs
  · trivial
  refine .bind (role_aside d role) fun ⟨r, product⟩ => ?_
  dsimp only
  split_ifs
  · trivial
  exact .bind trivial fun _ => .bind (service_aside trivial) fun _ => .bind (.perform trivial)
    fun _ => .bind (.perform trivial) fun _ => .perform trivial

theorem resyncLeshy_aside : (d.resyncLeshy role).Calls RecoveryCall.Aside := by
  unfold resyncLeshy
  split_ifs
  · trivial
  refine .bind (role_aside d role) fun ⟨r, product⟩ => ?_
  dsimp only
  split_ifs
  · trivial
  · exact .bind (service_aside trivial) fun _ => captureOwnedDelta_aside d role r

/-- `ObserveRestoration` fails at the withheld records. -/
theorem observeRestoration_fails (h : HandBackPending d role r w) (hs : Unmoved role w s.world) :
    (d.observeRestoration role).Safe (.ofHandler (answeredHandle d a)) (fun _ _ => False)
      (fun _ s' => Unmoved role w s'.world) s := by
  rw [RecoveryDriver.observeRestoration, if_pos h.managed]
  have hobserve := @runs_observeRestoration_withheld d.selectedRoutes role s.world
    (hs.registry ▸ h.wellFormed) (hs.registry ▸ h.registered) fun pfx e hl => by
      unfold Withheld
      rw [hs.kernel]
      exact h.withheld pfx e (hs.registry ▸ hl)
  rcases hobserve.ofHandler with ⟨_, _, hf⟩ | ⟨err, herr, hagree⟩
  · exact hf.elim
  refine .step (.perform trivial ?_)
  rintro _ s' ⟨rfl, rfl⟩
  refine ⟨trivial, trivial, ?_⟩
  simp only [answeredHandle, RecoveryCall.outside, Bool.false_eq_true, if_false, recoveryHandle,
    herr]
  -- the derived parking state is published whatever the answer was
  refine .bind (unmoved_of_aside (.perform trivial) ⟨hagree.registry.trans hs.registry,
    hagree.kernel.trans hs.kernel, (hagree.frozen role).trans hs.frozen⟩) fun _ s₁ hs₁ => ?_
  refine .bind (unmoved_of_aside (.perform trivial) hs₁) fun _ s₂ hs₂ => ?_
  exact .bind (unmoved_of_aside (.perform trivial) hs₂) fun _ s₃ hs₃ => ⟨trivial, hs₃⟩

/-- A replacement Toad that is ready and healthy is activated without `Restore`
    and `Unfreeze`: the activation fails, the records stay parked with their
    selected rows absent and the role stays frozen, whatever the services
    answer. The recovery is never handed back. -/
theorem activateReadyRole_stays_parked (h : HandBackPending d role r s.world) :
    ¬ HandsBack d a role r s ∧ (activated d a role s).1.isOk = false ∧
      Unmoved role s.world (activated d a role s).2.world := by
  have hstart : Unmoved role s.world s.world := ⟨rfl, rfl, rfl⟩
  obtain ⟨runtime, hruntime, hparking, _⟩ := h.ready
  have hactive : runtime.parking.active = true := by
    rw [hparking]
    refine parkingState_active (w := s.world) ?_ fun e he =>
      h.withheld e.pfx e (h.wellFormed.mem_snapshot_iff.mp he)
    obtain ⟨pfx, e, hl⟩ := h.registered
    have hpfx : e.pfx = pfx := h.wellFormed.pfx_eq hl
    exact List.ne_nil_of_mem (h.wellFormed.mem_snapshot_iff.mpr (hpfx ▸ hl))
  have hrun : (d.activateReadyRole role).Safe (.ofHandler (answeredHandle d a)) (fun _ _ => False)
      (fun _ s' => Unmoved role s.world s'.world) s := by
    rw [activateReadyRole, h.enabled]
    refine .step (.perform trivial ?_)
    rintro _ _ ⟨rfl, rfl⟩
    refine ⟨trivial, trivial, ?_⟩
    simp only [answeredHandle, RecoveryCall.outside, Bool.false_eq_true, if_false, recoveryHandle,
      hruntime, hactive, Bool.not_true, Bool.and_false]
    refine .bind (label_unmoved (observeRoutes_aside h.managed) hstart) fun _ s₁ hs₁ => ?_
    refine .bind (label_unmoved applyEndpoint_aside hs₁) fun _ s₂ hs₂ => ?_
    refine .bind (label_unmoved (publish_aside h.managed) hs₂) fun _ s₃ hs₃ => ?_
    refine .bind (label_unmoved resyncLeshy_aside hs₃) fun _ s₄ hs₄ => ?_
    exact .bind (.tryCatch (observeRestoration_fails h hs₄) fun _ _ hx => ⟨trivial, hx⟩)
      fun _ _ hf => hf.elim
  rcases hrun.ofHandler with ⟨_, _, hf⟩ | ⟨err, herr, hend⟩
  · exact hf.elim
  refine ⟨fun hback => ?_, by rw [activated, herr]; rfl, hend⟩
  have hok := hback.ok
  rw [activated, herr] at hok
  cases hok

end Activation

def withheldOps : List RegistryOp := parkedOps [.markParkApplying, .markParkActive samplePark]

/-- The sample driver with a managed role, its replacement on interface 8. -/
def replacedDriver : RecoveryDriver :=
  { endpointDriver true with
    roles := fun name => if name = "work" then some { tunEntry with ifIndex := 8 } else none }

/-- The services without faults. -/
def faultlessAnswers : DriverAnswers := fun _ c s =>
  (recoveryHandle replacedDriver [] sampleEndpoint c s).1

def withheldSystem : DriverSystem where
  world :=
    { sampleWorld withheldOps [.park samplePark] 8 with
      runtime := fun id => if id = "work" then some { sampleRuntime 8 with
        validation := { healthy := true, families := ⟨⟨true, true, ""⟩, ⟨true, true, ""⟩⟩ }
        parking := parkingState ((runOps withheldOps .empty).snapshot "work") } else none }

theorem handBackPending_withheldSystem :
    HandBackPending replacedDriver "work" { tunEntry with ifIndex := 8 } withheldSystem.world := by
  have hw : (runOps withheldOps .empty).WellFormed :=
    wellFormed_run withheldOps MemorySelectedRegistry.wellFormed_empty
  have hall : ∀ e ∈ (runOps withheldOps .empty).snapshot "work",
      e.park = some ⟨.active, samplePark, some samplePark, false⟩ ∧ e.pfx = samplePrefix := by
    decide +kernel
  refine ⟨hw, rfl, ⟨samplePrefix, _, rfl⟩, fun pfx e hl => ?_, rfl, rfl, rfl, by decide,
    _, rfl, rfl, rfl, rfl, rfl, rfl, rfl⟩
  have hpfx : e.pfx = pfx := hw.pfx_eq hl
  obtain ⟨hp, hpfx'⟩ := hall e (hw.mem_snapshot_iff.mpr (hpfx ▸ hl))
  refine ⟨_, hp, rfl, rfl, ?_, ?_⟩
  · simp [withheldSystem, sampleWorld, hpfx']
  · simp [withheldSystem, sampleWorld, hpfx']

theorem activateReadyRole_stays_parked_sample :
    ¬ HandsBack replacedDriver faultlessAnswers "work" { tunEntry with ifIndex := 8 }
      withheldSystem :=
  (activateReadyRole_stays_parked handBackPending_withheldSystem).1

/-- The replacement on interface 8 is published while the park is the only row,
    the activation fails, and the role stays frozen behind the park. -/
theorem replacement_stays_frozen :
    let run := activated replacedDriver faultlessAnswers "work" withheldSystem
    HandBackPending replacedDriver "work" { tunEntry with ifIndex := 8 } withheldSystem.world ∧
      run.1.isOk = false ∧
      (run.2.world.memory.roleState "work").frozen = true ∧
      run.2.world.kernel samplePrefix = [.park samplePark] ∧
      (((replacedDriver.activateReadyRole "work").events
        (answeredHandle replacedDriver faultlessAnswers) withheldSystem).filter
          fun ev => ev.call.isPublish).map (fun ev => ev.before.world.kernel samplePrefix) =
        [[.park samplePark]] :=
  ⟨handBackPending_withheldSystem, by decide +kernel, by decide +kernel, by decide +kernel,
    by decide +kernel⟩

end Kikimora.Control

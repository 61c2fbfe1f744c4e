import Kikimora.Control.Release

/-!
# The parks of a legacy role

A legacy role keeps its parks in the memory of the parking manager and in the
ownership checkpoint. The kernel, the memory and the checkpoint are written one
after the other, and a transaction may fail in its middle.
-/

namespace Kikimora.Control

open Net Routing Platform Kikimora.Core Lib
open HostState
open RecoveryDriver

-- === Runs ===

inductive ParkAction
  | park
  | observeRestoration
  | releaseResources
  deriving DecidableEq, Repr

def ParkAction.program (d : RecoveryDriver) (role : String) : ParkAction → RecoveryM Unit
  | park => d.park role
  | observeRestoration => d.observeRestoration role
  | releaseResources => d.releaseResources role

abbrev RecoveryTrace := List (Event RecoveryCall DriverSystem)

/-- The role has no managed selected routes, and the driver has a routing executor. -/
structure LegacyWired (role : String) (d : RecoveryDriver) : Prop where
  legacy : d.managedSelected role = false
  executor : d.executor = true

/-- The runs of a role that starts without parks, with a condition on every step and
    on every restart of the core. A step ends, whether it fails or not. Every step has a
    driver of its own, since the underlay and the entries of the roles change from one
    to the next; between steps Leshy edits the forwarding rows. -/
inductive LegacyParkRun (role : String)
    (R : ParkAction → DriverSystem → RecoveryTrace → Prop) (C : DriverSystem → Prop) :
    DriverSystem → Prop
  | start {s : DriverSystem} (h : s.installed role = []) : LegacyParkRun role R C s
  | leshy {s : DriverSystem} {k : Kernel} (hrun : LegacyParkRun role R C s)
      (h : LeshyEdits s.world.kernel k) :
      LegacyParkRun role R C { s with world := s.world.withKernel k }
  | restart {s : DriverSystem} (hrun : LegacyParkRun role R C s) (hC : C s) :
      LegacyParkRun role R C { s with memory := {} }
  | step {d : RecoveryDriver} {s s' : DriverSystem} {a : ParkAction} {trace : RecoveryTrace}
      {o : Outcome DriverError Unit} (hrun : LegacyParkRun role R C s) (hd : LegacyWired role d)
      (hR : R a s trace) (he : Exec (RecoveryStep d) (a.program d role) s trace o s')
      (ho : o ≠ .crashed) : LegacyParkRun role R C s'

def ParkThere (role : String) (s : DriverSystem) (pfx : Prefix) : Prop :=
  pfx ∈ s.installed role ∧ .park legacyPark ∈ s.world.kernel pfx

/-- The checkpoint of the role names a park at the prefix, so that it is listed once
    the checkpoint is restored. -/
def CheckpointNames (role : String) (s : DriverSystem) (pfx : Prefix) : Prop :=
  ∃ c, s.files role = .found c ∧ c.role = role ∧ pfx ∈ c.parked.map OwnedRoute.pfx

def ParksListed (role : String) (s : DriverSystem) : Prop :=
  ∀ pfx, ParkThere role s pfx → pfx ∈ s.memory.parks role ∨ CheckpointNames role s pfx

def Confirmed (d : RecoveryDriver) (s : DriverSystem) (o : OwnedRoute) : Prop :=
  ∃ row, s.host.HasRow d.describe row ∧ row.kind = .route ∧ row.table ≠ endpointTable ∧
    row.ifIndex = o.ifIndex ∧ row.protocol = staticProtocol ∧ row.pfx = some o.pfx

def HasPark (d : RecoveryDriver) (s : DriverSystem) (pfx : Prefix) : Prop :=
  ∃ row ∈ s.world.kernel pfx, takesParkMetric d.describe pfx row = true ∧
    (mainRow d.describe pfx row).kind ≠ .route

def OwnedParked (d : RecoveryDriver) (role : String) (s : DriverSystem) : Prop :=
  ∀ o ∈ s.memory.ownership role, o.role = role → 0 < o.ifIndex → isHostPrefix o.pfx = true →
    Confirmed d s o → HasPark d s o.pfx

-- === What steps and restarts need ===

/-- A transaction that fails has installed no park, and has left none that it was to
    delete. -/
def FailsClean (ev : Event RecoveryCall DriverSystem) : Prop :=
  ∀ role ops s e s', ev = ⟨.apply role ops, s, .error e, s'⟩ →
    (∀ pfx, .park pfx ∈ ops → s'.world.kernel = s.world.kernel ∧ s'.installed = s.installed) ∧
    ∀ pfx, .deletePark pfx ∈ ops → .park legacyPark ∉ s'.world.kernel pfx

/-- The state in which a role is parked: its older parks cover what it owns, if there
    are any, and no route has the metric of a park. -/
structure ParkReady (d : RecoveryDriver) (role : String) (s : DriverSystem) : Prop where
  older : (∀ parks, RecoveryDriver.RestoredParks d role s parks → parks = []) ∨
    ∀ o, RecoveryDriver.OwnedBefore role s o → Confirmed d s o → HasPark d s o.pfx
  metric : ∀ o, RecoveryDriver.OwnedBefore role s o → ∀ row ∈ s.world.kernel o.pfx,
    takesParkMetric d.describe o.pfx row = true → (mainRow d.describe o.pfx row).kind ≠ .route

/-- What a step needs: its failing transactions leave nothing behind, and a restoration
    is observed only when the checkpoint has been loaded. -/
def Careful (role : String) (a : ParkAction) (s : DriverSystem) (trace : RecoveryTrace) : Prop :=
  (∀ ev ∈ trace, FailsClean ev) ∧
    match a with
    | .observeRestoration =>
      s.memory.ownershipLoaded role = true ∨ ∀ pfx, ¬ ParkThere role s pfx
    | .park | .releaseResources => True

def Persisted (role : String) (s : DriverSystem) : Prop :=
  ∀ pfx ∈ s.memory.parks role, ParkThere role s pfx → CheckpointNames role s pfx

-- === The invariant ===

/-- The parks are listed by the memory, or by the checkpoint as long as that has not
    been loaded. -/
def ParksKept (role : String) (s : DriverSystem) : Prop :=
  ∀ pfx, ParkThere role s pfx →
    if s.memory.ownershipLoaded role then pfx ∈ s.memory.parks role
    else CheckpointNames role s pfx

def ParksLoaded (role : String) (s : DriverSystem) : Prop :=
  ∀ pfx, ParkThere role s pfx →
    s.memory.ownershipLoaded role = true ∧ pfx ∈ s.memory.parks role

/-- The checkpoint has been loaded as well. -/
structure ParksRestored (role : String) (s : DriverSystem) : Prop where
  parks : ParksLoaded role s
  loaded : s.memory.ownershipLoaded role = true

/-- The parks and what the memory has of them are as before. -/
structure SameParks (role : String) (s s' : DriverSystem) : Prop where
  installed : s'.installed role = s.installed role
  rows : ∀ pfx, .park legacyPark ∈ s'.world.kernel pfx ↔ .park legacyPark ∈ s.world.kernel pfx
  parks : s'.memory.parks role = s.memory.parks role
  loaded : s'.memory.ownershipLoaded role = s.memory.ownershipLoaded role

section

variable {role : String} {s s' : DriverSystem}

theorem ParksKept.listed (h : ParksKept role s) : ParksListed role s := by
  intro pfx hthere
  have hkept := h pfx hthere
  split at hkept
  · exact .inl hkept
  · exact .inr hkept

theorem ParksLoaded.kept (h : ParksLoaded role s) : ParksKept role s := by
  intro pfx hthere
  rw [(h pfx hthere).1, if_pos rfl]
  exact (h pfx hthere).2

theorem SameParks.there_iff (h : SameParks role s s') (pfx : Prefix) :
    ParkThere role s' pfx ↔ ParkThere role s pfx := by
  unfold ParkThere
  rw [h.installed, h.rows]

theorem ParksLoaded.same (h : ParksLoaded role s) (hs : SameParks role s s') :
    ParksLoaded role s' := by
  intro pfx hthere
  rw [hs.loaded, hs.parks]
  exact h pfx ((hs.there_iff pfx).mp hthere)

theorem ParksRestored.same (h : ParksRestored role s) (hs : SameParks role s s') :
    ParksRestored role s' :=
  ⟨h.parks.same hs, hs.loaded.trans h.loaded⟩

theorem ParksKept.same (h : ParksKept role s) (hs : SameParks role s s')
    (hfile : s'.files role = s.files role) : ParksKept role s' := by
  intro pfx hthere
  unfold CheckpointNames
  rw [hs.loaded, hs.parks, hfile]
  exact h pfx ((hs.there_iff pfx).mp hthere)

theorem ParksKept.loaded (h : ParksKept role s)
    (hs : s.memory.ownershipLoaded role = true ∨ ∀ pfx, ¬ ParkThere role s pfx) :
    ParksLoaded role s := by
  intro pfx hthere
  rcases hs with hloaded | hnone
  · have hkept := h pfx hthere
    rw [hloaded, if_pos rfl] at hkept
    exact ⟨hloaded, hkept⟩
  · exact absurd hthere (hnone pfx)

end

-- === Calls that leave the parks alone ===

def RecoveryCall.Aside ⦃β : Type⦄ : RecoveryCall β → Prop
  | .memory f => ∀ m, (f m).2.parks = m.parks ∧ (f m).2.ownershipLoaded = m.ownershipLoaded
  | .capture _ _ | .selected _ | .apply _ _ => False
  | _ => True

def tracking (d : RecoveryDriver) : Setting RecoveryCall DriverSystem where
  Step _ c s b s' := RecoveryStep d c s b s' ∧ FailsClean ⟨c, s, b, s'⟩
  Guarantee _ := True
  Crash _ := True

section

variable {d : RecoveryDriver} {role : String} {s s' : DriverSystem} {b : Except String Unit}
  {α : Type}

theorem sameParks_leshy {publications : String → Option String} (h : Leshy publications s b s') :
    SameParks role s s' := by
  obtain ⟨k, published, hedits, _, rfl⟩ := h
  exact ⟨rfl, fun pfx => hedits pfx (.park legacyPark) nofun, rfl, rfl⟩

theorem sameParks_reconciles {p : EndpointPolicy} {remove : Bool}
    (h : Reconciles d p remove s b s') : SameParks role s s' := by
  rcases h with ⟨_, _, rfl⟩ | ⟨ks, ops, _, hplan, done, host, hdone, hall, rfl⟩
  · exact ⟨rfl, fun _ => Iff.rfl, rfl, rfl⟩
  have hon : ∀ op ∈ done, op.OnEndpointTable := by
    rcases hdone with ⟨_, rfl⟩ | ⟨_, n, _, rfl⟩
    · exact plan_on_endpointTable hplan
    · exact fun op hop => plan_on_endpointTable hplan op (List.mem_of_mem_take hop)
  refine ⟨?_, fun pfx => ?_, rfl, rfl⟩
  · simp only [DriverSystem.performed, DriverSystem.parksAfter_of_none hon]
    by_cases hrole : role = p.role
    · rw [hrole, setAt_self]
    · exact setAt_of_ne _ _ hrole
  · change _ ∈ host.main pfx ↔ _
    rw [(performAll_outside hon hall).1]
    exact Iff.rfl

theorem sameParks_aside ⦃β : Type⦄ {c : RecoveryCall β} {b : β} (hc : c.Aside)
    (h : RecoveryStep d c s b s') : SameParks role s s' := by
  have hself : ∀ {s' : DriverSystem}, s'.installed = s.installed →
      s'.world.kernel = s.world.kernel → s'.memory = s.memory → SameParks role s s' :=
    fun hi hk hm => ⟨by rw [hi], fun _ => by rw [hk], by rw [hm], by rw [hm]⟩
  cases c with
  | memory f =>
    obtain ⟨_, rfl⟩ := h
    exact ⟨rfl, fun _ => Iff.rfl, congrFun (hc s.memory).1 role, congrFun (hc s.memory).2 role⟩
  | capture role baseline | selected p | apply role ops => exact hc.elim
  | product f | observe f | readCheckpoint role =>
    obtain ⟨_, rfl⟩ := h
    exact hself rfl rfl rfl
  | snapshot =>
    obtain ⟨rfl, _⟩ := h
    exact hself rfl rfl rfl
  | reconcileEndpointPolicy p =>
    have hsame : SameParks role _ _ := sameParks_reconciles h
    exact ⟨hsame.installed, hsame.rows, hsame.parks, hsame.loaded⟩
  | removeEndpointPolicy p => exact sameParks_reconciles h
  | leshyPublish zone iface => exact sameParks_leshy h.2
  | leshyWithdraw zone | leshyResync zone => exact sameParks_leshy h
  | resolveEndpoints role =>
    obtain rfl := h
    exact hself rfl rfl rfl
  | quarantineCheckpoint role => rcases h with rfl | rfl <;> exact hself rfl rfl rfl
  | writeCheckpoint role c =>
    rcases h with ⟨_, rfl⟩ | ⟨_, _, rfl | rfl⟩ <;> exact hself rfl rfl rfl

/-- What holds of a state because of its parks is kept by a program of such calls. -/
theorem aside_keeps {J : DriverSystem → Prop} {p : RecoveryM α} (hp : p.Calls RecoveryCall.Aside)
    (hJ : ∀ s s', J s → SameParks role s s' → J s') (h : J s) :
    p.Upholds (tracking d) J s :=
  hp.safe (fun _ _ => trivial)
    (fun _ _ s _ _ hc hs hstep => ⟨trivial, hJ s _ hs (sameParks_aside hc hstep.1)⟩) h

theorem aside_safe {p : RecoveryM α} (hp : p.Calls RecoveryCall.Aside) (h : ParksLoaded role s) :
    p.Upholds (tracking d) (ParksLoaded role) s :=
  aside_keeps hp (fun _ _ => .same) h

end

namespace RecoveryDriver

section

variable (d : RecoveryDriver) (name : String)

theorem service_aside {α : Type} {c : RecoveryCall (Except String α)} (h : c.Aside) :
    (service c).Calls RecoveryCall.Aside :=
  .bind (.perform h) fun _ => .ofExcept _

theorem peek_aside {β : Type} (f : DriverMemory → β) : (peek f).Calls RecoveryCall.Aside :=
  .perform fun _ => ⟨rfl, rfl⟩

theorem role_aside : (d.role name).Calls RecoveryCall.Aside := by
  unfold role
  split
  · trivial
  · exact .bind (.perform trivial) fun _ => trivial

theorem path_aside : (d.ownershipCheckpointPath name).Calls RecoveryCall.Aside := by
  refine .bind (role_aside d name) fun _ => ?_
  split
  split <;> trivial

theorem writeOwnershipCheckpoint_aside :
    (d.writeOwnershipCheckpoint name).Calls RecoveryCall.Aside :=
  .bind (path_aside d name) fun _ => .bind (role_aside d name) fun _ =>
    .bind (peek_aside _) fun _ => service_aside trivial

theorem captureOwnedDelta_aside (r : RoleEntry) :
    (d.captureOwnedDelta name r).Calls RecoveryCall.Aside := by
  unfold captureOwnedDelta
  split
  · trivial
  refine .bind (service_aside trivial) fun _ => .bind (peek_aside _) fun _ => ?_
  split
  · trivial
  · refine .bind (.perform fun m => ?_) fun _ => writeOwnershipCheckpoint_aside d name
    dsimp only [withDelta]
    split <;> exact ⟨rfl, rfl⟩

theorem publishParks_aside : (d.publishParks name).Calls RecoveryCall.Aside :=
  .bind (peek_aside _) fun _ => .bind (.perform trivial) fun _ => .bind (.perform trivial)
    fun _ => writeOwnershipCheckpoint_aside d name

theorem releasePublication_aside (zone : String) (product : RoleRuntime) :
    (d.releasePublication name zone product).Calls RecoveryCall.Aside := by
  unfold releasePublication
  split
  · trivial
  · exact .bind (.tryCatch (service_aside trivial) fun _ => trivial) fun _ => .perform trivial

theorem releaseEndpointPolicy_aside (policy : EndpointPolicy) :
    (d.releaseEndpointPolicy name policy).Calls RecoveryCall.Aside := by
  unfold releaseEndpointPolicy
  split
  · trivial
  · exact .tryCatch (service_aside trivial) fun _ => trivial

end

end RecoveryDriver

-- === Steps ===

section

variable {d : RecoveryDriver} {role : String} {s : DriverSystem}
  {X : DriverError → DriverSystem → Prop} {Q : Unit → DriverSystem → Prop} {prefixes : List Prefix}
  {β : Type} {b : Except String Unit} {s' : DriverSystem} {p : RecoveryM Unit}

theorem tracking_call {c : RecoveryCall β} {Q : β → DriverSystem → Prop}
    (h : ∀ b s', RecoveryStep d c s b s' → FailsClean ⟨c, s, b, s'⟩ → Q b s') :
    (Prog.perform c : RecoveryM β).Safe (tracking d) Q X s :=
  .perform trivial fun b s' hstep => ⟨trivial, trivial, h b s' hstep.1 hstep.2⟩

theorem tracking_service {α : Type} {c : RecoveryCall (Except String α)}
    {Q : α → DriverSystem → Prop} (hok : ∀ a s', RecoveryStep d c s (.ok a) s' → Q a s')
    (herr : ∀ e s', RecoveryStep d c s (.error e) s' → FailsClean ⟨c, s, .error e, s'⟩ →
      X (.text e) s') : (RecoveryDriver.service c).Safe (tracking d) Q X s := by
  refine .step (tracking_call fun b s' hstep hclean => ?_)
  cases b with
  | ok a => exact ⟨trivial, hok a s' hstep⟩
  | error e => exact ⟨trivial, herr e s' hstep hclean⟩

theorem tracking_peek {f : DriverMemory → β} {Q : β → DriverSystem → Prop} (h : Q (f s.memory) s) :
    (peek f).Safe (tracking d) Q X s :=
  tracking_call fun b s' hstep _ => by
    obtain ⟨rfl, rfl⟩ := hstep
    exact h

theorem tracking_remember {f : DriverMemory → DriverMemory}
    (h : Q () { s with memory := f s.memory }) : (remember f).Safe (tracking d) Q X s :=
  tracking_call fun b s' hstep _ => by
    obtain ⟨-, rfl⟩ := hstep
    exact h

theorem tracking_role {Q : RoleEntry × RoleRuntime → DriverSystem → Prop} (hQ : ∀ x, Q x s)
    (hX : ∀ e, X e s) : (d.role role).Safe (tracking d) Q X s := by
  unfold RecoveryDriver.role
  split
  · exact ⟨trivial, hX _⟩
  · refine .step (tracking_call fun b s' hstep _ => ?_)
    obtain ⟨-, rfl⟩ := hstep
    exact ⟨trivial, hQ _⟩

theorem tracking_path (hQ : Q () s) (hX : ∀ e, X e s) :
    (d.ownershipCheckpointPath role).Safe (tracking d) Q X s := by
  refine .step (tracking_role (fun x => ?_) hX)
  dsimp only
  split
  · exact ⟨trivial, hX _⟩
  · exact ⟨trivial, hQ⟩

theorem tracking_snapshot {Q : KernelState → DriverSystem → Prop}
    (hQ : ∀ kernel, s.host.Lists d.describe kernel → Q kernel s) (hX : ∀ e, X e s) :
    d.parkingSnapshot.Safe (tracking d) Q X s := by
  unfold parkingSnapshot
  split
  · exact ⟨trivial, hX _⟩
  refine tracking_service (fun kernel s1 hstep => ?_) fun e s1 hstep _ => ?_
  · obtain ⟨rfl, ⟨ks, hks, hlists⟩ | ⟨_, herr⟩⟩ := hstep
    · cases hks
      exact hQ kernel hlists
    · cases herr
  · obtain ⟨rfl, _⟩ := hstep
    exact hX _

theorem restoreFrom_tracks {c : ParkingCheckpoint} (h : ParksKept role s)
    (hloaded : s.memory.ownershipLoaded role = false) (hfile : s.files role = .found c) :
    (d.restoreFrom role c).Safe (tracking d) (fun _ => ParksRestored role)
      (fun _ => ParksKept role) s := by
  refine .step (tracking_role (fun x => ?_) fun _ => h)
  obtain ⟨r, product⟩ := x
  dsimp only
  split
  · exact ⟨trivial, h⟩
  next hname =>
  obtain rfl : c.role = role := not_not.mp hname
  refine .step (.step (tracking_snapshot (fun kernel hlists => ?_) fun _ => h))
  -- every park that is there is named, and so it is verified
  have hverified : ∀ pfx, ParkThere c.role s pfx →
      pfx ∈ (c.parked.map OwnedRoute.pfx).filter (parkListed kernel) := by
    intro pfx hthere
    have hkept := h pfx hthere
    rw [hloaded, if_neg (by decide)] at hkept
    obtain ⟨c', hfile', _, hnamed⟩ := hkept
    rw [hfile] at hfile'
    cases hfile'
    refine List.mem_filter.mpr ⟨hnamed, List.any_eq_true.mpr ?_⟩
    exact ⟨mainRow d.describe pfx (.park legacyPark),
      (hlists.mem_iff _).mpr (.inr ⟨pfx, _, hthere.2, rfl⟩), by simp [mainRow, legacyPark]⟩
  refine tracking_remember ?_
  split
  · refine .step (tracking_remember ?_)
    refine (aside_keeps (writeOwnershipCheckpoint_aside d c.role) (fun _ _ => .same)
      ⟨fun pfx hthere => ?_, setAt_self _ _ _⟩).mono (fun _ _ h => h) fun _ _ h => h.parks.kept
    exact ⟨setAt_self _ _ _, mem_setAt_self (hverified pfx hthere)⟩
  · refine tracking_remember ⟨fun pfx hthere => ?_, setAt_self _ _ _⟩
    exact ⟨setAt_self _ _ _, mem_setAt_self (hverified pfx hthere)⟩

theorem restoreOwnershipCheckpoint_tracks (h : ParksKept role s) :
    (d.restoreOwnershipCheckpoint role).Safe (tracking d) (fun _ => ParksRestored role)
      (fun _ => ParksKept role) s := by
  refine .step (tracking_peek ?_)
  split
  · next hloaded => exact ⟨trivial, h.loaded (.inl hloaded), hloaded⟩
  next hloaded =>
  rw [Bool.not_eq_true] at hloaded
  refine .step (tracking_path ?_ fun _ => h)
  refine .step (tracking_call fun file s1 hstep _ => ?_)
  obtain ⟨rfl, rfl⟩ := hstep
  -- without a checkpoint there are no parks
  have hnone : (∀ c, s1.files role ≠ .found c) → ∀ pfx, ¬ ParkThere role s1 pfx := by
    intro hfile pfx hthere
    have hkept := h pfx hthere
    rw [hloaded, if_neg (by decide)] at hkept
    obtain ⟨c, hc, _⟩ := hkept
    exact hfile c hc
  cases hfile : s1.files role with
  | missing =>
    refine tracking_remember ⟨fun pfx hthere => ?_, setAt_self _ _ _⟩
    exact absurd hthere (hnone (by simp [hfile]) pfx)
  | undecodable message =>
    refine .step (tracking_remember ?_)
    refine tracking_call fun _ s2 hstep _ => ?_
    have hnone' := hnone (by simp [hfile])
    rcases hstep with rfl | rfl
    · exact ⟨fun pfx hthere => absurd hthere (hnone' pfx), setAt_self _ _ _⟩
    · exact ⟨fun pfx hthere => absurd hthere (hnone' pfx), setAt_self _ _ _⟩
  | found c => exact restoreFrom_tracks h hloaded hfile

theorem apply_parks_tracks (hnone : ∀ pfx, ¬ ParkThere role s pfx)
    (h : Performs d role (prefixes.map .park) s b s') (hok : b = .ok ()) :
    s'.memory = s.memory ∧ ∀ pfx, ParkThere role s' pfx → pfx ∈ prefixes := by
  obtain ⟨done, host, ⟨_, rfl⟩ | ⟨_, _, herr, _⟩, hall, rfl⟩ := h
  · obtain ⟨_, hnew, _⟩ := performAll_parks hall
    refine ⟨rfl, fun pfx hthere => ?_⟩
    obtain ⟨hinstalled, hrow⟩ := hthere
    simp only [DriverSystem.performed, setAt_self] at hinstalled
    rcases DriverSystem.mem_parksAfter_parks.mp hinstalled with hmem | hmem
    · exact hmem
    · rcases hnew pfx _ hrow with hold | ⟨hmem, _⟩
      · exact absurd ⟨hmem, hold⟩ (hnone pfx)
      · exact hmem
  · rw [hok] at herr
    cases herr

theorem prepareWithdrawal_tracks (h : ParksRestored role s) (hparks : s.memory.parks role = []) :
    (prepareWithdrawal role prefixes).Upholds (tracking d) (ParksLoaded role) s := by
  have hnone : ∀ pfx, ¬ ParkThere role s pfx := by
    intro pfx hthere
    have hmem := (h.parks pfx hthere).2
    rw [hparks] at hmem
    cases hmem
  unfold prepareWithdrawal
  split
  · exact ⟨trivial, h.parks⟩
  dsimp only
  split
  · exact tracking_remember fun pfx hthere => absurd hthere (hnone pfx)
  next hvalid =>
  refine .step (tracking_service (fun _ s1 hstep => ?_) fun e s1 hstep hclean => ?_)
  · obtain ⟨hmemory, hthere⟩ := apply_parks_tracks hnone hstep rfl
    refine tracking_remember fun pfx hthere' => ⟨?_, mem_setAt_self (hthere pfx hthere')⟩
    exact (congrFun (congrArg DriverMemory.ownershipLoaded hmemory) role).trans h.loaded
  -- the failing transaction has a first park, and has not installed it
  obtain ⟨first, hfirst⟩ := List.exists_mem_of_ne_nil _ fun hnil =>
    hvalid (List.isEmpty_iff.mpr hnil)
  obtain ⟨hkernel, hinstalled⟩ := (hclean _ _ _ _ _ rfl).1 first (List.mem_map_of_mem hfirst)
  intro pfx hthere
  unfold ParkThere at hthere
  rw [hkernel, hinstalled] at hthere
  exact absurd hthere (hnone pfx)

theorem park_tracks (hlegacy : d.managedSelected role = false) (h : ParksKept role s) :
    (d.park role).Upholds (tracking d) (ParksKept role) s := by
  unfold park
  rw [hlegacy, if_neg (by decide)]
  split
  · exact ⟨trivial, h⟩
  refine .bind (restoreOwnershipCheckpoint_tracks h) fun _ s1 h1 => ?_
  refine .step (tracking_peek ?_)
  dsimp only
  have hpublish : ∀ s, ParksLoaded role s → (d.publishParks role).Upholds (tracking d)
    (ParksKept role) s := fun s hs =>
    (aside_safe (publishParks_aside d role) hs).mono (fun _ _ h => h.kept) fun _ _ h => h.kept
  split
  · exact hpublish s1 h1.parks
  next hempty =>
  have hparks : s1.memory.parks role = [] := by simpa using hempty
  refine .bind ((Prog.Safe.step (tracking_snapshot (fun kernel _ => ?_) fun _ => h1.parks)).mono
    (fun _ _ h => h) fun _ _ h => h.kept) fun _ s2 h2 => hpublish s2 h2
  exact prepareWithdrawal_tracks h1 hparks

/-- What a transaction that deletes parks leaves, whether it fails or not. -/
theorem apply_deletes_tracks (h : Performs d role (prefixes.map .deletePark) s b s')
    (hclean : FailsClean ⟨.apply role (prefixes.map .deletePark), s, b, s'⟩) :
    s'.memory = s.memory ∧
      ∀ pfx, ParkThere role s' pfx → ParkThere role s pfx ∧ pfx ∉ prefixes := by
  have hpart : ∃ done host, performAll d.describe (done.map .deletePark) s.host =
      some host ∧ s' = s.performed role (done.map .deletePark) host ∧
      (b = .ok () → done = prefixes) := by
    obtain ⟨done, host, ⟨_, rfl⟩ | ⟨e, n, rfl, rfl⟩, hall, rfl⟩ := h
    · exact ⟨prefixes, host, hall, rfl, fun _ => rfl⟩
    · rw [← List.map_take] at hall
      exact ⟨prefixes.take n, host, hall, by rw [List.map_take], nofun⟩
  obtain ⟨done, host, hall, rfl, hok⟩ := hpart
  obtain ⟨_, _, hmain⟩ := performAll_deleteParks hall
  refine ⟨rfl, fun pfx hthere => ?_⟩
  obtain ⟨hinstalled, hrow⟩ := hthere
  simp only [DriverSystem.performed, setAt_self] at hinstalled
  obtain ⟨hinstalled, hnot⟩ := DriverSystem.mem_parksAfter_deleteParks.mp hinstalled
  refine ⟨⟨hinstalled, ((hmain pfx _).mp hrow).1⟩, fun hmem => ?_⟩
  cases b with
  | ok u => exact hnot (hok rfl ▸ hmem)
  | error e => exact (hclean _ _ _ _ _ rfl).2 pfx (List.mem_map_of_mem hmem) hrow

theorem releasePark_tracks {pfx : Prefix} (h : ParksLoaded role s) :
    (releasePark role pfx).Upholds (tracking d) (ParksLoaded role) s := by
  refine .step (tracking_call fun found s1 hstep _ => ?_)
  obtain ⟨rfl, rfl⟩ := hstep
  split
  · refine .step (tracking_call fun b s2 hstep hclean => ⟨trivial, fun q hthere => ?_⟩)
    obtain ⟨hmemory, hleft⟩ : _ ∧ ∀ q, ParkThere role s2 q → ParkThere role _ q ∧ q ∉ [pfx] :=
      apply_deletes_tracks hstep hclean
    obtain ⟨hthere', hne⟩ := hleft q hthere
    rw [hmemory]
    obtain ⟨hloaded, hmem⟩ := h q hthere'
    exact ⟨hloaded, mem_setAt_self (List.mem_filter.mpr ⟨hmem, by simpa using hne⟩)⟩
  · next hfound =>
    refine ⟨trivial, fun q hthere => ?_⟩
    obtain ⟨hloaded, hmem⟩ := h q hthere
    have hne : q ≠ pfx := by
      rintro rfl
      exact hfound (by simpa using hmem)
    exact ⟨hloaded, mem_setAt_self (List.mem_filter.mpr ⟨hmem, by simpa using hne⟩)⟩

theorem observeRestoration_tracks (hlegacy : d.managedSelected role = false)
    (h : ParksLoaded role s) :
    (d.observeRestoration role).Upholds (tracking d) (ParksLoaded role) s := by
  unfold RecoveryDriver.observeRestoration
  rw [hlegacy, if_neg (by decide)]
  split
  · exact ⟨trivial, h⟩
  have hrest : ∀ s1, ParksLoaded role s1 →
      ((d.observeRestorationFromKernel role).bind fun _ => (d.publishParks role).bind fun _ =>
        (peek (·.parks role)).bind fun parks =>
        if !parks.isEmpty then .fail .routesStillParked else .ret ()).Upholds (tracking d)
          (ParksLoaded role) s1 := by
    intro s1 h1
    refine .bind (Q := fun _ => ParksLoaded role) ?_ fun _ s2 h2 => ?_
    · refine .step (tracking_snapshot (fun kernel _ => ?_) fun _ => h1)
      refine .step (tracking_peek ?_)
      refine .forEach (fun _ => ParksLoaded role) (fun _ _ => trivial)
        (fun pfx _ s hs => ?_) _ h1
      split
      · exact releasePark_tracks hs
      · exact ⟨trivial, hs⟩
    · refine .bind (aside_safe (publishParks_aside d role) h2) fun _ s3 h3 => ?_
      refine .step (tracking_peek ?_)
      split
      · exact ⟨trivial, h3⟩
      · exact ⟨trivial, h3⟩
  split
  · exact hrest s h
  · exact .bind (aside_safe (captureOwnedDelta_aside d role _) h) fun _ s1 h1 => hrest s1 h1

theorem clear_tracks (hexecutor : d.executor = true) (h : ParksLoaded role s) :
    (d.clear role).Upholds (tracking d) (ParksLoaded role) s := by
  refine .step (tracking_call fun prefixes s1 hstep _ => ?_)
  obtain ⟨rfl, rfl⟩ := hstep
  split
  · next hempty =>
    simp only [hexecutor, Bool.not_true, Bool.false_or, List.isEmpty_iff] at hempty
    refine ⟨trivial, fun pfx hthere => ?_⟩
    have hmem := (h pfx hthere).2
    rw [hempty] at hmem
    cases hmem
  · have hleft : ∀ b s2, RecoveryStep d (.apply role ((s.memory.parks role).map .deletePark))
        { s with memory := { s.memory with parks := setAt s.memory.parks role [] } } b s2 →
        FailsClean ⟨.apply role ((s.memory.parks role).map .deletePark),
          { s with memory := { s.memory with parks := setAt s.memory.parks role [] } }, b, s2⟩ →
        ParksLoaded role s2 := by
      intro b s2 hstep hclean pfx hthere
      obtain ⟨hthere', hnot⟩ := (apply_deletes_tracks hstep hclean).2 pfx hthere
      exact absurd (h pfx hthere').2 hnot
    refine .step (tracking_call fun b s2 hstep hclean => ?_)
    cases b with
    | ok u | error e => exact ⟨trivial, hleft _ s2 hstep hclean⟩

theorem labelled_tracks {J : DriverSystem → Prop} {label : String}
    (h : p.Safe (tracking d) Q (fun _ => J) s) :
    (RecoveryDriver.labelled label p).Safe (tracking d) Q (fun _ => J) s :=
  h.tryCatch fun e s' hs => show (Prog.fail (.wrapped label e) : RecoveryM Unit).Safe _ _ _ s' from
    ⟨trivial, hs⟩

theorem attempt_tracks
    (h : p.Upholds (tracking d) (ParksLoaded role) s) :
    (attempt p).Safe (tracking d) (fun _ => ParksLoaded role) X s :=
  (Prog.Safe.bind h fun _ s' hs =>
    show (Prog.ret none : RecoveryM (Option DriverError)).Safe _ _ _ s' from ⟨trivial, hs⟩).tryCatch
    fun e s' hs =>
      show (Prog.ret (some e) : RecoveryM (Option DriverError)).Safe _ _ _ s' from ⟨trivial, hs⟩

theorem releaseParks_tracks (hexecutor : d.executor = true) (h : ParksLoaded role s) :
    (d.releaseParks role).Safe (tracking d) (fun _ => ParksLoaded role) X s := by
  refine .bind (attempt_tracks (labelled_tracks (clear_tracks hexecutor h))) fun _ s1 h1 => ?_
  refine .step (tracking_remember ?_)
  refine .bind (attempt_tracks (labelled_tracks
    (aside_safe (writeOwnershipCheckpoint_aside d role) ?_))) fun _ s2 h2 => ⟨trivial, h2⟩
  exact h1

theorem releaseResources_tracks (hlegacy : d.managedSelected role = false)
    (hexecutor : d.executor = true) (h : ParksKept role s) :
    (d.releaseResources role).Upholds (tracking d) (ParksKept role) s := by
  refine .step (tracking_role (fun x => ?_) fun _ => h)
  dsimp only
  rw [hlegacy, if_neg (by decide)]
  refine .bind (labelled_tracks (restoreOwnershipCheckpoint_tracks h)) fun _ s1 h1 => ?_
  refine .step (tracking_peek ?_)
  refine .bind (attempt_tracks (aside_safe (releasePublication_aside d role _ _) h1.parks))
    fun _ s2 h2 => ?_
  refine .bind (attempt_tracks (aside_safe (releaseEndpointPolicy_aside d role _) h2))
    fun _ s3 h3 => ?_
  refine .bind (releaseParks_tracks hexecutor h3) fun _ s4 h4 => ?_
  dsimp only
  split
  · exact ⟨trivial, h4.kept⟩
  · exact ⟨trivial, h4.kept⟩

end

-- === What is owned ===

section

variable {d : RecoveryDriver} {role : String} {s s' : DriverSystem} {o : OwnedRoute}
  {prefixes : List Prefix}

theorem returns_publishParks (h : (d.publishParks role).Returns (RecoveryStep d) s () s') :
    s'.memory = s.memory ∧ s'.host = s.host := by
  obtain ⟨parks, s1, hrecall, h1⟩ := Prog.returns_bind.mp h
  obtain ⟨-, rfl⟩ := returns_peek hrecall
  obtain ⟨product, s2, hproduct, h2⟩ := Prog.returns_bind.mp h1
  obtain ⟨-, rfl⟩ := returns_productRole hproduct
  obtain ⟨_, s3, hupdate, hwrite⟩ := Prog.returns_bind.mp h2
  obtain rfl := returns_updateRoleResources hupdate
  obtain ⟨r, rfl⟩ := returns_writeOwnershipCheckpoint hwrite
  exact ⟨rfl, rfl⟩

theorem ownerVerified_of_confirmed {kernel : KernelState} (hl : s.host.Lists d.describe kernel)
    (h : Confirmed d s o) : ownerVerified kernel o = true := by
  obtain ⟨row, hrow, hkind, htable, hif, hproto, hpfx⟩ := h
  refine List.any_eq_true.mpr ⟨row, (hl.mem_iff row).mpr hrow, ?_⟩
  simp [hkind, htable, hif, hproto, hpfx]

theorem returns_prepareWithdrawal (hrole : role ≠ "")
    (h : (prepareWithdrawal role prefixes).Returns (RecoveryStep d) s () s') :
    s'.memory.ownership = s.memory.ownership ∧
    performAll d.describe ((prefixes.filter isHostPrefix).map .park) s.host =
      some s'.host := by
  unfold prepareWithdrawal at h
  rw [if_neg hrole] at h
  dsimp only at h
  split at h
  · next hempty =>
    obtain rfl := returns_remember h
    rw [List.isEmpty_iff.mp hempty]
    exact ⟨rfl, rfl⟩
  obtain ⟨_, s1, happly, hremember⟩ := Prog.returns_bind.mp h
  obtain rfl := returns_remember hremember
  obtain ⟨done, host, ⟨_, rfl⟩ | ⟨_, _, herr, _⟩, hall, rfl⟩ := returns_service.mp happly
  · exact ⟨rfl, hall⟩
  · cases herr

theorem Confirmed.of_parked
    (hall : performAll d.describe (prefixes.map .park) s.host = some s'.host)
    (h : Confirmed d s' o) : Confirmed d s o := by
  have htables : s'.host.tables = s.host.tables := by
    refine performAll_keeps (P := fun x => x.tables = s.host.tables)
      (fun op hop x x' hx hx' => ?_) rfl hall
    obtain ⟨pfx, _, rfl⟩ := List.mem_map.mp hop
    simp only [perform] at hx'
    split at hx' <;> cases hx' <;> exact hx
  obtain ⟨row, hrow, hkind, hrest⟩ := h
  refine ⟨row, ?_, hkind, hrest⟩
  rcases hrow with hrow | ⟨pfx, x, hx, rfl⟩
  · exact .inl (htables ▸ hrow)
  · rcases (performAll_parks hall).2.1 pfx x hx with hold | ⟨_, rfl⟩
    · exact .inr ⟨pfx, x, hold, rfl⟩
    · cases hkind

theorem park_covers_owned (hlegacy : d.managedSelected role = false) (hexecutor : d.executor = true)
    (hrole : role ≠ "") (hready : ParkReady d role s)
    (h : (d.park role).Returns (RecoveryStep d) s () s') : OwnedParked d role s' := by
  unfold park at h
  rw [hlegacy, if_neg (by decide), hexecutor, if_neg (by decide)] at h
  obtain ⟨_, s1, hrestore, h1⟩ := Prog.returns_bind.mp h
  obtain ⟨m, files, rfl, hparks, howned⟩ := returns_restoreOwnershipCheckpoint hrestore
  obtain ⟨⟨parks, owned⟩, s2, hrecall, h2⟩ := Prog.returns_bind.mp h1
  obtain ⟨heq, rfl⟩ := returns_peek hrecall
  cases heq
  dsimp only at h2
  split at h2
  · next hsome =>
    obtain ⟨hmemory, hhost⟩ := returns_publishParks h2
    have hkernel : s'.world.kernel = s.world.kernel := congrArg main hhost
    have hcovered := hready.older.resolve_left fun hnone => by simp [hnone _ hparks] at hsome
    intro o ho _ _ _ hconfirmed
    rw [hmemory] at ho
    unfold Confirmed at hconfirmed
    rw [hhost] at hconfirmed
    unfold HasPark
    rw [hkernel]
    exact hcovered o (howned o ho) hconfirmed
  · obtain ⟨_, s3, hprepare, h3⟩ := Prog.returns_bind.mp h2
    obtain ⟨kernel, s4, hsnapshot, hwithdraw⟩ := Prog.returns_bind.mp hprepare
    obtain ⟨-, hlists, rfl⟩ := returns_parkingSnapshot hsnapshot
    obtain ⟨hownership, hall⟩ := returns_prepareWithdrawal hrole hwithdraw
    obtain ⟨hmemory, hhost⟩ := returns_publishParks h3
    rw [← hhost] at hall
    intro o ho hname hif hpfx hconfirmed
    rw [hmemory, hownership] at ho
    have hbefore : Confirmed d s o := hconfirmed.of_parked hall
    have hverified := ownerVerified_of_confirmed hlists hbefore
    have hmem : o.pfx ∈ (((m.ownership role).filter fun owner => owner.role = role &&
        0 < owner.ifIndex && isHostPrefix owner.pfx && ownerVerified kernel owner).map
        OwnedRoute.pfx).eraseDups.filter isHostPrefix := by
      refine List.mem_filter.mpr ⟨List.mem_eraseDups.mpr (List.mem_map_of_mem ?_), hpfx⟩
      exact List.mem_filter.mpr ⟨ho, by simp [hname, hif, hpfx, hverified]⟩
    obtain ⟨row, hrow, htaken⟩ := (performAll_parks hall).2.2 o.pfx hmem
    refine ⟨row, hrow, htaken, ?_⟩
    rcases (performAll_parks hall).2.1 o.pfx row hrow with hold | ⟨_, rfl⟩
    · exact hready.metric o (howned o ho) row hold htaken
    · exact nofun

end

-- === Whole runs ===

section

variable {d : RecoveryDriver} {role : String} {s s' : DriverSystem} {trace : RecoveryTrace}

theorem exec_tracking {α : Type} {p : RecoveryM α} {o : Outcome DriverError α}
    (he : Exec (RecoveryStep d) p s trace o s') (hclean : ∀ ev ∈ trace, FailsClean ev) :
    Exec (tracking d).Step p s trace o s' := by
  induction he with
  | ret a s => exact .ret a s
  | fail e s => exact .fail e s
  | crash p s => exact .crash p s
  | call hstep _ ih =>
    rw [List.forall_mem_cons] at hclean
    exact .call ⟨hstep, hclean.1⟩ (ih hclean.2)

theorem ParksKept.step {a : ParkAction} {o : Outcome DriverError Unit}
    (hd : LegacyWired role d) (h : ParksKept role s) (hR : Careful role a s trace)
    (he : Exec (RecoveryStep d) (a.program d role) s trace o s') (ho : o ≠ .crashed) :
    ParksKept role s' := by
  have hsafe : (a.program d role).Upholds (tracking d) (ParksKept role) s := by
    cases a with
    | park => exact park_tracks hd.legacy h
    | observeRestoration =>
      exact (observeRestoration_tracks hd.legacy (h.loaded hR.2)).mono (fun _ _ h => h.kept)
        fun _ _ h => h.kept
    | releaseResources => exact releaseResources_tracks hd.legacy hd.executor h
  obtain ⟨_, _, hQ, hX⟩ := hsafe.sound (exec_tracking he hR.1)
  cases o with
  | returned u => exact hQ u rfl
  | failed e => exact hX e rfl
  | crashed => exact absurd rfl ho

theorem ParksKept.restart (h : ParksKept role s) (hC : Persisted role s) :
    ParksKept role { s with memory := {} } := by
  intro pfx hthere
  have hkept := h pfx hthere
  split at hkept
  · exact hC pfx hkept hthere
  · exact hkept

theorem LegacyParkRun.kept (hrun : LegacyParkRun role (Careful role) (Persisted role) s) :
    ParksKept role s := by
  induction hrun with
  | start h =>
    intro pfx hthere
    have hmem := hthere.1
    rw [h] at hmem
    cases hmem
  | leshy _ h ih =>
    exact ih.same ⟨rfl, fun pfx => h pfx (.park legacyPark) nofun, rfl, rfl⟩ rfl
  | restart _ hC ih => exact ih.restart hC
  | step _ hd hR he ho ih => exact ih.step hd hR he ho

/-- In every run whose steps and restarts are careful, every park is listed or will be
    after the next restore, and a park that returns nil covers what is owned. -/
theorem LegacyParkRun.tracked (hrole : role ≠ "")
    (hrun : LegacyParkRun role (Careful role) (Persisted role) s) :
    ParksListed role s ∧ ∀ d trace s', LegacyWired role d → ParkReady d role s →
      Exec (RecoveryStep d) (d.park role) s trace (.returned ()) s' → OwnedParked d role s' :=
  ⟨hrun.kept.listed, fun _ trace _ hd hready he =>
    park_covers_owned hd.legacy hd.executor hrole hready ⟨trace, he⟩⟩

end

-- === Runs that lose parks ===

section

variable {d : RecoveryDriver} {known : List Prefix} {cut : Option Nat} {s : DriverSystem}

def DriverSystem.cutOff (d : RecoveryDriver) (role : String) (ops : List Operation) (n : Nat)
    (s : DriverSystem) : Except String Unit × DriverSystem :=
  match performAll d.describe (ops.take n) s.host with
  | some h => (.error "cut off", s.performed role (ops.take n) h)
  | none => (.error "cut off", s.performed role [] s.host)

def cutHandle (d : RecoveryDriver) (known : List Prefix) (cut : Option Nat) ⦃β : Type⦄ :
    RecoveryCall β → DriverSystem → β × DriverSystem
  | .apply role ops, s =>
    if parksKnown known ops then (cut.elim (s.transact d role ops) fun n => s.cutOff d role ops n)
    else (.error "unknown prefix", s.performed role [] s.host)
  | c, s => recoveryHandle d known {} c s

theorem performs_nothing (role : String) (ops : List Operation) (e : String) (s : DriverSystem) :
    Performs d role ops s (.error e) (s.performed role [] s.host) :=
  ⟨[], s.host, .inr ⟨e, 0, rfl, rfl⟩, rfl, rfl⟩

theorem performs_cutOff (role : String) (ops : List Operation) (n : Nat) (s : DriverSystem) :
    Performs d role ops s (s.cutOff d role ops n).1 (s.cutOff d role ops n).2 := by
  unfold DriverSystem.cutOff
  cases hops : performAll d.describe (ops.take n) s.host with
  | some h => exact ⟨_, h, .inr ⟨_, n, rfl, rfl⟩, hops, rfl⟩
  | none => exact performs_nothing role ops _ s

def unselected ⦃β : Type⦄ : RecoveryCall β → Bool
  | .selected _ => false
  | _ => true

theorem cutHandle_step ⦃β : Type⦄ (c : RecoveryCall β) (s : DriverSystem)
    (hc : unselected c = true) (h : s.Covered known) :
    RecoveryStep d c s (cutHandle d known cut c s).1 (cutHandle d known cut c s).2 ∧
      (cutHandle d known cut c s).2.Covered known := by
  have answered (c : RecoveryCall β) (hc : c.contained known = true) :
      RecoveryStep d c s (recoveryHandle d known {} c s).1 (recoveryHandle d known {} c s).2 ∧
        (recoveryHandle d known {} c s).2.Covered known :=
    ⟨recoveryStep_handle c fun _ => h, covered_handle hc h⟩
  cases c with
  | selected p => cases hc
  | apply role ops =>
    simp only [cutHandle]
    split
    · next hknown =>
      cases cut with
      | none => exact ⟨performs_transact role ops s, covered_transact h role hknown⟩
      | some n =>
        refine ⟨performs_cutOff role ops n s, ?_⟩
        simp only [Option.elim_some, DriverSystem.cutOff]
        cases hall : performAll d.describe (ops.take n) s.host with
        | some h' =>
          exact covered_performed h (List.all_eq_true.mpr fun op hop =>
            List.all_eq_true.mp hknown op (List.mem_of_mem_take hop)) hall
        | none => exact h
    · exact ⟨performs_nothing role ops _ s, h⟩
  | _ => exact answered _ rfl

theorem exec_cut {α : Type} {p : RecoveryM α} (h : s.Covered known)
    (hall : (p.events (cutHandle d known cut) s).all (fun ev => unselected ev.call) = true) :
    Exec (RecoveryStep d) p s (p.events (cutHandle d known cut) s)
      (Prog.Outcome.of (p.run (cutHandle d known cut) s).1) (p.run (cutHandle d known cut) s).2 ∧
      (p.run (cutHandle d known cut) s).2.Covered known :=
  Prog.exec_checked (K := unselected) (J := DriverSystem.Covered known) cutHandle_step hall h

/-- What happens in a sample run. -/
inductive ParkMove
  /-- Leshy changes the routes to these -/
  | leshy (prefixes : List Prefix)
  | restart
  /-- a step over an underlay, whose transactions may be cut off -/
  | act (a : ParkAction) (cut : Option Nat) (underlay : Underlay := {})

def legacyOver (underlay : Underlay) : RecoveryDriver := { legacyDriver with underlay := underlay }

def ParkMove.play (s : DriverSystem) : ParkMove → DriverSystem
  | leshy prefixes => { s with world := s.world.withKernel (reroute prefixes s.world.kernel) }
  | restart => { s with memory := {} }
  | act a cut u =>
    ((a.program (legacyOver u) "work").run (cutHandle (legacyOver u) samplePrefixes cut) s).2

def actTrace (a : ParkAction) (cut : Option Nat) (u : Underlay) (s : DriverSystem) :
    RecoveryTrace :=
  (a.program (legacyOver u) "work").events (cutHandle (legacyOver u) samplePrefixes cut) s

def ownedSystem (prefixes baseline : List Prefix) : DriverSystem where
  world := { platform := samplePlatform, kernel := staticRoutes (prefixes ++ baseline) }
  memory :=
    { ownership := fun role => if role = "work" then prefixes.map tunRoute else []
      baselines := fun role => if role = "work" then baseline.map tunRoute else []
      ownershipLoaded := fun role => decide (role = "work") }

/-- The test of every move, where it is made. -/
def passed (test : DriverSystem → ParkMove → Bool) (s : DriverSystem) : List ParkMove → Bool
  | [] => true
  | m :: moves => test s m && passed test (m.play s) moves

def unselectedMove (s : DriverSystem) : ParkMove → Bool
  | .act a cut u => (actTrace a cut u s).all fun ev => unselected ev.call
  | _ => true

theorem play_parkRun {R : ParkAction → DriverSystem → RecoveryTrace → Prop}
    {C : DriverSystem → Prop} (test : DriverSystem → ParkMove → Bool) {moves : List ParkMove}
    (hR : ∀ s a cut u, test s (.act a cut u) = true →
      unselectedMove s (.act a cut u) = true ∧ R a s (actTrace a cut u s))
    (hC : ∀ s, test s .restart = true → C s) (hrun : LegacyParkRun "work" R C s)
    (hs : s.Covered samplePrefixes) (hall : passed test s moves = true) :
    LegacyParkRun "work" R C (moves.foldl ParkMove.play s) ∧
      (moves.foldl ParkMove.play s).Covered samplePrefixes := by
  induction moves generalizing s with
  | nil => exact ⟨hrun, hs⟩
  | cons m moves ih =>
    rw [passed, Bool.and_eq_true] at hall
    cases m with
    | leshy after =>
      exact ih (.leshy hrun (reroute_leshyEdits after _)) (reroute_covered hs after) hall.2
    | restart => exact ih (.restart hrun (hC s hall.1)) hs hall.2
    | act a cut u =>
      obtain ⟨hcalls, hstep⟩ := hR s a cut u hall.1
      obtain ⟨he, hcovered⟩ := exec_cut hs hcalls
      refine ih (.step hrun ⟨rfl, rfl⟩ hstep he ?_) hcovered hall.2
      generalize ((a.program (legacyOver u) "work").run _ s).1 = answer
      cases answer <;> nofun

/-- A run without conditions. -/
theorem play_anyRun {moves : List ParkMove} (h : s.installed "work" = [])
    (hs : s.Covered samplePrefixes) (hall : passed unselectedMove s moves = true) :
    LegacyParkRun "work" (fun _ _ _ => True) (fun _ => True) (moves.foldl ParkMove.play s) ∧
      (moves.foldl ParkMove.play s).Covered samplePrefixes :=
  play_parkRun _ (fun _ _ _ _ ht => ⟨ht, trivial⟩) (fun _ _ => trivial) (.start h) hs hall

/-- The park of the first prefix is in the kernel, and neither the memory nor the
    checkpoint names it. -/
def untracked (s : DriverSystem) : Bool :=
  decide (samplePrefix ∈ s.installed "work") &&
    decide (.park legacyPark ∈ s.world.kernel samplePrefix) &&
    decide (samplePrefix ∉ s.memory.parks "work") &&
    match s.files "work" with
    | .found c => decide (samplePrefix ∉ c.parked.map OwnedRoute.pfx)
    | _ => true

theorem not_listed_of_untracked (h : untracked s = true) : ¬ ParksListed "work" s := by
  unfold untracked at h
  simp only [Bool.and_eq_true, decide_eq_true_eq] at h
  obtain ⟨⟨⟨hinstalled, hrow⟩, hparks⟩, hfile⟩ := h
  intro hlisted
  rcases hlisted samplePrefix ⟨hinstalled, hrow⟩ with hmem | ⟨c, hc, -, hmem⟩
  · exact hparks hmem
  · rw [hc] at hfile
    exact absurd hmem (of_decide_eq_true hfile)

/-- Runs of a role that owns two routes: the parking fails after the first park; the
    deletion fails when the routes are back; the deletion fails when the role is
    released; the restoration is observed after a restart. -/
def losingMoves : List (List ParkMove) :=
  [[.act .park (some 1)],
    [.act .park none, .act .observeRestoration (some 0)],
    [.act .park none, .act .releaseResources (some 0)],
    [.act .park none, .restart, .leshy [], .act .observeRestoration none]]

/-- Leshy replaces the route of a parked role by another one, which the role then
    owns. -/
def replacedMoves : List ParkMove :=
  [.act .park none, .leshy [secondPrefix, thirdPrefix], .act .observeRestoration none]

def playPark (s : DriverSystem) : Except DriverError Unit × DriverSystem :=
  (legacyDriver.park "work").run (cutHandle legacyDriver samplePrefixes none) s

theorem exec_playPark (h : s.Covered samplePrefixes)
    (hall : unselectedMove s (.act .park none) = true) :
    Exec (RecoveryStep legacyDriver) (legacyDriver.park "work") s (actTrace .park none {} s)
      (Prog.Outcome.of (playPark s).1) (playPark s).2 :=
  (exec_cut h hall).1

def replacedSystem : DriverSystem :=
  replacedMoves.foldl ParkMove.play (ownedSystem [samplePrefix] [thirdPrefix])

theorem not_ownedParked_replaced :
    ¬ OwnedParked legacyDriver "work" (playPark replacedSystem).2 := by
  have howned : tunRoute secondPrefix ∈ (playPark replacedSystem).2.memory.ownership "work" := by
    decide +kernel
  have hrows : (playPark replacedSystem).2.world.kernel secondPrefix =
      [.route (sampleIdentity 7)] := by
    decide +kernel
  intro hparked
  have hrow : SelectedKernelRow.route (sampleIdentity 7) ∈
      (playPark replacedSystem).2.host.main secondPrefix := by
    change _ ∈ (playPark replacedSystem).2.world.kernel secondPrefix
    exact List.mem_singleton_self _
  obtain ⟨row, hmem, -, hkind⟩ := hparked _ howned rfl (by decide) (by decide)
    ⟨_, .inr ⟨secondPrefix, _, hrow, rfl⟩, rfl, by decide, rfl, by decide, rfl⟩
  change row ∈ (playPark replacedSystem).2.world.kernel secondPrefix at hmem
  rw [hrows, List.mem_singleton] at hmem
  subst hmem
  exact hkind rfl

/-- The steps of these runs leave parks that nothing lists; and a role that is parked
    with older parks stays without a park at a route that it owns. -/
theorem legacy_parks_lost :
    (∀ moves ∈ losingMoves, ∃ s, s = moves.foldl ParkMove.play
        (ownedSystem [samplePrefix, secondPrefix] []) ∧
      LegacyParkRun "work" (fun _ _ _ => True) (fun _ => True) s ∧ ¬ ParksListed "work" s) ∧
    ∃ s trace s', s = replacedSystem ∧
      LegacyParkRun "work" (fun _ _ _ => True) (fun _ => True) s ∧
      Exec (RecoveryStep legacyDriver) (legacyDriver.park "work") s trace (.returned ()) s' ∧
      ¬ OwnedParked legacyDriver "work" s' := by
  constructor
  · have hall : ∀ moves ∈ losingMoves,
        passed unselectedMove (ownedSystem [samplePrefix, secondPrefix] []) moves = true ∧
        untracked
          (moves.foldl ParkMove.play (ownedSystem [samplePrefix, secondPrefix] [])) = true := by
      decide +kernel
    exact fun moves hmoves =>
      ⟨_, rfl, (play_anyRun rfl (staticRoutes_covered rfl) (hall moves hmoves).1).1,
        not_listed_of_untracked (hall moves hmoves).2⟩
  · obtain ⟨hrun, hcovered⟩ : _ ∧ replacedSystem.Covered samplePrefixes :=
      play_anyRun rfl (staticRoutes_covered rfl) (by decide +kernel)
    obtain ⟨trace, he⟩ :=
      returns_of_isOk (exec_playPark hcovered (by decide +kernel)) (by decide +kernel)
    exact ⟨_, trace, _, rfl, hrun, he, not_ownedParked_replaced⟩

def cleanAnswer : Event RecoveryCall DriverSystem → Bool
  | ⟨.apply _ _, _, .error _, _⟩ => false
  | _ => true

theorem failsClean_of_cleanAnswer {ev : Event RecoveryCall DriverSystem}
    (h : cleanAnswer ev = true) : FailsClean ev := by
  rintro role ops s e s' rfl
  cases h

theorem parkReady_owned (prefixes baseline : List Prefix)
    (hmetric : ∀ pfx ∈ prefixes, takesParkMetric legacyDriver.describe pfx
      (.route (sampleIdentity 7)) = false) :
    ParkReady legacyDriver "work" (ownedSystem prefixes baseline) := by
  refine ⟨.inl fun parks h => h, fun o ho row hrow htakes => ?_⟩
  obtain hmem | ⟨hloaded, -⟩ := ho
  · obtain ⟨pfx, hpfx, rfl⟩ := List.mem_map.mp hmem
    rw [staticRoutes_route hrow] at htakes
    exact absurd htakes (by rw [show (tunRoute pfx).pfx = pfx from rfl, hmetric pfx hpfx]; decide)
  · cases hloaded

/-- The condition of a move in a careful run, as a test. -/
def carefulMove (s : DriverSystem) : ParkMove → Bool
  | .leshy _ => true
  | .restart =>
    match s.files "work" with
    | .found c => decide (c.role = "work") &&
      (s.memory.parks "work").all fun pfx => decide (pfx ∈ c.parked.map OwnedRoute.pfx)
    | _ => (s.memory.parks "work").isEmpty
  | .act a cut u =>
    unselectedMove s (.act a cut u) && (actTrace a cut u s).all cleanAnswer &&
      (decide (a ≠ .observeRestoration) || s.memory.ownershipLoaded "work")

theorem careful_of_carefulMove {a : ParkAction} {u : Underlay}
    (h : carefulMove s (.act a cut u) = true) : Careful "work" a s (actTrace a cut u s) := by
  simp only [carefulMove, Bool.and_eq_true, Bool.or_eq_true, decide_eq_true_eq] at h
  refine ⟨fun ev hev => failsClean_of_cleanAnswer (List.all_eq_true.mp h.1.2 ev hev), ?_⟩
  cases a with
  | observeRestoration => exact .inl (h.2.resolve_left fun hne => hne rfl)
  | park | releaseResources => trivial

theorem persisted_of_carefulMove (h : carefulMove s .restart = true) : Persisted "work" s := by
  intro pfx hpfx _
  simp only [carefulMove] at h
  split at h
  · next c hc =>
    rw [Bool.and_eq_true, decide_eq_true_eq, List.all_eq_true] at h
    exact ⟨c, hc, h.1, of_decide_eq_true (h.2 pfx hpfx)⟩
  · rw [List.isEmpty_iff.mp h] at hpfx
    cases hpfx

/-- A role that owns two routes is parked when they go away, and parked again after a
    restart and over another underlay; then the first route comes back. -/
def trackedMoves : List ParkMove :=
  [.act .park none, .leshy [], .restart, .act .park none { epoch := 1 }, .leshy [samplePrefix],
    .act .observeRestoration none { epoch := 2 }]

/-- After these steps the second park is left, and it is known; and the first of them
    covers what the role owns. -/
theorem legacy_parks_tracked_sample :
    (∃ s, s = trackedMoves.foldl ParkMove.play (ownedSystem [samplePrefix, secondPrefix] []) ∧
      ParksListed "work" s ∧ ParkThere "work" s secondPrefix ∧
      ¬ ParkThere "work" s samplePrefix) ∧
    ∃ trace s', Exec (RecoveryStep legacyDriver) (legacyDriver.park "work")
        (ownedSystem [samplePrefix, secondPrefix] []) trace (.returned ()) s' ∧
      OwnedParked legacyDriver "work" s' := by
  have hstart : LegacyParkRun "work" (Careful "work") (Persisted "work")
      (ownedSystem [samplePrefix, secondPrefix] []) := .start rfl
  constructor
  · obtain ⟨hrun, -⟩ := play_parkRun carefulMove
      (fun _ _ _ _ ht => ⟨(Bool.and_eq_true_iff.mp (Bool.and_eq_true_iff.mp ht).1).1,
        careful_of_carefulMove ht⟩) (fun _ => persisted_of_carefulMove) hstart
      (staticRoutes_covered rfl) (show passed carefulMove _ trackedMoves = true by decide +kernel)
    refine ⟨_, rfl, (LegacyParkRun.tracked (by decide) hrun).1, ?_, ?_⟩
    · unfold ParkThere
      decide +kernel
    · unfold ParkThere
      decide +kernel
  · have hpark := exec_playPark (s := ownedSystem [samplePrefix, secondPrefix] [])
      (staticRoutes_covered rfl) (by decide +kernel)
    exact ⟨_, _, hpark, (LegacyParkRun.tracked (by decide) hstart).2 _ _ _ ⟨rfl, rfl⟩
      (parkReady_owned _ _ (by decide)) hpark⟩

end

end Kikimora.Control

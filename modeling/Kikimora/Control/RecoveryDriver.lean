import Kikimora.Control.Ensure
import Kikimora.Control.FaultFree
import Kikimora.Control.Parking
import Kikimora.Core.Controller
import Kikimora.Platform.EndpointPolicy

/-!
# The recovery driver

The steps by which the core owns the resources of a role: the endpoint policy,
the publication to Leshy, the parks and the ownership checkpoint. A role with
managed selected routes leaves its routes to the selected-route manager; a
legacy role infers from snapshots of the kernel which routes Leshy has added for
it.
-/

namespace Kikimora.Control

open Net Routing Platform Kikimora.Core Lib
open HostState

-- === Roles ===

/-- The part of a role's configuration that the driver reads. -/
structure RoleConfig where
  name : String
  leshyZone : String := ""
  rulePriority : Int := 0
  stateDir : String := ""
  deriving DecidableEq, Repr

def effectiveEndpointPolicy : Option RoleConfig → EndpointPolicy
  | none => { role := "", zone := "", priority := 0 }
  | some c =>
    let zone :=
      if c.leshyZone ≠ "" then c.leshyZone
      else if c.name = "primary" || c.name = "secondary" then c.name else ""
    let priority :=
      if c.rulePriority ≠ 0 then c.rulePriority
      else if c.name = "primary" then 50 else if c.name = "secondary" then 51 else 0
    { role := c.name, zone := zone, priority := priority }

/-- What the manager knows of a role: its configuration and the interface that its
    Toad has reported. -/
structure RoleEntry where
  cfg : Option RoleConfig
  interfaceName : String := ""
  ifIndex : Int := 0
  deriving DecidableEq, Repr

/-- How the driver is wired. The services that can be missing are flags. -/
structure RecoveryDriver where
  /-- automatic recovery is on and a driver is set -/
  enabled : Bool := true
  /-- the endpoint-policy writer -/
  routes : Bool := true
  /-- the Leshy bridge -/
  leshy : Bool := true
  /-- the routing executor -/
  executor : Bool := true
  /-- the selected-route manager, with the roles that it manages -/
  selectedRoutes : Config := {}
  authority : RouteAuthority
  managedSelected : String → Bool := fun _ => false
  roles : String → Option RoleEntry
  underlay : Underlay := {}
  /-- the row behind the description of a foreign row -/
  describe : Prefix → String → RouteRow := fun pfx _ => { pfx := some pfx, table := 254 }

def RecoveryDriver.policy (d : RecoveryDriver) (role : String) : EndpointPolicy :=
  effectiveEndpointPolicy ((d.roles role).bind RoleEntry.cfg)

-- === State ===

/-- `SelectedRouteOwner`, and `OwnedRoute`, which has the same fields. -/
structure OwnedRoute where
  role : String
  iface : String
  ifIndex : Int
  pfx : Prefix
  deriving DecidableEq, Repr

/-- `parking.Checkpoint`. The boot and instance ids are never written. -/
structure ParkingCheckpoint where
  role : String
  iface : String
  ifIndex : Int
  baseline : List OwnedRoute := []
  observed : List OwnedRoute := []
  parked : List OwnedRoute := []
  deriving DecidableEq, Repr

/-- The file `parking.json` of a role. -/
inductive CheckpointFile
  | missing
  | undecodable (message : String)
  | found (c : ParkingCheckpoint)

/-- What the driver keeps in memory. A parking state is active as long as it has
    prefixes, so that the prefixes are all of it; an empty baseline reads as one
    that was never captured. -/
structure DriverMemory where
  parks : String → List Prefix := fun _ => []
  ownership : String → List OwnedRoute := fun _ => []
  ownershipLoaded : String → Bool := fun _ => false
  baselines : String → List OwnedRoute := fun _ => []

def parkingState (entries : List SelectedRoute) : ParkingState :=
  let prefixes := (entries.filter fun entry => entry.park.any fun park =>
    park.owned.isSome && (park.state = .active || park.state = .retiring)).map SelectedRoute.pfx
  let allProven := !entries.isEmpty && entries.all fun entry =>
    entry.state = .retiring || (provenPark entry).isSome
  { active := allProven && prefixes.length = entries.length, count := prefixes.length,
    prefixes := prefixes }

def legacyParkingState (prefixes : List Prefix) : ParkingState :=
  { active := !prefixes.isEmpty, count := prefixes.length, prefixes := prefixes }

def setAt {α : Type} (f : String → α) (key : String) (a : α) : String → α :=
  fun k => if k = key then a else f k

variable {α : Type}

@[simp] theorem setAt_self (f : String → α) (key : String) (a : α) :
    setAt f key a key = a := if_pos rfl

theorem mem_setAt_self {f : String → List α} {key : String} {as : List α} {a : α} (h : a ∈ as) :
    a ∈ setAt f key as key := by
  rwa [setAt_self]

theorem setAt_of_ne (f : String → α) {key k : String} (a : α) (h : k ≠ key) :
    setAt f key a k = f k := if_neg h

/-- The driver's memory, the selected-route manager with the main table and the
    product, the other tables, the publications and the checkpoint files. The last
    three fields keep what has been asked of the services: every prefix that a policy
    of a role has asked for, the parks that were installed for it and not removed
    again, and its first baseline. -/
structure DriverSystem where
  world : World
  tables : List RouteRow := []
  rules : List PolicyRule := []
  publications : String → Option String := fun _ => none
  files : String → CheckpointFile := fun _ => .missing
  memory : DriverMemory := {}
  wanted : String → List Prefix := fun _ => []
  installed : String → List Prefix := fun _ => []
  firstBaseline : String → Option (List Prefix) := fun _ => none

namespace DriverSystem

def host (s : DriverSystem) : HostState := ⟨s.world.kernel, s.tables, s.rules⟩

def withHost (s : DriverSystem) (h : HostState) : DriverSystem :=
  { s with world := s.world.withKernel h.main, tables := h.tables, rules := h.rules }

def parksAfter (prefixes : List Prefix) : List Operation → List Prefix
  | [] => prefixes
  | .park pfx :: ops => parksAfter (pfx :: prefixes) ops
  | .deletePark pfx :: ops => parksAfter (prefixes.filter (· ≠ pfx)) ops
  | _ :: ops => parksAfter prefixes ops

variable {prefixes : List Prefix}

theorem mem_parksAfter_parks {done : List Prefix} {pfx : Prefix} :
    pfx ∈ parksAfter prefixes (done.map .park) ↔ pfx ∈ done ∨ pfx ∈ prefixes := by
  induction done generalizing prefixes with
  | nil => simp [parksAfter]
  | cons p done ih =>
    rw [List.map_cons, parksAfter, ih, List.mem_cons, List.mem_cons]
    tauto

theorem mem_parksAfter_deleteParks {done : List Prefix} {pfx : Prefix} :
    pfx ∈ parksAfter prefixes (done.map .deletePark) ↔ pfx ∈ prefixes ∧ pfx ∉ done := by
  induction done generalizing prefixes with
  | nil => simp [parksAfter]
  | cons p done ih =>
    rw [List.map_cons, parksAfter, ih, List.mem_filter, List.mem_cons, decide_eq_true_eq]
    tauto

theorem parksAfter_of_none {ops : List Operation} (h : ∀ op ∈ ops, op.OnEndpointTable) :
    parksAfter prefixes ops = prefixes := by
  induction ops with
  | nil => rfl
  | cons op ops ih =>
    rw [List.forall_mem_cons] at h
    cases op with
    | park pfx => exact h.1.elim
    | deletePark pfx => exact h.1.elim
    | _ => exact ih h.2

def performed (s : DriverSystem) (role : String) (ops : List Operation) (h : HostState) :
    DriverSystem :=
  { s.withHost h with installed := setAt s.installed role (parksAfter (s.installed role) ops) }

def wants (s : DriverSystem) (p : EndpointPolicy) : DriverSystem :=
  { s with wanted :=
      setAt s.wanted p.role (s.wanted p.role ++ p.routes.map EndpointRoute.pfx) }

def captured (s : DriverSystem) (role : String) (baseline : List OwnedRoute) : DriverSystem :=
  { s with
    memory := { s.memory with
      baselines := setAt s.memory.baselines role baseline
      ownershipLoaded := setAt s.memory.ownershipLoaded role true }
    firstBaseline := setAt s.firstBaseline role
      (some ((s.firstBaseline role).getD (baseline.map OwnedRoute.pfx))) }

end DriverSystem

-- === Calls ===

/-- The errors of the driver. Those that a caller tells apart are constructors. -/
inductive DriverError
  | text (message : String)
  /-- `core.ErrEndpointResolutionPending` -/
  | endpointResolutionPending (message : String)
  /-- `core.ErrUnderlayPathUnavailable` -/
  | underlayPathUnavailable (message : String)
  /-- `parking.ErrRoutesStillParked` -/
  | routesStillParked
  /-- an error of the selected-route manager -/
  | selected (e : ManagerError)
  | wrapped (label : String) (cause : DriverError)
  /-- `errors.Join` -/
  | joined (errs : List DriverError)
  /-- an incomplete release, with what was there before -/
  | incomplete (errs : List DriverError) (parksActive : Bool) (parked owned : Nat)
      (published : Bool)

/-- The calls of the driver, by the type of their answer. -/
inductive RecoveryCall : Type → Type 1
  | memory {β : Type} (f : DriverMemory → β × DriverMemory) : RecoveryCall β
  /-- a new baseline, with which the ownership counts as loaded -/
  | capture (role : String) (baseline : List OwnedRoute) : RecoveryCall Unit
  | product {β : Type} (f : (String → Option RoleRuntime) → β × (String → Option RoleRuntime)) :
      RecoveryCall β
  /-- a read of the selected-route manager -/
  | observe {β : Type} (f : World → β) : RecoveryCall β
  /-- an operation of the selected-route manager -/
  | selected {β : Type} (p : ManagerM β) : RecoveryCall (Except ManagerError β)
  /-- `Executor.Snapshot` -/
  | snapshot : RecoveryCall (Except String KernelState)
  /-- `Executor.Apply`, with the role of the transaction -/
  | apply (role : String) (ops : List Operation) : RecoveryCall (Except String Unit)
  | reconcileEndpointPolicy (p : EndpointPolicy) : RecoveryCall (Except String Unit)
  | removeEndpointPolicy (p : EndpointPolicy) : RecoveryCall (Except String Unit)
  | leshyPublish (zone iface : String) : RecoveryCall (Except String Unit)
  | leshyWithdraw (zone : String) : RecoveryCall (Except String Unit)
  | leshyResync (zone : String) : RecoveryCall (Except String Unit)
  /-- resolve the transport endpoints of a role -/
  | resolveEndpoints (role : String) : RecoveryCall (Except DriverError EndpointState)
  | readCheckpoint (role : String) : RecoveryCall CheckpointFile
  | quarantineCheckpoint (role : String) : RecoveryCall Unit
  | writeCheckpoint (role : String) (c : ParkingCheckpoint) : RecoveryCall (Except String Unit)

abbrev RecoveryM := Prog DriverError RecoveryCall

/-- A transaction: all operations are performed, or a first part of them and the
    answer is an error. -/
def Performs (d : RecoveryDriver) (role : String) (ops : List Operation) (s : DriverSystem)
    (b : Except String Unit) (s' : DriverSystem) : Prop :=
  ∃ done h, (b = .ok () ∧ done = ops ∨ ∃ e n, b = .error e ∧ done = ops.take n) ∧
    performAll d.describe done s.host = some h ∧ s' = s.performed role done h

def Reconciles (d : RecoveryDriver) (p : EndpointPolicy) (remove : Bool) (s : DriverSystem)
    (b : Except String Unit) (s' : DriverSystem) : Prop :=
  (∃ e, b = .error e ∧ s' = s) ∨
    ∃ ks ops, s.host.Lists d.describe ks ∧ endpointPolicyPlan ks p remove = .ok ops ∧
      Performs d p.role ops s b s'

def LeshyEdits (k k' : Kernel) : Prop :=
  ∀ pfx row, (∀ i, row ≠ .route i) → (row ∈ k' pfx ↔ row ∈ k pfx)

/-- A call of the Leshy bridge changes the publications as it says, or it fails
    and may have done so. -/
def Leshy (publications : String → Option String) (s : DriverSystem) (b : Except String Unit)
    (s' : DriverSystem) : Prop :=
  ∃ k published, LeshyEdits s.world.kernel k ∧
    (b = .ok () ∧ published = publications ∨
      ∃ e, b = .error e ∧ (published = publications ∨ published = s.publications)) ∧
    s' = { s with world := s.world.withKernel k, publications := published }

/-- What the calls may answer, and what they do. The memory and the product
    cannot fail, everything outside the process can. -/
def RecoveryStep (d : RecoveryDriver) ⦃β : Type⦄ :
    RecoveryCall β → DriverSystem → β → DriverSystem → Prop
  | .memory f, s, b, s' => b = (f s.memory).1 ∧ s' = { s with memory := (f s.memory).2 }
  | .capture role baseline, s, _, s' => s' = s.captured role baseline
  | .product f, s, b, s' => b = (f s.world.runtime).1 ∧
      s' = { s with world := { s.world with runtime := (f s.world.runtime).2 } }
  | .observe f, s, b, s' => b = f s.world ∧ s' = s
  | .selected p, s, b, s' => ∃ trace w, Exec FaultStep p s.world trace (Prog.Outcome.of b) w ∧
      s' = { s with world := w }
  | .snapshot, s, b, s' =>
    s' = s ∧ ((∃ ks, b = .ok ks ∧ s.host.Lists d.describe ks) ∨ ∃ e, b = .error e)
  | .apply role ops, s, b, s' => Performs d role ops s b s'
  | .reconcileEndpointPolicy p, s, b, s' => Reconciles d p false (s.wants p) b s'
  | .removeEndpointPolicy p, s, b, s' => Reconciles d p true s b s'
  | .leshyPublish zone iface, s, b, s' => (b = .ok () → zone ≠ "" ∧ iface ≠ "") ∧
      Leshy (setAt s.publications zone (some iface)) s b s'
  | .leshyWithdraw zone, s, b, s' => Leshy (setAt s.publications zone none) s b s'
  | .leshyResync _, s, b, s' => Leshy s.publications s b s'
  | .resolveEndpoints _, s, _, s' => s' = s
  | .readCheckpoint role, s, b, s' => b = s.files role ∧ s' = s
  | .quarantineCheckpoint role, s, _, s' =>
    s' = s ∨ s' = { s with files := setAt s.files role .missing }
  | .writeCheckpoint role c, s, b, s' =>
    (b = .ok () ∧ s' = { s with files := setAt s.files role (.found c) }) ∨
      ∃ e, b = .error e ∧ (s' = s ∨ s' = { s with files := setAt s.files role (.found c) })

-- === Shared parts ===

namespace RecoveryDriver

def fails {α : Type} (message : String) : RecoveryM α := .fail (.text message)

def service {α : Type} (c : RecoveryCall (Except String α)) : RecoveryM α :=
  (Prog.perform c).bind fun r => Prog.ofExcept (r.mapError .text)

def peek {β : Type} (f : DriverMemory → β) : RecoveryM β :=
  Prog.perform (.memory fun m => (f m, m))

def remember (f : DriverMemory → DriverMemory) : RecoveryM Unit :=
  Prog.perform (.memory fun m => ((), f m))

def labelled {α : Type} (label : String) (p : RecoveryM α) : RecoveryM α :=
  p.tryCatch fun e => .fail (.wrapped label e)

def attempt (p : RecoveryM Unit) : RecoveryM (Option DriverError) :=
  (p.bind fun _ => .ret none).tryCatch fun e => .ret (some e)

def productRole (role : String) : RecoveryM RoleRuntime :=
  Prog.perform (.product fun roles => ((roles role).getD {}, roles))

def updatedResources (role : String) (endpoint : EndpointState) (publication : PublicationState)
    (parking : ParkingState) (validation : ValidationResult)
    (roles : String → Option RoleRuntime) : String → Option RoleRuntime :=
  (({ roles := roles } : Controller).updateRoleResources role endpoint publication parking
    validation).2.roles

def updateRoleResources (role : String) (endpoint : EndpointState) (publication : PublicationState)
    (parking : ParkingState) (validation : ValidationResult) : RecoveryM Unit :=
  Prog.perform (.product fun roles =>
    ((), updatedResources role endpoint publication parking validation roles))

variable (d : RecoveryDriver)

def role (name : String) : RecoveryM (RoleEntry × RoleRuntime) :=
  match d.roles name with
  | none => fails ("unknown Toad " ++ quoted name)
  | some r => (productRole name).bind fun product => .ret (r, product)

def ownershipCheckpointPath (name : String) : RecoveryM Unit :=
  (d.role name).bind fun (r, _) =>
    if ((r.cfg.map RoleConfig.stateDir).getD "") = "" then
      fails ("role " ++ quoted name ++ " has no state directory")
    else .ret ()

def writeOwnershipCheckpoint (name : String) : RecoveryM Unit := do
  d.ownershipCheckpointPath name
  let (r, _) ← d.role name
  let (baseline, observed, parks) ← peek fun m =>
    (m.baselines name, m.ownership name, m.parks name)
  service (.writeCheckpoint name
    { role := name, iface := r.interfaceName, ifIndex := r.ifIndex, baseline := baseline,
      observed := observed,
      parked := parks.map fun pfx => ⟨name, r.interfaceName, r.ifIndex, pfx⟩ })

-- === The parking manager ===

def parkingSnapshot : RecoveryM KernelState :=
  if !d.executor then fails "parking route executor is nil" else service .snapshot

def parkListed (kernel : KernelState) (pfx : Prefix) : Bool :=
  kernel.routes.any fun row =>
    (row.kind = .park || row.kind = .unreachable) && row.pfx = some pfx &&
      managedParkMetric ≤ row.metric

def restoreCheckpoint (c : ParkingCheckpoint) : RecoveryM Unit :=
  d.parkingSnapshot.bind fun kernel =>
    let verified := (c.parked.map OwnedRoute.pfx).filter (parkListed kernel)
    remember fun m => { m with parks := setAt m.parks c.role verified }

def prepareWithdrawal (name : String) (prefixes : List Prefix) : RecoveryM Unit :=
  if name = "" then .ret ()
  else
    let valid := prefixes.filter isHostPrefix
    if valid.isEmpty then remember fun m => { m with parks := setAt m.parks name [] }
    else do
      service (.apply name (valid.map .park))
      remember fun m => { m with parks := setAt m.parks name valid }

def ownerVerified (kernel : KernelState) (owner : OwnedRoute) : Bool :=
  kernel.routes.any fun row =>
    row.kind = .route && row.table ≠ endpointTable && row.ifIndex = owner.ifIndex &&
      row.protocol = staticProtocol && row.pfx = some owner.pfx

def prepareOwnedWithdrawal (name : String) (owned : List OwnedRoute) : RecoveryM Unit :=
  d.parkingSnapshot.bind fun kernel =>
    let verified := owned.filter fun owner =>
      owner.role = name && 0 < owner.ifIndex && isHostPrefix owner.pfx &&
        ownerVerified kernel owner
    prepareWithdrawal name (verified.map OwnedRoute.pfx).eraseDups

def winning (kernel : KernelState) (pfx : Prefix) : Bool :=
  kernel.routes.any fun row =>
    row.kind = .route && row.table ≠ endpointTable && row.pfx = some pfx &&
      row.metric < managedParkMetric

def releasePark (name : String) (pfx : Prefix) : RecoveryM Unit := do
  let found ← Prog.perform (.memory fun m =>
    (decide (pfx ∈ m.parks name),
      { m with parks := setAt m.parks name ((m.parks name).filter (· ≠ pfx)) }))
  if found then (Prog.perform (.apply name [.deletePark pfx])).bind fun _ => .ret ()
  else .ret ()

def observeRestorationFromKernel (name : String) : RecoveryM Unit := do
  let kernel ← d.parkingSnapshot
  let prefixes ← peek (·.parks name)
  Prog.forEach (fun pfx => if winning kernel pfx then releasePark name pfx else .ret ()) prefixes

def clear (name : String) : RecoveryM Unit := do
  let prefixes ← Prog.perform (.memory fun m =>
    (m.parks name, { m with parks := setAt m.parks name [] }))
  if !d.executor || prefixes.isEmpty then .ret ()
  else service (.apply name (prefixes.map .deletePark))

-- === Ownership ===

/-- The prefix of a static host route on the interface, outside the table of the
    endpoint policies. -/
def candidatePrefix (ifIndex : Int) (row : RouteRow) : Option Prefix :=
  if row.kind = .route ∧ row.table ≠ endpointTable ∧ row.ifIndex = ifIndex ∧
      row.protocol = staticProtocol then row.pfx.filter isHostPrefix
  else none

def selectedRouteCandidates (kernel : KernelState) (name : String) (r : RoleEntry) :
    List OwnedRoute :=
  if name = "" ∨ r.interfaceName = "" ∨ r.ifIndex ≤ 0 then []
  else ((kernel.routes.filterMap (candidatePrefix r.ifIndex)).eraseDups).map fun pfx =>
    ⟨name, r.interfaceName, r.ifIndex, pfx⟩

def captureOwnershipBaseline (name : String) (r : RoleEntry) : RecoveryM Unit :=
  if !d.executor then .ret ()
  else do
    let kernel ← service .snapshot
    Prog.perform (.capture name (selectedRouteCandidates kernel name r))
    d.writeOwnershipCheckpoint name

def ownedDelta (current baseline : List OwnedRoute) : List OwnedRoute :=
  current.filter fun route =>
    isHostPrefix route.pfx && !(baseline.map OwnedRoute.pfx).contains route.pfx

def withDelta (name : String) (owned : List OwnedRoute) (m : DriverMemory) : DriverMemory :=
  if !owned.isEmpty || (m.ownership name).isEmpty then
    { m with ownership := setAt m.ownership name owned }
  else m

def captureOwnedDelta (name : String) (r : RoleEntry) : RecoveryM Unit :=
  if !d.executor then .ret ()
  else do
    let kernel ← service .snapshot
    let current := selectedRouteCandidates kernel name r
    let baseline ← peek (·.baselines name)
    if baseline.isEmpty then .ret ()
    else do
      remember (withDelta name (ownedDelta current baseline))
      d.writeOwnershipCheckpoint name

def restoredOwnership (name : String) (c : ParkingCheckpoint) : List OwnedRoute :=
  (c.observed.filter fun value =>
    value.role = name && value.ifIndex = c.ifIndex && isHostPrefix value.pfx).map fun value =>
      { value with role := name }

def restoreFrom (name : String) (c : ParkingCheckpoint) : RecoveryM Unit :=
  (d.role name).bind fun (r, _) =>
    if c.role ≠ name then
      fails ("parking checkpoint role mismatch: got " ++ quoted c.role ++ " want " ++ quoted name)
    else (d.restoreCheckpoint c).bind fun _ =>
      if c.iface ≠ r.interfaceName ∨ c.ifIndex ≠ r.ifIndex then
        -- ownership does not cross a change of the interface, the parks do
        (remember fun m => { m with
          ownership := setAt m.ownership name []
          baselines := setAt m.baselines name []
          ownershipLoaded := setAt m.ownershipLoaded name true }).bind fun _ =>
            d.writeOwnershipCheckpoint name
      else remember fun m => { m with
        ownership := setAt m.ownership name (restoredOwnership name c)
        baselines := setAt m.baselines name c.baseline
        ownershipLoaded := setAt m.ownershipLoaded name true }

def setLoaded (name : String) : RecoveryM Unit :=
  remember fun m => { m with ownershipLoaded := setAt m.ownershipLoaded name true }

def restoreOwnershipCheckpoint (name : String) : RecoveryM Unit :=
  (peek (·.ownershipLoaded name)).bind fun loaded =>
    if loaded then .ret ()
    else (d.ownershipCheckpointPath name).bind fun _ =>
      (Prog.perform (.readCheckpoint name)).bind fun
        | .missing => setLoaded name
        | .undecodable _ =>
          (setLoaded name).bind fun _ => Prog.perform (.quarantineCheckpoint name)
        | .found c => d.restoreFrom name c

-- === Steps ===

def observeRoutes (name : String) : RecoveryM Unit :=
  if d.managedSelected name || !d.executor then .ret ()
  else (service .snapshot).bind fun _ => d.restoreOwnershipCheckpoint name

def parkRegistered (name : String) : RecoveryM Unit := do
  let result ← Prog.perform (.selected (Control.parkRegistered d.selectedRoutes name))
  Prog.ofExcept (result.mapError .selected)
  let state ← Prog.perform (.observe fun w => parkingState (w.registry.snapshot name))
  let product ← productRole name
  updateRoleResources name product.endpoint product.publication state product.validation

def publishParks (name : String) : RecoveryM Unit := do
  let parks ← peek (·.parks name)
  let product ← productRole name
  updateRoleResources name product.endpoint product.publication (legacyParkingState parks)
    product.validation
  d.writeOwnershipCheckpoint name

def park (name : String) : RecoveryM Unit :=
  if d.managedSelected name then d.parkRegistered name
  else if !d.executor then .ret ()
  else do
    d.restoreOwnershipCheckpoint name
    let (parks, owned) ← peek fun m => (m.parks name, m.ownership name)
    if !parks.isEmpty then d.publishParks name
    else do
      d.prepareOwnedWithdrawal name owned
      d.publishParks name

def addrPortText (a : Addr × UInt16) : String :=
  (if a.1.bitLen = 128 then "[" ++ a.1.toString ++ "]" else a.1.toString) ++ ":" ++ toString a.2

def endpointRoute (address : Addr × UInt16) : Except DriverError EndpointRoute :=
  match (if address.1.bitLen = 128 then d.underlay.ipv6 else d.underlay.ipv4).filter
      fun path => 0 < path.ifIndex with
  | some path => .ok ⟨⟨address.1.withoutZone, address.1.bitLen⟩, path.gateway, path.ifIndex, 1⟩
  | none =>
    .error (.underlayPathUnavailable ("no physical path for endpoint " ++ addrPortText address))

def applyEndpoint (name : String) : RecoveryM Unit :=
  if !d.routes then .ret ()
  else do
    let (r, product) ← d.role name
    if r.cfg = none then fails ("role " ++ quoted name ++ " has no config")
    else
      let policy := effectiveEndpointPolicy r.cfg
      if policy.zone = "" ∨ policy.priority = 0 then
        fails ("role " ++ quoted name ++ " has no endpoint policy zone/priority")
      else do
        let resolved ← Prog.perform (.resolveEndpoints name)
        let state ← Prog.ofExcept resolved
        if state.state ≠ "ready" then
          fails ("endpoint policy for " ++ quoted name ++ " is " ++ state.state ++ ": " ++
            state.lastError)
        else do
          let routes ← Prog.ofExcept (state.resolved.mapM d.endpointRoute)
          service (.reconcileEndpointPolicy { policy with routes := routes })
          updateRoleResources name state product.publication product.parking product.validation

def publish (name : String) : RecoveryM Unit :=
  if !d.leshy then .ret ()
  else do
    let (r, _) ← d.role name
    if r.interfaceName = "" ∨ r.ifIndex ≤ 0 then
      fails ("role " ++ quoted name ++ " has no validated interface")
    else do
      if d.managedSelected name then .ret () else d.captureOwnershipBaseline name r
      let zone := (effectiveEndpointPolicy r.cfg).zone
      service (.leshyPublish zone r.interfaceName)
      let product ← productRole name
      let generation ← Prog.perform (.observe fun w =>
        if d.managedSelected name then (w.memory.roleState name).routeGeneration else 0)
      updateRoleResources name product.endpoint
        { published := true, zone := zone, interface := r.interfaceName, generation := generation,
          families := product.validation.families }
        product.parking product.validation

def resyncLeshy (name : String) : RecoveryM Unit :=
  if !d.leshy then .ret ()
  else do
    let (r, _) ← d.role name
    let zone := (effectiveEndpointPolicy r.cfg).zone
    if zone = "" then fails ("role " ++ quoted name ++ " has no Leshy zone")
    else do
      service (.leshyResync zone)
      d.captureOwnedDelta name r

def observeRegisteredRestoration (name : String) : RecoveryM Unit := do
  let result ← Prog.perform (.selected (Control.observeRestoration d.selectedRoutes name))
  let state ← Prog.perform (.observe fun w => parkingState (w.registry.snapshot name))
  let product ← productRole name
  updateRoleResources name product.endpoint product.publication state product.validation
  Prog.ofExcept (result.mapError .selected)

def observeRestoration (name : String) : RecoveryM Unit :=
  if d.managedSelected name then d.observeRegisteredRestoration name
  else if !d.executor then .ret ()
  else do
    match d.roles name with
      | none => .ret ()
      | some r => d.captureOwnedDelta name r
    d.observeRestorationFromKernel name
    d.publishParks name
    let parks ← peek (·.parks name)
    if !parks.isEmpty then .fail .routesStillParked else .ret ()

def finishRecovery (name : String) : RecoveryM Unit :=
  Prog.perform (.product fun roles => ((), match roles name with
    | none => roles
    | some current =>
      if current.recovery.step ≠ .idle || current.recovery.operation ≠ 0 ||
          current.recovery.epoch ≠ 0 || current.recovery.attempt ≠ 0 ||
          current.recovery.lastError ≠ "" then
        (({ roles := roles } : Controller).setRecovery name {} .ready "recovery complete").2.roles
      else roles))

def activateReadyRole (name : String) : RecoveryM Unit :=
  if !d.enabled then .ret ()
  else (Prog.perform (.product fun roles => (roles name, roles))).bind fun
    | none => fails ("unknown product role " ++ quoted name)
    | some runtime =>
      if runtime.endpoint.appliedUnderlayEpoch = d.underlay.epoch &&
          runtime.endpoint.state = "ready" && runtime.publication.published &&
          !runtime.parking.active then
        finishRecovery name
      else do
        labelled ("restore route ownership for " ++ quoted name) (d.observeRoutes name)
        labelled ("apply initial endpoint policy for " ++ quoted name) (d.applyEndpoint name)
        labelled ("publish initial Leshy route target for " ++ quoted name) (d.publish name)
        labelled ("resync initial Leshy route target for " ++ quoted name) (d.resyncLeshy name)
        labelled ("restore selected routes for " ++ quoted name) (d.observeRestoration name)
        finishRecovery name

-- === Release ===

def releaseManagedSelected (name : String) : RecoveryM (List DriverError) := do
  let (r, _) ← d.role name
  let zone := (effectiveEndpointPolicy r.cfg).zone
  let errs ←
    if zone = "" then .ret []
    else (Prog.perform (.selected (flushZone d.selectedRoutes d.authority zone))).bind fun
      | .ok _ => .ret []
      | .error e => .ret [.wrapped ("flush registered routes for " ++ quoted name) (.selected e)]
  let state ← Prog.perform (.observe fun w => parkingState (w.registry.snapshot name))
  let product ← productRole name
  updateRoleResources name product.endpoint {} state product.validation
  .ret errs

def releasePublication (name : String) (zone : String) (product : RoleRuntime) : RecoveryM Unit :=
  if zone = "" ∨ d.leshy = false then .ret ()
  else do
    labelled ("withdraw publication for " ++ quoted name) (service (.leshyWithdraw zone))
    updateRoleResources name product.endpoint {} product.parking product.validation

def releaseEndpointPolicy (name : String) (policy : EndpointPolicy) : RecoveryM Unit :=
  if !policy.valid || !d.routes then .ret ()
  else labelled ("remove endpoint policy for " ++ quoted name)
    (service (.removeEndpointPolicy policy))

def releaseParks (name : String) : RecoveryM (List DriverError) := do
  let parks ← attempt (labelled ("release parks for " ++ quoted name) (d.clear name))
  remember fun m => { m with
    ownership := setAt m.ownership name [], baselines := setAt m.baselines name [] }
  let checkpoint ← attempt (labelled ("clear ownership checkpoint for " ++ quoted name)
    (d.writeOwnershipCheckpoint name))
  .ret (parks.toList ++ checkpoint.toList)

/-- The release of a legacy role: a failing part does not keep the others from
    being tried. -/
def releaseLegacy (name : String) (r : RoleEntry) (product : RoleRuntime) : RecoveryM Unit := do
  labelled ("load ownership checkpoint for " ++ quoted name) (d.restoreOwnershipCheckpoint name)
  let (parked, owned) ← peek fun m => ((m.parks name).length, (m.ownership name).length)
  let policy := effectiveEndpointPolicy r.cfg
  let publication ← attempt (d.releasePublication name policy.zone product)
  let endpoint ← attempt (d.releaseEndpointPolicy name policy)
  let rest ← d.releaseParks name
  let errs := publication.toList ++ endpoint.toList ++ rest
  if errs.isEmpty then .ret ()
  else .fail (.incomplete errs (0 < parked) parked owned product.publication.published)

def releaseResources (name : String) : RecoveryM Unit := do
  let (r, product) ← d.role name
  if d.managedSelected name then do
    let errs ← d.releaseManagedSelected name
    if errs.isEmpty then .ret ()
    else .fail (.wrapped ("managed release for " ++ quoted name) (.joined errs))
  else d.releaseLegacy name r product

end RecoveryDriver

-- === Services without faults ===

def DriverSystem.Covered (known : List Prefix) (s : DriverSystem) : Prop :=
  ∀ pfx, pfx ∉ known → s.world.kernel pfx = []

def DriverSystem.listed (d : RecoveryDriver) (known : List Prefix) (s : DriverSystem) :
    KernelState where
  routes := (known.flatMap fun pfx => (s.world.kernel pfx).map (mainRow d.describe pfx)) ++ s.tables
  rules := s.rules

/-- A transaction that fails where an operation cannot be performed, having done
    nothing. -/
def DriverSystem.transact (d : RecoveryDriver) (role : String) (ops : List Operation)
    (s : DriverSystem) : Except String Unit × DriverSystem :=
  match performAll d.describe ops s.host with
  | some h => (.ok (), s.performed role ops h)
  | none => (.error "no such process", s.performed role [] s.host)

def DriverSystem.reconcile (d : RecoveryDriver) (known : List Prefix) (p : EndpointPolicy)
    (remove : Bool) (s : DriverSystem) : Except String Unit × DriverSystem :=
  match endpointPolicyPlan (s.listed d known) p remove with
  | .ok ops => s.transact d p.role ops
  | .error e => (.error e, s)

def recoveryHandle (d : RecoveryDriver) (known : List Prefix) (resolved : EndpointState)
    ⦃β : Type⦄ : RecoveryCall β → DriverSystem → β × DriverSystem
  | .memory f, s => ((f s.memory).1, { s with memory := (f s.memory).2 })
  | .capture role baseline, s => ((), s.captured role baseline)
  | .product f, s => ((f s.world.runtime).1,
      { s with world := { s.world with runtime := (f s.world.runtime).2 } })
  | .observe f, s => (f s.world, s)
  | .selected p, s => ((p.run handle s.world).1, { s with world := (p.run handle s.world).2 })
  | .snapshot, s => (.ok (s.listed d known), s)
  | .apply role ops, s => s.transact d role ops
  | .reconcileEndpointPolicy p, s => (s.wants p).reconcile d known p false
  | .removeEndpointPolicy p, s => s.reconcile d known p true
  | .leshyPublish zone iface, s =>
    if zone = "" ∨ iface = "" then (.error "invalid Leshy publication", s)
    else (.ok (), { s with publications := setAt s.publications zone (some iface) })
  | .leshyWithdraw zone, s => (.ok (), { s with publications := setAt s.publications zone none })
  | .leshyResync _, s => (.ok (), s)
  | .resolveEndpoints _, s => (.ok resolved, s)
  | .readCheckpoint role, s => (s.files role, s)
  | .quarantineCheckpoint role, s => ((), { s with files := setAt s.files role .missing })
  | .writeCheckpoint role c, s => (.ok (), { s with files := setAt s.files role (.found c) })

def RecoveryCall.readsTables ⦃β : Type⦄ : RecoveryCall β → Bool
  | .snapshot | .reconcileEndpointPolicy _ | .removeEndpointPolicy _ => true
  | _ => false

def parksKnown (known : List Prefix) (ops : List Operation) : Bool :=
  ops.all fun
    | .park pfx => decide (pfx ∈ known)
    | _ => true

def RecoveryCall.contained (known : List Prefix) ⦃β : Type⦄ : RecoveryCall β → Bool
  | .selected _ => false
  | .apply _ ops => parksKnown known ops
  | _ => true

section Handle

variable {d : RecoveryDriver} {known : List Prefix} {resolved : EndpointState} {s : DriverSystem}

theorem DriverSystem.Covered.lists (h : s.Covered known) :
    s.host.Lists d.describe (s.listed d known) := by
  refine ⟨⟨_, List.Perm.refl _, fun row => ?_⟩, rfl⟩
  simp only [List.mem_flatMap, List.mem_map]
  constructor
  · rintro ⟨pfx, _, x, hx, rfl⟩
    exact ⟨pfx, x, hx, rfl⟩
  rintro ⟨pfx, x, hx, rfl⟩
  refine ⟨pfx, ?_, x, hx, rfl⟩
  by_contra hnot
  rw [show s.host.main pfx = [] from h pfx hnot] at hx
  cases hx

theorem performs_transact (role : String) (ops : List Operation) (s : DriverSystem) :
    Performs d role ops s (s.transact d role ops).1 (s.transact d role ops).2 := by
  unfold DriverSystem.transact
  cases hops : performAll d.describe ops s.host with
  | some h => exact ⟨ops, h, .inl ⟨rfl, rfl⟩, hops, rfl⟩
  | none => exact ⟨[], s.host, .inr ⟨_, 0, rfl, rfl⟩, rfl, rfl⟩

theorem reconciles_reconcile (h : s.Covered known) (p : EndpointPolicy) (remove : Bool) :
    Reconciles d p remove s (s.reconcile d known p remove).1 (s.reconcile d known p remove).2 := by
  unfold DriverSystem.reconcile
  cases hplan : endpointPolicyPlan (s.listed d known) p remove with
  | ok ops => exact .inr ⟨_, ops, h.lists, hplan, performs_transact p.role ops s⟩
  | error e => exact .inl ⟨e, rfl, rfl⟩

theorem leshy_ok (publications : String → Option String) (s : DriverSystem) :
    Leshy publications s (.ok ()) { s with publications := publications } :=
  ⟨s.world.kernel, publications, fun _ _ _ => Iff.rfl, .inl ⟨rfl, rfl⟩, rfl⟩

theorem recoveryStep_handle ⦃β : Type⦄ (c : RecoveryCall β)
    (h : c.readsTables = true → s.Covered known) :
    RecoveryStep d c s (recoveryHandle d known resolved c s).1
      (recoveryHandle d known resolved c s).2 := by
  cases c with
  | memory f | product f | observe f | readCheckpoint role => exact ⟨rfl, rfl⟩
  | capture role baseline | resolveEndpoints role => rfl
  | selected p => exact ⟨_, _, Prog.exec_run faultStep_handle p s.world, rfl⟩
  | snapshot => exact ⟨rfl, .inl ⟨_, rfl, (h rfl).lists⟩⟩
  | apply role ops => exact performs_transact role ops s
  | reconcileEndpointPolicy p => exact reconciles_reconcile (s := s.wants p) (h rfl) p false
  | removeEndpointPolicy p => exact reconciles_reconcile (h rfl) p true
  | leshyPublish zone iface =>
    simp only [recoveryHandle]
    split_ifs with hempty
    · exact ⟨nofun, s.world.kernel, s.publications, fun _ _ _ => Iff.rfl,
        .inr ⟨_, rfl, .inr rfl⟩, rfl⟩
    · exact ⟨fun _ => not_or.mp hempty, leshy_ok _ s⟩
  | leshyWithdraw zone | leshyResync zone => exact leshy_ok _ s
  | quarantineCheckpoint role => exact .inr rfl
  | writeCheckpoint role c => exact .inl ⟨rfl, rfl⟩

theorem covered_performed {role : String} {ops : List Operation} {h : HostState}
    (hs : s.Covered known) (hops : parksKnown known ops = true)
    (hall : performAll d.describe ops s.host = some h) :
    (s.performed role ops h).Covered known := by
  refine performAll_keeps (h := s.host) (P := fun x => ∀ pfx, pfx ∉ known → x.main pfx = [])
    (fun op hop x x' hx hx' => ?_) hs hall
  cases op with
  | route row | rule rule => cases hx'; exact hx
  | deleteRoute row | deleteRule rule =>
    simp only [perform] at hx'
    split at hx' <;> cases hx'
    exact hx
  | park p =>
    simp only [perform] at hx'
    split at hx' <;> cases hx'
    · exact hx
    intro pfx hpfx
    have hknown : p ∈ known := by simpa using List.all_eq_true.mp hops _ hop
    simp only [withMain, if_neg fun heq : pfx = p => hpfx (heq ▸ hknown)]
    exact hx pfx hpfx
  | deletePark p =>
    simp only [perform] at hx'
    split at hx' <;> cases hx'
    intro pfx hpfx
    simp only [withMain, hx pfx hpfx, List.filter_nil, ite_self]

theorem covered_transact (h : s.Covered known) (role : String) {ops : List Operation}
    (hops : parksKnown known ops = true) : (s.transact d role ops).2.Covered known := by
  unfold DriverSystem.transact
  cases hall : performAll d.describe ops s.host with
  | none => exact h
  | some host => exact covered_performed h hops hall

theorem covered_reconcile (h : s.Covered known) (p : EndpointPolicy) (remove : Bool) :
    (s.reconcile d known p remove).2.Covered known := by
  unfold DriverSystem.reconcile
  cases hplan : endpointPolicyPlan (s.listed d known) p remove with
  | error e => exact h
  | ok ops =>
    refine covered_transact h p.role (List.all_eq_true.mpr fun op hop => ?_)
    have hon := plan_on_endpointTable hplan op hop
    cases op with
    | park pfx => exact hon.elim
    | _ => rfl

theorem covered_handle ⦃β : Type⦄ {c : RecoveryCall β} (hc : c.contained known = true)
    (h : s.Covered known) : (recoveryHandle d known resolved c s).2.Covered known := by
  cases c with
  | selected p => cases hc
  | apply role ops => exact covered_transact h role hc
  | reconcileEndpointPolicy p => exact covered_reconcile (s := s.wants p) h p false
  | removeEndpointPolicy p => exact covered_reconcile h p true
  | leshyPublish zone iface =>
    simp only [recoveryHandle]
    split_ifs <;> exact h
  | _ => exact h

/-- The run of a program that stays with the known prefixes is an execution. -/
theorem exec_contained {p : RecoveryM α} (h : s.Covered known)
    (hall : (p.events (recoveryHandle d known resolved) s).all
      (fun ev => ev.call.contained known) = true) :
    Exec (RecoveryStep d) p s (p.events (recoveryHandle d known resolved) s)
      (Prog.Outcome.of (p.run (recoveryHandle d known resolved) s).1)
      (p.run (recoveryHandle d known resolved) s).2 ∧
    (p.run (recoveryHandle d known resolved) s).2.Covered known :=
  Prog.exec_checked (K := RecoveryCall.contained known) (J := DriverSystem.Covered known)
    (fun _ c _ hc hs => ⟨recoveryStep_handle c fun _ => hs, covered_handle hc hs⟩) hall h

end Handle

end Kikimora.Control

import Kikimora.Control.Transactions

/-!
# Managed parking, withdrawal and restoration

The steps of a managed recovery that work on parks: install the protection of
every record, withdraw the selected rows behind it, and retire the parks once
the selected rows are proven to win.
-/

namespace Kikimora.Control

open Net Routing Platform Kikimora.Core Lib

def noManagedParkWriter : String := "this platform has no managed-park writer"

def showParkIdentity (i : SelectedParkIdentity) : String :=
  "\x7b" ++ i.kind.text ++ " " ++ toString i.table ++ " " ++ toString i.ifIndex ++ " " ++
    i.nextHop ++ " " ++ toString i.protocol ++ " " ++ toString i.metric.toNat ++ " " ++
    toString i.scope ++ " " ++ toString i.interfaceLuid.toNat ++ "\x7d"

-- === Parking ===

/-- `applyParkTransaction`. The record was read before the transition and shows
    the Applying park through the shared park object. -/
def applyParkTransaction (cfg : Config) (role : String) (pfx : Prefix)
    (parkDesired : SelectedParkIdentity) (record : SelectedRoute) : ManagerM Unit := do
  registry (·.markParkApplying role pfx)
  checkpoint cfg role
  let record ← refreshPark role record
  let result ← routes (.reconcileManagedPark role pfx record)
  if result.verified ≠ parkDesired then
    failText ("park reconcile verified " ++ showParkIdentity result.verified ++
      " but the desired identity is " ++ showParkIdentity parkDesired)
  else do
    registry (·.markParkActive role pfx result.verified)
    checkpoint cfg role

def runParkTransaction (cfg : Config) (role : String) (pfx : Prefix)
    (parkDesired : SelectedParkIdentity) (preflight : Bool) : ManagerM Unit := do
  registry (·.reservePark role pfx parkDesired false)
  checkpoint cfg role
  let record ← registryEntryDeref role pfx
  if preflight then routes (.preflightManagedPark pfx parkDesired record) else .ret ()
  let latest ← registryEntryDeref role pfx
  applyParkTransaction cfg role pfx parkDesired latest

def reserveParkAgain (cfg : Config) (role : String) (pfx : Prefix)
    (parkDesired : SelectedParkIdentity) : ManagerM SelectedRoute := do
  registry (·.reservePark role pfx parkDesired true)
  checkpoint cfg role
  registryEntryDeref role pfx

def preflightAndApplyPark (cfg : Config) (role : String) (pfx : Prefix)
    (parkDesired : SelectedParkIdentity) (record : SelectedRoute) : ManagerM Unit := do
  routes (.preflightManagedPark pfx parkDesired record)
  applyParkTransaction cfg role pfx parkDesired record

def resumeParkRetirement (cfg : Config) (role : String) (pfx : Prefix) (park : SelectedPark) :
    ManagerM Unit := do
  routes (.removeManagedPark role pfx park)
  registry (·.clearPark role pfx)
  checkpoint cfg role

/-- `parkOne` resumes the park transaction of one record by its persisted state.
    An unknown state counts as none. -/
def parkOne (cfg : Config) (role : String) (entry : SelectedRoute) : ManagerM Unit := do
  let pfx := entry.pfx
  let parkDesired ← routes (.normalizeManagedPark pfx)
  match entry.park with
  | none => runParkTransaction cfg role pfx parkDesired true
  | some park =>
    match park.state with
    | .pending =>
      if park.desired = parkDesired then preflightAndApplyPark cfg role pfx parkDesired entry
      else do
        let current ← reserveParkAgain cfg role pfx parkDesired
        preflightAndApplyPark cfg role pfx parkDesired current
    | .applying => applyParkTransaction cfg role pfx parkDesired entry
    | .active => do
      let proven ← parkProven pfx parkDesired park
      if proven then .ret ()
      else do
        let refreshed ← reserveParkAgain cfg role pfx parkDesired
        preflightAndApplyPark cfg role pfx parkDesired refreshed
    | .retiring => do
      resumeParkRetirement cfg role pfx park
      runParkTransaction cfg role pfx parkDesired true
    | .other _ => runParkTransaction cfg role pfx parkDesired false
where
  /-- the exact current park is there: zero mutation -/
  parkProven (pfx : Prefix) (parkDesired : SelectedParkIdentity) (park : SelectedPark) :
      ManagerM Bool :=
    match park.owned with
    | some owned =>
      if park.desired = parkDesired then routes (.observeManagedPark pfx owned) else .ret false
    | none => .ret false

def parkRegistered (cfg : Config) (role : String) : ManagerM Unit := do
  let state ← roleState role
  if !state.frozen then
    failText ("ParkRegistered for role " ++ quoted role ++ " requires a frozen role")
  else if !cfg.routesResolved then failText noManagedParkWriter
  else do
    let entries ← snapshot role
    Prog.forEach
      (fun entry => if entry.state = .retiring then .ret () else parkOne cfg role entry) entries

-- === Withdrawal ===

/-- A record whose park has been observed. -/
structure ProtectedRecord where
  record : SelectedRoute
  park : SelectedParkIdentity

def provenPark (entry : SelectedRoute) : Option SelectedParkIdentity :=
  entry.park.bind fun park =>
    if park.state = .active && park.owned = some park.desired then some park.desired else none

def withdrawalPlan (role : String) : List SelectedRoute → ManagerM (List ProtectedRecord)
  | [] => .ret []
  | entry :: entries =>
    if entry.state = .retiring then withdrawalPlan role entries
    else match provenPark entry with
      | none =>
        failText ("withdraw " ++ role ++ ": record " ++ entry.pfx.toString ++
          " has no exact Active park")
      | some park => do
        let present ← routes (.observeManagedPark entry.pfx park)
        if !present then
          failText ("withdraw " ++ role ++ ": the recorded park for " ++ entry.pfx.toString ++
            " is missing")
        else do
          let plan ← withdrawalPlan role entries
          .ret (⟨entry, park⟩ :: plan)

def verifyProtection (role : String) (item : ProtectedRecord) : ManagerM Unit := do
  let present ← routes (.observeManagedPark item.record.pfx item.park)
  if !present then
    failText ("withdraw " ++ role ++ ": the park for " ++ item.record.pfx.toString ++
      " vanished during the withdrawal")
  else .ret ()

def withdrawSelected (cfg : Config) (role : String) : ManagerM Unit := do
  let state ← roleState role
  if !state.frozen then
    failText ("WithdrawSelected for role " ++ quoted role ++ " requires a frozen role")
  else if !cfg.routesResolved then failText noSelectedRouteWriter
  else do
    let entries ← snapshot role
    let plan ← withdrawalPlan role entries
    Prog.forEach (fun item => routes (.removeSelectedRoute item.record)) plan
    Prog.forEach (verifyProtection role) plan

-- === Restoration ===

/-- The row scan before the unpark: is the exact selected row there, and nothing
    that does not belong. -/
def scanBeforeUnpark (pfx : Prefix) (desired : SelectedRouteIdentity)
    (park : SelectedParkIdentity) : List SelectedKernelRow → Bool → Except ManagerError Bool
  | [], selectedPresent => .ok selectedPresent
  | .foreign text :: _, _ => .error (.text ("unpark " ++ pfx.toString ++ ": foreign row " ++ text))
  | .park i :: rows, selectedPresent =>
    if i ≠ park then
      .error (.text ("unpark " ++ pfx.toString ++ ": unexpected park row " ++ showParkIdentity i))
    else scanBeforeUnpark pfx desired park rows selectedPresent
  | .route i :: rows, selectedPresent =>
    scanBeforeUnpark pfx desired park rows (selectedPresent || i = desired)

def scanAfterUnpark (pfx : Prefix) (desired : SelectedRouteIdentity)
    (park : SelectedParkIdentity) (rows : List SelectedKernelRow) : Except ManagerError Unit :=
  if .park park ∈ rows then
    .error (.text ("unpark " ++ pfx.toString ++
      ": the persisted park identity is still present after the delete"))
  else if .route desired ∉ rows then
    .error (.text ("unpark " ++ pfx.toString ++
      ": the exact selected identity vanished during the unpark"))
  else .ok ()

def proveRestored (entry : SelectedRoute) (park : SelectedParkIdentity) : ManagerM Unit := do
  let rows ← routes .snapshotSelectedRoutes
  let selectedPresent ← .ofExcept (scanBeforeUnpark entry.pfx entry.desired park (rows entry.pfx)
    false)
  if !selectedPresent then .fail .parkNotProven
  else do
    let wins ← routes (.selectedWinsOverPark entry.pfx entry.desired park)
    if !wins then
      .fail (.restorationNotWinning entry.pfx entry.desired.metric park.metric)
    else .ret ()

/-- The exact unpark, after the proof. The park object is shared with the
    registry, so the call sees the Retiring park. -/
def unpark (cfg : Config) (role : String) (entry : SelectedRoute) (owned : SelectedParkIdentity) :
    ManagerM Unit := do
  registry (·.markParkRetiring role entry.pfx)
  checkpoint cfg role
  let record ← refreshPark role entry
  match record.park with
  | none => .fail .nilRecord
  | some park => do
    routes (.removeManagedPark role entry.pfx park)
    let after ← routes .snapshotSelectedRoutes
    .ofExcept (scanAfterUnpark entry.pfx entry.desired owned (after entry.pfx))
    registry (·.clearPark role entry.pfx)
    checkpoint cfg role

def retireProvenPark (cfg : Config) (role : String) (entry : SelectedRoute) (park : SelectedPark) :
    ManagerM Unit :=
  if entry.state ≠ .active ∨ entry.owned ≠ some entry.desired then .fail .parkNotProven
  else if park.owned ≠ some park.desired then .fail .parkNotProven
  else do
    let present ← routes (.observeManagedPark entry.pfx park.desired)
    if present then proveRestored entry park.desired else .ret ()
    unpark cfg role entry park.desired

def observeRestorationOne (cfg : Config) (role : String) (entry : SelectedRoute) : ManagerM Unit :=
  match entry.park with
  | none => .ret ()
  | some park =>
    match park.state with
    | .pending | .applying => .fail .routesStillParked
    | .active =>
      -- a park that is not proven yet stays
      (retireProvenPark cfg role entry park).tryCatch fun e =>
        if e = .parkNotProven then .ret () else .fail e
    | .retiring => resumeParkRetirement cfg role entry.pfx park
    | .other _ => .ret ()

def observeRestoration (cfg : Config) (role : String) : ManagerM Unit :=
  if !cfg.routesResolved then failText noManagedParkWriter
  else do
    let _ ← roleState role
    let entries ← snapshot role
    Prog.forEach (observeRestorationOne cfg role) entries
    let entries ← snapshot role
    if entries.any (·.park.isSome) then .fail .routesStillParked else .ret ()

-- === A sample world ===

def samplePlatform : RoutePlatform where
  normalizeSelectedRoute desired := .ok (sampleIdentity desired.ifIndex)
  normalizeManagedPark _ := .ok samplePark

def sampleRuntime (ifIndex : Int) : RoleRuntime :=
  { desired := true, toadGeneration := 1,
    toad := { generation := 1, state := "ready", routeReady := true, ifIndex := ifIndex,
              interfaceName := "tun0" } }

def healthyRuntime (ifIndex : Int) : RoleRuntime :=
  { sampleRuntime ifIndex with
    validation := { healthy := true, families := { ipv4 := { ready := true } } } }

def activeOps (ifIndex : Int) : List RegistryOp :=
  [.reserve (sampleReservation ifIndex), .record "work" samplePrefix .markApplying,
    .record "work" samplePrefix (.markActive (sampleIdentity ifIndex))]

def parkedOps (transitions : List RecordTransition) : List RegistryOp :=
  activeOps 7 ++ (.reservePark samplePark false :: transitions).map (.record "work" samplePrefix)

/-- The frozen role `work` with the records that the operations leave, the given
    rows at the sample prefix, and its Toad on the given interface. -/
def sampleWorld (ops : List RegistryOp) (rows : List SelectedKernelRow) (ifIndex : Int) : World :=
  { memory := { registry := runOps ops .empty,
                roles := fun id => if id = "work" then some { frozen := true } else none }
    kernel := fun pfx => if pfx = samplePrefix then rows else []
    platform := samplePlatform
    runtime := fun id => if id = "work" then some (sampleRuntime ifIndex) else none }

theorem wellFormed_sampleWorld (ops : List RegistryOp) (rows : List SelectedKernelRow)
    (ifIndex : Int) : (sampleWorld ops rows ifIndex).registry.WellFormed :=
  wellFormed_run ops MemorySelectedRegistry.wellFormed_empty

end Kikimora.Control

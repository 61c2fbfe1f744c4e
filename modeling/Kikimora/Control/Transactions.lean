import Kikimora.Control.Manager

/-!
# The selected-route transactions

The two transactions through which every caller goes: reconciling a record and
retiring one. Ensure, Restore, Forget, Flush and the observers are built on
them.
-/

namespace Kikimora.Control

open Net Routing Kikimora.Core Lib

def failText {α : Type} (message : String) : ManagerM α := .fail (.text message)

def noSelectedRouteWriter : String := "this platform has no selected-route writer"

def showIdentity (i : SelectedRouteIdentity) : String :=
  "\x7b" ++ toString i.table ++ " " ++ toString i.ifIndex ++ " " ++ i.nextHop ++ " " ++
    toString i.protocol ++ " " ++ toString i.metric.toNat ++ " " ++ toString i.scope ++ " " ++
    toString i.interfaceLuid.toNat ++ "\x7d"

-- === Verification tokens ===

/-- `mintVerificationToken`: the token carries the generation of the role as it
    is now, not the one of the record. -/
def Memory.mintToken (m : Memory) (role : String) (entry : SelectedRoute) : Memory :=
  match m.roles role with
  | none => m
  | some state =>
    let token := ⟨entry.toadGeneration, state.routeGeneration, entry.desired⟩
    m.setRole role { state with
      verification := fun p => if p = entry.pfx then some token else state.verification p }

def mintVerificationToken (role : String) (entry : SelectedRoute) : ManagerM Unit :=
  memory fun m => ((), m.mintToken role entry)

def Memory.keepVerification (m : Memory) (keep : Prefix → SelectedVerification → Bool) : Memory :=
  { m with roles := fun id => (m.roles id).map fun state => { state with
      verification := fun p => (state.verification p).filter (keep p) } }

def Memory.clearVerificationForPrefix (m : Memory) (pfx : Prefix) : Memory :=
  m.keepVerification fun p _ => p ≠ pfx

def clearVerificationForPrefix (pfx : Prefix) : ManagerM Unit :=
  memory fun m => ((), m.clearVerificationForPrefix pfx)

variable {cfg : Config} {role : String} {w : World}

@[simp] theorem Memory.registry_mintToken (m : Memory) (role : String) (entry : SelectedRoute) :
    (m.mintToken role entry).registry = m.registry := by
  unfold mintToken
  split <;> rfl

-- === Reconciling a record ===

/-- `driveTransaction`: the authorized tail. The answer tells whether the kernel
    was changed. -/
def driveTransaction (cfg : Config) (role : String) (record : SelectedRoute) : ManagerM Bool :=
  if record.state ≠ .applying then
    failText ("drive " ++ record.pfx.toString ++ " requires state applying, got " ++
      quoted record.state.text)
  else do
    let desired : SelectedRouteDesired := ⟨role, record.pfx, record.desired.ifIndex, .zero⟩
    let result ← routes (.reconcileSelectedRoute desired record)
    if result.verified ≠ record.desired then
      failText ("reconcile verified " ++ showIdentity result.verified ++
        " but the desired identity is " ++ showIdentity record.desired)
    else do
      registry (·.markActive role record.pfx result.verified)
      checkpoint cfg role
      mintVerificationToken role record
      .ret result.mutated

def reconcilePending (cfg : Config) (role : String) (pfx : Prefix) (record : SelectedRoute) :
    ManagerM Bool := do
  (routes (.preflightSelectedRoute pfx record.desired record)).tryCatch fun e =>
    if isForeignRowError e then .fail (.conflict role record.zone pfx.toString) else .fail e
  registry (·.markApplying role pfx)
  checkpoint cfg role
  let record ← registryEntryDeref role pfx
  driveTransaction cfg role record

def reconcileRecordLocked (cfg : Config) (role : String) (pfx : Prefix) : ManagerM Bool :=
  if !cfg.routesResolved then failText noSelectedRouteWriter
  else (registryEntry role pfx).bind fun
    | none => failText ("reconcile " ++ pfx.toString ++ ": the record is not registered")
    | some record =>
      match record.state with
      | .active => do
        registry (·.beginRepair role pfx)
        checkpoint cfg role
        let record ← registryEntryDeref role pfx
        reconcilePending cfg role pfx record
      | .pending => reconcilePending cfg role pfx record
      -- already authorized: no second preflight and no checkpoint
      | .applying => driveTransaction cfg role record
      | .retiring =>
        failText ("reconcile " ++ pfx.toString ++ ": a retiring record is owned by retirement")
      | .other text =>
        failText ("reconcile " ++ pfx.toString ++ ": unknown state " ++ quoted text)

-- === Retiring a record ===

def beginRetirement (cfg : Config) (role : String) (pfx : Prefix) (record : SelectedRoute) :
    ManagerM SelectedRoute :=
  if record.state = .retiring then .ret record
  else do
    registry (·.markRetiring role pfx)
    checkpoint cfg role
    registryEntryDeref role pfx

def resumeParkRetirementLocked (cfg : Config) (role : String) (pfx : Prefix) : ManagerM Unit :=
  (registryEntry role pfx).bind fun record =>
    match record.bind SelectedRoute.park with
    | none => .ret ()
    | some park => do
      routes (.removeManagedPark role pfx park)
      registry (·.clearPark role pfx)
      checkpoint cfg role

def retirePark (cfg : Config) (role : String) (pfx : Prefix) (record : SelectedRoute) :
    ManagerM Unit :=
  match record.park.map SelectedPark.state with
  | some .pending => do
    -- cleared without a delete, whatever the park owns
    registry (·.clearPark role pfx)
    checkpoint cfg role
  | some .applying | some .active => do
    registry (·.markParkRetiring role pfx)
    checkpoint cfg role
    resumeParkRetirementLocked cfg role pfx
  | some .retiring => resumeParkRetirementLocked cfg role pfx
  | some (.other _) | none => .ret ()

def retireRecordLocked (cfg : Config) (role : String) (pfx : Prefix) : ManagerM Unit :=
  if !cfg.routesResolved then failText noSelectedRouteWriter
  else (registryEntry role pfx).bind fun
    | none => .ret ()
    | some record => do
      let record ← beginRetirement cfg role pfx record
      routes (.removeSelectedRoute record)
      retirePark cfg role pfx record
      registry fun r => (.ok (), r.remove role pfx)
      checkpoint cfg role
      clearVerificationForPrefix pfx

/-- The body of `FlushZone` under the apply lock: a failing record does not stop
    the batch, and the first error is reported at the end. -/
def flushZoneLocked (cfg : Config) (role zone : String) (generation : UInt64) : ManagerM Unit := do
  let entries ← snapshot role
  let firstErr ← retireAll (entries.filter (·.zone = zone)) none
  let err ← ((writeCheckpoint cfg role generation).bind fun _ => .ret none).tryCatch
    fun e => .ret (some e)
  match firstErr.or err with
  | none => .ret ()
  | some e => .fail e
where
  retireAll : List SelectedRoute → Option ManagerError → ManagerM (Option ManagerError)
    | [], firstErr => .ret firstErr
    | entry :: entries, firstErr => do
      let err ← ((retireRecordLocked cfg role entry.pfx).bind fun _ => .ret none).tryCatch
        fun e => .ret (some e)
      retireAll entries (firstErr.or err)

-- === Ensure, Restore, Freeze ===

/-- What `ensure` captured before it took the apply lock. -/
structure EnsureRequest where
  zone : String
  pfx : Prefix
  source : SelectedRouteSource
  ifIndex : Int
  iface : String
  generation : UInt64
  toadGeneration : UInt64
  deriving DecidableEq, Repr

/-- The zero-I/O decision: a token for exactly this target and an Active record
    that still has it. -/
def fastPath (m : Memory) (role : String) (a : EnsureRequest) (fastPathAllowed : Bool)
    (identity : SelectedRouteIdentity) : Bool :=
  ((m.roleState role).verification a.pfx).any (fun token =>
    fastPathAllowed && token.identity = identity && token.toadGeneration = a.toadGeneration &&
      token.routeGeneration = a.generation) &&
  (m.registry.snapshot role).any fun entry =>
    entry.pfx = a.pfx && entry.state = .active && entry.zone = a.zone && entry.source = a.source &&
      entry.desired = identity && entry.owned = some entry.desired

def EnsureRequest.reservation (a : EnsureRequest) (role : String)
    (identity : SelectedRouteIdentity) : Reservation :=
  ⟨role, a.zone, a.pfx, a.source, a.toadGeneration, a.generation, a.iface, identity⟩

/-- `applySelectedRouteCanonical`; `fastPathAllowed` is the answer of the
    observation gate. The answer tells whether nothing had to be done. -/
def applySelectedRouteCanonical (cfg : Config) (role : String) (a : EnsureRequest)
    (fastPathAllowed : Bool) : ManagerM Bool :=
  if !cfg.routesResolved then
    .fail (.denied role a.zone a.pfx.toString noSelectedRouteWriter)
  else do
    let identity ← routes (.normalizeSelectedRoute ⟨role, a.pfx, a.ifIndex, .zero⟩)
    let fast ← memory fun m =>
      (fastPath m role a fastPathAllowed identity, m.setRole role (m.roleState role))
    if fast then .ret true
    else do
      registry (·.reserve (a.reservation role identity))
      (writeCheckpoint cfg role a.generation).tryCatch fun e =>
        .fail (.wrapped "checkpoint reserved ownership" e)
      let mutated ← (reconcileRecordLocked cfg role a.pfx).tryCatch fun e =>
        if isForeignRowError e then .fail (.conflict role a.zone a.pfx.toString) else .fail e
      .ret !mutated

/-- `Restore` leaves the record alone: a DNS record that is no host prefix, a
    retiring one, one of a family that is not ready, or one that is Active on
    the current interface. -/
def restoreSkips (ifIndex : Int) (v4Ready v6Ready : Bool) (entry : SelectedRoute) : Bool :=
  (entry.source = .dns && !isHostPrefix entry.pfx) || entry.state = .retiring ||
    (if entry.pfx.addr.is4 then !v4Ready else !v6Ready) ||
    (entry.state = .active && entry.owned = some entry.desired && entry.desired.ifIndex = ifIndex)

def restoreOne (cfg : Config) (role : String) (runtime : RoleRuntime) (v4Ready v6Ready : Bool)
    (entry : SelectedRoute) : ManagerM Unit :=
  if restoreSkips runtime.toad.ifIndex v4Ready v6Ready entry then .ret ()
  else do
    let identity ← routes (.normalizeSelectedRoute ⟨role, entry.pfx, runtime.toad.ifIndex, .zero⟩)
    let generation ← routeGenerationLocked role
    registry (·.reserve ⟨role, entry.zone, entry.pfx, entry.source, runtime.toadGeneration,
      generation, runtime.toad.interfaceName, identity⟩)
    let _ ← reconcileRecordLocked cfg role entry.pfx
    .ret ()

def restore (cfg : Config) (role : String) (v4Ready v6Ready : Bool) : ManagerM Unit :=
  if !cfg.routesResolved then failText noSelectedRouteWriter
  else (roleRuntime role).bind fun
    | none => failText ("role " ++ quoted role ++ " is not configured in the product state")
    | some runtime => do
      let _ ← roleState role
      if runtime.toad.ifIndex ≤ 0 then
        failText ("role " ++ quoted role ++ " has no managed interface to restore onto")
      else do
        let entries ← snapshot role
        Prog.forEach (restoreOne cfg role runtime v4Ready v6Ready) entries
        checkpoint cfg role

def freeze (role : String) : ManagerM (List SelectedRoute × UInt64) :=
  memory fun m =>
    let state := m.roleState role
    ((m.registry.snapshot role, state.routeGeneration),
      m.setRole role { state with frozen := true })

def unfreeze (role : String) : ManagerM UInt64 :=
  memory fun m =>
    let state := m.roleState role
    let next := { state with frozen := false, routeGeneration := state.routeGeneration + 1 }
    (next.routeGeneration, m.setRole role next)

-- === Startup ===

/-- The role state that `restoreManagedCheckpoints` seeds: the next route
    generation, and frozen while there is anything to restore. -/
def seededRole (c : SelectedRoutesCheckpoint) : SelectedRoleState :=
  let pending := !(c.entries.getD []).isEmpty
  { frozen := pending, restorePending := pending, routeGeneration := max 1 (c.routeGeneration + 1) }

/-- A new process restores one managed role: a missing file is an empty role, a
    file that does not validate or is of another platform fails the startup. -/
def restart (cfg : Config) (role : String) (w : World) : Except String World :=
  match if cfg.stateDir role then w.disk role else none with
  | none => .ok (w.withMemory {})
  | some c =>
    match validateSelectedRoutesCheckpoint c c.role "" with
    | .error e => .error ("selected-routes checkpoint is invalid: " ++ e)
    | .ok () =>
      if c.platform ≠ cfg.platform then
        .error ("platform " ++ quoted c.platform ++ " does not match this runtime")
      else match MemorySelectedRegistry.empty.restoreRole c with
        | (.error e, _) => .error ("restore managed checkpoint: " ++ e)
        | (.ok (), r) =>
          .ok (w.withMemory (({ registry := r } : Memory).setRole role (seededRole c)))

def restarted (cfg : Config) (role : String) (w : World) : World :=
  (restart cfg role w).toOption.getD w

theorem restart_of_isOk (h : (restart cfg role w).isOk = true) :
    restart cfg role w = .ok (restarted cfg role w) := by
  unfold restarted
  cases hw : restart cfg role w with
  | error e =>
    rw [hw] at h
    cases h
  | ok w' => rfl

theorem wellFormed_restart {w' : World} (h : restart cfg role w = .ok w') :
    w'.registry.WellFormed := by
  unfold restart at h
  split at h
  · cases h
    exact MemorySelectedRegistry.wellFormed_empty
  next c _ =>
  split at h
  · cases h
  split_ifs at h
  have hw := wellFormed_apply MemorySelectedRegistry.wellFormed_empty (.restoreRole c)
  simp only [RegistryOp.apply] at hw
  split at h
  · cases h
  next r hr =>
  cases h
  rw [hr] at hw
  exact hw

/-- A checkpoint of a well-formed registry with persistable records gives the role
    its records back. -/
theorem restart_checkpointOf {r : MemorySelectedRegistry} {generation : UInt64} (hrole : role ≠ "")
    (hdir : cfg.stateDir role = true)
    (hplat : cfg.platform = checkpointPlatformLinux ∨ cfg.platform = checkpointPlatformWindows)
    (hw : r.WellFormed) (hp : r.Persistable role "")
    (hd : w.disk role = some (checkpointOf r role cfg.platform generation)) :
    ∃ w', restart cfg role w = .ok w' ∧ w'.kernel = w.kernel ∧ w'.platform = w.platform ∧
      ∀ pfx, w'.registry.lookup ⟨role, pfx⟩ = r.lookup ⟨role, pfx⟩ := by
  have hv := validate_checkpointOf hw hp hplat generation
  have hr := MemorySelectedRegistry.empty.restoreRole_of_validate hrole hv
  let restored : Memory := { registry := .setAll .empty (r.snapshot role) }
  refine ⟨w.withMemory (restored.setRole role (seededRole (checkpointOf r role cfg.platform
    generation))), ?_, rfl, rfl, fun pfx => ?_⟩
  · have hrole' : (checkpointOf r role cfg.platform generation).role = role := rfl
    have hplat' : (checkpointOf r role cfg.platform generation).platform = cfg.platform := rfl
    simp only [restart, hdir, if_true, hd, hrole', hv, hplat', hr, ne_eq, not_true_eq_false,
      if_false]
    rfl
  · exact (lookup_setAll_snapshot hw role ⟨role, pfx⟩).trans (if_pos rfl)

end Kikimora.Control

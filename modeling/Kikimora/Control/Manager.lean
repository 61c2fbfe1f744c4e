import Kikimora.Core.Model
import Kikimora.Lib.Prog
import Kikimora.Platform.RouteManager

/-!
# The selected-route manager

The state behind `SelectedRouteManager`, the effects its operations have, and
what an effect does to the world: without faults, and when the platform or the
disk may fail.

A caller of an operation holds the role's apply lock for the whole transaction,
so that an operation is a sequential program. The failpoints are not set in
production and are left out, as are the counters.
-/

namespace Kikimora.Control

open Net Routing Platform Kikimora.Core Lib

-- === State ===

/-- `selectedVerification`: the proof behind the zero-I/O fast path. -/
structure SelectedVerification where
  toadGeneration : UInt64
  routeGeneration : UInt64
  identity : SelectedRouteIdentity
  deriving DecidableEq, Repr

/-- `selectedRoleState`. The route generation of a new role is 1. -/
structure SelectedRoleState where
  frozen : Bool := false
  routeGeneration : UInt64 := 1
  restorePending : Bool := false
  integrityQuarantined : Bool := false
  integrityReason : String := ""
  verification : Prefix → Option SelectedVerification := fun _ => none

/-- What is lost in a crash. -/
structure Memory where
  registry : MemorySelectedRegistry := .empty
  roles : String → Option SelectedRoleState := fun _ => none

def Memory.roleState (m : Memory) (role : String) : SelectedRoleState := (m.roles role).getD {}

def Memory.setRole (m : Memory) (role : String) (state : SelectedRoleState) : Memory :=
  { m with roles := fun id => if id = role then some state else m.roles id }

@[simp] theorem Memory.registry_setRole (m : Memory) (role : String) (state : SelectedRoleState) :
    (m.setRole role state).registry = m.registry := rfl

@[simp] theorem Memory.roleState_setRole (m : Memory) (role : String) (state : SelectedRoleState) :
    (m.setRole role state).roleState role = state := by
  simp [roleState, setRole]

/-- How the manager is wired. -/
structure Config where
  /-- a platform writer is present -/
  routesResolved : Bool := true
  /-- the role has a state directory -/
  stateDir : String → Bool := fun _ => true
  /-- `RuntimeCheckpointPlatform` -/
  platform : String := checkpointPlatformLinux

/-- What the manager tells its owner. -/
inductive Notice
  /-- `requestManagedSelectedRecovery` -/
  | requestRecovery (role reason : String)
  /-- `SetRoleDiagnostic` -/
  | diagnostic (role text : String)
  deriving DecidableEq, Repr

/-- The manager's memory, the kernel, the checkpoint files, what the platform and
    the product report at the moment, and what the owner has been told, newest
    first. -/
structure World where
  memory : Memory := {}
  kernel : Kernel := fun _ => []
  disk : String → Option SelectedRoutesCheckpoint := fun _ => none
  platform : RoutePlatform
  runtime : String → Option RoleRuntime := fun _ => none
  notices : List Notice := []

namespace World

abbrev registry (w : World) : MemorySelectedRegistry := w.memory.registry

def withMemory (w : World) (m : Memory) : World := { w with memory := m }

def withRegistry (w : World) (r : MemorySelectedRegistry) : World :=
  { w with memory := { w.memory with registry := r } }

def withKernel (w : World) (k : Kernel) : World := { w with kernel := k }

def written (w : World) (role : String) (c : SelectedRoutesCheckpoint) : World :=
  { w with disk := fun id => if id = role then some c else w.disk id }

/-- A read of the role state registers the role. -/
abbrev touched (w : World) (role : String) : World :=
  w.withMemory (w.memory.setRole role (w.memory.roleState role))

variable (w : World)

include w

@[simp] theorem registry_withMemory (m : Memory) : (w.withMemory m).registry = m.registry := rfl

@[simp] theorem registry_withRegistry (r : MemorySelectedRegistry) : (w.withRegistry r).registry = r
    := rfl

@[simp] theorem disk_written_self (role : String) (c : SelectedRoutesCheckpoint) :
    (w.written role c).disk role = some c := by
  simp [written]

end World

-- === Effects ===

/-- The effects of an operation, by the type of their answer. Steps inside the
    process cannot fail; the disk and the platform can. -/
inductive Effect : Type → Type 1
  | memory {β : Type} (f : Memory → β × Memory) : Effect β
  | roleRuntime (role : String) : Effect (Option RoleRuntime)
  | notify (notice : Notice) : Effect Unit
  | writeCheckpoint (role : String) (c : SelectedRoutesCheckpoint) : Effect (Except String Unit)
  | routes {β : Type} (c : RouteCall β) : Effect (Except String β)

def handle ⦃β : Type⦄ : Effect β → World → β × World
  | .memory f, w => ((f w.memory).1, w.withMemory (f w.memory).2)
  | .roleRuntime role, w => (w.runtime role, w)
  | .notify notice, w => ((), { w with notices := notice :: w.notices })
  | .writeCheckpoint role c, w => (.ok (), w.written role c)
  | .routes c, w =>
    ((c.plan w.platform w.kernel).1,
      w.withKernel (applyAll (c.plan w.platform w.kernel).2 w.kernel))

/-- The outcomes of an effect when the disk and the platform may fail: any effect
    may do as without faults, a failing write may or may not have reached the
    disk, and a failing call may have issued any number of its mutations. -/
def FaultStep ⦃β : Type⦄ (c : Effect β) (w : World) (b : β) (w' : World) : Prop :=
  (b = (handle c w).1 ∧ w' = (handle c w).2) ∨
    match c, b with
    | .writeCheckpoint role c, b => ∃ e, b = .error e ∧ (w' = w ∨ w' = w.written role c)
    | .routes c, b => ∃ n e, b = .error e ∧
        w' = w.withKernel (applyAll ((c.plan w.platform w.kernel).2.take n) w.kernel)
    | _, _ => False

theorem faultStep_handle ⦃β : Type⦄ (c : Effect β) (w : World) :
    FaultStep c w (handle c w).1 (handle c w).2 :=
  .inl ⟨rfl, rfl⟩

theorem FaultStep.runtime_eq ⦃β : Type⦄ {c : Effect β} {w w' : World} {b : β}
    (h : FaultStep c w b w') : w'.runtime = w.runtime := by
  cases c with
  | writeCheckpoint id c => obtain ⟨_, rfl⟩ | ⟨_, _, rfl | rfl⟩ := h <;> rfl
  | routes c => obtain ⟨_, rfl⟩ | ⟨_, _, _, rfl⟩ := h <;> rfl
  | _ =>
    obtain ⟨_, rfl⟩ | h := h
    · rfl
    · exact h.elim

-- === Errors ===

/-- The errors of the manager. Those that a caller tells apart are constructors,
    any other is its text. -/
inductive ManagerError
  | text (message : String)
  /-- `parking.ErrRoutesStillParked` -/
  | routesStillParked
  /-- `errParkNotProven` -/
  | parkNotProven
  /-- `errRestorationNotWinning`, with the prefix and the two metrics -/
  | restorationNotWinning (pfx : Prefix) (selected park : UInt32)
  /-- `SelectedRouteDeniedError` -/
  | denied (role zone pfx reason : String)
  /-- `SelectedRouteConflictError` -/
  | conflict (role zone pfx : String)
  /-- an error under a label, as `%w` wraps it -/
  | wrapped (label : String) (cause : ManagerError)
  /-- a nil record is dereferenced -/
  | nilRecord
  deriving DecidableEq, Repr

def ManagerError.message : ManagerError → String
  | text m => m
  | routesStillParked => "selected routes still parked"
  | parkNotProven => "parked restoration is not proven yet"
  | restorationNotWinning pfx selected park =>
    "unpark " ++ pfx.toString ++
      ": restored selected route does not win over the park (selected " ++
      toString selected.toNat ++ " vs park " ++ toString park.toNat ++ ")"
  | denied role _ pfx reason =>
    "route " ++ pfx ++ " denied for role " ++ quoted role ++ ": " ++ reason
  | conflict role _ pfx =>
    "route " ++ pfx ++ " conflicts with a foreign row for role " ++ quoted role
  | wrapped label cause => label ++ ": " ++ cause.message
  | nilRecord => "runtime error: invalid memory address or nil pointer dereference"

def isForeignRowError (e : ManagerError) : Bool :=
  decide ("conflicts with a foreign row".toList <:+: e.message.toList)

-- === Primitives ===

abbrev ManagerM := Prog ManagerError Effect

def memory {β : Type} (f : Memory → β × Memory) : ManagerM β := Prog.perform (.memory f)

def registry (op : MemorySelectedRegistry → RegistryResult) : ManagerM Unit :=
  (memory fun m => ((op m.registry).1, { m with registry := (op m.registry).2 })).bind fun r =>
    Prog.ofExcept (r.mapError .text)

def snapshot (role : String) : ManagerM (List SelectedRoute) :=
  memory fun m => (m.registry.snapshot role, m)

def roleState (role : String) : ManagerM SelectedRoleState :=
  memory fun m => (m.roleState role, m.setRole role (m.roleState role))

def modifyRole (role : String) (f : SelectedRoleState → SelectedRoleState) : ManagerM Unit :=
  memory fun m => ((), m.setRole role (f (m.roleState role)))

def registryEntryOf (r : MemorySelectedRegistry) (role : String) (pfx : Prefix) :
    Option SelectedRoute :=
  (r.snapshot role).find? fun entry => entry.pfx = pfx

def registryEntry (role : String) (pfx : Prefix) : ManagerM (Option SelectedRoute) :=
  memory fun m => (registryEntryOf m.registry role pfx, m)

def registryEntryDeref (role : String) (pfx : Prefix) : ManagerM SelectedRoute :=
  (registryEntry role pfx).bind fun
    | some record => .ret record
    | none => .fail .nilRecord

/-- A record that was read earlier shares its park object with the registry, so
    it shows the park as it is now. -/
def sharedPark (r : MemorySelectedRegistry) (role : String) (record : SelectedRoute) :
    SelectedRoute :=
  match record.park with
  | none => record
  | some _ => { record with park := (r.lookup ⟨role, record.pfx⟩).bind SelectedRoute.park }

def refreshPark (role : String) (record : SelectedRoute) : ManagerM SelectedRoute :=
  memory fun m => (sharedPark m.registry role record, m)

def routeGenerationLocked (role : String) : ManagerM UInt64 :=
  memory fun m =>
    ((m.roleState role).routeGeneration, m.setRole role (m.roleState role))

def writeCheckpoint (cfg : Config) (role : String) (generation : UInt64) : ManagerM Unit :=
  if !cfg.stateDir role then .ret ()
  else (memory fun m => (checkpointOf m.registry role cfg.platform generation, m)).bind fun c =>
    (Prog.perform (.writeCheckpoint role c)).bind fun r => Prog.ofExcept (r.mapError .text)

def checkpoint (cfg : Config) (role : String) : ManagerM Unit :=
  (routeGenerationLocked role).bind (writeCheckpoint cfg role)

def routes {β : Type} (c : RouteCall β) : ManagerM β :=
  (Prog.perform (.routes c)).bind fun r => Prog.ofExcept (r.mapError .text)

def roleRuntime (role : String) : ManagerM (Option RoleRuntime) :=
  Prog.perform (.roleRuntime role)

def notify (notice : Notice) : ManagerM Unit := Prog.perform (.notify notice)

theorem registryEntryOf_eq {r : MemorySelectedRegistry} (h : r.WellFormed) (role : String)
    (pfx : Prefix) : registryEntryOf r role pfx = r.lookup ⟨role, pfx⟩ := by
  unfold registryEntryOf
  cases hl : r.lookup ⟨role, pfx⟩ with
  | none =>
    refine List.find?_eq_none.mpr fun e he hp => ?_
    have := h.mem_snapshot_iff.mp he
    rw [of_decide_eq_true hp, hl] at this
    cases this
  | some e =>
    have hpfx : e.pfx = pfx := h.pfx_eq hl
    have hmem : e ∈ r.snapshot role := h.mem_snapshot_iff.mpr (hpfx ▸ hl)
    cases hf : (r.snapshot role).find? fun entry => entry.pfx = pfx with
    | none => exact absurd (decide_eq_true hpfx) (List.find?_eq_none.mp hf e hmem)
    | some e' =>
      have hpfx' : e'.pfx = pfx := by simpa using List.find?_some hf
      have hl' := h.mem_snapshot_iff.mp (List.mem_of_find?_eq_some hf)
      rw [hpfx', hl] at hl'
      exact hl'.symm

end Kikimora.Control

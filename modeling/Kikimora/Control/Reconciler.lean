import Kikimora.Control.Admission

/-!
# The background reconciler

The safety audit over all managed roles, the initial authority proof, and the
runs in which the reconciler's transactions are interleaved with everything else
that the manager, the product and the kernel do.

The managed roles come from a map, so their order is a parameter. The observation
sequence around the snapshot and the single flight of the audits are modelled
with the observation gate.
-/

namespace Kikimora.Control

open Net Routing Platform Lib

-- === The audit ===

/-- The record counts for the end of the startup freeze: it is Active, without a
    park, and has a token of the current generation. -/
def SelectedRoleState.provesStartup (state : SelectedRoleState) (entry : SelectedRoute) : Bool :=
  entry.state = .active && entry.owned = some entry.desired && entry.park.isNone &&
    (state.verification entry.pfx).any fun token =>
      token.identity = entry.desired && token.toadGeneration = entry.toadGeneration &&
        token.routeGeneration = state.routeGeneration

def completeStartupRestore (role : String) : ManagerM Bool :=
  memory fun m =>
    match m.roles role with
    | none => (false, m)
    | some state =>
      if (m.registry.snapshot role).all state.provesStartup then
        (true, m.setRole role { state with frozen := false, restorePending := false })
      else (false, m)

/-- The record loop of `reconcileSnapshotChecked` for one role; the answer is
    `complete`. A record that has changed since the listing is skipped, and the
    first error ends the whole reconciliation. -/
def auditEntries (cfg : Config) (role : String) (rows : Kernel) :
    List SelectedRoute → Bool → ManagerM Bool
  | [], complete => .ret complete
  | entry :: entries, complete =>
    (registryEntry role entry.pfx).bind fun
      | none => auditEntries cfg role rows entries false
      | some current =>
        if current.state ≠ entry.state ∨ current.desired ≠ entry.desired then
          auditEntries cfg role rows entries false
        else
          (auditRecord cfg role current (rows entry.pfx)).bind fun _ =>
            auditEntries cfg role rows entries (complete && current.state = .active)

def auditRole (cfg : Config) (rows : Kernel) (role : String) : ManagerM Unit := do
  let _ ← roleState role
  let entries ← snapshot role
  let complete ← auditEntries cfg role rows entries (!entries.isEmpty)
  let state ← roleState role
  if state.restorePending && complete then do
    let _ ← completeStartupRestore role
    .ret ()
  else .ret ()

def reconcileSnapshotChecked (cfg : Config) (roles : List String) (rows : Kernel) : ManagerM Unit :=
  Prog.forEach (auditRole cfg rows) roles

def clearAllVerification : ManagerM Unit :=
  memory fun m => ((), m.keepVerification fun _ _ => false)

def audit (cfg : Config) (roles : List String) : ManagerM Unit :=
  if !cfg.routesResolved then .ret ()
  else ((routes .snapshotSelectedRoutes).bind (reconcileSnapshotChecked cfg roles)).tryCatch
    fun e => clearAllVerification.bind fun _ => .fail e

def clearQuarantine (role : String) : ManagerM Unit :=
  modifyRole role fun state => { state with integrityQuarantined := false, integrityReason := "" }

def remainingConflict (entries : List SelectedRoute) (rows : Kernel) : Option String :=
  entries.findSome? fun entry => (rows entry.pfx).findSome? fun
    | .foreign description =>
      some ("integrity conflict remains on " ++ entry.pfx.toString ++ ": " ++ description)
    | _ => none

def retryQuarantinedRole (cfg : Config) (role : String) : ManagerM Unit := do
  let state ← roleState role
  if !state.integrityQuarantined then failText ("role " ++ quoted role ++ " is not quarantined")
  else if !cfg.routesResolved then failText "this platform has no selected-route writer"
  else do
    let rows ← routes .snapshotSelectedRoutes
    let entries ← snapshot role
    match remainingConflict entries rows with
    | some conflict => failText conflict
    | none => clearQuarantine role

/-- `initialAuthorityProof`, once the observer is subscribed: the authority gate
    opens, for all roles, when it returns. -/
def initialAuthorityProof (cfg : Config) (roles : List String) : ManagerM Unit :=
  if !cfg.routesResolved then failText "no selected-route writer"
  else do
    let rows ← (routes .snapshotSelectedRoutes).tryCatch fun e =>
      .fail (.wrapped "stable snapshot failed" e)
    (reconcileSnapshotChecked cfg roles rows).tryCatch fun e =>
      .fail (.wrapped "initial reconcile failed" e)

-- === Transactions and their interleavings ===

/-- What the reconciler does to one record under the apply lock of its role: the
    visit of an audit, with the record and the rows as they were listed, or the
    reaction to an invalidation, with the flags read before the lock was taken. -/
inductive Transaction
  | visit (role : String) (entry : SelectedRoute) (rows : List SelectedKernelRow)
  | invalidation (role : String) (pfx : Prefix) (flags : RoleFlags)

namespace Transaction

def role : Transaction → String
  | visit role _ _ => role
  | invalidation role _ _ => role

def pfx : Transaction → Prefix
  | visit _ entry _ => entry.pfx
  | invalidation _ pfx _ => pfx

def program (cfg : Config) : Transaction → ManagerM Unit
  | visit role entry rows => auditEntry cfg role entry rows
  | invalidation role pfx flags => prefixInvalidation cfg role pfx flags

def record (t : Transaction) (w : World) : Option SelectedRoute :=
  registryEntryOf w.registry t.role t.pfx

end Transaction

/-- What is relied on in a run: at every instant, when a transaction takes its
    lock, and of what the others do while it holds the lock. -/
structure Rely where
  Instant : World → Prop := fun _ => True
  Admits : Transaction → World → Prop := fun _ _ => True
  Beside : Transaction → World → World → Prop := fun _ _ _ => True

def Rely.Step (R : Rely) (t : Transaction) ⦃β : Type⦄ (c : Effect β) (w : World) (b : β)
    (w' : World) : Prop :=
  ∃ w₁, FaultStep c w b w₁ ∧ R.Instant w₁ ∧ R.Beside t w₁ w' ∧ R.Instant w'

/-- What the apply lock and the single flight of the audits exclude while a
    transaction runs: its record is not written, and a startup freeze is not
    lifted. -/
structure Locked (t : Transaction) (w w' : World) : Prop where
  record : t.record w' = t.record w
  restorePending : (w.memory.roleState t.role).restorePending = true →
    (w'.memory.roleState t.role).restorePending = true

variable {R : Rely} {t : Transaction} {cfg : Config} {log : List (Transaction × Event Effect World)}

theorem Locked.refl (t : Transaction) (w : World) : Locked t w w := ⟨rfl, id⟩

/-- The world and what the reconciler has read: the rows of the last stable
    snapshot, the records it has listed, and the flags it has read. -/
structure Background where
  world : World
  rows : Kernel := fun _ => []
  listed : List (String × SelectedRoute) := []
  flags : List (String × Prefix × RoleFlags) := []

/-- The transactions that the reconciler can start with what it has read. -/
inductive Background.Offers (s : Background) : Transaction → Prop
  | visit {role : String} {entry : SelectedRoute} (h : (role, entry) ∈ s.listed) :
      s.Offers (.visit role entry (s.rows entry.pfx))
  | invalidation {role : String} {pfx : Prefix} {flags : RoleFlags}
      (h : (role, pfx, flags) ∈ s.flags) : s.Offers (.invalidation role pfx flags)

def World.flags (w : World) (role : String) : RoleFlags :=
  let state := w.memory.roleState role
  ⟨state.restorePending, state.frozen, state.integrityQuarantined⟩

/-- The runs of the reconciler, with every effect that its transactions have had.
    The other operations of the manager, the product, the kernel and restarts are
    the changes of the world between two transactions, and inside one as far as
    the apply lock lets them. -/
inductive ReconcilerRun (cfg : Config) (R : Rely) :
    Background → List (Transaction × Event Effect World) → Prop
  | start (w : World) (h : R.Instant w) : ReconcilerRun cfg R { world := w } []
  | other {s : Background} {log : List (Transaction × Event Effect World)} (w : World)
      (h : ReconcilerRun cfg R s log) (hw : R.Instant w) :
      ReconcilerRun cfg R { s with world := w } log
  | snapshot {s : Background} {log : List (Transaction × Event Effect World)}
      (h : ReconcilerRun cfg R s log) : ReconcilerRun cfg R { s with rows := s.world.kernel } log
  | list {s : Background} {log : List (Transaction × Event Effect World)} (role : String)
      (h : ReconcilerRun cfg R s log) :
      ReconcilerRun cfg R
        { s with listed := s.listed ++ (s.world.registry.snapshot role).map (role, ·) } log
  | readFlags {s : Background} {log : List (Transaction × Event Effect World)} (role : String)
      (pfx : Prefix) (h : ReconcilerRun cfg R s log) :
      ReconcilerRun cfg R { s with flags := (role, pfx, s.world.flags role) :: s.flags } log
  | transact {s : Background} {log : List (Transaction × Event Effect World)} {t : Transaction}
      {trace : List (Event Effect World)} {o : Outcome ManagerError Unit} {w : World}
      (h : ReconcilerRun cfg R s log) (ho : s.Offers t) (ha : R.Admits t s.world)
      (he : Exec (R.Step t) (t.program cfg) s.world trace o w) :
      ReconcilerRun cfg R { s with world := w } (log ++ trace.map (t, ·))

def Rely.setting (R : Rely) (t : Transaction) (G : Event Effect World → Prop) :
    Setting Effect World where
  Step := R.Step t
  Guarantee := G
  Crash _ := True

theorem Rely.safe_memory {G : Event Effect World → Prop} {β : Type} {f : Memory → β × Memory}
    {Q : β → World → Prop} {X : ManagerError → World → Prop} {w : World}
    (hG : ∀ b w', G ⟨.memory f, w, b, w'⟩)
    (hQ : ∀ w', R.Beside t (w.withMemory (f w.memory).2) w' → Q (f w.memory).1 w') :
    (memory f).Safe (R.setting t G) Q X w := by
  refine .perform trivial fun b w' hstep => ⟨hG b w', trivial, ?_⟩
  obtain ⟨_, ⟨rfl, rfl⟩ | hf, _, hbeside, _⟩ := hstep
  · exact hQ w' hbeside
  · exact hf.elim

theorem Rely.exec_instant (R : Rely) {α : Type} {p : ManagerM α} {w w' : World}
    {trace : List (Event Effect World)} {o : Outcome ManagerError α}
    (he : Exec (R.Step t) p w trace o w') (h : R.Instant w) : R.Instant w' := by
  induction he with
  | ret a w | fail e w | crash p w => exact h
  | call hs _ ih =>
    obtain ⟨_, _, _, _, hw⟩ := hs
    exact ih hw

variable {s : Background}

theorem ReconcilerRun.instant (h : ReconcilerRun cfg R s log) : R.Instant s.world := by
  induction h with
  | start w h => exact h
  | other w _ hw _ => exact hw
  | snapshot _ ih => exact ih
  | list _ _ ih => exact ih
  | readFlags _ _ _ ih => exact ih
  | transact _ _ _ he ih => exact R.exec_instant he ih

/-- A demand that every admitted transaction meets is met along every run. -/
theorem ReconcilerRun.guarantees {G : Transaction → Event Effect World → Prop}
    (hsafe : ∀ t w, R.Instant w → R.Admits t w →
      (t.program cfg).Upholds (R.setting t (G t)) (fun _ => True) w)
    (h : ReconcilerRun cfg R s log) : ∀ step ∈ log, G step.1 step.2 := by
  induction h with
  | start w h => exact fun _ hs => nomatch hs
  | other w _ _ ih => exact ih
  | snapshot _ ih => exact ih
  | list _ _ ih => exact ih
  | readFlags _ _ _ ih => exact ih
  | transact h _ ha he ih =>
    intro step hs
    rcases List.mem_append.mp hs with hs | hs
    · exact ih step hs
    · obtain ⟨ev, hev, rfl⟩ := List.mem_map.mp hs
      exact (Prog.Safe.sound (hsafe _ _ h.instant ha) he).1 ev hev

theorem ReconcilerRun.alone (h : ReconcilerRun cfg R s log) (ho : s.Offers t)
    (ha : R.Admits t s.world) (hrefl : ∀ t w, R.Beside t w w)
    (hinst : ∀ ev ∈ (t.program cfg).events handle s.world, R.Instant ev.after) :
    ReconcilerRun cfg R { s with world := ((t.program cfg).run handle s.world).2 }
      (log ++ ((t.program cfg).events handle s.world).map (t, ·)) := by
  refine h.transact ho ha (Prog.exec_events (t.program cfg) s.world fun ev hev => ?_)
  have hstep := faultStep_handle ev.call ev.before
  rw [Prog.answer_of_mem_events hev] at hstep
  exact ⟨_, hstep, hinst ev hev, hrefl t _, hinst ev hev⟩

def undisturbed : Rely where
  Beside _ w w' := w' = w

def Background.auditing (w : World) (role : String) : Background :=
  { world := w, rows := w.kernel, listed := (w.registry.snapshot role).map (role, ·) }

theorem ReconcilerRun.start_auditing (w : World) (role : String) (h : R.Instant w) :
    ReconcilerRun cfg R (.auditing w role) [] :=
  ((ReconcilerRun.start w h).snapshot).list role

def openWorld (ops : List RegistryOp) (rows : List SelectedKernelRow) (ifIndex : Int) : World :=
  { sampleWorld ops rows ifIndex with memory := { registry := runOps ops .empty } }

def activeRecord (ifIndex : Int) : SelectedRoute :=
  { role := "work", zone := "corp", pfx := samplePrefix, source := .dns, toadGeneration := 1,
    routeGeneration := 1, iface := "tun0", desired := sampleIdentity ifIndex,
    owned := some (sampleIdentity ifIndex), state := .active }

end Kikimora.Control

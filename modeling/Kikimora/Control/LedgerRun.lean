import Kikimora.Control.WriteAhead

/-!
# Write-ahead ownership along runs

The runs of the operations of one managed role, with failing writes, failing
calls, crashes and restarts from the last checkpoint. No row is created before
the disk names it, and no authorized row drops out of the checkpoint before the
platform has accounted for it, as long as four kinds of steps are avoided: an
Ensure or a Restore that retargets a mutation in flight, a reconciliation of an
Applying record whose checkpoint never reached the disk, and a retirement of a
Pending park that still owns its row.
-/

namespace Kikimora.Control

open Net Routing Platform Lib

/-- The operations on one role, each under the role's apply lock. -/
inductive SelectedOperation
  | ensure (a : EnsureRequest) (fastPathAllowed : Bool)
  | forget (pfx : Prefix)
  | flushZone (zone : String) (generation : UInt64)
  | parkRegistered
  | withdrawSelected
  | restore (v4Ready v6Ready : Bool)
  | observeRestoration
  | audit (entry : SelectedRoute) (rows : List SelectedKernelRow)
  | invalidate (pfx : Prefix) (flags : RoleFlags)

namespace SelectedOperation

def program (cfg : Config) (role : String) : SelectedOperation → ManagerM Unit
  | ensure a fastPathAllowed =>
    (applySelectedRouteCanonical cfg role a fastPathAllowed).bind fun _ => .ret ()
  | forget pfx => retireRecordLocked cfg role pfx
  | flushZone zone generation => flushZoneLocked cfg role zone generation
  | parkRegistered => Control.parkRegistered cfg role
  | withdrawSelected => Control.withdrawSelected cfg role
  | restore v4Ready v6Ready => Control.restore cfg role v4Ready v6Ready
  | observeRestoration => Control.observeRestoration cfg role
  | audit entry rows => auditEntry cfg role entry rows
  | invalidate pfx flags => prefixInvalidation cfg role pfx flags

def WritesAhead (role : String) (w : World) : SelectedOperation → Prop
  | ensure a _ => Ensures role w a
  | forget pfx => ∀ e, w.registry.lookup ⟨role, pfx⟩ = some e → ParkDisowned e
  | flushZone zone _ => ∀ pfx e, w.registry.lookup ⟨role, pfx⟩ = some e → e.zone = zone →
      ParkDisowned e
  | restore _ _ => ∀ runtime, w.runtime role = some runtime → ∀ pfx e,
      w.registry.lookup ⟨role, pfx⟩ = some e → Restores role runtime.toad.ifIndex w e
  | audit entry _ => ∀ e, w.registry.lookup ⟨role, entry.pfx⟩ = some e → Prepared role w e
  | invalidate pfx _ => ∀ e, w.registry.lookup ⟨role, pfx⟩ = some e →
      Prepared role w e ∧ (e.state = .retiring → ParkDisowned e)
  | parkRegistered | withdrawSelected | observeRestoration => True

theorem ledgered {cfg : Config} {role : String} {w : World} {l : Ledger} (op : SelectedOperation)
    (hdir : cfg.stateDir role = true) (h : Ledgered cfg role w l) (hop : op.WritesAhead role w) :
    KeepsRoleLedger cfg role (op.program cfg role) w l := by
  cases op with
  | ensure a fastPathAllowed =>
    exact (applySelectedRouteCanonical_ledgered hdir (h.start a.pfx) hop).forRole.seq
      fun _ _ hs => .ret hs trivial
  | forget pfx => exact (retireRecordLocked_ledgered hdir (h.start pfx) hop).forRole
  | flushZone zone generation => exact flushZoneLocked_ledgered hdir h hop
  | parkRegistered => exact parkRegistered_ledgered hdir h
  | withdrawSelected => exact withdrawSelected_ledgered h
  | restore v4Ready v6Ready => exact restore_ledgered hdir h hop
  | observeRestoration => exact observeRestoration_ledgered hdir h
  | audit entry rows => exact (auditEntry_ledgered hdir (h.start entry.pfx) hop).forRole
  | invalidate pfx flags =>
    exact (prefixInvalidation_ledgered hdir (h.start pfx) (fun e hl => (hop e hl).1)
      fun e hl => (hop e hl).2).forRole

end SelectedOperation

-- === Runs ===

def LedgerStep (role : String) ⦃β : Type⦄ (c : Effect β) (s : World × Ledger) (b : β)
    (s' : World × Ledger) : Prop :=
  FaultStep c s.1 b s'.1 ∧ (ledgerOf role).Notes c s.1 b s'.1 s.2 s'.2

def Ledger.empty : Ledger := ⟨fun _ _ => False, fun _ _ => False⟩

def Ledger.inKernel (l : Ledger) (k : Kernel) : Ledger :=
  { l with created := fun pfx row => l.created pfx row ∧ row ∈ k pfx }

/-- The runs of one role whose steps all satisfy `ok`: operations that may fail or
    be cut off anywhere, restarts from the last checkpoint, and changes of
    everything but the registry and the disk in between. -/
inductive LedgerRun (cfg : Config) (role : String) (ok : World → SelectedOperation → Prop) :
    World × Ledger → Prop
  | start {w : World} (hr : w.registry = .empty) (hd : w.disk role = none) :
      LedgerRun cfg role ok (w, .empty)
  | operation {s s' : World × Ledger} {op : SelectedOperation}
      {trace : List (Event Effect (World × Ledger))} {o : Outcome ManagerError Unit}
      (h : LedgerRun cfg role ok s) (hop : ok s.1 op) (ho : o ≠ .crashed)
      (he : Exec (LedgerStep role) (op.program cfg role) s trace o s') : LedgerRun cfg role ok s'
  | crash {s s' : World × Ledger} {w : World} {op : SelectedOperation}
      {trace : List (Event Effect (World × Ledger))} (h : LedgerRun cfg role ok s)
      (hop : ok s.1 op)
      (he : Exec (LedgerStep role) (op.program cfg role) s trace .crashed s')
      (hr : restart cfg role s'.1 = .ok w) : LedgerRun cfg role ok (w, s'.2)
  | environment {w w' : World} {l : Ledger} (h : LedgerRun cfg role ok (w, l))
      (hr : w'.registry = w.registry) (hd : w'.disk = w.disk) :
      LedgerRun cfg role ok (w', l.inKernel w'.kernel)

def AheadEvent (role : String) : Event Effect (World × Ledger) → Prop
  | ⟨.routes c, s, _, _⟩ => WrittenAhead role c s.1 s.2
  | _ => True

section Runs

variable {cfg : Config} {role : String} {w w' : World} {l : Ledger}

theorem lookup_restart (hdir : cfg.stateDir role = true)
    (hstored : ∀ c, w.disk role = some c →
      ∃ r generation, c = checkpointOf r role cfg.platform generation ∧ r.WellFormed)
    (h : restart cfg role w = .ok w') :
    w'.disk = w.disk ∧ ∀ pfx, w'.registry.lookup ⟨role, pfx⟩ = diskRecord w role pfx := by
  unfold restart at h
  rw [hdir, if_pos rfl] at h
  cases hd : w.disk role with
  | none =>
    rw [hd] at h
    cases h
    exact ⟨rfl, fun pfx => by simp [diskRecord, hd]⟩
  | some c =>
    rw [hd] at h
    obtain ⟨r, generation, rfl, hw⟩ := hstored c hd
    rcases MemorySelectedRegistry.empty.restoreRole_spec
      (checkpointOf r role cfg.platform generation) with ⟨e, he⟩ | ⟨_, _, he⟩
    · simp only [he] at h
      split at h
      · cases h
      · split_ifs at h
    simp only [he] at h
    split at h
    · cases h
    split_ifs at h
    cases h
    refine ⟨rfl, fun pfx => ?_⟩
    rw [diskRecord_checkpointOf hd hw]
    exact (lookup_setAll_snapshot hw role ⟨role, pfx⟩).trans (if_pos rfl)

theorem Ledgered.restart (hdir : cfg.stateDir role = true) (h : Ledgered cfg role w l)
    (hr : Control.restart cfg role w = .ok w') : Ledgered cfg role w' l := by
  obtain ⟨hdisk, hlookup⟩ := lookup_restart hdir h.stored hr
  refine ⟨wellFormed_restart hr, hdisk ▸ h.stored, fun pfx row hrow => ?_, fun pfx row hrow => ?_,
    h.created⟩
  · rw [hlookup]
    exact h.disk pfx row hrow
  · rw [diskRecord_of_disk hdisk]
    exact h.disk pfx row hrow

theorem LedgerRun.ledgered {s : World × Ledger} (hdir : cfg.stateDir role = true)
    (h : LedgerRun cfg role (fun w op => op.WritesAhead role w) s) :
    Ledgered cfg role s.1 s.2 := by
  induction h with
  | start hr hd =>
    refine ⟨hr ▸ MemorySelectedRegistry.wellFormed_empty, fun c hc => ?_, fun _ _ h => h.elim,
      fun _ _ h => h.elim, fun _ _ h => h⟩
    rw [hd] at hc
    cases hc
  | operation _ hop _ he ih =>
    exact (Prog.Safe.sound (SelectedOperation.ledgered _ hdir ih hop) he).2.1
  | crash _ hop he hr ih =>
    exact Ledgered.restart hdir
      (Prog.Safe.sound (SelectedOperation.ledgered _ hdir ih hop) he).2.1 hr
  | environment _ hr hd ih =>
    have h := ih.of_eq hr hd
    exact ⟨h.wellFormed, h.stored, h.memory, h.disk, fun pfx row hrow => h.created pfx row hrow.1⟩

/-- In every run whose steps find what they have to: a call is issued only after
    the last checkpoint authorizes what it may create; wherever the process
    stops, the last checkpoint names every row that was authorized and not
    settled since; and a restart authorizes every row that was created. -/
theorem LedgerRun.writtenAhead {s s' : World × Ledger} {op : SelectedOperation}
    {trace : List (Event Effect (World × Ledger))} {o : Outcome ManagerError Unit}
    (hdir : cfg.stateDir role = true)
    (h : LedgerRun cfg role (fun w op => op.WritesAhead role w) s) (hop : op.WritesAhead role s.1)
    (he : Exec (LedgerStep role) (op.program cfg role) s trace o s') :
    (∀ ev ∈ trace, AheadEvent role ev) ∧
      (∀ pfx row, s'.2.authorized pfx row →
        ∃ e, diskRecord s'.1 role pfx = some e ∧ e.NamesRow row) ∧
      ∀ w, restart cfg role s'.1 = .ok w → ∀ pfx row, s'.2.created pfx row →
        ∃ e, w.registry.lookup ⟨role, pfx⟩ = some e ∧ row.AuthorizedBy e := by
  obtain ⟨hall, hend, _⟩ := Prog.Safe.sound (op.ledgered hdir (h.ledgered hdir) hop) he
  refine ⟨fun ev hev => ?_, hend.disk, fun w hr pfx row hrow => ?_⟩
  · have := hall ev hev
    obtain ⟨c, before, answer, after⟩ := ev
    cases c with
    | routes c => exact this
    | _ => trivial
  · have hw := hend.restart hdir hr
    obtain ⟨e, hl, hn⟩ := hw.memory pfx row (hw.created pfx row hrow)
    exact ⟨e, hl, hn.authorizedBy (hw.wellFormed _ _ hl).2⟩

end Runs

-- === Sample runs ===

def sampleRequest (ifIndex : Int) : EnsureRequest :=
  ⟨"zone", samplePrefix, .static, ifIndex, "tun0", 1, 1⟩

def sampleEnsure (ifIndex : Int) : SelectedOperation := .ensure (sampleRequest ifIndex) false

/-- An Ensure on a new role creates its row after writing it ahead, and a restart
    from what it leaves authorizes the row. -/
theorem LedgerRun.writtenAhead_ensured :
    ∃ trace o s', Exec (LedgerStep "work") ((sampleEnsure 7).program {} "work")
        (sampleWorld [] [] 7, .empty) trace o s' ∧
      .route (sampleIdentity 7) ∈ s'.1.kernel samplePrefix ∧
      (∀ ev ∈ trace, AheadEvent "work" ev) ∧
      (∀ pfx row, s'.2.authorized pfx row →
        ∃ e, diskRecord s'.1 "work" pfx = some e ∧ e.NamesRow row) ∧
      ∀ w, restart {} "work" s'.1 = .ok w → ∀ pfx row, s'.2.created pfx row →
        ∃ e, w.registry.lookup ⟨"work", pfx⟩ = some e ∧ row.AuthorizedBy e := by
  obtain ⟨trace, l, he, _⟩ := exec_noted (ledgerOf "work") (G := WrittenAhead "work")
    (I := fun _ _ => True) (Prog.exec_run faultStep_handle ((sampleEnsure 7).program {} "work")
      (sampleWorld [] [] 7)) .empty
  have hrow : .route (sampleIdentity 7) ∈ (((sampleEnsure 7).program {} "work").run handle
      (sampleWorld [] [] 7)).2.kernel samplePrefix := by
    decide +kernel
  have hop : (sampleEnsure 7).WritesAhead "work" (sampleWorld [] [] 7) := by
    intro e i hl
    cases hl
  exact ⟨trace, _, _, he, hrow,
    @LedgerRun.writtenAhead {} "work" (_, _) (_, _) _ trace _ rfl (.start rfl rfl) hop he⟩

/-- The Ensure on interface 7, cut off when the Applying record is on disk, while
    the Toad is on interface 8. -/
def interrupted : World :=
  ((sampleEnsure 7).program {} "work").after handle 11 (sampleWorld [] [] 8)

def resumed : World :=
  match restart {} "work" interrupted with
  | .ok w => w
  | .error _ => interrupted

theorem restart_interrupted : restart {} "work" interrupted = .ok resumed := by
  have hok : (restart {} "work" interrupted).isOk = true := by decide +kernel
  unfold resumed
  cases h : restart {} "work" interrupted with
  | ok w => rfl
  | error e =>
    rw [h] at hok
    cases hok

def reconcilesAhead (role : String) : Event Effect World → Bool
  | ⟨.routes (.reconcileSelectedRoute desired record), w, _, _⟩ =>
    !(diskRecord w role desired.pfx).any fun e =>
      e.state = .applying && e.desired = record.desired
  | _ => false

theorem not_aheadEvent_of_reconcilesAhead {role : String} {ev : Event Effect (World × Ledger)}
    (h : reconcilesAhead role (eventWorld ev) = true) : ¬ AheadEvent role ev := by
  obtain ⟨c, ⟨w, l⟩, answer, after⟩ := ev
  cases c with
  | routes c =>
    cases c with
    | reconcileSelectedRoute desired record =>
      intro ha
      obtain ⟨e, he, hs, hd⟩ := ha desired.pfx (.route record.desired) ⟨rfl, rfl⟩
      simp [reconcilesAhead, eventWorld, he, hs, hd] at h
    | _ => cases h
  | _ => cases h

/-- A Restore after the restart retargets the Applying record to the new interface
    and issues the mutation while the disk still has the old target. -/
theorem restore_retargets_unwritten :
    ∃ s, LedgerRun {} "work" (fun _ _ => True) s ∧ ∃ trace o s',
      Exec (LedgerStep "work") ((SelectedOperation.restore true true).program {} "work") s trace o
        s' ∧
      ∃ ev ∈ trace, ¬ AheadEvent "work" ev := by
  obtain ⟨_, l, hcut, _⟩ := exec_noted (ledgerOf "work") (G := WrittenAhead "work")
    (I := fun _ _ => True) (Prog.exec_cut faultStep_handle 11 ((sampleEnsure 7).program {} "work")
      (sampleWorld [] [] 8)) .empty
  obtain ⟨trace, l', he, htrace⟩ := exec_noted (ledgerOf "work") (G := WrittenAhead "work")
    (I := fun _ _ => True) (Prog.exec_run faultStep_handle
      ((SelectedOperation.restore true true).program {} "work") resumed) l
  refine ⟨(resumed, l), .crash (.start rfl rfl) trivial hcut restart_interrupted,
    trace, _, _, he, ?_⟩
  have hany : (trace.map eventWorld).any (reconcilesAhead "work") = true := by
    rw [htrace]
    decide +kernel
  obtain ⟨_, hmem, hev⟩ := List.any_eq_true.mp hany
  obtain ⟨ev, hin, rfl⟩ := List.mem_map.mp hmem
  exact ⟨ev, hin, not_aheadEvent_of_reconcilesAhead hev⟩

end Kikimora.Control

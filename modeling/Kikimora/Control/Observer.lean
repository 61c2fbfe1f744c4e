import Kikimora.Control.Transactions

/-!
# The observer's transactions

What the safety audit and a native invalidation do to one record, under the
apply lock of its role.
-/

namespace Kikimora.Control

open Net Routing

def failSelectedRouteIntegrity (role : String) (text : String) : ManagerM Unit := do
  modifyRole role fun state => { state with
    frozen := true, integrityQuarantined := true, integrityReason := text,
    verification := fun _ => none }
  notify (.diagnostic role ("selected-route integrity: " ++ text))

def exactRow (entry : SelectedRoute) (rows : List SelectedKernelRow) : Bool :=
  rows = [.route entry.desired]

def auditRecord (cfg : Config) (role : String) (entry : SelectedRoute)
    (rows : List SelectedKernelRow) : ManagerM Unit := do
  let state ← roleState role
  if entry.park.isSome then
    -- the observer never unparks
    if state.restorePending then
      notify (.requestRecovery role "resume checkpointed managed park transaction")
    else .ret ()
  else if state.restorePending then
    notify (.requestRecovery role "resume restored managed ownership")
  else match planSelectedRoute rows (some entry) with
    | .error e => do
      let conflict := "foreign same-prefix row on " ++ entry.pfx.toString ++ ": " ++ e
      failSelectedRouteIntegrity role conflict
      failText conflict
    | .ok _ =>
      match entry.state with
      | .retiring => retireRecordLocked cfg role entry.pfx
      | .active =>
        if exactRow entry rows then mintVerificationToken role entry
        else do
          registry (·.beginRepair role entry.pfx)
          checkpoint cfg role
          let _ ← reconcileRecordLocked cfg role entry.pfx
          .ret ()
      | .applying | .pending => do
        let _ ← reconcileRecordLocked cfg role entry.pfx
        .ret ()
      | .other _ => .ret ()

/-- The loop body of `reconcileSnapshotChecked`: a record that has changed since
    the snapshot is left for the next audit. -/
def auditEntry (cfg : Config) (role : String) (entry : SelectedRoute)
    (rows : List SelectedKernelRow) : ManagerM Unit :=
  (registryEntry role entry.pfx).bind fun
    | none => .ret ()
    | some current =>
      if current.state ≠ entry.state ∨ current.desired ≠ entry.desired then .ret ()
      else auditRecord cfg role current rows

/-- The flags of a role that an invalidation reads before it takes the lock. -/
structure RoleFlags where
  restorePending : Bool
  frozen : Bool
  quarantined : Bool
  deriving DecidableEq, Repr

def prefixInvalidation (cfg : Config) (role : String) (pfx : Prefix) (flags : RoleFlags) :
    ManagerM Unit :=
  (registryEntry role pfx).bind fun
    | none => .ret ()
    | some record =>
      if flags.restorePending && record.park.isSome then
        notify (.requestRecovery role "prefix invalidation on a checkpointed managed park")
      else if flags.quarantined || (flags.frozen && !flags.restorePending) then .ret ()
      else match record.state with
        | .retiring => retireRecordLocked cfg role pfx
        | .pending | .applying | .active => do
          let _ ← reconcileRecordLocked cfg role pfx
          .ret ()
        | .other _ => .ret ()

end Kikimora.Control

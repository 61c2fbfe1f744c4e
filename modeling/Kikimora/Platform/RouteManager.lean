import Kikimora.Routing.Plan

/-!
# The route manager contract

The platform surface that the selected-route manager drives. Every operation is
a function of the same-prefix kernel rows: its answer, and the list of single-row
mutations it issues, in order. The rules are those of the Linux executor; the
identities that a platform normalizes to are a parameter.
-/

namespace Kikimora.Platform

open Net Routing

abbrev Kernel := Prefix → List SelectedKernelRow

/-- One kernel write. -/
inductive KernelMutation
  | add (pfx : Prefix) (row : SelectedKernelRow)
  | delete (pfx : Prefix) (row : SelectedKernelRow)
  deriving DecidableEq, Repr

def KernelMutation.apply : KernelMutation → Kernel → Kernel
  | .add pfx row, k => fun q =>
    if q = pfx then (if row ∈ k q then k q else k q ++ [row]) else k q
  | .delete pfx row, k => fun q => if q = pfx then (k q).filter (· ≠ row) else k q

def applyAll (ms : List KernelMutation) (k : Kernel) : Kernel := ms.foldl (fun k m => m.apply k) k

@[simp] theorem applyAll_nil (k : Kernel) : applyAll [] k = k := rfl

@[simp] theorem applyAll_cons (m : KernelMutation) (ms : List KernelMutation) (k : Kernel) :
    applyAll (m :: ms) k = applyAll ms (m.apply k) := rfl

/-- What a platform contributes of its own: how it normalizes targets, and its
    proof that a selected route wins over a park, where it has one. -/
structure RoutePlatform where
  normalizeSelectedRoute : SelectedRouteDesired → Except String SelectedRouteIdentity
  normalizeManagedPark : Prefix → Except String SelectedParkIdentity
  selectedWinsOverPark : Option (Prefix → SelectedRouteIdentity → SelectedParkIdentity → Bool) :=
    none

-- === Selected routes ===

def canonicalRoutePrefix (pfx : Prefix) : Bool := pfx.isValid && pfx = pfx.masked

def notCanonical {α : Type} (pfx : Prefix) : Except String α :=
  .error ("selected route prefix " ++ pfx.toString ++ " is not canonical")

def preflightSelectedRoute (k : Kernel) (pfx : Prefix) (record : SelectedRoute) :
    Except String Unit :=
  (planSelectedRoute (k pfx) (some record)).map fun _ => ()

/-- The writes of `ReconcileSelectedRoute` for one verdict of the planner. A
    replacement creates the target before it deletes the stale row. -/
def reconcileMutations (pfx : Prefix) (record : SelectedRoute) :
    SelectedReconcileAction → List KernelMutation
  | .none => []
  | .add => [.add pfx (.route record.desired)]
  | .replace =>
    .add pfx (.route record.desired) ::
      (record.owned.toList.filter (· ≠ record.desired)).map fun o => .delete pfx (.route o)

def reconcileSelectedRoute (k : Kernel) (desired : SelectedRouteDesired) (record : SelectedRoute) :
    Except String SelectedReconcileResult × List KernelMutation :=
  if !canonicalRoutePrefix desired.pfx then (notCanonical desired.pfx, [])
  else if desired.ifIndex ≤ 0 then
    (.error ("selected route " ++ desired.pfx.toString ++ " has no interface"), [])
  else match planSelectedRoute (k desired.pfx) (some record) with
    | .error e => (.error e, [])
    | .ok action =>
      (.ok ⟨decide (action ≠ .none), record.desired⟩, reconcileMutations desired.pfx record action)

/-- The identities that a record may have in the kernel. -/
def removalCandidates (record : SelectedRoute) : List SelectedRouteIdentity :=
  let inFlight := record.state = .applying || (record.state = .retiring && record.retireDesired)
  record.owned.toList ++
    if inFlight && record.owned ≠ some record.desired then [record.desired] else []

def removeSelectedRoute (k : Kernel) (record : SelectedRoute) :
    Except String Unit × List KernelMutation :=
  if !canonicalRoutePrefix record.pfx then (notCanonical record.pfx, [])
  else match record.state with
    | .other text =>
      (.error ("selected route " ++ record.pfx.toString ++ " has an unknown state " ++
        quoted text), [])
    | _ =>
      let present := (removalCandidates record).filter fun c => .route c ∈ k record.pfx
      (.ok (), present.map fun c => .delete record.pfx (.route c))

-- === Managed parks ===

def parkRowAuthorizedForPreflight (row : SelectedParkIdentity) (record : SelectedRoute) : Bool :=
  match record.park with
  | some park => park.authorizesRow row
  | none => false

/-- `classifyParkPrefixRows`: authorized parks and the record's own selected
    rows are tolerated, anything else is a conflict. -/
def classifyParkPrefixRows (pfx : Prefix) (record : SelectedRoute) (context : String) :
    List SelectedKernelRow → Except String Unit
  | [] => .ok ()
  | row :: rows =>
    let at_ := context ++ " " ++ pfx.toString
    match row with
    | .foreign text => .error (at_ ++ ": foreign row: " ++ text)
    | .route i =>
      if selectedRowAuthorizedForPark i record then classifyParkPrefixRows pfx record context rows
      else .error (at_ ++ ": unauthorized forwarding row: " ++ row.description)
    | .park i =>
      if parkRowAuthorizedForPreflight i record then classifyParkPrefixRows pfx record context rows
      else .error (at_ ++ ": unauthorized park row " ++ row.description)

def preflightManagedPark (k : Kernel) (pfx : Prefix) (record : SelectedRoute) :
    Except String Unit :=
  classifyParkPrefixRows pfx record "park preflight" (k pfx)

/-- The writes of `ReconcileManagedPark`: the stale park goes only after the
    target is there. -/
def parkMutations (k : Kernel) (pfx : Prefix) (park : SelectedPark) : List KernelMutation :=
  (if .park park.desired ∈ k pfx then [] else [.add pfx (.park park.desired)]) ++
    (park.owned.toList.filter fun o => o ≠ park.desired && .park o ∈ k pfx).map
      fun o => .delete pfx (.park o)

def reconcileManagedPark (k : Kernel) (pfx : Prefix) (record : SelectedRoute) :
    Except String SelectedParkReconcileResult × List KernelMutation :=
  match record.park with
  | none => (.error ("reconcile managed park " ++ pfx.toString ++ ": no park transaction"), [])
  | some park =>
    if park.state ≠ .applying then
      (.error ("reconcile managed park " ++ pfx.toString ++
        " requires park state applying, got " ++ quoted park.state.text), [])
    else if !(pfx.isValid && isCanonicalPrefix pfx) then
      (.error ("park prefix " ++ quoted pfx.toString ++ " is not canonical"), [])
    else match park.desired.validate pfx with
      | .error e => (.error e, [])
      | .ok () =>
        match classifyParkPrefixRows pfx record "park reconcile" (k pfx) with
        | .error e => (.error e, [])
        | .ok () =>
          (.ok ⟨!(parkMutations k pfx park).isEmpty, park.desired⟩, parkMutations k pfx park)

def observeManagedPark (k : Kernel) (pfx : Prefix) (expected : SelectedParkIdentity) : Bool :=
  .park expected ∈ k pfx

def parkRemovalCandidates (pfx : Prefix) (park : SelectedPark) :
    Except String (List SelectedParkIdentity) :=
  let desired := if park.owned = some park.desired then [] else [park.desired]
  match park.state with
  | .pending => .ok []
  | .applying => .ok (park.owned.toList ++ desired)
  | .active =>
    match park.owned with
    | none => .error ("active park " ++ pfx.toString ++ " has no owned identity")
    | some o => .ok [o]
  | .retiring => .ok (park.owned.toList ++ if park.retireDesired then desired else [])
  | .other text => .error ("park " ++ pfx.toString ++ " has an unknown state " ++ quoted text)

def removeManagedPark (k : Kernel) (pfx : Prefix) (park : SelectedPark) :
    Except String Unit × List KernelMutation :=
  match parkRemovalCandidates pfx park with
  | .error e => (.error e, [])
  | .ok candidates =>
    (.ok (), (candidates.filter fun c => .park c ∈ k pfx).map fun c => .delete pfx (.park c))

-- === Calls ===

/-- The calls of the selected-route surface, by the type of their answer. -/
inductive RouteCall : Type → Type 1
  | normalizeSelectedRoute (desired : SelectedRouteDesired) : RouteCall SelectedRouteIdentity
  | preflightSelectedRoute (pfx : Prefix) (identity : SelectedRouteIdentity)
      (record : SelectedRoute) : RouteCall Unit
  | reconcileSelectedRoute (desired : SelectedRouteDesired) (record : SelectedRoute) :
      RouteCall SelectedReconcileResult
  | removeSelectedRoute (record : SelectedRoute) : RouteCall Unit
  | normalizeManagedPark (pfx : Prefix) : RouteCall SelectedParkIdentity
  | preflightManagedPark (pfx : Prefix) (desired : SelectedParkIdentity)
      (record : SelectedRoute) : RouteCall Unit
  | reconcileManagedPark (role : String) (pfx : Prefix) (record : SelectedRoute) :
      RouteCall SelectedParkReconcileResult
  | observeManagedPark (pfx : Prefix) (expected : SelectedParkIdentity) : RouteCall Bool
  | removeManagedPark (role : String) (pfx : Prefix) (park : SelectedPark) : RouteCall Unit
  | snapshotSelectedRoutes : RouteCall Kernel
  | selectedWinsOverPark (pfx : Prefix) (selected : SelectedRouteIdentity)
      (park : SelectedParkIdentity) : RouteCall Bool

/-- The metric comparison of condition 7, by the platform's own proof where it
    has one. -/
def RoutePlatform.wins (p : RoutePlatform) (pfx : Prefix) (selected : SelectedRouteIdentity)
    (park : SelectedParkIdentity) : Bool :=
  match p.selectedWinsOverPark with
  | some prover => prover pfx selected park
  | none => selected.metric < park.metric

def RouteCall.plan (p : RoutePlatform) (k : Kernel) {β : Type} :
    RouteCall β → Except String β × List KernelMutation
  | .normalizeSelectedRoute desired => (p.normalizeSelectedRoute desired, [])
  | .preflightSelectedRoute pfx _ record => (Platform.preflightSelectedRoute k pfx record, [])
  | .reconcileSelectedRoute desired record => Platform.reconcileSelectedRoute k desired record
  | .removeSelectedRoute record => Platform.removeSelectedRoute k record
  | .normalizeManagedPark pfx => (p.normalizeManagedPark pfx, [])
  | .preflightManagedPark pfx _ record => (Platform.preflightManagedPark k pfx record, [])
  | .reconcileManagedPark _ pfx record => Platform.reconcileManagedPark k pfx record
  | .observeManagedPark pfx expected => (.ok (Platform.observeManagedPark k pfx expected), [])
  | .removeManagedPark _ pfx park => Platform.removeManagedPark k pfx park
  | .snapshotSelectedRoutes => (.ok k, [])
  | .selectedWinsOverPark pfx selected park => (.ok (p.wins pfx selected park), [])

end Kikimora.Platform

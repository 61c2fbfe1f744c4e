import Kikimora.Platform.EndpointPolicy

/-!
# The Windows executor

Windows has one forwarding table and no policy rules. A row is named by its prefix,
its interface and its next hop together, and an interface by its LUID or, where that is
missing, by its index. Endpoint exceptions are host routes, parks are routes to the
loopback interface, and a snapshot lists every row as a plain route.
-/

namespace Kikimora.Platform.Windows

open Net Routing

-- === The forwarding table ===

def ownedRouteProtocol : Int := 3

def endpointRouteMetric : UInt32 := 1

def parkRouteMetric : UInt32 := 42760

def kernelTable : Int := 254

/-- The part of a `MibIPforwardRow2` that the executor writes and reads. -/
structure ForwardRow where
  interfaceLuid : UInt64 := 0
  interfaceIndex : UInt32 := 0
  destinationPrefix : Prefix
  nextHop : Addr := .zero
  metric : UInt32 := 0
  protocol : Int := ownedRouteProtocol
  deriving DecidableEq, Repr

def ForwardRow.names (call row : ForwardRow) : Bool :=
  row.destinationPrefix = call.destinationPrefix && row.nextHop = call.nextHop &&
    if call.interfaceLuid ≠ 0 then row.interfaceLuid = call.interfaceLuid
    else row.interfaceIndex = call.interfaceIndex

/-- An existing row of the name makes the call fail. -/
def createRoute (row : ForwardRow) (table : List ForwardRow) : Option (List ForwardRow) :=
  if table.any row.names then none else some (table ++ [row])

def deleteRoute (row : ForwardRow) (table : List ForwardRow) : Option (List ForwardRow) :=
  if table.any row.names then some (table.filter fun r => !row.names r) else none

/-- What a socket address keeps of the zone of an address: it has a number for it. -/
structure Zones where
  kept : String → String
  kept_empty : kept "" = ""

def Zones.sockaddr (zones : Zones) : Addr → Addr
  | .v6 bits zone => .v6 bits (zones.kept zone)
  | a => a

/-- `windowsRouteApi`, its reads. A family is given by whether it is IPv4. -/
structure RouteApi where
  luidFromIndex : UInt32 → Except String UInt64
  loopbackIndex : UInt32
  unicastAddress : Bool → UInt32 → Except String Addr

abbrev InterfaceMetrics := UInt64 → Bool → Except String UInt32

-- === Operations ===

inductive OpKind
  | route
  | unreachable
  | park
  | deleteRoute
  | deletePark
  | rule
  | deleteRule
  deriving DecidableEq, Repr

/-- A `routing.Operation`; its prefix stands for the text of it. -/
structure Op where
  kind : OpKind
  family : Nat := 0
  pfx : Prefix
  table : Int := 0
  ifIndex : Int := 0
  metric : UInt32 := 0
  gateway : String := ""
  protocol : Int := 0
  interfaceLuid : UInt64 := 0
  deriving DecidableEq, Repr

section Executor

variable (zones : Zones) (api : RouteApi)

def ForwardRow.onInterface (row : ForwardRow) (index : UInt32) : ForwardRow :=
  { row with
    interfaceIndex := index
    interfaceLuid := (api.luidFromIndex index).toOption.getD row.interfaceLuid }

def loopbackHop (is4 : Bool) : Addr := if is4 then .v4 0x7f000001#32 else .v6 1 ""

def ForwardRow.via (row : ForwardRow) (hop : Addr) (message : String) : Except String ForwardRow :=
  if hop.isValid then .ok { row with nextHop := zones.sockaddr hop } else .error message

def rowForOperation (op : Op) : Except String ForwardRow :=
  let row : ForwardRow := { destinationPrefix := op.pfx, metric := op.metric }
  -- a persisted identity has both, and its adapter is not looked up again
  let row := if op.interfaceLuid ≠ 0 then
      { row with interfaceLuid := op.interfaceLuid, interfaceIndex := .ofInt op.ifIndex }
    else if 0 < op.ifIndex then row.onInterface api (.ofInt op.ifIndex) else row
  if !op.pfx.isValid then .error ("parse route prefix " ++ quoted op.pfx.toString)
  else if op.interfaceLuid ≠ 0 ∧ (op.kind = .deleteRoute ∨ op.kind = .deletePark) ∧
      op.gateway = "" then .ok row
  else if op.kind = .park ∨ op.kind = .unreachable ∨ op.kind = .deletePark then
    let row := if op.interfaceLuid = 0 then
        row.onInterface api (if 0 < op.ifIndex then .ofInt op.ifIndex else api.loopbackIndex)
      else row
    .ok { row with nextHop := loopbackHop op.pfx.addr.is4 }
  else if op.gateway ≠ "" then
    match Addr.parse op.gateway with
    | none => .error ("invalid route gateway " ++ quoted op.gateway)
    | some gateway => row.via zones gateway ("encode next hop " ++ quoted op.gateway)
  else
    -- on-link: the interface's own address is the next hop
    match api.unicastAddress op.pfx.addr.is4 row.interfaceIndex with
    | .error e =>
      .error ("resolve on-link next hop for " ++ quoted op.pfx.toString ++ ": " ++ e)
    | .ok source =>
      row.via zones source ("encode on-link next hop for " ++ quoted op.pfx.toString)

def applyOperation (op : Op) (table : List ForwardRow) : Except String (List ForwardRow) :=
  match op.kind with
  | .rule => .error ("policy rules do not exist on windows: rule " ++ op.pfx.toString)
  | .deleteRule =>
    .error ("policy rules do not exist on windows: delete-rule " ++ op.pfx.toString)
  | .deleteRoute | .deletePark =>
    (rowForOperation zones api op).map fun row => (deleteRoute row table).getD table
  | .park => (rowForOperation zones api op).map fun row => (createRoute row table).getD table
  | .route | .unreachable =>
    (rowForOperation zones api op).map fun row =>
      match createRoute row table with
      | some table => table
      | none =>
        -- the stale row is dropped and created anew
        let dropped := (deleteRoute row table).getD table
        (createRoute row dropped).getD dropped

def apply : List Op → List ForwardRow → Except String Unit × List ForwardRow :=
  applyEach (applyOperation zones api)

-- === Snapshots ===

/-- A row as the snapshot shows it. -/
def ForwardRow.listed (row : ForwardRow) : Op where
  kind := .route
  family := prefixFamily row.destinationPrefix
  pfx := row.destinationPrefix
  table := kernelTable
  ifIndex := row.interfaceIndex.toNat
  metric := row.metric
  gateway := if row.nextHop.isValid && !row.nextHop.isUnspecified then row.nextHop.toString else ""
  protocol := row.protocol
  interfaceLuid := row.interfaceLuid

def snapshotUnlocked (table : List ForwardRow) : List Op :=
  (table.filter (·.destinationPrefix.addr.is4)).map ForwardRow.listed ++
    (table.filter (!·.destinationPrefix.addr.is4)).map ForwardRow.listed

def Op.toRow (row : Op) : RouteRow where
  kind := match row.kind with
    | .park => .park
    | .unreachable => .unreachable
    | _ => .route
  family := row.family
  pfx := some row.pfx
  table := row.table
  ifIndex := row.ifIndex
  metric := row.metric
  gateway := row.gateway
  protocol := row.protocol

def Op.hop (row : Op) : Addr :=
  if row.gateway ≠ "" then (Addr.parse row.gateway).getD .zero else .zero

def Op.identity (row : Op) : SelectedRouteIdentity where
  table := kernelTable
  ifIndex := row.ifIndex
  nextHop := if row.hop.isValid then row.hop.toString else ""
  protocol := row.protocol
  metric := row.metric
  scope := 0
  interfaceLuid := row.interfaceLuid

def Op.description (row : Op) : String :=
  "ifindex " ++ toString row.ifIndex ++ " gw " ++ row.gateway ++ " proto " ++
    toString row.protocol ++ " metric " ++ toString row.metric.toNat

/-- How the row of a prefix is classified. -/
def Op.selectedRow (row : Op) (pfx : Prefix) : SelectedKernelRow :=
  if row.protocol = ownedRouteProtocol ∧ row.metric = parkRouteMetric ∧ row.hop.isValid = true ∧
      row.hop.isLoopback = true then
    .park
      { kind := .loopback, table := kernelTable, ifIndex := row.ifIndex,
        nextHop := row.hop.toString, protocol := row.protocol, metric := row.metric, scope := 0,
        interfaceLuid := row.interfaceLuid }
  else match row.identity.validate pfx with
    | .error _ => .foreign row.description
    | .ok () =>
      if row.protocol = ownedRouteProtocol then .route row.identity else .foreign row.description

def selectedRowsFor (current : List Op) (pfx : Prefix) : List SelectedKernelRow :=
  (current.filter fun row =>
    row.kind = .route && row.pfx = pfx && row.table = kernelTable).map (·.selectedRow pfx)

-- === Identities ===

def routeOperation (kind : OpKind) (pfx : Prefix) (identity : SelectedRouteIdentity) : Op where
  kind := kind
  pfx := pfx
  table := identity.table
  ifIndex := identity.ifIndex
  metric := identity.metric
  gateway := identity.nextHop
  protocol := identity.protocol
  interfaceLuid := identity.interfaceLuid

def selectedRouteOperation : Prefix → SelectedRouteIdentity → Op := routeOperation .route

def deleteRouteOperation : Prefix → SelectedRouteIdentity → Op := routeOperation .deleteRoute

/-- The operations of `createParkRow` and `deleteExactParkRow`, by their kind; they do
    not pass the LUID of the identity. -/
def parkOperation (kind : OpKind) (pfx : Prefix) (identity : SelectedParkIdentity) : Op where
  kind := kind
  pfx := pfx
  table := identity.table
  ifIndex := identity.ifIndex
  metric := identity.metric
  gateway := identity.nextHop
  protocol := identity.protocol

def createParkOperation : Prefix → SelectedParkIdentity → Op := parkOperation .park

def deleteParkOperation : Prefix → SelectedParkIdentity → Op := parkOperation .deletePark

def normalizeSelectedRoute (desired : SelectedRouteDesired) : Except String SelectedRouteIdentity :=
  if !canonicalRoutePrefix desired.pfx then notCanonical desired.pfx
  else if desired.ifIndex ≤ 0 then
    .error ("selected route " ++ desired.pfx.toString ++ " has no interface")
  else .ok
    { table := kernelTable
      ifIndex := desired.ifIndex
      nextHop := if desired.gateway.isValid then desired.gateway.toString else ""
      protocol := ownedRouteProtocol
      metric := 0
      scope := 0
      interfaceLuid := (api.luidFromIndex (.ofInt desired.ifIndex)).toOption.getD 0 }

def normalizeManagedPark (pfx : Prefix) : Except String SelectedParkIdentity :=
  if !(pfx.isValid && isCanonicalPrefix pfx) then
    .error ("park prefix " ++ quoted pfx.toString ++ " is not canonical")
  else
    let identity : SelectedParkIdentity :=
      { kind := .loopback, table := kernelTable, ifIndex := api.loopbackIndex.toNat
        nextHop := if pfx.addr.is4 then "127.0.0.1" else "::1"
        protocol := ownedRouteProtocol, metric := managedParkMetric, scope := 0
        interfaceLuid := 0 }
    (identity.validate pfx).map fun _ => identity

/-- The metric proof, over the metrics of both interfaces. -/
def selectedWinsOverPark (metrics : InterfaceMetrics) (pfx : Prefix)
    (selected : SelectedRouteIdentity) (park : SelectedParkIdentity) : Except String Bool := do
  let selectedIfMetric ← metrics selected.interfaceLuid pfx.addr.is4
  let parkIfMetric ← metrics park.interfaceLuid pfx.addr.is4
  return decide (selected.metric.toNat + selectedIfMetric.toNat <
    park.metric.toNat + parkIfMetric.toNat)

-- === Endpoint policies ===

def endpointOperation (route : EndpointRoute) : Except String Op :=
  if !isHostPrefix route.pfx || route.ifIndex ≤ 0 then .error "invalid endpoint route"
  else .ok
    { kind := .route, family := prefixFamily route.pfx, pfx := route.pfx, table := kernelTable,
      ifIndex := route.ifIndex,
      metric := if route.metric = 0 then endpointRouteMetric else route.metric,
      gateway := if route.gateway.isValid then route.gateway.toString else "",
      protocol := ownedRouteProtocol }

def containsRoute (routes : List Op) (want : Op) : Bool :=
  routes.any fun got => { got with interfaceLuid := want.interfaceLuid } = want

/-- `ReconcileEndpointPolicy`: what the snapshot at the start does not have is created. -/
def reconcileEndpointPolicy (p : EndpointPolicy) (table : List ForwardRow) :
    Except String Unit × List ForwardRow :=
  if !p.valid then (.error "invalid endpoint policy", table)
  else applyEach (fun route rows => (endpointOperation route).bind fun op =>
    if containsRoute (snapshotUnlocked table) op then .ok rows
    else applyOperation zones api op rows) p.routes table

/-- A row that a removal takes for the one of the route. -/
def ownedFor (route : EndpointRoute) (existing : Op) : Bool :=
  existing.pfx = route.pfx && existing.protocol = ownedRouteProtocol &&
    (route.ifIndex ≤ 0 || existing.ifIndex = route.ifIndex)

/-- `RemoveEndpointPolicy`: the routes of the policy say what goes. The deletions pass
    no gateway and no LUID. -/
def removeEndpointPolicy (p : EndpointPolicy) (table : List ForwardRow) :
    Except String Unit × List ForwardRow :=
  if !p.valid then (.error "invalid endpoint policy", table)
  else applyEach
    (fun existing rows => applyOperation zones api
      { kind := .deleteRoute, pfx := existing.pfx, ifIndex := existing.ifIndex,
        metric := existing.metric, protocol := existing.protocol } rows)
    (p.routes.flatMap fun route => (snapshotUnlocked table).filter (ownedFor route)) table

end Executor

-- === What survives the table ===

/-- The system answers what it is asked for: every index has an adapter and every
    interface an address of its own. -/
structure RouteApi.Valid (api : RouteApi) : Prop where
  luid : ∀ index, ∃ luid, api.luidFromIndex index = .ok luid ∧ luid ≠ 0
  loopback : 0 < api.loopbackIndex.toNat
  unicast : ∀ is4 index, ∃ source, api.unicastAddress is4 index = .ok source ∧
    source.isValid = true ∧ source.withoutZone.isUnspecified = false

/-- The identity of the route is what the table of its row is projected to, and it
    deletes the row, whatever the indices mean by then. -/
def RouteSurvives (zones : Zones) (api : RouteApi) (desired : SelectedRouteDesired) : Prop :=
  ∃ i row table, normalizeSelectedRoute api desired = .ok i ∧
    rowForOperation zones api (selectedRouteOperation desired.pfx i) = .ok row ∧
    createRoute row [] = some table ∧
    selectedRowsFor (snapshotUnlocked table) desired.pfx = [.route i] ∧
    ∀ later : RouteApi, later.Valid → ∃ call,
      rowForOperation zones later (deleteRouteOperation desired.pfx i) = .ok call ∧
      deleteRoute call table = some []

/-- The park is found again as it was written. -/
def ParkSurvives (zones : Zones) (api : RouteApi) (pfx : Prefix) : Prop :=
  ∃ i row table, normalizeManagedPark api pfx = .ok i ∧
    rowForOperation zones api (createParkOperation pfx i) = .ok row ∧
    createRoute row [] = some table ∧
    selectedRowsFor (snapshotUnlocked table) pfx = [.park i] ∧
    ∀ later : RouteApi, later.Valid → ∃ call,
      rowForOperation zones later (deleteParkOperation pfx i) = .ok call ∧
      deleteRoute call table = some []

def winsByRows (metrics : InterfaceMetrics) (selected park : ForwardRow) : Except String Bool := do
  let selectedIfMetric ← metrics selected.interfaceLuid selected.destinationPrefix.addr.is4
  let parkIfMetric ← metrics park.interfaceLuid park.destinationPrefix.addr.is4
  return decide (selected.metric.toNat + selectedIfMetric.toNat <
    park.metric.toNat + parkIfMetric.toNat)

def MetricsOfRows (zones : Zones) (api : RouteApi) (desired : SelectedRouteDesired) : Prop :=
  ∃ i p row parkRow, normalizeSelectedRoute api desired = .ok i ∧
    normalizeManagedPark api desired.pfx = .ok p ∧
    rowForOperation zones api (selectedRouteOperation desired.pfx i) = .ok row ∧
    rowForOperation zones api (createParkOperation desired.pfx p) = .ok parkRow ∧
    ∀ metrics, selectedWinsOverPark metrics desired.pfx i p = winsByRows metrics row parkRow

section Rows

variable {zones : Zones} {a : Addr}

theorem Zones.isValid_sockaddr : (zones.sockaddr a).isValid = a.isValid := by
  cases a <;> rfl

theorem Zones.sockaddr_eq_iff : zones.sockaddr a = a ↔ zones.kept a.zone = a.zone := by
  cases a with
  | v6 bits zone => simp [Zones.sockaddr, Addr.zone]
  | _ => simp [Zones.sockaddr, Addr.zone, zones.kept_empty]

theorem Zones.not_unspecified_sockaddr (h : a.withoutZone.isUnspecified = false) :
    (zones.sockaddr a).isUnspecified = false := by
  cases a with
  | v6 bits zone =>
    simp only [Addr.withoutZone, Addr.isUnspecified, decide_true, Bool.and_true,
      decide_eq_false_iff_not] at h
    simp only [Zones.sockaddr, Addr.isUnspecified, h, decide_false, Bool.false_and]
  | _ => exact h

theorem toNat_ofInt_eq_iff {i : Int} (h : 0 < i) :
    ((UInt32.ofInt i).toNat : Int) = i ↔ i < 2 ^ 32 := by
  have hmod : ((UInt32.ofInt i).toNat : Int) = i % 2 ^ 32 := by
    rw [UInt32.ofInt, UInt32.toNat_ofNat']
    omega
  omega

variable {row : ForwardRow}

/-- A listed row shows its next hop, unless it has none or an unspecified one. -/
theorem ForwardRow.hop_listed : row.listed.hop =
    if row.nextHop.isValid && !row.nextHop.isUnspecified then row.nextHop else .zero := by
  unfold Op.hop ForwardRow.listed
  split
  · next h =>
    have hvalid : row.nextHop.isValid = true := (Bool.and_eq_true_iff.mp h).1
    rw [if_pos (toString_ne_empty hvalid), Addr.parse_toString hvalid]
    rfl
  · rfl

theorem snapshotUnlocked_singleton : snapshotUnlocked [row] = [row.listed] := by
  unfold snapshotUnlocked
  cases h : row.destinationPrefix.addr.is4 <;> simp [h]

theorem selectedRowsFor_singleton :
    selectedRowsFor [row.listed] row.destinationPrefix =
      [row.listed.selectedRow row.destinationPrefix] := by
  simp [selectedRowsFor, ForwardRow.listed]

theorem createRoute_nil : createRoute row [] = some [row] := rfl

theorem deleteRoute_self : deleteRoute row [row] = some [] := by
  simp [deleteRoute, ForwardRow.names]

variable {op : Op} {pfx : Prefix}

theorem Op.selectedRow_eq_route {i : SelectedRouteIdentity} (h : op.selectedRow pfx = .route i) :
    op.identity = i ∧ i.validate pfx = .ok () := by
  unfold Op.selectedRow at h
  split at h
  · cases h
  split at h
  · cases h
  next hvalid =>
  split at h
  · cases h
    exact ⟨rfl, hvalid⟩
  · cases h

theorem Op.selectedRow_of_identity {i : SelectedRouteIdentity} (hi : op.identity = i)
    (hvalid : i.validate pfx = .ok ()) (hprotocol : op.protocol = ownedRouteProtocol)
    (hmetric : op.metric ≠ parkRouteMetric) : op.selectedRow pfx = .route i := by
  unfold Op.selectedRow
  rw [if_neg (fun h => hmetric h.2.1), hi, hvalid]
  exact if_pos hprotocol

theorem Op.selectedRow_eq_park {i : SelectedParkIdentity} (h : op.selectedRow pfx = .park i) :
    i.interfaceLuid = op.interfaceLuid := by
  unfold Op.selectedRow at h
  split at h
  · cases h
    rfl
  · split at h
    · cases h
    · split at h <;> cases h

end Rows

section Routes

variable {zones : Zones} {api : RouteApi} {desired : SelectedRouteDesired}

def routeIdentity (desired : SelectedRouteDesired) (luid : UInt64) : SelectedRouteIdentity where
  table := kernelTable
  ifIndex := desired.ifIndex
  nextHop := if desired.gateway.isValid then desired.gateway.toString else ""
  protocol := ownedRouteProtocol
  metric := 0
  scope := 0
  interfaceLuid := luid

def routeRow (desired : SelectedRouteDesired) (luid : UInt64) (hop : Addr) : ForwardRow where
  interfaceLuid := luid
  interfaceIndex := .ofInt desired.ifIndex
  destinationPrefix := desired.pfx
  nextHop := hop

variable {luid : UInt64}

theorem normalizeSelectedRoute_eq (hcanonical : isCanonicalPrefix desired.pfx = true)
    (hindex : 0 < desired.ifIndex) (hluid : api.luidFromIndex (.ofInt desired.ifIndex) = .ok luid) :
    normalizeSelectedRoute api desired = .ok (routeIdentity desired luid) := by
  have hroute : canonicalRoutePrefix desired.pfx = true := hcanonical
  unfold normalizeSelectedRoute
  rw [hroute, if_neg (by decide), if_neg (not_le.mpr hindex), hluid]
  rfl

theorem rowForOperation_gateway {kind : OpKind} (hvalid : desired.pfx.isValid = true)
    (hluid : luid ≠ 0) (hgateway : desired.gateway.isValid = true)
    (hkind : kind = .route ∨ kind = .deleteRoute) :
    rowForOperation zones api (routeOperation kind desired.pfx (routeIdentity desired luid)) =
      .ok (routeRow desired luid (zones.sockaddr desired.gateway)) := by
  have htext := toString_ne_empty hgateway
  rcases hkind with rfl | rfl <;>
    simp [rowForOperation, routeOperation, routeIdentity, hvalid, hluid, hgateway, htext,
      Addr.parse_toString hgateway, ForwardRow.via, routeRow]

theorem rowForOperation_onLink {source : Addr} (hvalid : desired.pfx.isValid = true)
    (hluid : luid ≠ 0) (hgateway : desired.gateway.isValid = false)
    (hsource : api.unicastAddress desired.pfx.addr.is4 (.ofInt desired.ifIndex) = .ok source)
    (hsourceValid : source.isValid = true) :
    rowForOperation zones api (selectedRouteOperation desired.pfx (routeIdentity desired luid)) =
      .ok (routeRow desired luid (zones.sockaddr source)) := by
  simp [rowForOperation, selectedRouteOperation, routeOperation, routeIdentity, hvalid, hluid,
    hgateway, hsource, ForwardRow.via, hsourceValid, routeRow]

/-- The row of a route is projected to its identity exactly when it shows the next hop
    and the index of the identity. -/
theorem selectedRow_routeRow {hop : Addr} (hcanonical : isCanonicalPrefix desired.pfx = true)
    (hindex : 0 < desired.ifIndex)
    (hfamily : desired.gateway.isValid = true → desired.gateway.is4 = desired.pfx.addr.is4) :
    (routeRow desired luid hop).listed.selectedRow desired.pfx =
        .route (routeIdentity desired luid) ↔
      desired.ifIndex < 2 ^ 32 ∧ desired.gateway.is4In6 = false ∧
      (if hop.isValid && !hop.isUnspecified then hop.toString else "") =
        if desired.gateway.isValid then desired.gateway.toString else "" := by
  have hhop : (routeRow desired luid hop).listed.hop =
      if hop.isValid && !hop.isUnspecified then hop else .zero := ForwardRow.hop_listed
  have hnextHop : (routeRow desired luid hop).listed.identity.nextHop =
      if hop.isValid && !hop.isUnspecified then hop.toString else "" := by
    simp only [Op.identity, hhop]
    by_cases hshown : (hop.isValid && !hop.isUnspecified) = true
    · rw [if_pos hshown, if_pos hshown, if_pos (Bool.and_eq_true_iff.mp hshown).1]
    · rw [if_neg hshown, if_neg hshown]
      rfl
  have hidentity : (routeRow desired luid hop).listed.identity = routeIdentity desired luid ↔
      desired.ifIndex < 2 ^ 32 ∧ (if hop.isValid && !hop.isUnspecified then hop.toString else "") =
        if desired.gateway.isValid then desired.gateway.toString else "" := by
    rw [← toNat_ofInt_eq_iff hindex, ← hnextHop]
    constructor
    · intro h
      rw [h]
      exact ⟨congrArg SelectedRouteIdentity.ifIndex h, rfl⟩
    · rintro ⟨hifIndex, htext⟩
      simp only [routeIdentity, ← htext]
      simp only [Op.identity, ForwardRow.listed, routeRow, hifIndex]
  have hvalidate : (routeIdentity desired luid).validate desired.pfx = .ok () ↔
      desired.gateway.is4In6 = false :=
    SelectedRouteIdentity.validate_gateway_iff hcanonical rfl hindex
      (by decide : 0 < ownedRouteProtocol) (.inl rfl) rfl hfamily
  constructor
  · intro h
    obtain ⟨hi, hv⟩ := Op.selectedRow_eq_route h
    exact ⟨(hidentity.mp hi).1, hvalidate.mp hv, (hidentity.mp hi).2⟩
  · rintro ⟨hlt, hmapped, htext⟩
    exact Op.selectedRow_of_identity (hidentity.mpr ⟨hlt, htext⟩) (hvalidate.mpr hmapped) rfl
      (by decide : (0 : UInt32) ≠ parkRouteMetric)

theorem RouteApi.Valid.row (hapi : api.Valid) (zones : Zones)
    (hcanonical : isCanonicalPrefix desired.pfx = true) (hindex : 0 < desired.ifIndex) :
    ∃ luid hop, luid ≠ 0 ∧
      normalizeSelectedRoute api desired = .ok (routeIdentity desired luid) ∧
      rowForOperation zones api (selectedRouteOperation desired.pfx (routeIdentity desired luid)) =
        .ok (routeRow desired luid hop) ∧
      if desired.gateway.isValid then hop = zones.sockaddr desired.gateway
      else hop.isValid = true ∧ hop.isUnspecified = false := by
  have hvalid := isValid_of_isCanonicalPrefix hcanonical
  obtain ⟨luid, hluid, hnonzero⟩ := hapi.luid (.ofInt desired.ifIndex)
  have hnormalize := normalizeSelectedRoute_eq hcanonical hindex hluid
  cases hgateway : desired.gateway.isValid with
  | true =>
    exact ⟨luid, _, hnonzero, hnormalize,
      rowForOperation_gateway hvalid hnonzero hgateway (.inl rfl), rfl⟩
  | false =>
    obtain ⟨source, hsource, hsourceValid, hspecified⟩ :=
      hapi.unicast desired.pfx.addr.is4 (.ofInt desired.ifIndex)
    exact ⟨luid, _, hnonzero, hnormalize,
      rowForOperation_onLink hvalid hnonzero hgateway hsource hsourceValid,
      Zones.isValid_sockaddr.trans hsourceValid, Zones.not_unspecified_sockaddr hspecified⟩

/-- Which routes are found again as they were written. -/
theorem routeSurvives_iff (hapi : api.Valid) (hcanonical : isCanonicalPrefix desired.pfx = true)
    (hindex : 0 < desired.ifIndex)
    (hfamily : desired.gateway.isValid = true → desired.gateway.is4 = desired.pfx.addr.is4) :
    RouteSurvives zones api desired ↔
      desired.gateway.isValid = true ∧ desired.gateway.isUnspecified = false ∧
      desired.gateway.is4In6 = false ∧ zones.kept desired.gateway.zone = desired.gateway.zone ∧
      desired.ifIndex < 2 ^ 32 := by
  have hvalid := isValid_of_isCanonicalPrefix hcanonical
  obtain ⟨luid, hop, hluid, hnormalize, hrow, hhop⟩ := hapi.row zones hcanonical hindex
  have hselected : ∀ row : ForwardRow, row.destinationPrefix = desired.pfx →
      selectedRowsFor (snapshotUnlocked [row]) desired.pfx =
        [row.listed.selectedRow desired.pfx] := by
    intro row hpfx
    rw [snapshotUnlocked_singleton, ← hpfx, selectedRowsFor_singleton]
  constructor
  · rintro ⟨i, row, table, hi, hr, htable, hrows, _⟩
    rw [hnormalize, Except.ok.injEq] at hi
    subst hi
    rw [hrow, Except.ok.injEq] at hr
    subst hr
    rw [createRoute_nil, Option.some.injEq] at htable
    subst htable
    rw [hselected _ rfl, List.cons.injEq] at hrows
    obtain ⟨hlt, hmapped, htext⟩ := (selectedRow_routeRow hcanonical hindex hfamily).mp hrows.1
    cases hgateway : desired.gateway.isValid with
    | false =>
      -- the address of the interface stands where the identity has no next hop
      rw [hgateway] at hhop htext
      rw [if_pos (by rw [hhop.1, hhop.2]; rfl), if_neg (by decide)] at htext
      exact absurd htext (toString_ne_empty hhop.1)
    | true =>
      rw [hgateway, if_pos rfl] at hhop htext
      have hhopValid : hop.isValid = true := by
        rw [hhop, Zones.isValid_sockaddr, hgateway]
      by_cases hshown : (hop.isValid && !hop.isUnspecified) = true
      · rw [if_pos hshown] at htext
        have heq := toString_inj hhopValid hgateway htext
        rw [heq] at hshown hhop
        refine ⟨rfl, ?_, hmapped, Zones.sockaddr_eq_iff.mp hhop.symm, hlt⟩
        simpa using (Bool.and_eq_true_iff.mp hshown).2
      · rw [if_neg hshown] at htext
        exact absurd htext.symm (toString_ne_empty hgateway)
  · rintro ⟨hgateway, hspecified, hmapped, hzone, hlt⟩
    rw [hgateway, if_pos rfl] at hhop
    have heq : hop = desired.gateway := hhop.trans (Zones.sockaddr_eq_iff.mpr hzone)
    refine ⟨_, _, _, hnormalize, hrow, createRoute_nil, ?_, fun later _ => ⟨_,
      rowForOperation_gateway hvalid hluid hgateway (.inr rfl), ?_⟩⟩
    · rw [hselected _ rfl, (selectedRow_routeRow hcanonical hindex hfamily).mpr ⟨hlt, hmapped, ?_⟩]
      rw [heq, hgateway, hspecified]
      rfl
    · rw [hhop]
      exact deleteRoute_self

end Routes

section Parks

variable {zones : Zones} {api : RouteApi} {pfx : Prefix}

def parkIdentity (api : RouteApi) (pfx : Prefix) : SelectedParkIdentity where
  kind := .loopback
  table := kernelTable
  ifIndex := api.loopbackIndex.toNat
  nextHop := if pfx.addr.is4 then "127.0.0.1" else "::1"
  protocol := ownedRouteProtocol
  metric := managedParkMetric
  scope := 0
  interfaceLuid := 0

theorem parse_loopbackHop (is4 : Bool) :
    Addr.parse (if is4 then "127.0.0.1" else "::1") = some (loopbackHop is4) := by
  cases is4 <;> decide +kernel

theorem validate_parkIdentity (hapi : api.Valid) (hcanonical : isCanonicalPrefix pfx = true) :
    (parkIdentity api pfx).validate pfx = .ok () := by
  have hvalid := isValid_of_isCanonicalPrefix hcanonical
  have hhop : validateNextHop "loopback park" (parkIdentity api pfx).nextHop pfx =
      .ok (loopbackHop pfx.addr.is4) := by
    refine validateNextHop_eq_ok_iff.mpr ⟨parse_loopbackHop _, ?_⟩
    cases pfx.addr.is4 <;> decide
  have hloopback : (loopbackHop pfx.addr.is4).isLoopback = true := by
    cases pfx.addr.is4 <;> decide
  have hindex : (0 : Int) < api.loopbackIndex.toNat := by
    have := hapi.loopback
    omega
  have hkind : (parkIdentity api pfx).validateKind pfx = .ok () := by
    simp only [SelectedParkIdentity.validateKind, parkIdentity, bind_ok_iff, require_eq_ok]
    exact ⟨(), decide_eq_true hindex, _, hhop, hloopback⟩
  simp only [SelectedParkIdentity.validate, bind_ok_iff, hkind, require_eq_ok, hvalid, hcanonical]
  simp [parkIdentity, ownedRouteProtocol, kernelTable, managedSelectedRouteTable]

theorem normalizeManagedPark_eq (hapi : api.Valid) (hcanonical : isCanonicalPrefix pfx = true) :
    normalizeManagedPark api pfx = .ok (parkIdentity api pfx) := by
  have hvalid := isValid_of_isCanonicalPrefix hcanonical
  unfold normalizeManagedPark
  rw [hvalid, hcanonical, if_neg (by decide)]
  change ((parkIdentity api pfx).validate pfx).map (fun _ => parkIdentity api pfx) = _
  rw [validate_parkIdentity hapi hcanonical]
  rfl

/-- The row of a park is on the adapter that the loopback index stands for now. -/
theorem RouteApi.Valid.parkRow (hapi : api.Valid) (zones : Zones)
    (hcanonical : isCanonicalPrefix pfx = true) :
    ∃ row, rowForOperation zones api (createParkOperation pfx (parkIdentity api pfx)) = .ok row ∧
      row.interfaceLuid ≠ 0 ∧ row.destinationPrefix = pfx := by
  have hvalid := isValid_of_isCanonicalPrefix hcanonical
  have hindex : 0 < (parkIdentity api pfx).ifIndex := by
    have := hapi.loopback
    simp only [parkIdentity]
    omega
  obtain ⟨luid, hluid, hnonzero⟩ := hapi.luid (.ofInt (parkIdentity api pfx).ifIndex)
  simp [rowForOperation, createParkOperation, parkOperation, hvalid, hindex,
    ForwardRow.onInterface, hluid, Except.toOption, hnonzero]

/-- No park is found again: its row reads as a route. -/
theorem not_parkSurvives (hapi : api.Valid) (hcanonical : isCanonicalPrefix pfx = true) :
    ¬ ParkSurvives zones api pfx := by
  rintro ⟨i, row, table, hi, hr, htable, hrows, _⟩
  obtain ⟨row', hrow, hluid, hpfx⟩ := hapi.parkRow zones hcanonical
  rw [normalizeManagedPark_eq hapi hcanonical, Except.ok.injEq] at hi
  subst hi
  rw [hrow, Except.ok.injEq] at hr
  subst hr
  rw [createRoute_nil, Option.some.injEq] at htable
  subst htable
  rw [snapshotUnlocked_singleton, ← hpfx, selectedRowsFor_singleton, List.cons.injEq] at hrows
  exact hluid (Op.selectedRow_eq_park hrows.1).symm

theorem not_metricsOfRows {desired : SelectedRouteDesired} (hapi : api.Valid)
    (hcanonical : isCanonicalPrefix desired.pfx = true) (hindex : 0 < desired.ifIndex) :
    ¬ MetricsOfRows zones api desired := by
  rintro ⟨i, p, row, parkRow, hi, hp, hr, hparkRow, hmetrics⟩
  obtain ⟨luid, hop, hluid, hnormalize, hrow, _⟩ := hapi.row zones hcanonical hindex
  obtain ⟨row', hrow', hluid', _⟩ := hapi.parkRow zones hcanonical
  rw [hnormalize, Except.ok.injEq] at hi
  subst hi
  rw [hrow, Except.ok.injEq] at hr
  subst hr
  rw [normalizeManagedPark_eq hapi hcanonical, Except.ok.injEq] at hp
  subst hp
  rw [hrow', Except.ok.injEq] at hparkRow
  subst hparkRow
  -- only the adapters have a metric
  have h := hmetrics fun luid _ => if luid = 0 then .error "no such interface" else .ok 0
  simp [selectedWinsOverPark, winsByRows, routeIdentity, routeRow, parkIdentity, hluid,
    hluid', bind, Except.bind, pure, Except.pure] at h

end Parks

/-- The identity of a route survives the table exactly when it is over a gateway that
    the table shows as it was written, on an interface whose index the table can hold. The
    identity of a park never does, and the metric proof does not read the metric of the
    interface that the park is on. -/
theorem windows_identities_iff (zones : Zones) (api : RouteApi) (hapi : api.Valid)
    (desired : SelectedRouteDesired) (hcanonical : isCanonicalPrefix desired.pfx = true)
    (hindex : 0 < desired.ifIndex)
    (hfamily : desired.gateway.isValid = true →
      desired.gateway.bitLen = desired.pfx.addr.bitLen) :
    (RouteSurvives zones api desired ↔
      desired.gateway.isValid = true ∧ desired.gateway.isUnspecified = false ∧
      desired.gateway.is4In6 = false ∧ zones.kept desired.gateway.zone = desired.gateway.zone ∧
      desired.ifIndex < 2 ^ 32) ∧
    ¬ ParkSurvives zones api desired.pfx ∧ ¬ MetricsOfRows zones api desired :=
  ⟨routeSurvives_iff hapi hcanonical hindex
      fun hvalid => is4_iff_bitLen hvalid (hfamily hvalid),
    not_parkSurvives hapi hcanonical, not_metricsOfRows hapi hcanonical hindex⟩

-- === Samples ===

def noZones : Zones := ⟨fun _ => "", rfl⟩

/-- Adapters with their index plus one as LUID, the loopback interface first, and
    addresses `192.0.2.10` and `2001:db8::10`. -/
def sampleApi : RouteApi where
  luidFromIndex := fun index => .ok (index.toUInt64 + 1)
  loopbackIndex := 1
  unicastAddress := fun is4 _ =>
    .ok (if is4 then .v4 0xc000020a#32 else .v6 0x20010db8000000000000000000000010#128 "")

theorem sampleApi_valid : sampleApi.Valid where
  luid := by
    intro index
    refine ⟨_, rfl, fun h => ?_⟩
    have hnat := congrArg UInt64.toNat h
    have hlt := index.toNat_lt
    simp only [UInt64.toNat_add, UInt32.toNat_toUInt64, UInt64.toNat_one, UInt64.toNat_zero] at hnat
    omega
  loopback := by decide
  unicast := by
    intro is4 index
    exact ⟨_, rfl, by cases is4 <;> decide⟩

def onLinkRoute : SelectedRouteDesired where
  role := "work"
  pfx := ⟨.v4 0x0a000001#32, 32⟩
  ifIndex := 2
  gateway := .zero

/-- A route without a gateway is read back with the address of the interface as its
    next hop, and the deletion through its identity names another row; a park is read back
    with the LUID of the loopback interface. -/
theorem windows_identities_lost :
    sampleApi.Valid ∧ isCanonicalPrefix onLinkRoute.pfx = true ∧
    ¬ RouteSurvives noZones sampleApi onLinkRoute ∧
    ¬ ParkSurvives noZones sampleApi onLinkRoute.pfx ∧
    selectedRowsFor (snapshotUnlocked [routeRow onLinkRoute 3 (.v4 0xc000020a#32)])
      onLinkRoute.pfx = [.route { routeIdentity onLinkRoute 3 with nextHop := "192.0.2.10" }] ∧
    ((rowForOperation noZones sampleApi
      (deleteRouteOperation onLinkRoute.pfx (routeIdentity onLinkRoute 3))).toOption.bind
        fun call => deleteRoute call [routeRow onLinkRoute 3 (.v4 0xc000020a#32)]) = none ∧
    ((rowForOperation noZones sampleApi
      (createParkOperation onLinkRoute.pfx (parkIdentity sampleApi onLinkRoute.pfx))).toOption.map
        fun row => selectedRowsFor (snapshotUnlocked [row]) onLinkRoute.pfx) =
      some [.park { parkIdentity sampleApi onLinkRoute.pfx with interfaceLuid := 2 }] := by
  have hcanonical : isCanonicalPrefix onLinkRoute.pfx = true := by decide
  refine ⟨sampleApi_valid, hcanonical, fun h => ?_, not_parkSurvives sampleApi_valid hcanonical,
    by decide +kernel, by decide +kernel, by decide +kernel⟩
  have hgateway := ((routeSurvives_iff sampleApi_valid hcanonical (by decide) nofun).mp h).1
  exact absurd hgateway (by decide)

def gatewayRoute : SelectedRouteDesired where
  role := "work"
  pfx := ⟨.v4 0x0a000001#32, 32⟩
  ifIndex := 2
  gateway := .v4 0xc0000201#32

theorem windows_identities_gateway :
    RouteSurvives noZones sampleApi gatewayRoute ∧
    ¬ ParkSurvives noZones sampleApi gatewayRoute.pfx := by
  obtain ⟨hroute, hpark, _⟩ := windows_identities_iff noZones sampleApi sampleApi_valid gatewayRoute
    (by decide) (by decide) (fun _ => rfl)
  exact ⟨hroute.mpr (by decide), hpark⟩

end Kikimora.Platform.Windows

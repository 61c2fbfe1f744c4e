import Kikimora.Platform.Executor

/-!
# Rows of the Linux kernel

How the Linux executor writes the identity of a selected route or of a park as a
netlink row, and how it projects the row that the kernel reports. The kernel keeps
IPv4 rows as they were written. It reports no scope for IPv6 rows, and it reports an
IPv6 unreachable row on the loopback interface.
-/

namespace Kikimora.Platform.Linux

open Net Routing

-- === Rows ===

/-- The part of a `netlink.Route` that the executor writes and reads. An address is a
    slice of four or sixteen bytes, so it has no zone; a destination is an address
    with the length of its mask. -/
structure NetlinkRoute where
  type : Nat := 0
  dst : Option Prefix := none
  table : Int := 0
  linkIndex : Int := 0
  priority : Nat := 0
  gw : Option Addr := none
  src : Option Addr := none
  protocol : Int := 0
  scope : Int := 0
  deriving DecidableEq, Repr

def rtnUnicast : Nat := 1

def rtnUnreachable : Nat := 7

def selectedRouteProtocolLinux : Int := 4

def scopeUniverse : Int := 0

def netipAddr (ip : Option Addr) : Addr := (ip.getD .zero).unmap

def describeRow (row : NetlinkRoute) : String :=
  "ifindex " ++ toString row.linkIndex ++ " gw " ++
    (if row.gw = none then "<nil>" else (netipAddr row.gw).toString) ++ " proto " ++
    toString row.protocol ++ " metric " ++ toString row.priority ++ " scope " ++
    toString row.scope ++ " type " ++ toString row.type

def rowIdentity (row : NetlinkRoute) : SelectedRouteIdentity where
  table := managedSelectedRouteTable
  ifIndex := row.linkIndex
  nextHop := if (netipAddr row.gw).isValid then (netipAddr row.gw).toString else ""
  protocol := row.protocol
  metric := .ofNat row.priority
  scope := row.scope
  interfaceLuid := 0

/-- How the row of a prefix is classified. -/
def selectedKernelRow (row : NetlinkRoute) (pfx : Prefix) : SelectedKernelRow :=
  if row.type = rtnUnreachable then
    if row.protocol = selectedRouteProtocolLinux ∧
        UInt32.ofNat row.priority = managedParkMetric ∧ row.linkIndex = 0 ∧ row.gw = none then
      .park
        { kind := .unreachable, table := managedSelectedRouteTable, ifIndex := 0, nextHop := "",
          protocol := row.protocol, metric := .ofNat row.priority, scope := row.scope,
          interfaceLuid := 0 }
    else .foreign (describeRow row)
  else match (rowIdentity row).validate pfx with
    | .ok () => .route (rowIdentity row)
    | .error _ => .foreign (describeRow row)

def ipString : Option Addr → String
  | some ip => ip.unmap.toString
  | none => ""

def printedDst (dst : Prefix) : Prefix :=
  if dst.addr.is4In6 then ⟨dst.addr.unmap, dst.bits - 96⟩ else dst

def NetlinkRoute.listed (is4 : Bool) (row : NetlinkRoute) : RouteRow where
  kind := if row.type = rtnUnreachable then .unreachable else .route
  family := if is4 then familyV4 else familyV6
  pfx := some (match row.dst with
    | some dst => printedDst dst
    | none => ⟨if is4 then .v4 0 else .v6 0 "", 0⟩)
  table := row.table
  ifIndex := row.linkIndex
  metric := .ofNat row.priority
  gateway := ipString row.gw
  source := ipString row.src
  protocol := row.protocol

def listRoutes (rows4 rows6 : List NetlinkRoute) : List RouteRow :=
  rows4.map (NetlinkRoute.listed true) ++ rows6.map (NetlinkRoute.listed false)

-- === Identities and requests ===

/-- `selectedRouteMetric`: the metric that the kernel gives to an IPv6 route without
    one is written out. -/
def selectedRouteMetric (pfx : Prefix) : UInt32 := if !pfx.addr.is4 then 1024 else 0

def normalizeSelectedRoute (desired : SelectedRouteDesired) : Except String SelectedRouteIdentity :=
  if !canonicalRoutePrefix desired.pfx then notCanonical desired.pfx
  else if desired.ifIndex ≤ 0 then
    .error ("selected route " ++ desired.pfx.toString ++ " has no interface")
  else
    let identity : SelectedRouteIdentity :=
      { table := managedSelectedRouteTable
        ifIndex := desired.ifIndex
        nextHop := if desired.gateway.isValid then desired.gateway.toString else ""
        protocol := selectedRouteProtocolLinux
        metric := selectedRouteMetric desired.pfx
        scope :=
          if !desired.pfx.addr.is4 then 0
          else if desired.gateway.isValid then scopeUniverse else scopeLink
        interfaceLuid := 0 }
    (identity.validate desired.pfx).map fun _ => identity

def selectedRouteFor (pfx : Prefix) (identity : SelectedRouteIdentity) : NetlinkRoute where
  dst := some ⟨pfx.addr.withoutZone, pfx.bits⟩
  table := identity.table
  linkIndex := identity.ifIndex
  priority := identity.metric.toNat
  protocol := identity.protocol
  gw := if identity.nextHop ≠ "" then (Addr.parse identity.nextHop).map Addr.withoutZone else none
  scope := if identity.nextHop ≠ "" then scopeUniverse else scopeLink

def normalizeManagedPark (pfx : Prefix) : Except String SelectedParkIdentity :=
  if !(pfx.isValid && isCanonicalPrefix pfx) then
    .error ("park prefix " ++ quoted pfx.toString ++ " is not canonical")
  else
    let identity : SelectedParkIdentity :=
      { kind := .unreachable, table := managedSelectedRouteTable, ifIndex := 0, nextHop := ""
        protocol := selectedRouteProtocolLinux, metric := managedParkMetric
        scope := scopeUniverse, interfaceLuid := 0 }
    (identity.validate pfx).map fun _ => identity

def legacyParkRow (pfx : Prefix) : NetlinkRoute where
  dst := some ⟨pfx.addr.withoutZone, pfx.bits⟩
  table := managedSelectedRouteTable
  type := rtnUnreachable
  protocol := staticProtocol
  priority := managedParkMetric.toNat

/-- `applyOperation` of such a park: a row of its metric is in its way, which is no
    error. -/
def addPark (pfx : Prefix) (rows : List NetlinkRoute) : List NetlinkRoute :=
  let row := legacyParkRow pfx
  if rows.any fun r => r.dst = row.dst && r.table = row.table && r.priority = row.priority then rows
  else rows ++ [row]

def parkRowFor (pfx : Prefix) (identity : SelectedParkIdentity) : NetlinkRoute where
  dst := some ⟨pfx.addr.withoutZone, pfx.bits⟩
  table := identity.table
  type := rtnUnreachable
  protocol := identity.protocol
  priority := identity.metric.toNat
  scope := identity.scope

-- === The kernel ===

def loopbackIndex : Int := 1

/-- A written row as the kernel reports it. -/
def reported (pfx : Prefix) (row : NetlinkRoute) : NetlinkRoute :=
  let row := if row.type = 0 then { row with type := rtnUnicast } else row
  if pfx.addr.is4 then row
  else { row with
    scope := 0
    linkIndex := if row.type = rtnUnreachable then loopbackIndex else row.linkIndex }

def stillNeeds {α : Type} (pfx : Prefix) (action : Nat) : Except String α :=
  .error ("selected route " ++ pfx.toString ++ " still needs " ++ toString action ++
    " after the apply")

/-- `ReconcileSelectedRoute` over the rows of the prefix: the verdict of the planner,
    the write, and the read-back that has to leave nothing to do. -/
def writeSelectedRoute (desired : SelectedRouteDesired) (record : SelectedRoute)
    (rows : List NetlinkRoute) : Except String SelectedReconcileResult × List NetlinkRoute :=
  let plan := fun rows : List NetlinkRoute =>
    planSelectedRoute (rows.map (selectedKernelRow · desired.pfx)) (some record)
  let row := reported desired.pfx (selectedRouteFor desired.pfx record.desired)
  if !canonicalRoutePrefix desired.pfx then (notCanonical desired.pfx, rows)
  else if desired.ifIndex ≤ 0 then
    (.error ("selected route " ++ desired.pfx.toString ++ " has no interface"), rows)
  else match plan rows with
    | .error e => (.error e, rows)
    | .ok action =>
      -- a row of the same priority is in the way of an addition and goes with a replacement
      let after := match action with
        | .none => rows
        | .add => if rows.any (·.priority = row.priority) then rows else rows ++ [row]
        | .replace => rows.filter (·.priority ≠ row.priority) ++ [row]
      match plan after with
      | .error e =>
        (.error ("selected route " ++ desired.pfx.toString ++
          " is not exactly present after the apply: " ++ e), after)
      | .ok .none => (.ok ⟨decide (action ≠ .none), record.desired⟩, after)
      | .ok .add => (stillNeeds desired.pfx 1, after)
      | .ok .replace => (stillNeeds desired.pfx 2, after)

/-- Adds the park, drops a stale one and reads them back. -/
def writeManagedPark (pfx : Prefix) (record : SelectedRoute) (rows : List NetlinkRoute) :
    Except String SelectedParkReconcileResult × List NetlinkRoute :=
  match record.park with
  | none =>
    (.error ("reconcile managed park " ++ pfx.toString ++ ": no park transaction"), rows)
  | some park =>
    let isPark := fun (identity : SelectedParkIdentity) (row : NetlinkRoute) =>
      decide (selectedKernelRow row pfx = .park identity)
    let row := reported pfx (parkRowFor pfx park.desired)
    if park.state ≠ .applying then
      (.error ("reconcile managed park " ++ pfx.toString ++
        " requires park state applying, got " ++ quoted park.state.text), rows)
    else if !(pfx.isValid && isCanonicalPrefix pfx) then
      (.error ("park prefix " ++ quoted pfx.toString ++ " is not canonical"), rows)
    else match park.desired.validate pfx with
      | .error e => (.error e, rows)
      | .ok () =>
        match classifyParkPrefixRows pfx record "park reconcile"
            (rows.map (selectedKernelRow · pfx)) with
        | .error e => (.error e, rows)
        | .ok () =>
          let present := rows.any (isPark park.desired)
          let added := if present || rows.any (·.priority = row.priority) then rows
            else rows ++ [row]
          -- a stale park goes once the target is there
          let stale := park.owned.filter fun o => o ≠ park.desired && rows.any (isPark o)
          let after := match stale with
            | some o => added.eraseP (isPark o)
            | none => added
          if after.any (isPark park.desired) then
            (.ok ⟨!present || stale.isSome, park.desired⟩, after)
          else
            (.error ("park " ++ pfx.toString ++ " is not exactly present after the apply"), after)

-- === What survives the kernel ===

/-- The identity of the route is projected from the row that the kernel reports for
    it, so that the route can be written where there is no row yet. -/
def RouteSurvives (desired : SelectedRouteDesired) : Prop :=
  ∃ i, normalizeSelectedRoute desired = .ok i ∧
    selectedKernelRow (reported desired.pfx (selectedRouteFor desired.pfx i)) desired.pfx =
      .route i ∧
    ∀ record : SelectedRoute, record.desired = i → record.state = .applying →
      (writeSelectedRoute desired record []).1 = .ok ⟨true, i⟩

def ParkSurvives (pfx : Prefix) : Prop :=
  ∃ i, normalizeManagedPark pfx = .ok i ∧
    selectedKernelRow (reported pfx (parkRowFor pfx i)) pfx = .park i ∧
    ∀ (record : SelectedRoute) (park : SelectedPark), record.park = some park →
      park.desired = i → park.state = .applying →
      (writeManagedPark pfx record []).1 = .ok ⟨true, i⟩

theorem reported_route {pfx : Prefix} {row : NetlinkRoute} (h : row.type = 0) :
    reported pfx row =
      { row with type := rtnUnicast, scope := if pfx.addr.is4 then row.scope else 0 } := by
  unfold reported
  rw [if_pos h]
  cases pfx.addr.is4 <;> rfl

theorem reported_park {pfx : Prefix} {row : NetlinkRoute} (h : row.type = rtnUnreachable) :
    reported pfx row = if pfx.addr.is4 then row
      else { row with scope := 0, linkIndex := loopbackIndex } := by
  have hne : row.type ≠ 0 := by
    rw [h]
    decide
  unfold reported
  rw [if_neg hne]
  dsimp only
  rw [if_pos h]

section Routes

variable {desired : SelectedRouteDesired}

def routeIdentity (desired : SelectedRouteDesired) (nextHop : String) : SelectedRouteIdentity where
  table := managedSelectedRouteTable
  ifIndex := desired.ifIndex
  nextHop := nextHop
  protocol := selectedRouteProtocolLinux
  metric := selectedRouteMetric desired.pfx
  scope :=
    if !desired.pfx.addr.is4 then 0
    else if desired.gateway.isValid then scopeUniverse else scopeLink
  interfaceLuid := 0

def gatewayText (gateway : Addr) : String := if gateway.isValid then gateway.toString else ""

variable (hcanonical : isCanonicalPrefix desired.pfx = true)

include hcanonical

variable (hindex : 0 < desired.ifIndex)

include hindex

theorem validate_routeIdentity {gateway : Addr}
    (hfamily : gateway.isValid = true → gateway.is4 = desired.pfx.addr.is4) :
    (routeIdentity desired (gatewayText gateway)).validate desired.pfx = .ok () ↔
      gateway.is4In6 = false := by
  have hscope : (routeIdentity desired (gatewayText gateway)).scope = 0 ∨
      (routeIdentity desired (gatewayText gateway)).scope = scopeLink := by
    simp only [routeIdentity]
    split
    · exact .inl rfl
    · split
      · exact .inl rfl
      · exact .inr rfl
  exact SelectedRouteIdentity.validate_gateway_iff hcanonical rfl hindex
    (by decide : 0 < selectedRouteProtocolLinux) hscope rfl hfamily

theorem normalizeSelectedRoute_eq_ok_iff
    (hfamily : desired.gateway.isValid = true → desired.gateway.is4 = desired.pfx.addr.is4)
    {i : SelectedRouteIdentity} :
    normalizeSelectedRoute desired = .ok i ↔
      desired.gateway.is4In6 = false ∧ i = routeIdentity desired (gatewayText desired.gateway) := by
  have hvalidate := validate_routeIdentity hcanonical hindex hfamily
  have hroute : canonicalRoutePrefix desired.pfx = true := hcanonical
  unfold normalizeSelectedRoute
  rw [hroute, if_neg (by decide), if_neg (not_le.mpr hindex)]
  change ((routeIdentity desired (gatewayText desired.gateway)).validate desired.pfx).map
    (fun _ => routeIdentity desired (gatewayText desired.gateway)) = .ok i ↔ _
  rw [← hvalidate]
  cases hresult : (routeIdentity desired (gatewayText desired.gateway)).validate desired.pfx with
  | error e => simp [Except.map]
  | ok u => simp [Except.map, eq_comm]

/-- The row of a normalized identity is projected to the identity without the zone. -/
theorem selectedKernelRow_reported
    (hfamily : desired.gateway.isValid = true → desired.gateway.is4 = desired.pfx.addr.is4)
    (hmapped : desired.gateway.is4In6 = false) :
    selectedKernelRow (reported desired.pfx (selectedRouteFor desired.pfx
      (routeIdentity desired (gatewayText desired.gateway)))) desired.pfx =
      .route (routeIdentity desired (gatewayText desired.gateway.withoutZone)) := by
  have hgw : (netipAddr (selectedRouteFor desired.pfx
      (routeIdentity desired (gatewayText desired.gateway))).gw) = desired.gateway.withoutZone := by
    simp only [selectedRouteFor, routeIdentity]
    cases hvalid : desired.gateway.isValid with
    | false =>
      rw [eq_zero_of_not_valid hvalid]
      rfl
    | true =>
      simp only [gatewayText, hvalid, if_true, ne_eq, toString_ne_empty hvalid, not_false_eq_true,
        Addr.parse_toString hvalid]
      exact unmap_of_not_mapped (is4In6_withoutZone.trans hmapped)
  have hscope : (if desired.pfx.addr.is4 then (selectedRouteFor desired.pfx
      (routeIdentity desired (gatewayText desired.gateway))).scope else 0) =
      (routeIdentity desired (gatewayText desired.gateway.withoutZone)).scope := by
    cases hvalid : desired.gateway.isValid with
    | false =>
      cases h4 : desired.pfx.addr.is4 <;>
        simp [selectedRouteFor, routeIdentity, gatewayText, hvalid, h4]
    | true =>
      cases h4 : desired.pfx.addr.is4 <;>
        simp [selectedRouteFor, routeIdentity, gatewayText, hvalid, toString_ne_empty hvalid, h4]
  have hidentity : rowIdentity (reported desired.pfx (selectedRouteFor desired.pfx
      (routeIdentity desired (gatewayText desired.gateway)))) =
      routeIdentity desired (gatewayText desired.gateway.withoutZone) := by
    rw [reported_route rfl]
    simp only [rowIdentity, hgw, hscope]
    simp [routeIdentity, selectedRouteFor, gatewayText]
  have hvalid : (routeIdentity desired (gatewayText desired.gateway.withoutZone)).validate
      desired.pfx = .ok () :=
    (validate_routeIdentity hcanonical hindex
      (by rw [isValid_withoutZone, is4_withoutZone]; exact hfamily)).mpr
      (is4In6_withoutZone.trans hmapped)
  unfold selectedKernelRow
  rw [hidentity, hvalid, if_neg]
  rw [reported_route rfl]
  change rtnUnicast ≠ rtnUnreachable
  decide

theorem writeSelectedRoute_empty {record : SelectedRoute} (hstate : record.state = .applying)
    (hrow : selectedKernelRow (reported desired.pfx (selectedRouteFor desired.pfx record.desired))
      desired.pfx = .route record.desired) :
    (writeSelectedRoute desired record []).1 = .ok ⟨true, record.desired⟩ := by
  have hroute : canonicalRoutePrefix desired.pfx = true := hcanonical
  have hretiring : record.state ≠ .retiring := by
    rw [hstate]
    nofun
  have hbefore : planSelectedRoute [] (some record) = .ok .add :=
    planSelectedRoute_eq_ok_iff.mpr ⟨hretiring, nofun,
      Nat.zero_le 1, nofun, rfl⟩
  have hafter : planSelectedRoute [.route record.desired] (some record) = .ok .none := by
    refine planSelectedRoute_eq_ok_iff.mpr ⟨hretiring, fun row h => ?_, ?_, fun _ _ => hstate, ?_⟩
    · rw [List.mem_singleton.mp h]
      exact .inl rfl
    · rw [List.count_singleton_self]
    · simp [plannedAction, ownedRows]
  unfold writeSelectedRoute
  simp only [hroute, Bool.not_true, Bool.false_eq_true, if_false, not_le.mpr hindex, List.map_nil,
    hbefore, List.any_nil, List.nil_append, List.map_cons, hrow, hafter]
  rfl

/-- Which routes are found again as they were written. -/
theorem routeSurvives_iff
    (hfamily : desired.gateway.isValid = true → desired.gateway.is4 = desired.pfx.addr.is4) :
    RouteSurvives desired ↔ desired.gateway.is4In6 = false ∧ desired.gateway.zone = "" := by
  constructor
  · rintro ⟨i, hnormalize, hrow, _⟩
    obtain ⟨hmapped, rfl⟩ := (normalizeSelectedRoute_eq_ok_iff hcanonical hindex hfamily).mp
      hnormalize
    rw [selectedKernelRow_reported hcanonical hindex hfamily hmapped,
      SelectedKernelRow.route.injEq] at hrow
    have htext : gatewayText desired.gateway.withoutZone = gatewayText desired.gateway :=
      congrArg SelectedRouteIdentity.nextHop hrow
    refine ⟨hmapped, withoutZone_eq_iff.mp ?_⟩
    unfold gatewayText at htext
    rw [isValid_withoutZone] at htext
    cases hvalid : desired.gateway.isValid with
    | false =>
      rw [eq_zero_of_not_valid hvalid]
      rfl
    | true =>
      rw [hvalid, if_pos rfl, if_pos rfl] at htext
      exact toString_inj (isValid_withoutZone.trans hvalid) hvalid htext
  · rintro ⟨hmapped, hzone⟩
    have hrow := selectedKernelRow_reported hcanonical hindex hfamily hmapped
    rw [withoutZone_eq_iff.mpr hzone] at hrow
    refine ⟨_, (normalizeSelectedRoute_eq_ok_iff hcanonical hindex hfamily).mpr ⟨hmapped, rfl⟩,
      hrow, fun record hdesired hstate => ?_⟩
    rw [← hdesired] at hrow ⊢
    exact writeSelectedRoute_empty hcanonical hindex hstate hrow

end Routes

section

variable {pfx : Prefix}

def parkIdentity : SelectedParkIdentity where
  kind := .unreachable
  table := managedSelectedRouteTable
  ifIndex := 0
  nextHop := ""
  protocol := selectedRouteProtocolLinux
  metric := managedParkMetric
  scope := scopeUniverse
  interfaceLuid := 0

theorem validate_parkIdentity (hcanonical : isCanonicalPrefix pfx = true) :
    parkIdentity.validate pfx = .ok () := by
  have hvalid := isValid_of_isCanonicalPrefix hcanonical
  simp [SelectedParkIdentity.validate, SelectedParkIdentity.validateKind, bind_ok_iff, parkIdentity,
    hcanonical, hvalid, selectedRouteProtocolLinux, scopeUniverse]

theorem normalizeManagedPark_eq (hcanonical : isCanonicalPrefix pfx = true) :
    normalizeManagedPark pfx = .ok parkIdentity := by
  have hvalid := isValid_of_isCanonicalPrefix hcanonical
  unfold normalizeManagedPark
  rw [hvalid, hcanonical, if_neg (by decide)]
  change (parkIdentity.validate pfx).map (fun _ => parkIdentity) = _
  rw [validate_parkIdentity hcanonical]
  rfl

theorem selectedKernelRow_reported_park :
    selectedKernelRow (reported pfx (parkRowFor pfx parkIdentity)) pfx = .park parkIdentity ↔
      pfx.addr.is4 = true := by
  rw [reported_park rfl]
  cases hfamily : pfx.addr.is4 with
  | true => exact iff_of_true rfl rfl
  | false =>
    refine iff_of_false ?_ Bool.false_ne_true
    simp [selectedKernelRow, parkRowFor, loopbackIndex]

theorem writeManagedPark_empty (hcanonical : isCanonicalPrefix pfx = true)
    {record : SelectedRoute} {park : SelectedPark} (hpark : record.park = some park)
    (hdesired : park.desired = parkIdentity) (hstate : park.state = .applying)
    (hrow : selectedKernelRow (reported pfx (parkRowFor pfx parkIdentity)) pfx =
      .park parkIdentity) :
    (writeManagedPark pfx record []).1 = .ok ⟨true, parkIdentity⟩ := by
  have hvalid := isValid_of_isCanonicalPrefix hcanonical
  unfold writeManagedPark
  simp only [hpark, hstate, ne_eq, not_true_eq_false, if_false, hvalid, hcanonical, Bool.and_self,
    Bool.not_true, Bool.false_eq_true, hdesired, validate_parkIdentity hcanonical, List.map_nil,
    classifyParkPrefixRows, List.any_nil, Bool.or_self, List.nil_append, Bool.and_false]
  have hstale : park.owned.filter (fun _ => false) = none := by
    cases park.owned <;> rfl
  simp [hstale, hrow]

/-- Only IPv4 parks are found again as they were written. -/
theorem parkSurvives_iff (hcanonical : isCanonicalPrefix pfx = true) :
    ParkSurvives pfx ↔ pfx.addr.is4 = true := by
  rw [← selectedKernelRow_reported_park]
  constructor
  · rintro ⟨i, hnormalize, hrow, _⟩
    rw [normalizeManagedPark_eq hcanonical] at hnormalize
    cases hnormalize
    exact hrow
  · intro hrow
    exact ⟨_, normalizeManagedPark_eq hcanonical, hrow, fun record park hpark hdesired hstate =>
      writeManagedPark_empty hcanonical hpark hdesired hstate hrow⟩

end

/-- The identity of a route survives the kernel exactly when its gateway is a plain
    address of its family, and that of a park exactly for an IPv4 prefix. -/
theorem linux_identities_iff (desired : SelectedRouteDesired)
    (hcanonical : isCanonicalPrefix desired.pfx = true) (hindex : 0 < desired.ifIndex)
    (hfamily : desired.gateway.isValid = true →
      desired.gateway.bitLen = desired.pfx.addr.bitLen) :
    (RouteSurvives desired ↔ desired.gateway.is4In6 = false ∧ desired.gateway.zone = "") ∧
    (ParkSurvives desired.pfx ↔ desired.pfx.addr.is4 = true) :=
  ⟨routeSurvives_iff hcanonical hindex fun hvalid => is4_iff_bitLen hvalid (hfamily hvalid),
    parkSurvives_iff hcanonical⟩

-- === Samples ===

def zonedRoute : SelectedRouteDesired where
  role := "work"
  pfx := ⟨.v6 0x20010db8000000000000000000000001#128 "", 128⟩
  ifIndex := 2
  gateway := .v6 0xfe800000000000000000000000000001#128 "eth0"

/-- The park of an IPv6 prefix is read back as a foreign row, so that it cannot be
    written; and a route over a gateway with a zone is read back without it. -/
theorem linux_identities_lost :
    isCanonicalPrefix zonedRoute.pfx = true ∧ zonedRoute.gateway.bitLen = 128 ∧
    ¬ RouteSurvives zonedRoute ∧ ¬ ParkSurvives zonedRoute.pfx ∧
    (selectedKernelRow (reported zonedRoute.pfx (parkRowFor zonedRoute.pfx parkIdentity))
      zonedRoute.pfx = .foreign "ifindex 1 gw <nil> proto 4 metric 42760 scope 0 type 7") := by
  have hcanonical : isCanonicalPrefix zonedRoute.pfx = true := by decide
  refine ⟨hcanonical, rfl, fun h => ?_, fun h => ?_, by decide +kernel⟩
  · exact absurd ((routeSurvives_iff hcanonical (by decide) (by decide)).mp h).2 (by decide)
  · exact absurd ((parkSurvives_iff hcanonical).mp h) (by decide)

def plainRoute : SelectedRouteDesired where
  role := "work"
  pfx := ⟨.v4 0x0a000001#32, 32⟩
  ifIndex := 2
  gateway := .v4 0xc0000201#32

theorem linux_identities_plain : RouteSurvives plainRoute ∧ ParkSurvives plainRoute.pfx := by
  obtain ⟨hroute, hpark⟩ :=
    linux_identities_iff plainRoute (by decide) (by decide) (fun _ => rfl)
  exact ⟨hroute.mpr (by decide), hpark.mpr (by decide)⟩

end Kikimora.Platform.Linux

import Kikimora.Net.Addr

/-!
# Product role state

The data of the product controller: what a Toad reports, what validation found,
the physical underlay with its epoch, and the runtime record of one role.
-/

namespace Kikimora.Core

open Net

-- === Toad observations ===

structure Capabilities where
  validate : Bool := false
  rebind : Bool := false
  restartTransportKeepingTUN : Bool := false
  reportsLiveEndpoints : Bool := false
  deriving DecidableEq, Repr

structure TransportEndpoint where
  network : String
  address : String
  hostname : String
  port : UInt16
  observedAt : Int
  active : Bool
  deriving DecidableEq, Repr

/-- The route-target authority for one address family. -/
structure FamilyReadiness where
  configured : Bool := false
  ready : Bool := false
  reason : String := ""
  deriving DecidableEq, Repr

structure RouteFamilies where
  ipv4 : FamilyReadiness := {}
  ipv6 : FamilyReadiness := {}
  deriving DecidableEq, Repr

structure ValidationResult where
  healthy : Bool := false
  state : String := ""
  reason : String := ""
  families : RouteFamilies := {}
  deriving DecidableEq, Repr

/-- A revisioned Toad snapshot. Its state is a text of the Toad protocol. -/
structure ToadSnapshot where
  protocolVersion : Int := 0
  revision : UInt64 := 0
  generation : UInt64 := 0
  state : String := ""
  reason : String := ""
  interfaceName : String := ""
  ifIndex : Int := 0
  mtu : Int := 0
  addresses : List String := []
  routeReady : Bool := false
  families : RouteFamilies := {}
  sessionConnected : Bool := false
  lastHandshakeAgeMS : Option Int := none
  rxBytes : UInt64 := 0
  txBytes : UInt64 := 0
  endpoint : String := ""
  capabilities : Capabilities := {}
  endpoints : List TransportEndpoint := []
  updatedAt : Int := 0
  deriving DecidableEq, Repr

-- === The physical underlay ===

structure Path where
  family : Int
  ifIndex : Int
  interface : String
  gateway : Addr
  preferredSrc : Addr
  mtu : Int
  table : Int
  metric : UInt32
  deriving DecidableEq, Repr

inductive ChangeReason
  | unspecified
  | initial
  | interface
  | gateway
  | preferredSource
  | availability
  | wifiIdentity
  | resumeValidation
  | other (text : String)
  deriving DecidableEq, Repr

def ChangeReason.text : ChangeReason → String
  | unspecified => ""
  | initial => "initial"
  | interface => "default-interface-changed"
  | gateway => "gateway-changed"
  | preferredSource => "source-address-changed"
  | availability => "underlay-availability-changed"
  | wifiIdentity => "wifi-identity-changed"
  | resumeValidation => "resume-validation"
  | other t => t

/-- A `netstate.Snapshot`; epoch zero is an observation not yet numbered. -/
structure Underlay where
  epoch : UInt64 := 0
  ipv4 : Option Path := none
  ipv6 : Option Path := none
  connectionID : String := ""
  bssid : String := ""
  observedAt : Int := 0
  deriving DecidableEq, Repr

def Underlay.hasPath (u : Underlay) : Bool := u.ipv4.isSome || u.ipv6.isSome

def identityEqual (a b : Underlay) : Bool :=
  a.ipv4 = b.ipv4 && a.ipv6 = b.ipv6 && a.bssid = b.bssid

def pathFieldChanged {α : Type} [DecidableEq α] (field : Path → α) (a b : Option Path) : Bool :=
  match a, b with
  | some p, some q => field p ≠ field q
  | _, _ => false

def changeReason (old next : Underlay) : ChangeReason :=
  let changed {α : Type} [DecidableEq α] (field : Path → α) : Bool :=
    pathFieldChanged field old.ipv4 next.ipv4 || pathFieldChanged field old.ipv6 next.ipv6
  if changed Path.ifIndex || changed Path.interface then .interface
  else if changed Path.gateway then .gateway
  else if changed Path.preferredSrc then .preferredSource
  else if old.ipv4.isSome ≠ next.ipv4.isSome || old.ipv6.isSome ≠ next.ipv6.isSome then
    .availability
  else if old.bssid ≠ next.bssid then .wifiIdentity
  else .interface

/-- `netstate.Compare`: the next observation, numbered, and whether it is a
    material change. The epoch is a 64-bit counter. -/
def compareUnderlay (old next : Underlay) : Underlay × ChangeReason × Bool :=
  if old.epoch = 0 && !identityEqual old next then ({ next with epoch := 1 }, .initial, true)
  else if identityEqual old next then ({ next with epoch := old.epoch }, .unspecified, false)
  else ({ next with epoch := old.epoch + 1 }, changeReason old next, true)

-- === Roles ===

inductive RoleState
  | stopped
  | waitingForUnderlay
  | preparingEndpoint
  | starting
  | validating
  | ready
  | recovering
  | stopping
  | failed
  deriving DecidableEq, Repr

def RoleState.text : RoleState → String
  | stopped => "Stopped"
  | waitingForUnderlay => "WaitingForUnderlay"
  | preparingEndpoint => "PreparingEndpoint"
  | starting => "Starting"
  | validating => "Validating"
  | ready => "Ready"
  | recovering => "Recovering"
  | stopping => "Stopping"
  | failed => "Failed"

/-- The steps of a recovery transaction; `idle` is the empty text between
    transactions. -/
inductive RecoveryStep
  | idle
  | observeRoutes
  | park
  | withdrawSelected
  | withdraw
  | quiesce
  | applyEndpoint
  | rebind
  | startTransport
  | validate
  | publish
  | resyncLeshy
  | observeRestore
  | freezeSelected
  | restoreSelected
  | unfreezeSelected
  deriving DecidableEq, Repr

structure RecoveryState where
  step : RecoveryStep := .idle
  operation : UInt64 := 0
  epoch : UInt64 := 0
  attempt : Int := 0
  lastError : String := ""
  nextRetryAt : Option Int := none
  deriving DecidableEq, Repr

structure EndpointState where
  state : String := ""
  appliedUnderlayEpoch : UInt64 := 0
  configured : List String := []
  resolved : List (Addr × UInt16) := []
  live : List (Addr × UInt16) := []
  lastError : String := ""
  deriving DecidableEq, Repr

structure PublicationState where
  published : Bool := false
  zone : String := ""
  interface : String := ""
  generation : UInt64 := 0
  families : RouteFamilies := {}
  deriving DecidableEq, Repr

structure ParkingState where
  active : Bool := false
  count : Nat := 0
  prefixes : List Prefix := []
  deriving DecidableEq, Repr

/-- The product's record of one role. -/
structure RoleRuntime where
  desired : Bool := false
  state : RoleState := .stopped
  reason : String := ""
  operation : UInt64 := 0
  toadGeneration : UInt64 := 0
  validatedEpoch : UInt64 := 0
  toad : ToadSnapshot := {}
  endpoint : EndpointState := {}
  publication : PublicationState := {}
  parking : ParkingState := {}
  recovery : RecoveryState := {}
  validation : ValidationResult := {}
  lastError : String := ""
  deriving DecidableEq, Repr

structure ValidationToken where
  role : String
  operation : UInt64
  toadGeneration : UInt64
  underlayEpoch : UInt64
  deriving DecidableEq, Repr

end Kikimora.Core

import Kikimora.Control.Transactions

/-!
# The request path

What Leshy asks of the manager: an intent names a zone, a prefix and a source,
and everything else comes from the state of the role. A request is denied before
anything is touched, or admitted with the route generation of that moment and
carried through under the apply lock.
-/

namespace Kikimora.Control

open Net Routing Kikimora.Core

-- === Intents ===

/-- `LeshyRouteIntent`; the sources of the wire have the texts of the registry. -/
structure LeshyRouteIntent where
  zone : String
  pfx : String
  source : SelectedRouteSource
  deriving DecidableEq, Repr

/-- The state of a verdict; it is empty for an error that is neither a denial nor
    a conflict. -/
inductive LeshyRouteState
  | unset
  | applied
  | alreadyApplied
  | denied
  | conflict
  deriving DecidableEq, Repr

/-- `LeshyRouteResult`. -/
structure LeshyRouteResult where
  role : String := ""
  zone : String := ""
  pfx : String := ""
  family : Nat := 0
  generation : UInt64 := 0
  state : LeshyRouteState := .unset
  reason : String := ""
  deriving DecidableEq, Repr

def canonicalIntentPrefix (intent : LeshyRouteIntent) : Except String Prefix :=
  match Prefix.parse intent.pfx with
  | none => .error ("prefix " ++ quoted intent.pfx ++ " does not parse")
  | some pfx =>
    if pfx ≠ pfx.masked then .error ("prefix " ++ quoted intent.pfx ++ " is not canonical")
    else if pfx.addr.is4In6 then
      .error ("mapped IPv6 prefix " ++ quoted intent.pfx ++ " is rejected")
    else match intent.source with
      | .dns =>
        if isHostPrefix pfx then .ok pfx
        else .error ("DNS intents require a host prefix, got " ++ quoted intent.pfx)
      | .static => .ok pfx
      | .other text => .error ("unknown route source " ++ quoted text)

/-- What a request reads besides the memory of the manager and the product role. -/
structure RouteAuthority where
  /-- the roles that a zone is configured for -/
  zoneRoles : String → List String
  managedSelected : String → Bool
  /-- the route authority gate -/
  authorityReady : Bool
  authorityErrorText : String := ""
  /-- `SelectedRouteCapacity` -/
  capacity : Nat := 16384
  /-- the answer of the observation gate -/
  fastPathAllowed : Bool := true

def ambiguousZone (candidates : List String) : String :=
  "zone maps to " ++ toString candidates.length ++ " configured roles"

-- === Ensure ===

def familyReady (families : RouteFamilies) (pfx : Prefix) : Bool :=
  if pfx.addr.is4 then families.ipv4.ready else families.ipv6.ready

def familyNotReady (families : RouteFamilies) (pfx : Prefix) : String :=
  let specific := if pfx.addr.is4 then families.ipv4.reason else families.ipv6.reason
  "family " ++ toString (prefixFamily pfx) ++ " is not ready for this role" ++
    if specific = "" then "" else ": " ++ specific

/-- The checks of the product role, in their order. A denial has its reason, and
    what the result tells Leshy about it. -/
def productDenial (runtime : RoleRuntime) (pfx : Prefix) : Option (String × String) :=
  if !runtime.desired then some ("role is not desired", "")
  else if !runtime.validation.healthy then
    let reason := runtime.validation.reason
    some (if reason = "" then "current validation is not healthy" else reason, "")
  else if !familyReady runtime.validation.families pfx then
    let reason := familyNotReady runtime.validation.families pfx
    some (reason, reason)
  else if runtime.toad.ifIndex ≤ 0 then
    some ("the current Toad snapshot has no managed interface", "")
  else none

def overCapacity (r : MemorySelectedRegistry) (role : String) (source : SelectedRouteSource)
    (pfx : Prefix) (capacity : Nat) : Bool :=
  source = .dns &&
    capacity ≤ (r.snapshot role).countP fun entry => entry.source = .dns && entry.pfx ≠ pfx

/-- The admitted request: the generation of the role is captured before the apply
    lock is taken, and reported with every outcome. -/
def ensureAdmitted (cfg : Config) (authority : RouteAuthority) (role : String)
    (intent : LeshyRouteIntent) (pfx : Prefix) (runtime : RoleRuntime) (result : LeshyRouteResult) :
    ManagerM (LeshyRouteResult × Option ManagerError) := do
  let generation ← routeGenerationLocked role
  let source := if intent.source = .static then .static else .dns
  let request : EnsureRequest := ⟨intent.zone, pfx, source, runtime.toad.ifIndex,
    runtime.toad.interfaceName, generation, runtime.toadGeneration⟩
  let result := { result with generation := generation }
  ((applySelectedRouteCanonical cfg role request authority.fastPathAllowed).bind fun fastPath =>
    .ret ({ result with state := if fastPath then .alreadyApplied else .applied },
      none)).tryCatch fun e => .ret (result, some e)

def ensure (cfg : Config) (authority : RouteAuthority) (intent : LeshyRouteIntent) :
    ManagerM (LeshyRouteResult × Option ManagerError) :=
  match authority.zoneRoles intent.zone with
  | [role] =>
    match canonicalIntentPrefix intent with
    | .error reason =>
      .ret ({ zone := intent.zone, pfx := intent.pfx, state := .denied },
        some (.denied "" intent.zone intent.pfx reason))
    | .ok pfx =>
      let result : LeshyRouteResult :=
        { role := role, zone := intent.zone, pfx := pfx.toString, family := prefixFamily pfx }
      let deny (reason told : String) : ManagerM (LeshyRouteResult × Option ManagerError) :=
        .ret ({ result with reason := told },
          some (.denied role intent.zone pfx.toString reason))
      if authority.managedSelected role && !authority.authorityReady then
        deny (if authority.authorityErrorText = "" then "route authority is initializing"
          else authority.authorityErrorText) ""
      else do
        let state ← roleState role
        if state.frozen then deny "role selected-route state is frozen for recovery" ""
        else (roleRuntime role).bind fun
          | none => deny "role is not configured in the product state" ""
          | some runtime =>
            match productDenial runtime pfx with
            | some (reason, told) => deny reason told
            | none => do
              let full ← memory fun m =>
                (overCapacity m.registry role intent.source pfx authority.capacity, m)
              if full then
                deny ("selected-route capacity " ++ toString authority.capacity ++
                  " reached for this role") ""
              else ensureAdmitted cfg authority role intent pfx runtime result
  | candidates =>
    .ret ({ zone := intent.zone, pfx := intent.pfx, state := .denied },
      some (.denied "" intent.zone intent.pfx (ambiguousZone candidates)))

/-- The verdict that `Ensure` makes of an error; a wrapped error counts as what it
    wraps. -/
def verdictState (state : LeshyRouteState) : ManagerError → LeshyRouteState
  | .conflict .. => .conflict
  | .denied .. => .denied
  | .wrapped _ cause => verdictState state cause
  | _ => state

def ensureVerdict (cfg : Config) (authority : RouteAuthority) (intent : LeshyRouteIntent) :
    ManagerM (LeshyRouteResult × Option ManagerError) :=
  (ensure cfg authority intent).bind fun
    | (result, none) => .ret (result, none)
    | (result, some e) => .ret ({ result with state := verdictState result.state e }, some e)

-- === Forget and Flush ===

def forget (cfg : Config) (authority : RouteAuthority) (intent : LeshyRouteIntent) :
    ManagerM Unit :=
  match canonicalIntentPrefix intent with
  | .error reason => .fail (.denied "" intent.zone intent.pfx reason)
  | .ok pfx =>
    match authority.zoneRoles intent.zone with
    | [role] => do
      let _ ← roleState role
      retireRecordLocked cfg role pfx
    | candidates => .fail (.denied "" intent.zone pfx.toString (ambiguousZone candidates))

def flushZone (cfg : Config) (authority : RouteAuthority) (zone : String) : ManagerM Unit :=
  match authority.zoneRoles zone with
  | [role] => (routeGenerationLocked role).bind fun generation =>
      flushZoneLocked cfg role zone generation
  | candidates => .fail (.denied "" zone "" (ambiguousZone candidates))

def workAuthority : RouteAuthority :=
  { zoneRoles := fun _ => ["work"], managedSelected := fun _ => true, authorityReady := true }

end Kikimora.Control

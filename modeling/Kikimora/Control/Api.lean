import Kikimora.Control.Reconciler
import Kikimora.Control.Subscription

/-!
# The control API

`Manager.Handle` answers one decoded request: it checks the version, authenticates
the methods of the managed selected routes, runs the method and builds the
response. The methods take the manager's lock in sections and call services
between them; a nil pointer that is dereferenced ends the process.

A role of the manager always has its configuration, as the constructor leaves it.
What a method leaves to goroutines (the work of a profile switch, the watch of a
new process, a recovery that a retry kicks) is not part of the request.
-/

namespace Kikimora.Control

open Routing Kikimora.Core Lib

-- === Requests and responses ===

/-- The methods of the API; any other text is not supported. -/
inductive Method
  | handshake
  | snapshot
  | getSnapshot
  | subscribe
  | connectAll
  | disconnectAll
  | connectRole
  | disconnectRole
  | retryRole
  | setActiveProfile
  | rediscoverEndpoints
  | validateRole
  | createTunnel
  | removeTunnel
  | createProfile
  | setProfileRoles
  | setTunnelProfiles
  | getRoutingLists
  | setRoutingList
  | setBypassMode
  | setRoleIPv6
  | getDiagnosticsSnapshot
  | setDiagnosticsCapture
  | createDiagnosticsBundle
  | ensureLeshyRoute
  | forgetLeshyRoute
  | flushLeshyZone
  | other (name : String)
  deriving DecidableEq, Repr

def Method.text : Method → String
  | handshake => "Handshake"
  | snapshot => "Snapshot"
  | getSnapshot => "GetSnapshot"
  | subscribe => "Subscribe"
  | connectAll => "ConnectAll"
  | disconnectAll => "DisconnectAll"
  | connectRole => "ConnectRole"
  | disconnectRole => "DisconnectRole"
  | retryRole => "RetryRole"
  | setActiveProfile => "SetActiveProfile"
  | rediscoverEndpoints => "RediscoverEndpoints"
  | validateRole => "ValidateRole"
  | createTunnel => "CreateTunnel"
  | removeTunnel => "RemoveTunnel"
  | createProfile => "CreateProfile"
  | setProfileRoles => "SetProfileRoles"
  | setTunnelProfiles => "SetTunnelProfiles"
  | getRoutingLists => "GetRoutingLists"
  | setRoutingList => "SetRoutingList"
  | setBypassMode => "SetBypassMode"
  | setRoleIPv6 => "SetRoleIPv6"
  | getDiagnosticsSnapshot => "GetDiagnosticsSnapshot"
  | setDiagnosticsCapture => "SetDiagnosticsCapture"
  | createDiagnosticsBundle => "CreateDiagnosticsBundle"
  | ensureLeshyRoute => "EnsureLeshyRoute"
  | forgetLeshyRoute => "ForgetLeshyRoute"
  | flushLeshyZone => "FlushLeshyZone"
  | other name => name

def Method.leshyRoute : Method → Bool
  | ensureLeshyRoute | forgetLeshyRoute | flushLeshyZone => true
  | _ => false

/-- `config.TunnelSpec`; only the configuration package reads it. -/
structure TunnelSpec where
  name : String
  deriving DecidableEq, Repr

structure Request where
  version : Int
  id : String := ""
  method : Method
  role : String := ""
  profile : String := ""
  tunnel : Option TunnelSpec := none
  profiles : List String := []
  roles : List String := []
  list : String := ""
  content : String := ""
  mode : String := ""
  enabled : Option Bool := none
  leshyRoute : Option LeshyRouteIntent := none
  privilegedAuth : String := ""
  deriving DecidableEq, Repr

structure APIError where
  code : String
  message : String
  role : String := ""
  retryable : Bool
  deriving DecidableEq, Repr

structure LeshyZone where
  name : String
  mode : String
  routeTarget : String
  deriving DecidableEq, Repr

/-- A snapshot in a response, as far as it is modelled. -/
structure SentSnapshot where
  revision : UInt64
  visible : VisibleSnapshot
  diagnostics : Bool := false
  deriving DecidableEq, Repr

/-- The part of a response that the methods fill in. -/
structure Reply where
  version : Int
  minVersion : Int := 0
  maxVersion : Int := 0
  id : String
  capabilities : List String := []
  snapshot : Option SentSnapshot := none
  message : String := ""
  lists : List (String × String) := []
  zones : List LeshyZone := []
  bypassMode : String := ""
  leshyRoute : Option LeshyRouteResult := none
  deriving DecidableEq, Repr

structure Response extends Reply where
  ok : Bool := false
  error : String := ""
  apiError : Option APIError := none
  deriving DecidableEq, Repr

def Response.ReportsError (r : Response) : Prop := r.error ≠ "" ∨ r.apiError ≠ none

-- === State and services ===

/-- How the manager is wired. A nil pointer is a missing value. -/
structure ApiConfig where
  privilegedAuth : Option (List UInt8) := none
  selectedRoutes : Option (Config × RouteAuthority) := none
  /-- the collector of the diagnostics is set -/
  diagnostics : Bool := false
  configDir : String := ""
  autoRecovery : Bool := false
  recoveryDriver : Bool := false

structure ApiState where
  manager : Manager
  legacyAuthRequests : UInt64 := 0
  /-- the selected routes: registry, kernel, checkpoints -/
  world : World

def ApiState.observed (s : ApiState) : World := { s.world with runtime := s.manager.product.roles }

/-- The answer of a Toad to `Validate`. -/
structure ToadResponse where
  ok : Bool
  error : Option String := none
  snapshot : Option ToadSnapshot := none
  validation : Option ValidationResult := none

/-- Why the endpoint policy of a role is not applied. -/
inductive EndpointError
  /-- `isTransientStartPrerequisite` -/
  | transient (message : String)
  | other (message : String)

/-- What the manager asks of the configuration files, the router, the processes and the
    recovery driver, by the type of the answer. An error is its text. -/
inductive Service : Type → Type
  | createTunnel (dir : String) (spec : TunnelSpec) : Service (Except String String)
  | removeTunnel (dir name : String) : Service (Option String)
  | setTunnelProfiles (dir name : String) (profiles : List String) : Service (Option String)
  | addDeclaredProfile (dir name : String) : Service (Except String Bool)
  | readLeshyZones : Service (List LeshyZone)
  | readBypassMode : Service String
  | writeBypassMode (mode : String) : Service (Option String)
  | readRoutingList (name : String) : Service (Except String String)
  | writeRoutingList (name content : String) : Service (Option String)
  | writeRoleIPv6Setting (role : String) (enabled : Bool) : Service (Option String)
  | regenerateLeshyConfig : Service (Option String)
  | reloadLeshy : Service (Option String)
  | setCaptureEnabled (enabled : Bool) : Service (Option String)
  | bundle : Service (Except String String)
  | now : Service Int
  | launch (role : String) : Service (Except String Nat)
  | stopProcess (process : Nat) : Service (Option String)
  | validate (role : String) (generation : UInt64) : Service (Except String ToadResponse)
  | applyEndpoint (role : String) : Service (Option EndpointError)
  | releaseResources (role : String) : Service (Option String)

/-- The calls of a request: a section under a lock, a command with its save, an effect of
    the selected routes, a service. -/
inductive ApiEffect : Type → Type 1
  | locked {β : Type} (f : ApiState → β × ApiState) : ApiEffect β
  | command (cmd : Command) : ApiEffect (Except CommandError (List RoleWork))
  | selected {β : Type} (c : Effect β) : ApiEffect β
  | service {β : Type} (c : Service β) : ApiEffect β

/-- The outcomes of a call. The store of a command and the services may answer anything,
    and while a service is waited for the rest of the manager goes on; the roles stay. -/
def ApiStep ⦃β : Type⦄ (c : ApiEffect β) (s : ApiState) (b : β) (s' : ApiState) : Prop :=
  match c, b with
  | .locked f, b => b = (f s).1 ∧ s' = (f s).2
  | .command cmd, b => ∃ store, b = (s.manager.command store cmd).1 ∧
      s' = { s with manager := (s.manager.command store cmd).2 }
  | .selected c, b => ∃ w, FaultStep c s.observed b w ∧ s' = { s with world := w }
  | .service _, _ => s'.manager.names = s.manager.names

/-- The end of the process. -/
inductive Panic
  | nilDereference
  deriving DecidableEq, Repr

abbrev ApiM := Prog Panic ApiEffect

namespace Api

def locked {β : Type} (f : ApiState → β × ApiState) : ApiM β := Prog.perform (.locked f)

def service {β : Type} (c : Service β) : ApiM β := Prog.perform (.service c)

def read {β : Type} (f : Manager → β) : ApiM β := locked fun s => (f s.manager, s)

def enter (sec : Section) : ApiM Bool :=
  locked fun s =>
    match s.manager.runSection sec with
    | some m => (true, { s with manager := m })
    | none => (false, s)

def product {β : Type} (f : Controller → β × Controller) : ApiM β :=
  locked fun s =>
    ((f s.manager.product).1,
      { s with manager := { s.manager with product := (f s.manager.product).2 } })

def deref {α : Type} : Option α → ApiM α
  | some a => .ret a
  | none => .fail .nilDereference

def selected {α : Type} : ManagerM α → ApiM (Except ManagerError α)
  | .ret a => .ret (.ok a)
  | .fail .nilRecord => .fail .nilDereference
  | .fail e => .ret (.error e)
  | .call c k => .call (.selected c) fun b => selected (k b)

-- === Authentication ===

def apiVersion : Int := 3

def encodePrivilegedAuthKey (key : List UInt8) : String :=
  String.ofList (key.flatMap fun b => [Nat.digitChar (b.toNat / 16), Nat.digitChar (b.toNat % 16)])

def verifyPrivilegedAuth (key : List UInt8) (presented : String) : Bool :=
  presented = encodePrivilegedAuthKey key

def schema2ManagedActive : Bool := false

def authRequired (method : Method) (message : String) : APIError :=
  { code := "privileged_auth_required", message := message, role := method.text,
    retryable := false }

def checkPrivilegedAuth (cfg : ApiConfig) (method : Method) (presented : String) :
    ApiM (Option APIError) :=
  match cfg.privilegedAuth with
  | none => .ret none
  | some key =>
    if presented ≠ "" then
      if verifyPrivilegedAuth key presented then .ret none
      else .ret (some (authRequired method "privileged method requires the service credential"))
    else if schema2ManagedActive then
      .ret (some (authRequired method "schema2 managed mode requires the service credential"))
    else locked fun s => (none, { s with legacyAuthRequests := s.legacyAuthRequests + 1 })

-- === Starting and stopping ===

def joinErrors : List (Option String) → Option String
  | errors =>
    match errors.filterMap id with
    | [] => none
    | texts => some ("\n".intercalate texts)

def unknownToad (role : String) : String := "unknown Toad " ++ quoted role

def scheduleStartRetry (role : String) : ApiM Unit := do
  let now ← service .now
  locked fun s =>
    let m := s.manager
    let r := m.roles role
    if role ∉ m.names || !r.enabled || r.process.isSome || !r.startPending ||
        m.startRetryPending role then ((), s)
    else
      let attempts := (m.startBackoffs role).getD 0
      let m := { m with
        startBackoffs := fun id => if id = role then some (attempts + 1) else m.startBackoffs id
        startRetryPending := fun id => if id = role then true else m.startRetryPending id
        product := (m.product.setRetrySchedule role (some now)).2 }
      ((), { s with manager := m })

def prepareRoleStart (cfg : ApiConfig) (role : String) : ApiM (Except String Bool) := do
  let r ← read fun m => if role ∈ m.names then some (m.roles role) else none
  match r with
  | none => .ret (.error (unknownToad role))
  | some r =>
    if !r.enabled || r.process.isSome then .ret (.ok false)
    else if !cfg.autoRecovery || !cfg.recoveryDriver then .ret (.ok true)
    else (service (.applyEndpoint role)).bind fun
      | none => do
        let _ ← enter (.prepareStart role)
        .ret (.ok true)
      | some (.other message) =>
        .ret (.error ("prepare endpoint policy for Toad " ++ quoted role ++ ": " ++ message))
      | some (.transient message) => do
        let reason := "waiting for endpoint route before transport start: " ++ message
        let _ ← enter (.deferStart role reason)
        let _ ← product fun c => c.markRecovering role reason
        scheduleStartRetry role
        .ret (.ok false)

def launchRole (role : String) : ApiM (Option String) := do
  let begun ← enter (.beginStart role)
  if !begun then .ret none
  else (service (.launch role)).bind fun
    | .error message => do
      let _ ← enter (.startFailed role message)
      .ret (some ("start Toad " ++ quoted role ++ ": " ++ message))
    | .ok process => do
      let started ← enter (.processStarted role process)
      if !started then do
        -- another start was faster, or the role was disabled
        let _ ← service (.stopProcess process)
        .ret none
      else do
        let _ ← product fun c => c.setRetrySchedule role none
        .ret none

def startRoleProcess (cfg : ApiConfig) (role : String) : ApiM (Option String) := do
  let credentials ← locked fun s =>
    let m := s.manager
    match if role ∈ m.names then (m.roles role).credentialError else none with
    | some error => (some error, { s with manager := m.failByConfiguration role error })
    | none => (none, s)
  match credentials with
  | some error => .ret (some error)
  | none => (prepareRoleStart cfg role).bind fun
    | .error message => .ret (some message)
    | .ok false => .ret none
    | .ok true => launchRole role

def stopRoleProcess (role : String) : ApiM (Option String) := do
  let process ← read fun m => (m.roles role).process
  let known ← enter (.stopRoleProcess role)
  if !known then .ret (some (unknownToad role))
  else match process with
    | none => .ret none
    | some process => do
      let err ← service (.stopProcess process)
      .ret (err.map fun message => "stop Toad " ++ quoted role ++ ": " ++ message)

def releaseRoleResources (cfg : ApiConfig) (role : String) : ApiM (Option String) := do
  let enabled ← read fun m => role ∈ m.names && (m.roles role).enabled
  if !cfg.recoveryDriver || enabled then .ret none
  else (service (.releaseResources role)).bind fun
    | some message => do
      let _ ← enter (.releaseFailed role message)
      .ret (some message)
    | none => do
      let _ ← enter (.releaseDone role)
      .ret none

def work (cfg : ApiConfig) : RoleWork → ApiM (Option String)
  | .start role => startRoleProcess cfg role
  | .stop role => do
    let stopErr ← stopRoleProcess role
    let releaseErr ← releaseRoleResources cfg role
    .ret (joinErrors [stopErr, releaseErr])

def RoleWork.role : RoleWork → String
  | .start role | .stop role => role

def workAll (cfg : ApiConfig) : List RoleWork → ApiM (List (Option String))
  | [] => .ret []
  | w :: works => do
    let err ← work cfg w
    let errs ← workAll cfg works
    .ret (err.map (fun message => RoleWork.role w ++ ": " ++ message) :: errs)

-- === The methods ===

def command (cmd : Command) : ApiM (Except CommandError (List RoleWork)) :=
  Prog.perform (.command cmd)

def commandAll (cfg : ApiConfig) (cmd : Command) : ApiM (Option String) :=
  (command cmd).bind fun
    | .error e => .ret (some e.text)
    | .ok works => do
      let errs ← workAll cfg works
      .ret (joinErrors errs)

def commandRole (cfg : ApiConfig) (cmd : Command) : ApiM (Option String) :=
  (command cmd).bind fun
    | .error e => .ret (some e.text)
    | .ok [] => .ret none
    | .ok (w :: _) => work cfg w

def setActiveProfile (profile : String) : ApiM (Option String) :=
  (command (.setActiveProfile profile)).bind fun
    | .error e => .ret (some e.text)
    | .ok _ => .ret none

def rediscoverEndpoints (role : String) : ApiM (Option String) := do
  let known ← read fun m => decide (role ∈ m.names)
  if !known then .ret (some (unknownToad role))
  else do
    let _ ← enter .tick
    .ret none

def retryProcess (cfg : ApiConfig) (role : String) : ApiM (Option String) := do
  let r ← read fun m => m.roles role
  let entered ← enter (.retryRole role)
  if !entered || r.process.isSome then .ret none
  else startRoleProcess cfg role

def retryRole (cfg : ApiConfig) (role : String) : ApiM (Option String) := do
  let known ← read fun m => decide (role ∈ m.names)
  if !known then .ret (some (unknownToad role))
  else match cfg.selectedRoutes with
    | none => retryProcess cfg role
    | some (routes, _) => (selected (roleState role)).bind fun
      | .ok state =>
        if state.integrityQuarantined then (selected (retryQuarantinedRole routes role)).bind fun
          | .ok () => .ret none
          | .error e => .ret (some e.message)
        else retryProcess cfg role
      | .error e => .ret (some e.message)

def failedValidation (reason : String) : ValidationResult :=
  { healthy := false, state := "failed", reason := reason }

def completeForProcess (role : String) (process : Option Nat)
    (complete : Controller → Bool × Controller) : ApiM Bool :=
  locked fun s =>
    let m := s.manager
    if role ∈ m.names && (m.roles role).process = process then
      ((complete m.product).1, { s with manager := { m with product := (complete m.product).2 } })
    else (false, s)

def failValidation (role : String) (process : Option Nat) (token : ValidationToken)
    (message : String) : ApiM (Option String) := do
  let _ ← completeForProcess role process fun c =>
    c.completeValidation token (failedValidation message)
  .ret (some message)

def concludeValidation (role : String) (process : Nat) (token : ValidationToken)
    (result : ValidationResult) : ApiM (Option String) := do
  let stale := "validation result for Toad " ++ quoted role ++ " became stale"
  if !result.healthy then do
    let accepted ← completeForProcess role (some process) fun c =>
      c.completeValidationPending token result
    if !accepted then .ret (some stale)
    else .ret (some ("Toad validation is temporarily unhealthy: Toad " ++ quoted role ++
      " is not healthy: " ++ result.reason))
  else do
    let accepted ← completeForProcess role (some process) fun c => c.completeValidation token result
    .ret (if accepted then none else some stale)

def readValidation (role : String) (process : Nat) (token : ValidationToken)
    (response : ToadResponse) : ApiM (Option String) :=
  let fail := failValidation role (some process) token
  if !response.ok then
    fail (response.error.getD ("validate Toad " ++ quoted role ++ " failed"))
  else
    let observe : ApiM Bool :=
      match response.snapshot with
      | none => .ret true
      | some snapshot => enter (.observeToadSnapshot role process snapshot)
    observe.bind fun live =>
      if !live then
        .ret (some
          ("validation result for Toad " ++ quoted role ++ " became stale: process changed"))
      else
        match response.validation with
        | none => fail ("validate Toad " ++ quoted role ++ " returned no validation result")
        | some result => concludeValidation role process token result

def validateRole (role : String) : ApiM (Option String) :=
  (product fun c => c.beginValidation role).bind fun
    | none =>
      .ret (some ("Toad " ++ quoted role ++ " is not eligible for current-epoch validation"))
    | some token => do
      let r ← read fun m => if role ∈ m.names then some (m.roles role) else none
      match r.map Role.process with
      | none => .ret (some (unknownToad role))
      | some none =>
        failValidation role none token ("Toad " ++ quoted role ++ " has no live control socket")
      | some (some process) => (service (.validate role token.toadGeneration)).bind fun
        | .error message => failValidation role (some process) token
            ("validate Toad " ++ quoted role ++ ": " ++ message)
        | .ok response => readValidation role process token response

def noConfigDir : String := "the core has no configuration directory"

def createTunnel (cfg : ApiConfig) (spec : Option TunnelSpec) : ApiM (Except String String) :=
  match spec with
  | none => .ret (.error "tunnel spec is required")
  | some spec =>
    if cfg.configDir = "" then .ret (.error noConfigDir)
    else service (.createTunnel cfg.configDir spec)

def removeTunnel (cfg : ApiConfig) (name : String) : ApiM (Option String) :=
  if cfg.configDir = "" then .ret (some noConfigDir)
  else service (.removeTunnel cfg.configDir name)

/-- `SetTunnelProfiles` writes the file first; a role that is not loaded has only that. -/
def setTunnelProfiles (cfg : ApiConfig) (name : String) (profiles : List String) :
    ApiM (Option String) :=
  if cfg.configDir = "" then .ret (some noConfigDir)
  else if profiles = [] then
    .ret (some ("role " ++ quoted name ++ " needs at least one profile"))
  else (service (.setTunnelProfiles cfg.configDir name profiles)).bind fun
    | some message => .ret (some message)
    | none => do
      let _ ← enter (.setTunnelProfiles name profiles)
      .ret none

def trimSpace (s : String) : String :=
  String.ofList ((s.toList.dropWhile Char.isWhitespace).reverse.dropWhile Char.isWhitespace).reverse

def membership (m : Manager) (profile : String) (wanted : List String) (role : String) :
    Option (List String) :=
  let profiles := (m.roles role).profiles
  if wanted.contains role && !profiles.contains profile then some (profiles ++ [profile])
  else if !wanted.contains role && profiles.contains profile then
    let next := profiles.filter (· ≠ profile)
    some (if next = [] then ["default"] else next)
  else none

def writeMemberships (cfg : ApiConfig) : List (String × List String) → ApiM (Option String)
  | [] => .ret none
  | (role, profiles) :: changes =>
    if cfg.configDir = "" then writeMemberships cfg changes
    else (service (.setTunnelProfiles cfg.configDir role profiles)).bind fun
      | some message => .ret (some message)
      | none => writeMemberships cfg changes

def setProfileRoles (cfg : ApiConfig) (profile : String) (roles : List String) :
    ApiM (Option String) := do
  let name := trimSpace profile
  let wanted := roles.map trimSpace
  if name = "default" then .ret (some "the default profile always contains every role")
  else if wanted.contains "" then .ret (some "role name must not be empty")
  else do
    let m ← read id
    if !m.knownProfile name then .ret (some ("unknown profile " ++ quoted name))
    else match wanted.find? (· ∉ m.names) with
      | some role => .ret (some ("unknown role " ++ quoted role))
      | none =>
        let changes := m.names.filterMap fun role =>
          (membership m name wanted role).map fun profiles => (role, profiles)
        (writeMemberships cfg changes).bind fun
          | some message => .ret (some message)
          | none => do
            let _ ← enter (.setProfileRoles fun role => changes.lookup role)
            .ret none

def createProfile (cfg : ApiConfig) (profile : String) (roles : List String) :
    ApiM (Except String Bool) :=
  if cfg.configDir = "" then .ret (.error noConfigDir)
  else (service (.addDeclaredProfile cfg.configDir (trimSpace profile))).bind fun
    | .error message => .ret (.error message)
    | .ok added => do
      let _ ← enter (.createProfile (trimSpace profile))
      if roles = [] then .ret (.ok added)
      else (setProfileRoles cfg (trimSpace profile) roles).bind fun
        | some message => .ret (.error message)
        | none => .ret (.ok added)

def readLists (lists : List (String × String)) :
    List String → ApiM (List (String × String) × Option String)
  | [] => .ret (lists, none)
  | name :: names => (service (.readRoutingList name)).bind fun
    | .error message => .ret (lists, some message)
    | .ok content => readLists (lists ++ [(name, content)]) names

def setBypassMode (mode : String) : ApiM (Option String) :=
  (service (.writeBypassMode mode)).bind fun
    | some message => .ret (some message)
    | none => service .regenerateLeshyConfig

def setRoleIPv6 (role : String) (enabled : Bool) : ApiM (Option String) := do
  let known ← read fun m => decide (role ∈ m.names)
  if !known then .ret (some ("unknown role " ++ quoted role))
  else (service (.writeRoleIPv6Setting role enabled)).bind fun
    | some message => .ret (some message)
    | none => service .regenerateLeshyConfig

def noCapture : String := "diagnostics capture is not configured on this host"

def setDiagnosticsCapture (cfg : ApiConfig) (enabled : Bool) : ApiM (Option String) :=
  if !cfg.diagnostics then .ret (some noCapture)
  else (service (.setCaptureEnabled enabled)).bind fun
    | some message => .ret (some message)
    | none => do
      let _ ← enter .tick
      .ret none

def bundleDiagnostics (cfg : ApiConfig) : ApiM (Except String String) :=
  if !cfg.diagnostics then .ret (.error noCapture) else service .bundle

def snapshot : ApiM SentSnapshot := read fun m => { revision := m.revision, visible := m.visible }

-- === Handle ===

/-- How the switch over the methods is left. -/
inductive Dispatched
  | done (reply : Reply)
  | failed (reply : Reply) (error : String)
  /-- a verdict of the selected routes is an answer, not a failure -/
  | verdict (reply : Reply)

def Dispatched.of (reply : Reply) : Option String → Dispatched
  | none => .done reply
  | some error => .failed reply error

def finished (reply : Reply) (p : ApiM (Option String)) : ApiM Dispatched :=
  p.bind fun err => .ret (.of reply err)

def reported (reply : Reply) (p : ApiM (Option String)) (message : String) : ApiM Dispatched :=
  p.bind fun
    | none => .ret (.done { reply with message := message })
    | some error => .ret (.failed reply error)

def capabilities : List String :=
  ["Handshake", "GetSnapshot", "Subscribe", "ConnectAll", "DisconnectAll", "ConnectRole",
    "DisconnectRole", "RetryRole", "SetActiveProfile", "RediscoverEndpoints", "ValidateRole",
    "GetDiagnosticsSnapshot", "SetDiagnosticsCapture", "CreateDiagnosticsBundle", "CreateTunnel",
    "RemoveTunnel", "CreateProfile", "SetProfileRoles", "SetTunnelProfiles", "GetRoutingLists",
    "SetRoutingList", "SetBypassMode", "managed_selected_routes_v1"]

def reloaded (reply : Reply) (changed restarted : String) : ApiM Dispatched := do
  let err ← service .reloadLeshy
  .ret (.done { reply with message := match err with
    | some message => changed ++ ", but Leshy did not restart: " ++ message
    | none => restarted })

def handleSetRoutingList (request : Request) (reply : Reply) : ApiM Dispatched :=
  if request.list = "bypass" then
    .ret (.failed reply "bypass is a global rule, not a list")
  else (service (.writeRoutingList request.list request.content)).bind fun
    | some message => .ret (.failed reply message)
    | none => (service .regenerateLeshyConfig).bind fun
      | some message => .ret (.done { reply with message :=
          request.list ++ " list saved, but the router config was not rewritten: " ++ message })
      | none => reloaded reply (request.list ++ " list saved")
          (request.list ++ " list saved; Leshy restarted")

def handleGetRoutingLists (reply : Reply) : ApiM Dispatched := do
  let zones ← service .readLeshyZones
  let bypassMode ← service .readBypassMode
  let names ← read Manager.names
  let (lists, err) ← readLists [] names
  .ret (.of { reply with zones := zones, bypassMode := bypassMode, lists := lists } err)

def handleCreateProfile (cfg : ApiConfig) (request : Request) (reply : Reply) : ApiM Dispatched :=
  (createProfile cfg request.profile request.roles).bind fun
    | .error message => .ret (.failed reply message)
    | .ok added =>
      let message := "profile " ++ quoted request.profile ++
        if added then " created" else " is already registered"
      let members := if request.roles = [] then ""
        else " with " ++ toString request.roles.length ++ " role(s)"
      .ret (.done { reply with message := message ++ members })

def isLeshyRouteVerdictError : ManagerError → Bool
  | .denied .. | .conflict .. => true
  | .wrapped _ cause => isLeshyRouteVerdictError cause
  | _ => false

def handleEnsure (routes : Config) (authority : RouteAuthority) (request : Request)
    (reply : Reply) : ApiM Dispatched :=
  match request.leshyRoute with
  | none => .ret (.failed reply "EnsureLeshyRoute requires leshy_route")
  | some intent => (selected (ensureVerdict routes authority intent)).bind fun
    | .ok (result, none) => .ret (.done { reply with leshyRoute := some result })
    -- a nil record passes the answer of `ensure` by
    | .ok (_, some .nilRecord) => .fail .nilDereference
    | .ok (result, some e) =>
      if isLeshyRouteVerdictError e then .ret (.verdict { reply with leshyRoute := some result })
      else .ret (.failed { reply with leshyRoute := some result } e.message)
    | .error e => .ret (.failed reply e.message)

def settled (reply : Reply) (p : ManagerM Unit) : ApiM Dispatched :=
  (selected p).bind fun
    | .ok () => .ret (.done reply)
    | .error e => .ret (.failed reply e.message)

def handleForget (routes : Config) (authority : RouteAuthority) (request : Request)
    (reply : Reply) : ApiM Dispatched :=
  match request.leshyRoute with
  | none => .ret (.failed reply "ForgetLeshyRoute requires leshy_route")
  | some intent => settled reply (forget routes authority intent)

def handleFlush (routes : Config) (authority : RouteAuthority) (request : Request)
    (reply : Reply) : ApiM Dispatched := do
  let intent ← deref request.leshyRoute
  let zone := intent.zone
  if request.leshyRoute.isNone || zone = "" then
    .ret (.failed reply "FlushLeshyZone requires leshy_route.zone")
  else settled reply (flushZone routes authority zone)

def handleLeshyRoute (cfg : ApiConfig) (reply : Reply)
    (f : Config → RouteAuthority → ApiM Dispatched) : ApiM Dispatched :=
  match cfg.selectedRoutes with
  | none => .ret (.failed reply "managed selected routes are not wired")
  | some (routes, authority) => f routes authority

def dispatch (cfg : ApiConfig) (request : Request) (reply : Reply) : ApiM Dispatched :=
  match request.method with
  | .handshake =>
    .ret (.done
      { reply with capabilities := capabilities, minVersion := 1, maxVersion := apiVersion })
  | .snapshot | .getSnapshot | .subscribe => do
    let sent ← snapshot
    .ret (.done { reply with snapshot := some sent })
  | .connectAll => finished reply (commandAll cfg .connectAll)
  | .disconnectAll => finished reply (commandAll cfg .disconnectAll)
  | .connectRole => finished reply (commandRole cfg (.connectRole request.role))
  | .disconnectRole => finished reply (commandRole cfg (.disconnectRole request.role))
  | .retryRole => finished reply (retryRole cfg request.role)
  | .setActiveProfile => finished reply (setActiveProfile request.profile)
  | .rediscoverEndpoints => finished reply (rediscoverEndpoints request.role)
  | .validateRole => finished reply (validateRole request.role)
  | .createTunnel => (createTunnel cfg request.tunnel).bind fun
    | .error message => .ret (.failed reply message)
    | .ok path =>
      .ret (.done { reply with message := "created " ++ path ++ "; restart the core to load it" })
  | .getRoutingLists => handleGetRoutingLists reply
  | .setBypassMode => (setBypassMode request.mode).bind fun
    | some message => .ret (.failed reply message)
    | none => reloaded reply "bypass mode saved" ("bypass mode saved: " ++ request.mode)
  | .setRoutingList => handleSetRoutingList request reply
  | .removeTunnel => reported reply (removeTunnel cfg request.role)
      ("removed " ++ request.role ++ "; restart the core to unload it")
  | .createProfile => handleCreateProfile cfg request reply
  | .setProfileRoles => reported reply (setProfileRoles cfg request.profile request.roles)
      ("profile " ++ quoted request.profile ++ " now contains " ++ toString request.roles.length ++
        " role(s)")
  | .setTunnelProfiles => reported reply (setTunnelProfiles cfg request.role request.profiles)
      ("moved " ++ request.role ++ " to [" ++ ", ".intercalate request.profiles ++ "]")
  | .getDiagnosticsSnapshot => do
    let sent ← snapshot
    .ret (.done { reply with snapshot := some { sent with diagnostics := true } })
  | .setDiagnosticsCapture =>
    match request.enabled with
    | none => .ret (.failed reply "SetDiagnosticsCapture requires enabled")
    | some enabled => finished reply (setDiagnosticsCapture cfg enabled)
  | .createDiagnosticsBundle => (bundleDiagnostics cfg).bind fun
    | .error message => .ret (.failed reply message)
    | .ok path => .ret (.done { reply with message := path })
  | .setRoleIPv6 =>
    match request.enabled with
    | none => .ret (.failed reply "SetRoleIPv6 requires enabled")
    | some enabled => finished reply (setRoleIPv6 request.role enabled)
  | .ensureLeshyRoute => handleLeshyRoute cfg reply fun routes authority =>
      handleEnsure routes authority request reply
  | .forgetLeshyRoute => handleLeshyRoute cfg reply fun routes authority =>
      handleForget routes authority request reply
  | .flushLeshyZone => handleLeshyRoute cfg reply fun routes authority =>
      handleFlush routes authority request reply
  | .other name => .ret (.failed reply ("unsupported method " ++ quoted name))

def conclude (request : Request) : Dispatched → ApiM Response
  | .failed reply error => .ret { reply with
      error := error
      apiError := some { code := "command_failed", message := error, role := request.role,
                         retryable := true } }
  | .verdict reply => .ret { reply with ok := true }
  | .done reply =>
    if reply.snapshot.isSome || request.method = .handshake then .ret { reply with ok := true }
    else do
      let sent ← snapshot
      .ret { reply with ok := true, snapshot := some sent }

def refused (reply : Reply) (e : APIError) : Response :=
  { reply with error := e.message, apiError := some e }

def unsupportedVersion (reply : Reply) (message : String) : Response :=
  refused reply { code := "unsupported_version", message := message, retryable := false }

def authenticate (cfg : ApiConfig) (request : Request) : ApiM (Option APIError) :=
  if request.method.leshyRoute then
    checkPrivilegedAuth cfg request.method request.privilegedAuth
  else .ret none

def handle (cfg : ApiConfig) (request : Request) : ApiM Response :=
  let reply : Reply := { version := request.version, id := request.id }
  if request.version < 1 || apiVersion < request.version then
    .ret (unsupportedVersion reply ("unsupported API version " ++ toString request.version))
  else if request.version < 3 && request.method.leshyRoute then
    .ret (unsupportedVersion reply
      ("method " ++ quoted request.method.text ++ " requires API version 3"))
  else (authenticate cfg request).bind fun
    | some e => .ret (refused reply e)
    | none => (dispatch cfg request reply).bind (conclude request)

end Api

end Kikimora.Control

import Kikimora.Platform.EndpointPolicy

/-!
# The macOS executor

The route database of macOS is written by the `route` command and read as the text of
`netstat`. It has no metrics and no owners: the executor keeps in its own memory which
host routes it has set for a priority, and a snapshot lists every line as a plain route
without a metric.
-/

namespace Kikimora.Platform.Darwin

open Net

-- === Reading ===

def isSpace (c : Char) : Bool :=
  let n := c.toNat
  (9 ≤ n && n ≤ 13) || n = 0x20 || n = 0x85 || n = 0xa0 || n = 0x1680 ||
    (0x2000 ≤ n && n ≤ 0x200a) || n = 0x2028 || n = 0x2029 || n = 0x202f || n = 0x205f ||
    n = 0x3000

def fieldsFrom (word : List Char) : List Char → List String
  | [] => if word.isEmpty then [] else [String.ofList word]
  | c :: cs =>
    if isSpace c then
      (if word.isEmpty then [] else [String.ofList word]) ++ fieldsFrom [] cs
    else fieldsFrom (word ++ [c]) cs

def fields (line : List Char) : List String := fieldsFrom [] line

def hostPrefix (a : Addr) : Prefix := ⟨a.withoutZone, a.bitLen⟩

def trimPercent (raw : String) : String :=
  if raw.toList.getLast? = some '%' then String.ofList raw.toList.dropLast else raw

/-- A destination; `netstat` drops the last octet of a /24. -/
def netstatPrefix (raw : String) (family : Nat) : Option String :=
  if raw = "default" then some (if family = 4 then "0.0.0.0/0" else "::/0")
  else match Prefix.parse raw with
    | some pfx => some pfx.toString
    | none =>
      match Addr.parse (trimPercent raw) with
      | some addr => some (hostPrefix addr).toString
      | none =>
        if family = 4 ∧ raw.toList.count '.' = 2 then some (raw ++ ".0/24") else none

def netstatGateway (raw : String) : String :=
  if "link#".toList.isPrefixOf raw.toList then "" else raw

/-- The first four words of a line of the table. The words are the destination, the
    gateway, the flags and the interface. -/
structure NetstatLine where
  destination : String
  gateway : String
  flags : String
  netif : String
  deriving DecidableEq, Repr

def netstatLine (line : List Char) : Option NetstatLine :=
  match fields line with
  | destination :: gateway :: flags :: netif :: _ =>
    if destination = "Destination" ∨ destination = "Routing" then none
    else some ⟨destination, gateway, flags, netif⟩
  | _ => none

def netstatLines (text : String) : List NetstatLine :=
  (splitChars '\n' text.toList).filterMap netstatLine

section

variable (interfaceByName : String → Option Int)

def netstatRow (family : Nat) (line : NetstatLine) : Option RouteRow :=
  (netstatPrefix line.destination family).bind fun pfx =>
    (interfaceByName line.netif).map fun ifIndex =>
      { kind := .route, family := family, pfx := Prefix.parse pfx, table := 0, ifIndex := ifIndex,
        gateway := netstatGateway line.gateway, protocol := staticProtocol }

def parseNetstatRoutes (text : String) (family : Nat) : List RouteRow :=
  (netstatLines text).filterMap (netstatRow interfaceByName family)

def snapshot (text4 text6 : String) : KernelState where
  routes := parseNetstatRoutes interfaceByName text4 4 ++ parseNetstatRoutes interfaceByName text6 6

end

-- === Writing ===

/-- Where a route leads. -/
inductive Via
  | gateway (hop : Addr)
  | interface (name : String)
  | blackhole
  deriving DecidableEq, Repr

structure DatabaseRoute where
  target : Prefix
  via : Via
  deriving DecidableEq, Repr

abbrev RouteDatabase := List DatabaseRoute

/-- `route change`, which needs a route of the target. -/
def RouteDatabase.change (db : RouteDatabase) (route : DatabaseRoute) : Option RouteDatabase :=
  if db.any (·.target = route.target) then
    some (db.map fun r => if r.target = route.target then route else r)
  else none

def RouteDatabase.add (db : RouteDatabase) (route : DatabaseRoute) : Option RouteDatabase :=
  if db.any (·.target = route.target) then none else some (db ++ [route])

def RouteDatabase.delete (db : RouteDatabase) (target : Prefix) : Option RouteDatabase :=
  if db.any (·.target = target) then some (db.filter (·.target ≠ target)) else none

def routeFailed {α : Type} (command : String) (target : Prefix) : Except String α :=
  .error ("macOS route -n " ++ command ++ " " ++ target.toString)

/-- The interfaces, and the one over which the system reaches a gateway. -/
structure DarwinSystem where
  nameByIndex : Int → Option String
  indexByName : String → Option Int
  egress : Addr → Option Int
  indexByName_name : ∀ {index name}, nameByIndex index = some name → indexByName name = some index

/-- The database, and the routes that the manager remembers for a priority. -/
structure DarwinState where
  db : RouteDatabase := []
  endpoint : Int → List EndpointRoute := fun _ => []

/-- Changes the route, or adds it where there is none. -/
def replaceRoute (pfx : Prefix) (gateway : Addr) (iface : String) (db : RouteDatabase) :
    Except String RouteDatabase :=
  let route : DatabaseRoute := ⟨pfx, if gateway.isValid then .gateway gateway else .interface iface⟩
  match db.change route with
  | some db => .ok db
  | none =>
    match db.add route with
    | some db => .ok db
    | none => routeFailed "add" pfx

def deleteRoute (pfx : Prefix) (db : RouteDatabase) : Except String RouteDatabase :=
  match db.delete pfx with
  | some db => .ok db
  | none => routeFailed "delete" pfx

def setRoute (sys : DarwinSystem) (route : EndpointRoute) (db : RouteDatabase) :
    Except String RouteDatabase :=
  if !isHostPrefix route.pfx || route.ifIndex ≤ 0 then .error "macOS endpoint route is invalid"
  else match sys.nameByIndex route.ifIndex with
    | none => .error ("lookup macOS route interface " ++ toString route.ifIndex)
    | some name => replaceRoute route.pfx route.gateway name db

/-- The map of the desired routes by prefix; a later route takes the place of an earlier
    one. -/
def desiredRoutes (routes : List EndpointRoute) : List EndpointRoute :=
  routes.foldl (fun desired route => desired.filter (fun r => r.pfx ≠ route.pfx) ++ [route]) []

/-- The routes that the memory has beyond the policy are dropped. -/
def reconcileEndpointPolicy (sys : DarwinSystem) (p : EndpointPolicy) (s : DarwinState) :
    Except String Unit × DarwinState :=
  if !p.valid || p.routes.isEmpty then
    (.error "macOS endpoint policy is invalid or has no routes", s)
  else match applyEach (setRoute sys) p.routes s.db with
    | (.error e, db) => (.error e, { s with db := db })
    | (.ok (), db) =>
      let dropped := (s.endpoint p.priority).filter fun r => ∀ route ∈ p.routes, route.pfx ≠ r.pfx
      match applyEach (fun r => deleteRoute r.pfx) dropped db with
      | (.error e, db) => (.error e, { s with db := db })
      | (.ok (), db) =>
        (.ok (), ⟨db, fun n => if n = p.priority then desiredRoutes p.routes else s.endpoint n⟩)

def removeEndpointPolicy (p : EndpointPolicy) (s : DarwinState) :
    Except String Unit × DarwinState :=
  if !p.valid then (.error "invalid macOS endpoint policy", s)
  else match applyEach (fun r => deleteRoute r.pfx) (s.endpoint p.priority) s.db with
    | (.error e, db) => (.error e, { s with db := db })
    | (.ok (), db) => (.ok (), ⟨db, fun n => if n = p.priority then [] else s.endpoint n⟩)

end Kikimora.Platform.Darwin

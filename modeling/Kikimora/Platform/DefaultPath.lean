import Kikimora.Core.Model
import Kikimora.Lib.Least
import Kikimora.Platform.Netlink
import Kikimora.Platform.Windows
import Mathlib.Data.Prod.Lex
import Mathlib.Data.String.Basic
import Mathlib.Data.Int.Order.Basic

/-!
# The default path of a family

A snapshot of the underlay holds, for each family, the path of one default route that is
not on a managed interface. Linux takes the least priority, then the least interface.
Windows takes the least route metric and does not look at the metric of the interface.
Both take the first row of several that tie.
-/

namespace Kikimora.Platform

open Net Kikimora.Core Lib

/-- The same answer, in any order. -/
def Relisted {α : Type} : Except String (List α) → Except String (List α) → Prop
  | .ok l, .ok l' => SameElements l l'
  | .error e, .error e' => e = e'
  | _, _ => False

variable {α : Type}

theorem Relisted.refl : (r : Except String (List α)) → Relisted r r
  | .ok l => SameElements.refl l
  | .error _ => rfl

theorem Relisted.symm : {r r' : Except String (List α)} → Relisted r r' → Relisted r' r
  | .ok _, .ok _, h => SameElements.symm h
  | .error _, .error _, h => Eq.symm h

def familyNumber (is4 : Bool) : Int := if is4 then 4 else 6

-- === Linux ===

namespace Linux

/-- The attributes of a `netlink.Link` that are read. -/
structure Link where
  name : String
  mtu : Int
  deriving DecidableEq, Repr

/-- `source`: what a snapshot asks netlink for. The addresses of a link are asked for by
    its index. -/
structure Source where
  /-- the rows of table 254 -/
  routeList : (is4 : Bool) → Except String (List NetlinkRoute)
  /-- the routes to a destination over an interface -/
  routeGet : Addr → Int → Except String (List NetlinkRoute)
  /-- the interfaces of the system -/
  links : Int → Option Link
  /-- the interfaces whose link cannot be read -/
  unread : Int → Bool := fun _ => false
  addrList : Int → (is4 : Bool) → Except String (List Addr)

def Source.linkByIndex (src : Source) (index : Int) : Option Link :=
  if src.unread index then none else src.links index

def addr (is4 : Bool) (raw : Addr) : Option Addr :=
  match is4, raw.unmap with
  | true, .v4 bits => some (.v4 bits)
  | false, .v6 bits _ => some (.v6 bits "")
  | _, _ => none

def validSource (is4 : Bool) (source : Addr) : Bool :=
  source.isValid && !source.is4In6 && source.is4 == is4

def sourceOf (is4 : Bool) (raw : Option Addr) : Option Addr :=
  (raw.bind (addr is4)).filter (validSource is4)

def gatewayIsLinkLocal (raw : Option Addr) : Bool :=
  match raw.bind (addr false) with
  | some value => !value.is4In6 && value.isLinkLocalUnicast
  | none => false

def compareKey (a : Addr) : ℕ ×ₗ ℕ ×ₗ String :=
  match a with
  | .zero => toLex (0, toLex (0, ""))
  | .v4 bits => toLex (32, toLex (bits.toNat, ""))
  | .v6 bits zone => toLex (128, toLex (bits.toNat, zone))

def resolvedSource (src : Source) (is4 : Bool) (route : NetlinkRoute) : Option Addr :=
  match route.gw with
  | none => none
  | some gw =>
    if 0 < route.linkIndex then
      match src.routeGet gw route.linkIndex with
      | .error _ => none
      | .ok routes =>
        (routes.filter fun r => r.linkIndex = 0 ∨ r.linkIndex = route.linkIndex).findSome?
          fun r => sourceOf is4 r.src
    else none

def usable (is4 : Bool) (addrs : List Addr) : List Addr :=
  (addrs.filterMap fun ip => sourceOf is4 (some ip)).filter
    fun a => !a.isUnspecified && !a.isMulticast

def listedSource (src : Source) (is4 : Bool) (route : NetlinkRoute) : Option Addr :=
  match src.addrList route.linkIndex is4 with
  | .error _ => none
  | .ok addrs =>
    let usable := usable is4 addrs
    match (usable.filter fun a => a.isGlobalUnicast && !a.isLinkLocalUnicast).argmin compareKey with
    | some a => some a
    | none =>
      if !is4 && gatewayIsLinkLocal route.gw then
        (usable.filter Addr.isLinkLocalUnicast).argmin compareKey
      else none

def preferredSource (src : Source) (is4 : Bool) (route : NetlinkRoute) : Option Addr :=
  (sourceOf is4 route.src).or <| (resolvedSource src is4 route).or <| listedSource src is4 route

structure Candidate where
  route : NetlinkRoute
  link : Link
  deriving DecidableEq, Repr

def isDefault (route : NetlinkRoute) : Bool :=
  match route.dst with
  | none => true
  | some dst => printedDst dst = ⟨.v4 0, 0⟩ || printedDst dst = ⟨.v6 0 "", 0⟩

def candidate (src : Source) (excluded : String → Bool) (route : NetlinkRoute) :
    Option Candidate :=
  if !isDefault route || route.linkIndex ≤ 0 then none
  else
    match src.linkByIndex route.linkIndex with
    | none => none
    | some link =>
      if route.linkIndex = 1 || link.name = "lo" || link.name = "leshy-dns0" ||
          excluded link.name then none
      else some ⟨route, link⟩

-- The orders that compute, of the keys below.
local instance keyOrder : LinearOrder (ℕ ×ₗ ℤ ×ₗ String) := Prod.Lex.instLinearOrder ℕ (ℤ ×ₗ String)
local instance keyPreorder : Preorder (ℕ ×ₗ ℤ ×ₗ String) :=
  (Prod.Lex.instLinearOrder ℕ (ℤ ×ₗ String)).toPreorder

/-- The order of the candidates. The sort is stable, so that the first one that is least
    comes out first. -/
def Candidate.key (c : Candidate) : ℕ ×ₗ ℤ ×ₗ String :=
  toLex (c.route.priority, toLex (c.route.linkIndex, c.link.name))

def pathOf (src : Source) (is4 : Bool) (winner : Candidate) : Path where
  family := familyNumber is4
  ifIndex := winner.route.linkIndex
  interface := winner.link.name
  gateway := (winner.route.gw.bind (addr is4)).getD .zero
  preferredSrc := (preferredSource src is4 winner.route).getD .zero
  mtu := winner.link.mtu
  table := winner.route.table
  metric := .ofNat winner.route.priority

def defaultPath (src : Source) (is4 : Bool) (excluded : String → Bool) : Option Path :=
  match src.routeList is4 with
  | .error _ => none
  | .ok routes =>
    ((routes.filterMap (candidate src excluded)).argmin Candidate.key).map (pathOf src is4)

def snapshot (src : Source) (excluded : String → Bool) (now : Int) : Except String Underlay :=
  .ok { ipv4 := defaultPath src true excluded
        ipv6 := defaultPath src false excluded
        observedAt := now }

/-- The same system lists its rows and addresses in another order. -/
structure Source.Relisted (src src' : Source) : Prop where
  routes : ∀ is4, Platform.Relisted (src.routeList is4) (src'.routeList is4)
  addrs : ∀ index is4, Platform.Relisted (src.addrList index is4) (src'.addrList index is4)
  routeGet : src'.routeGet = src.routeGet
  links : src'.links = src.links
  unread : src'.unread = src.unread

/-- A default route of the system that is not over an excluded interface. The loopback
    interface has index 1; a multipath route has no interface of its own. -/
structure Eligible (src : Source) (excluded : String → Bool) (route : NetlinkRoute) : Prop where
  default : route.dst = none ∨ route.dst = some ⟨.v4 0, 0⟩ ∨ route.dst = some ⟨.v6 0 "", 0⟩
  loopback : route.linkIndex ≠ 1
  managed : ∀ link, src.links route.linkIndex = some link →
    link.name ≠ "lo" ∧ link.name ≠ "leshy-dns0" ∧ excluded link.name = false

/-- An eligible route whose interface can be looked up. -/
structure LookedUp (src : Source) (excluded : String → Bool) (c : Candidate) : Prop where
  eligible : Eligible src excluded c.route
  index : 0 < c.route.linkIndex
  link : src.linkByIndex c.route.linkIndex = some c.link

/-- A row that is looked up, of least priority and, among those, of least interface. -/
structure First (src : Source) (excluded : String → Bool) (routes : List NetlinkRoute)
    (c : Candidate) : Prop where
  mem : c.route ∈ routes
  lookedUp : LookedUp src excluded c
  least : ∀ d : Candidate, d.route ∈ routes → LookedUp src excluded d →
    c.route.priority < d.route.priority ∨
      c.route.priority = d.route.priority ∧ c.route.linkIndex ≤ d.route.linkIndex

/-- For each eligible route, one that is no worse can be looked up. -/
def Shown (src : Source) (excluded : String → Bool) (routes : List NetlinkRoute) : Prop :=
  ∀ route ∈ routes, Eligible src excluded route →
    ∃ c : Candidate, c.route ∈ routes ∧ LookedUp src excluded c ∧
      c.route.priority ≤ route.priority

section

variable {src src' : Source} {is4 : Bool} {excluded : String → Bool}
  {routes routes' : List NetlinkRoute} {c d : Candidate}

variable (hread : src.routeList is4 = .ok routes)

include hread

end

end Linux

-- === Windows ===

namespace Windows

/-- The part of a `MibUnicastIPAddressRow` that is read. -/
structure UnicastRow where
  interfaceLuid : UInt64
  address : Addr
  skipAsSource : Bool := false
  /-- duplicate address detection has finished -/
  preferred : Bool := true
  deriving DecidableEq, Repr

/-- What a snapshot asks the system for. -/
structure Source where
  routeTable : (is4 : Bool) → Except String (List ForwardRow)
  unicastTable : (is4 : Bool) → Except String (List UnicastRow)
  /-- the names of the interfaces of the system -/
  aliases : UInt64 → String
  /-- the interfaces whose name cannot be read -/
  unread : UInt64 → Bool := fun _ => false
  /-- the MTU of an interface, by its index -/
  mtu : UInt32 → Option Int

def Source.interfaceAlias (src : Source) (luid : UInt64) : Option String :=
  if src.unread luid then none else some (src.aliases luid)

def usableSource (luid : UInt64) (row : UnicastRow) : Option Addr :=
  if row.interfaceLuid ≠ luid || row.skipAsSource || !row.preferred || !row.address.isValid then
    none
  else some row.address

def pickSource (luid : UInt64) (rows : List UnicastRow) : Addr :=
  let usable := rows.filterMap (usableSource luid)
  ((usable.find? Addr.isGlobalUnicast).or usable.head?).getD .zero

def preferredSource (src : Source) (is4 : Bool) (luid : UInt64) : Except String Addr :=
  match src.unicastTable is4 with
  | .error e => .error ("read unicast address table: " ++ e)
  | .ok rows => .ok (pickSource luid rows)

structure Candidate where
  row : ForwardRow
  name : String
  deriving DecidableEq, Repr

def candidate (src : Source) (excluded : String → Bool) (row : ForwardRow) : Option Candidate :=
  if row.destinationPrefix.bits ≠ 0 || !row.destinationPrefix.addr.isUnspecified then none
  else
    match src.interfaceAlias row.interfaceLuid with
    | none => none
    | some name => if excluded name then none else some ⟨row, name⟩

def Candidate.metric (c : Candidate) : ℕ := c.row.metric.toNat

def bestRow (src : Source) (excluded : String → Bool) (rows : List ForwardRow) :
    Option Candidate :=
  (rows.filterMap (candidate src excluded)).argmin Candidate.metric

def pathOf (src : Source) (is4 : Bool) (best : Candidate) (source : Addr) : Path where
  family := familyNumber is4
  ifIndex := best.row.interfaceIndex.toNat
  interface := best.name
  gateway := best.row.nextHop
  preferredSrc := source
  mtu := (src.mtu best.row.interfaceIndex).getD 0
  table := 254
  metric := best.row.metric

def defaultPath (src : Source) (is4 : Bool) (excluded : String → Bool) :
    Except String (Option Path) :=
  match src.routeTable is4 with
  | .error e => .error ("read IP forwarding table: " ++ e)
  | .ok rows =>
    match bestRow src excluded rows with
    | none => .ok none
    | some best => (preferredSource src is4 best.row.interfaceLuid).map
        fun source => some (pathOf src is4 best source)

/-- The same system lists its rows and addresses in another order. -/
structure Source.Relisted (src src' : Source) : Prop where
  routes : ∀ is4, Platform.Relisted (src.routeTable is4) (src'.routeTable is4)
  addrs : ∀ is4, Platform.Relisted (src.unicastTable is4) (src'.unicastTable is4)
  aliases : src'.aliases = src.aliases
  unread : src'.unread = src.unread
  mtu : src'.mtu = src.mtu

/-- A default route of the system that is not over an excluded interface. -/
structure Eligible (src : Source) (excluded : String → Bool) (row : ForwardRow) : Prop where
  default : row.destinationPrefix.bits = 0 ∧ row.destinationPrefix.addr.isUnspecified = true
  managed : excluded (src.aliases row.interfaceLuid) = false

/-- An eligible row whose interface can be looked up. -/
structure LookedUp (src : Source) (excluded : String → Bool) (c : Candidate) : Prop where
  eligible : Eligible src excluded c.row
  name : src.interfaceAlias c.row.interfaceLuid = some c.name

/-- If there is an eligible row, one can be looked up. -/
def Shown (src : Source) (excluded : String → Bool) (rows : List ForwardRow) : Prop :=
  (∃ row ∈ rows, Eligible src excluded row) →
    ∃ c : Candidate, c.row ∈ rows ∧ LookedUp src excluded c

/-- A row that is looked up, of least route metric. -/
structure First (src : Source) (excluded : String → Bool) (rows : List ForwardRow)
    (c : Candidate) : Prop where
  mem : c.row ∈ rows
  lookedUp : LookedUp src excluded c
  least : ∀ d : Candidate, d.row ∈ rows → LookedUp src excluded d →
    c.row.metric.toNat ≤ d.row.metric.toNat

def Usable (addrs : List UnicastRow) (luid : UInt64) (a : Addr) : Prop :=
  ∃ row ∈ addrs, row.interfaceLuid = luid ∧ row.skipAsSource = false ∧ row.preferred = true ∧
    row.address.isValid = true ∧ row.address = a

def PossibleSource (addrs : List UnicastRow) (luid : UInt64) (a : Addr) : Prop :=
  Usable addrs luid a ∧
      (a.isGlobalUnicast = true ∨ ∀ b, Usable addrs luid b → b.isGlobalUnicast = false) ∨
    a = .zero ∧ ∀ b, ¬ Usable addrs luid b

section

variable {src src' : Source} {is4 : Bool} {excluded : String → Bool}
  {rows rows' : List ForwardRow} {addrs addrs' : List UnicastRow} {c d : Candidate}
  {luid : UInt64} {a : Addr}

theorem PossibleSource.same (h : PossibleSource addrs luid a) (hsame : SameElements addrs addrs') :
    PossibleSource addrs' luid a := by
  simpa only [PossibleSource, Usable, hsame _] using h

theorem Source.Relisted.symm (h : src.Relisted src') : src'.Relisted src where
  routes is4 := (h.routes is4).symm
  addrs is4 := (h.addrs is4).symm
  aliases := h.aliases.symm
  unread := h.unread.symm
  mtu := h.mtu.symm

theorem Eligible.relisted {row : ForwardRow} (he : Eligible src excluded row)
    (h : src.Relisted src') : Eligible src' excluded row :=
  ⟨he.default, h.aliases ▸ he.managed⟩

theorem LookedUp.relisted (hc : LookedUp src excluded c) (h : src.Relisted src') :
    LookedUp src' excluded c := by
  refine ⟨hc.eligible.relisted h, ?_⟩
  rw [Source.interfaceAlias, h.aliases, h.unread]
  exact hc.name

theorem First.relisted (hc : First src excluded rows c) (h : src.Relisted src')
    (hsame : SameElements rows rows') : First src' excluded rows' c where
  mem := (hsame _).mp hc.mem
  lookedUp := hc.lookedUp.relisted h
  least d hd hseen := hc.least d ((hsame _).mpr hd) (hseen.relisted h.symm)

end

end Windows

end Kikimora.Platform

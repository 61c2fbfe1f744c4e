import Kikimora.Control.RecoveryDriver
import Kikimora.Platform.Darwin
import Kikimora.Platform.Netlink
import Kikimora.Platform.Windows

/-!
# Legacy parks over a restart

The parking manager keeps the legacy parks of a role in memory. After a restart it
believes a checkpoint only as far as the tables confirm it, and it releases a park once
the tables show a route that wins. Both decisions read the rows of a snapshot, and each
platform writes and lists its parks in its own way.
-/

namespace Kikimora.Control

open Net Routing Platform
open RecoveryDriver (parkListed winning)

-- === The decisions of the manager ===

def restoredFrom (kernel : KernelState) (parked : List Prefix) : List Prefix :=
  parked.filter (parkListed kernel)

def releasedBy (kernel : KernelState) (parked : List Prefix) : List Prefix :=
  parked.filter (winning kernel)

/-- A table of a platform, as far as parks go. -/
structure ParkView where
  /-- the snapshot of the table -/
  kernel : KernelState
  /-- the park of the prefix is in the table -/
  ParkIn : Prefix → Prop
  /-- the table has a route to the prefix, other than its park and with a better metric -/
  RouteBeside : Prefix → Prop

def ParkView.Restores (v : ParkView) (parked : List Prefix) : Prop :=
  ∀ pfx ∈ parked, pfx ∈ restoredFrom v.kernel parked ↔ v.ParkIn pfx

def ParkView.Releases (v : ParkView) (parked : List Prefix) : Prop :=
  ∀ pfx ∈ releasedBy v.kernel parked, v.RouteBeside pfx

section

open Linux (NetlinkRoute listRoutes legacyParkRow rtnUnreachable printedDst)

def linuxView (rows4 rows6 : List NetlinkRoute) : ParkView where
  kernel := { routes := listRoutes rows4 rows6 }
  ParkIn := fun pfx => legacyParkRow pfx ∈ rows4 ++ rows6
  RouteBeside := fun pfx => ∃ row ∈ rows4 ++ rows6, row.dst = some pfx ∧
    row.type ≠ rtnUnreachable ∧ UInt32.ofNat row.priority < managedParkMetric

def windowsPark (pfx : Prefix) : Windows.Op where
  kind := .park
  pfx := pfx
  table := Windows.kernelTable
  metric := managedParkMetric
  protocol := staticProtocol

/-- The forwarding table of Windows. The park is the row that was created for it, with
    the adapters of that time. -/
def windowsView (zones : Windows.Zones) (api : Windows.RouteApi)
    (table : List Windows.ForwardRow) : ParkView where
  kernel := { routes := (Windows.snapshotUnlocked table).map Windows.Op.toRow }
  ParkIn := fun pfx => ∃ row ∈ table, Windows.rowForOperation zones api (windowsPark pfx) = .ok row
  RouteBeside := fun pfx => ∃ row ∈ table, row.destinationPrefix = pfx ∧
    Windows.rowForOperation zones api (windowsPark pfx) ≠ .ok row ∧ row.metric < managedParkMetric

def darwinLines (text4 text6 : String) : List (Nat × Darwin.NetstatLine) :=
  (Darwin.netstatLines text4).map (4, ·) ++ (Darwin.netstatLines text6).map (6, ·)

def LineFor (pfx : Prefix) (line : Nat × Darwin.NetstatLine) : Prop :=
  (Darwin.netstatPrefix line.2.destination line.1).bind Prefix.parse = some pfx

def Blackhole (line : Nat × Darwin.NetstatLine) : Prop := 'B' ∈ line.2.flags.toList

/-- The texts of `netstat`. Its routes have no metrics: a route that is no park is a
    better one. -/
def darwinView (interfaceByName : String → Option Int) (text4 text6 : String) : ParkView where
  kernel := Darwin.snapshot interfaceByName text4 text6
  ParkIn := fun pfx => ∃ line ∈ darwinLines text4 text6, LineFor pfx line ∧ Blackhole line
  RouteBeside := fun pfx => ∃ line ∈ darwinLines text4 text6, LineFor pfx line ∧ ¬ Blackhole line

end

section

variable {kernel : KernelState} {parked : List Prefix} {pfx : Prefix}

theorem parkListed_iff : parkListed kernel pfx = true ↔ ∃ row ∈ kernel.routes,
    (row.kind = .park ∨ row.kind = .unreachable) ∧ row.pfx = some pfx ∧
      managedParkMetric ≤ row.metric := by
  simp [parkListed, and_assoc]

theorem winning_iff : winning kernel pfx = true ↔ ∃ row ∈ kernel.routes,
    row.kind = .route ∧ row.table ≠ endpointTable ∧ row.pfx = some pfx ∧
      row.metric < managedParkMetric := by
  simp [winning, and_assoc]

theorem mem_restoredFrom (h : pfx ∈ parked) :
    pfx ∈ restoredFrom kernel parked ↔ parkListed kernel pfx = true := by
  simp [restoredFrom, h]

theorem mem_releasedBy :
    pfx ∈ releasedBy kernel parked ↔ pfx ∈ parked ∧ winning kernel pfx = true := by
  simp [releasedBy]

/-- Where no row is listed as a park, only a table without parks is restored as it is. -/
theorem restores_iff_of_not_listed {v : ParkView}
    (h : ∀ row ∈ v.kernel.routes, row.kind = .route) :
    v.Restores parked ↔ ∀ pfx ∈ parked, ¬ v.ParkIn pfx := by
  refine forall₂_congr fun pfx hpfx => ?_
  have hnone : ¬ (pfx ∈ restoredFrom v.kernel parked) := by
    rw [mem_restoredFrom hpfx, parkListed_iff]
    rintro ⟨row, hrow, hkind, _⟩
    rw [h row hrow] at hkind
    simp at hkind
  exact ⟨fun hiff hin => hnone (hiff.mpr hin), fun hin => iff_of_false hnone hin⟩

end

-- === Linux ===

section

open Linux (NetlinkRoute listRoutes legacyParkRow rtnUnreachable printedDst)

variable {rows4 rows6 : List NetlinkRoute} {row : NetlinkRoute} {pfx : Prefix}

theorem exists_mem_listRoutes {P : RouteRow → Prop} : (∃ r ∈ listRoutes rows4 rows6, P r) ↔
    (∃ row ∈ rows4, P (row.listed true)) ∨ ∃ row ∈ rows6, P (row.listed false) := by
  simp [listRoutes, or_and_right, exists_or]

/-- A row is listed under a host prefix if its destination is written like it. -/
theorem pfx_listed_iff {is4 : Bool} (hhost : isHostPrefix pfx = true) :
    (row.listed is4).pfx = some pfx ↔ row.dst.map printedDst = some pfx := by
  unfold NetlinkRoute.listed
  cases row.dst with
  | some dst => rfl
  | none =>
    refine iff_of_false (fun h => ?_) nofun
    cases h
    cases is4 <;> simp [isHostPrefix, Prefix.isValid, Addr.bitLen] at hhost

theorem linux_parkListed_iff (hhost : isHostPrefix pfx = true) :
    parkListed (linuxView rows4 rows6).kernel pfx = true ↔ ∃ row ∈ rows4 ++ rows6,
      row.type = rtnUnreachable ∧ row.dst.map printedDst = some pfx ∧
      managedParkMetric ≤ UInt32.ofNat row.priority := by
  have hkind : ∀ (row : NetlinkRoute) (is4 : Bool), ((row.listed is4).kind = .park ∨
      (row.listed is4).kind = .unreachable) ↔ row.type = rtnUnreachable := by
    intro row is4
    simp only [NetlinkRoute.listed]
    split <;> simp [*]
  rw [parkListed_iff]
  simp only [linuxView, exists_mem_listRoutes, hkind, pfx_listed_iff hhost]
  simp only [List.mem_append, or_and_right, exists_or]
  rfl

theorem linux_winning_iff (hhost : isHostPrefix pfx = true) :
    winning (linuxView rows4 rows6).kernel pfx = true ↔ ∃ row ∈ rows4 ++ rows6,
      row.type ≠ rtnUnreachable ∧ row.table ≠ endpointTable ∧
      row.dst.map printedDst = some pfx ∧ UInt32.ofNat row.priority < managedParkMetric := by
  have hkind : ∀ (row : NetlinkRoute) (is4 : Bool),
      (row.listed is4).kind = .route ↔ row.type ≠ rtnUnreachable := by
    intro row is4
    simp only [NetlinkRoute.listed]
    split <;> simp [*]
  rw [winning_iff]
  simp only [linuxView, exists_mem_listRoutes, hkind, pfx_listed_iff hhost]
  simp only [List.mem_append, or_and_right, exists_or]
  rfl

theorem printedDst_of_not_mapped (h : pfx.addr.is4In6 = false) : printedDst pfx = pfx := by
  simp [printedDst, h]

theorem not_mapped_printedDst (dst : Prefix) : (printedDst dst).addr.is4In6 = false := by
  unfold printedDst
  split
  · next h =>
    cases haddr : dst.addr with
    | v6 bits zone =>
      rw [haddr] at h
      simp only [Addr.unmap, h, if_true]
      rfl
    | _ => rfl
  · next h => simpa using h

theorem dst_legacyParkRow (h : pfx.addr.zone = "") : (legacyParkRow pfx).dst = some pfx := by
  simp only [legacyParkRow, withoutZone_eq_iff.mpr h]

/-- A park in the table is not the one of a mapped prefix, and another unreachable row
    of at least its metric does not stand in for it. -/
def LinuxRestorable (rows : List NetlinkRoute) (pfx : Prefix) : Prop :=
  (legacyParkRow pfx ∈ rows → pfx.addr.is4In6 = false) ∧
  ∀ row ∈ rows, row.type = rtnUnreachable → row.dst.map printedDst = some pfx →
    managedParkMetric ≤ UInt32.ofNat row.priority → legacyParkRow pfx ∈ rows

/-- A row to a mapped prefix is not the only winning one among those written like the
    prefix. -/
def LinuxReleasable (rows : List NetlinkRoute) (pfx : Prefix) : Prop :=
  ∀ row ∈ rows, row.type ≠ rtnUnreachable → row.table ≠ endpointTable →
    (∃ dst, row.dst = some dst ∧ dst.addr.is4In6 = true ∧ printedDst dst = pfx) →
    UInt32.ofNat row.priority < managedParkMetric →
    ∃ other ∈ rows, other.dst = some pfx ∧ other.type ≠ rtnUnreachable ∧
      UInt32.ofNat other.priority < managedParkMetric

theorem linux_restores_iff {parked : List Prefix}
    (hparked : ∀ pfx ∈ parked, isHostPrefix pfx = true ∧ pfx.addr.zone = "") :
    (linuxView rows4 rows6).Restores parked ↔
      ∀ pfx ∈ parked, LinuxRestorable (rows4 ++ rows6) pfx := by
  refine forall₂_congr fun pfx hpfx => ?_
  obtain ⟨hhost, hzone⟩ := hparked pfx hpfx
  rw [mem_restoredFrom hpfx, linux_parkListed_iff hhost]
  constructor
  · intro hiff
    refine ⟨fun hpark => ?_, fun row hrow htype hdst hmetric => hiff.mp ⟨row, hrow, htype, hdst,
      hmetric⟩⟩
    obtain ⟨row, _, _, hdst, _⟩ := hiff.mpr hpark
    obtain ⟨dst, _, rfl⟩ := Option.map_eq_some_iff.mp hdst
    exact not_mapped_printedDst dst
  · rintro ⟨hmapped, hother⟩
    constructor
    · rintro ⟨row, hrow, htype, hdst, hmetric⟩
      exact hother row hrow htype hdst hmetric
    intro hpark
    refine ⟨_, hpark, rfl, ?_, ?_⟩
    · rw [dst_legacyParkRow hzone, Option.map_some, printedDst_of_not_mapped (hmapped hpark)]
    · exact UInt32.le_refl managedParkMetric

theorem linux_releases_iff {parked : List Prefix}
    (hparked : ∀ pfx ∈ parked, isHostPrefix pfx = true ∧ pfx.addr.zone = "") :
    (linuxView rows4 rows6).Releases parked ↔
      ∀ pfx ∈ parked, LinuxReleasable (rows4 ++ rows6) pfx := by
  constructor
  · intro hreleases pfx hpfx row hrow htype htable hdst hmetric
    obtain ⟨dst, hdst, _, rfl⟩ := hdst
    refine hreleases _ (mem_releasedBy.mpr ⟨hpfx, (linux_winning_iff (hparked _ hpfx).1).mpr
      ⟨row, hrow, htype, htable, ?_, hmetric⟩⟩)
    rw [hdst]
    rfl
  · intro hreleasable pfx hreleased
    obtain ⟨hpfx, hwinning⟩ := mem_releasedBy.mp hreleased
    obtain ⟨row, hrow, htype, htable, hprinted, hmetric⟩ :=
      (linux_winning_iff (hparked pfx hpfx).1).mp hwinning
    obtain ⟨dst, hdst, rfl⟩ := Option.map_eq_some_iff.mp hprinted
    cases hmapped : dst.addr.is4In6 with
    | true => exact hreleasable _ hpfx row hrow htype htable ⟨dst, hdst, hmapped, rfl⟩ hmetric
    | false =>
      refine ⟨row, hrow, ?_, htype, hmetric⟩
      rw [hdst, printedDst_of_not_mapped hmapped]

end

-- === Windows ===

section

variable {zones : Windows.Zones} {api : Windows.RouteApi} {table : List Windows.ForwardRow}
  {pfx : Prefix}

theorem mem_windows_routes {row : RouteRow} :
    row ∈ (windowsView zones api table).kernel.routes ↔ ∃ r ∈ table, row = r.listed.toRow := by
  simp only [windowsView, Windows.snapshotUnlocked, List.map_append, List.map_map, List.mem_append,
    List.mem_map, List.mem_filter, Function.comp_apply]
  constructor
  · rintro (⟨r, ⟨hr, _⟩, rfl⟩ | ⟨r, ⟨hr, _⟩, rfl⟩) <;> exact ⟨r, hr, rfl⟩
  rintro ⟨r, hr, rfl⟩
  cases h4 : r.destinationPrefix.addr.is4 with
  | true => exact .inl ⟨r, ⟨hr, h4⟩, rfl⟩
  | false => exact .inr ⟨r, ⟨hr, by rw [h4]; rfl⟩, rfl⟩

theorem windows_restores_iff {parked : List Prefix} :
    (windowsView zones api table).Restores parked ↔
      ∀ pfx ∈ parked, ¬ (windowsView zones api table).ParkIn pfx := by
  refine restores_iff_of_not_listed fun row hrow => ?_
  obtain ⟨r, _, rfl⟩ := mem_windows_routes.mp hrow
  rfl

theorem metric_of_windowsPark {row : Windows.ForwardRow}
    (h : Windows.rowForOperation zones api (windowsPark pfx) = .ok row) :
    row.metric = managedParkMetric := by
  unfold Windows.rowForOperation windowsPark at h
  cases hvalid : pfx.isValid with
  | false => simp [hvalid] at h
  | true =>
    simp only [hvalid, ne_eq, not_true_eq_false, if_false, lt_irrefl, Bool.not_true,
      Bool.false_eq_true, false_and, true_or, if_true, Except.ok.injEq] at h
    rw [← h]
    rfl

theorem windows_releases (parked : List Prefix) :
    (windowsView zones api table).Releases parked := by
  intro pfx hreleased
  obtain ⟨row, hrow, _, _, hpfx, hmetric⟩ := winning_iff.mp (mem_releasedBy.mp hreleased).2
  obtain ⟨r, hr, rfl⟩ := mem_windows_routes.mp hrow
  refine ⟨r, hr, Option.some.inj hpfx, fun hpark => ?_, hmetric⟩
  have hless : r.metric < managedParkMetric := hmetric
  rw [metric_of_windowsPark hpark] at hless
  exact UInt32.lt_irrefl _ hless

end

-- === macOS ===

section

variable {interfaceByName : String → Option Int} {text4 text6 : String} {pfx : Prefix}

theorem mem_darwin_routes {row : RouteRow} :
    row ∈ (darwinView interfaceByName text4 text6).kernel.routes ↔
      ∃ line ∈ darwinLines text4 text6,
        Darwin.netstatRow interfaceByName line.1 line.2 = some row := by
  simp [darwinView, Darwin.snapshot, Darwin.parseNetstatRoutes, darwinLines, or_and_right,
    exists_or]

theorem netstatRow_eq_some {family : Nat} {line : Darwin.NetstatLine} {row : RouteRow}
    (h : Darwin.netstatRow interfaceByName family line = some row) :
    row.kind = .route ∧ row.table = 0 ∧ row.metric = 0 ∧
      (interfaceByName line.netif).isSome = true ∧
      row.pfx = (Darwin.netstatPrefix line.destination family).bind Prefix.parse := by
  obtain ⟨text, htext, hmap⟩ := Option.bind_eq_some_iff.mp h
  obtain ⟨index, hindex, rfl⟩ := Option.map_eq_some_iff.mp hmap
  rw [htext, hindex]
  exact ⟨rfl, rfl, rfl, rfl, rfl⟩

theorem darwin_winning_iff :
    winning (darwinView interfaceByName text4 text6).kernel pfx = true ↔
      ∃ line ∈ darwinLines text4 text6, LineFor pfx line ∧
        (interfaceByName line.2.netif).isSome = true := by
  rw [winning_iff]
  constructor
  · rintro ⟨row, hrow, _, _, hpfx, _⟩
    obtain ⟨line, hline, hlineRow⟩ := mem_darwin_routes.mp hrow
    obtain ⟨_, _, _, hindex, hrowPfx⟩ := netstatRow_eq_some hlineRow
    exact ⟨line, hline, hrowPfx.symm.trans hpfx, hindex⟩
  rintro ⟨line, hline, hfor, hindex⟩
  obtain ⟨text, htext, hparse⟩ := Option.bind_eq_some_iff.mp hfor
  obtain ⟨index, hindex⟩ := Option.isSome_iff_exists.mp hindex
  have hrow : ∃ row, Darwin.netstatRow interfaceByName line.1 line.2 = some row := by
    simp [Darwin.netstatRow, htext, hindex]
  obtain ⟨row, hrow⟩ := hrow
  obtain ⟨hkind, htable, hmetric, _, hpfx⟩ := netstatRow_eq_some hrow
  refine ⟨row, mem_darwin_routes.mpr ⟨line, hline, hrow⟩, hkind, ?_, hpfx.trans hfor, ?_⟩
  · rw [htable]
    decide
  · rw [hmetric]
    decide

theorem darwin_restores_iff {parked : List Prefix} :
    (darwinView interfaceByName text4 text6).Restores parked ↔
      ∀ pfx ∈ parked, ¬ (darwinView interfaceByName text4 text6).ParkIn pfx := by
  refine restores_iff_of_not_listed fun row hrow => ?_
  obtain ⟨line, _, hline⟩ := mem_darwin_routes.mp hrow
  exact (netstatRow_eq_some hline).1

theorem darwin_releases_iff {parked : List Prefix} :
    (darwinView interfaceByName text4 text6).Releases parked ↔
      ∀ pfx ∈ parked, (∃ line ∈ darwinLines text4 text6, LineFor pfx line ∧ Blackhole line ∧
        (interfaceByName line.2.netif).isSome = true) →
      ∃ line ∈ darwinLines text4 text6, LineFor pfx line ∧ ¬ Blackhole line := by
  constructor
  · rintro hreleases pfx hpfx ⟨line, hline, hfor, _, hindex⟩
    exact hreleases pfx (mem_releasedBy.mpr ⟨hpfx, darwin_winning_iff.mpr ⟨line, hline, hfor,
      hindex⟩⟩)
  intro hbeside pfx hreleased
  obtain ⟨hpfx, hwinning⟩ := mem_releasedBy.mp hreleased
  obtain ⟨line, hline, hfor, hindex⟩ := darwin_winning_iff.mp hwinning
  by_cases hblackhole : Blackhole line
  · exact hbeside pfx hpfx ⟨line, hline, hfor, hblackhole, hindex⟩
  · exact ⟨line, hline, hfor, hblackhole⟩

end

/-- On Linux the parks are found again and released as they should be, except where a
    mapped prefix or a second unreachable row is in play. On Windows and macOS no park is
    ever found again, and on macOS a park releases itself. -/
theorem legacy_parks_survive_iff (parked : List Prefix)
    (hparked : ∀ pfx ∈ parked, isHostPrefix pfx = true ∧ pfx.addr.zone = "") :
    (∀ rows4 rows6,
      ((linuxView rows4 rows6).Restores parked ↔
        ∀ pfx ∈ parked, LinuxRestorable (rows4 ++ rows6) pfx) ∧
      ((linuxView rows4 rows6).Releases parked ↔
        ∀ pfx ∈ parked, LinuxReleasable (rows4 ++ rows6) pfx)) ∧
    (∀ zones api table,
      ((windowsView zones api table).Restores parked ↔
        ∀ pfx ∈ parked, ¬ (windowsView zones api table).ParkIn pfx) ∧
      (windowsView zones api table).Releases parked) ∧
    ∀ interfaceByName text4 text6,
      ((darwinView interfaceByName text4 text6).Restores parked ↔
        ∀ pfx ∈ parked, ¬ (darwinView interfaceByName text4 text6).ParkIn pfx) ∧
      ((darwinView interfaceByName text4 text6).Releases parked ↔
        ∀ pfx ∈ parked, (∃ line ∈ darwinLines text4 text6, LineFor pfx line ∧ Blackhole line ∧
          (interfaceByName line.2.netif).isSome = true) →
        ∃ line ∈ darwinLines text4 text6, LineFor pfx line ∧ ¬ Blackhole line) :=
  ⟨fun _ _ => ⟨linux_restores_iff hparked, linux_releases_iff hparked⟩,
    fun _ _ _ => ⟨windows_restores_iff, windows_releases parked⟩,
    fun _ _ _ => ⟨darwin_restores_iff, darwin_releases_iff⟩⟩

-- === Samples ===

def parkedHost : Prefix := ⟨.v4 0x0a000001#32, 32⟩

def windowsParked : List Windows.ForwardRow :=
  (Windows.apply Windows.noZones Windows.sampleApi [windowsPark parkedHost] []).2

def netstatParked : String := "Routing tables\n\nInternet:\n" ++
  "Destination Gateway Flags Netif Expire\n10.0.0.1 127.0.0.1 UGHSB lo0\n"

def loopbackOnly : String → Option Int := fun name => if name = "lo0" then some 1 else none

/-- A park that was just applied is not restored on Windows and macOS, and on macOS it
    is released though nothing else is in the table. -/
theorem legacy_parks_forgotten :
    (windowsView Windows.noZones Windows.sampleApi windowsParked).ParkIn parkedHost ∧
    restoredFrom (windowsView Windows.noZones Windows.sampleApi windowsParked).kernel
      [parkedHost] = [] ∧
    (darwinView loopbackOnly netstatParked "").ParkIn parkedHost ∧
    restoredFrom (darwinView loopbackOnly netstatParked "").kernel [parkedHost] = [] ∧
    releasedBy (darwinView loopbackOnly netstatParked "").kernel [parkedHost] = [parkedHost] ∧
    ¬ (darwinView loopbackOnly netstatParked "").RouteBeside parkedHost := by
  have hwindows : windowsParked =
      [{ interfaceLuid := 2, interfaceIndex := 1, destinationPrefix := parkedHost,
         nextHop := .v4 0x7f000001#32, metric := managedParkMetric }] := by
    decide +kernel
  have hlines : darwinLines netstatParked "" =
      [(4, ⟨"10.0.0.1", "127.0.0.1", "UGHSB", "lo0"⟩)] := by
    decide +kernel
  refine ⟨⟨_, hwindows ▸ List.mem_singleton_self _, by decide +kernel⟩, by decide +kernel, ?_,
    by decide +kernel, by decide +kernel, ?_⟩
  · simp only [darwinView, hlines]
    exact ⟨_, List.mem_singleton_self _, by unfold LineFor; decide +kernel,
      by unfold Blackhole; decide +kernel⟩
  simp only [darwinView, hlines]
  rintro ⟨line, hline, _, hroute⟩
  rw [List.mem_singleton.mp hline] at hroute
  exact hroute (by unfold Blackhole; decide +kernel)

/-- On Linux the park is restored and not released. -/
theorem legacy_parks_survive_sample :
    (linuxView (Linux.addPark parkedHost []) []).Restores [parkedHost] ∧
    (linuxView (Linux.addPark parkedHost []) []).Releases [parkedHost] := by
  have hrows : Linux.addPark parkedHost [] ++ [] = [Linux.legacyParkRow parkedHost] := by decide
  obtain ⟨hrestores, hreleases⟩ := (legacy_parks_survive_iff [parkedHost] (by decide)).1
    (Linux.addPark parkedHost []) []
  refine ⟨hrestores.mpr fun pfx hpfx => ?_, hreleases.mpr fun pfx hpfx => ?_⟩
  · rw [List.mem_singleton.mp hpfx, hrows]
    exact ⟨fun _ => by decide, fun _ _ _ _ _ => List.mem_singleton_self _⟩
  rw [List.mem_singleton.mp hpfx, hrows]
  intro row hrow htype
  rw [List.mem_singleton.mp hrow] at htype
  exact absurd rfl htype

end Kikimora.Control

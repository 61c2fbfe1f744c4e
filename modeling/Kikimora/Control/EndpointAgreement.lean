import Kikimora.Control.RecoveryDriver
import Kikimora.Platform.Darwin
import Kikimora.Platform.EndpointExact
import Kikimora.Platform.Windows

/-!
# Endpoint routes on three platforms

What the endpoint policies of the roles are for is a set of host routes: those of the
latest policy of every role. Linux keeps in its rules which role wants which prefix,
Windows keeps nothing, and macOS keeps it in the memory of the process. Here the three
executors are measured against the same set, over whole histories of calls.
-/

namespace Kikimora.Control

open Net Platform

-- === What is wanted ===

/-- An endpoint host route; the gateway is empty for a route on the link. -/
structure HostRoute where
  pfx : Prefix
  ifIndex : Int
  gateway : String
  deriving DecidableEq, Repr

def hostRouteOf (r : EndpointRoute) : HostRoute :=
  ⟨r.pfx, r.ifIndex, if r.gateway.isValid then r.gateway.toString else ""⟩

/-- The routes of the latest policy of every role, by the priority of the role. A role
    that was removed has none. -/
abbrev LatestPolicies := Int → List EndpointRoute

def LatestPolicies.set (latest : LatestPolicies) (priority : Int) (routes : List EndpointRoute) :
    LatestPolicies :=
  fun n => if n = priority then routes else latest n

def WantedElsewhere (latest : LatestPolicies) (priority : Int) (pfx : Prefix) : Prop :=
  ∃ n, n ≠ priority ∧ ∃ r ∈ latest n, r.pfx = pfx

/-- Every prefix that a latest policy wants has exactly the route of the policy, and
    there is no other host route. -/
structure ExactRoutes (host : HostRoute → Prop) (latest : LatestPolicies) : Prop where
  wanted : ∀ n, ∀ r ∈ latest n, ∀ x : HostRoute, x.pfx = r.pfx → (host x ↔ x = hostRouteOf r)
  only : ∀ x, host x → ∃ n, ∃ r ∈ latest n, r.pfx = x.pfx

def AgreesElsewhere (latest : LatestPolicies) (priority : Int) (routes : List EndpointRoute) :
    Prop :=
  ∀ n, n ≠ priority → ∀ r' ∈ latest n, ∀ r ∈ routes, r.pfx = r'.pfx →
    hostRouteOf r = hostRouteOf r'

def OneRoute (routes : List EndpointRoute) : Prop :=
  ∀ r ∈ routes, ∀ r' ∈ routes, r.pfx = r'.pfx → r = r'

section Exact

variable {host host' : HostRoute → Prop} {latest : LatestPolicies} {priority : Int}
  {routes : List EndpointRoute} {x : HostRoute}

theorem OneRoute.tail {r : EndpointRoute} (h : OneRoute (r :: routes)) : OneRoute routes :=
  fun a ha b hb => h a (List.mem_cons_of_mem _ ha) b (List.mem_cons_of_mem _ hb)

/-- The first route comes again, or its prefix does not. -/
theorem OneRoute.head {r : EndpointRoute} (h : OneRoute (r :: routes)) :
    r ∈ routes ∨ ∀ r' ∈ routes, r'.pfx ≠ r.pfx := by
  by_cases hlater : ∃ r' ∈ routes, r'.pfx = r.pfx
  · obtain ⟨r', hr', hpfx⟩ := hlater
    exact .inl (h r' (List.mem_cons_of_mem _ hr') r List.mem_cons_self hpfx ▸ hr')
  · exact .inr fun r' hr' hpfx => hlater ⟨r', hr', hpfx⟩

theorem exactRoutes_none (h : ∀ x, ¬ host x) : ExactRoutes host fun _ => [] :=
  ⟨nofun, fun x hx => absurd hx (h x)⟩

theorem ExactRoutes.host_iff (h : ExactRoutes host latest) :
    host x ↔ ∃ n, ∃ r ∈ latest n, x = hostRouteOf r := by
  constructor
  · intro hx
    obtain ⟨n, r, hr, hpfx⟩ := h.only x hx
    exact ⟨n, r, hr, (h.wanted n r hr x hpfx.symm).mp hx⟩
  · rintro ⟨n, r, hr, rfl⟩
    exact (h.wanted n r hr _ rfl).mpr rfl

theorem ExactRoutes.host_of_mem (h : ExactRoutes host latest) {n : Int} {r : EndpointRoute}
    (hr : r ∈ latest n) : host (hostRouteOf r) := h.host_iff.mpr ⟨n, r, hr, rfl⟩

theorem set_self : latest.set priority routes priority = routes := if_pos rfl

theorem set_of_ne {n : Int} (h : n ≠ priority) : latest.set priority routes n = latest n := if_neg h

theorem ExactRoutes.wantedElsewhere (h : ExactRoutes host latest) (hx : host x)
    (hown : ∀ r ∈ latest priority, r.pfx = x.pfx → WantedElsewhere latest priority r.pfx) :
    WantedElsewhere latest priority x.pfx := by
  obtain ⟨n, r, hr, hpfx⟩ := h.only x hx
  by_cases hn : n = priority
  · subst hn
    exact hpfx ▸ hown r hr hpfx
  · exact ⟨n, hn, r, hr, hpfx⟩

/-- A call that sets the routes of a role and leaves, of the others, what other roles
    want. -/
theorem ExactRoutes.update (h : ExactRoutes host latest) (hone : OneRoute routes)
    (hagrees : AgreesElsewhere latest priority routes)
    (hhost : ∀ x, host' x ↔ (∃ r ∈ routes, x = hostRouteOf r) ∨
      host x ∧ (∀ r ∈ routes, r.pfx ≠ x.pfx) ∧ WantedElsewhere latest priority x.pfx) :
    ExactRoutes host' (latest.set priority routes) := by
  constructor
  · intro n r hr x hpfx
    rw [hhost]
    by_cases hn : n = priority
    · subst hn
      rw [set_self] at hr
      constructor
      · rintro (⟨r', hr', rfl⟩ | ⟨_, hfree, _⟩)
        · rw [hone r' hr' r hr hpfx]
        · exact absurd hpfx.symm (hfree r hr)
      · exact fun hx => .inl ⟨r, hr, hx⟩
    · rw [set_of_ne hn] at hr
      constructor
      · rintro (⟨r', hr', rfl⟩ | ⟨hx, _⟩)
        · exact hagrees n hn r hr r' hr' hpfx
        · exact (h.wanted n r hr x hpfx).mp hx
      rintro rfl
      by_cases hshared : ∃ r' ∈ routes, r'.pfx = r.pfx
      · obtain ⟨r', hr', hsame⟩ := hshared
        exact .inl ⟨r', hr', (hagrees n hn r hr r' hr' hsame).symm⟩
      · exact .inr ⟨h.host_of_mem hr, fun r' hr' hsame => hshared ⟨r', hr', hsame⟩,
          n, hn, r, hr, rfl⟩
  · intro x hx
    rcases (hhost x).mp hx with ⟨r, hr, rfl⟩ | ⟨_, _, n, hn, r, hr, hpfx⟩
    · exact ⟨priority, r, by rwa [set_self], rfl⟩
    · exact ⟨n, r, by rwa [set_of_ne hn], hpfx⟩

end Exact

-- === Histories ===

/-- The policy is one that `ApplyEndpoint` passes: it has a host route for each of the
    resolved addresses, over the path of the address's family. -/
def Built (p : EndpointPolicy) : Prop :=
  p.valid = true ∧ ∃ (d : RecoveryDriver) (resolved : List (Addr × UInt16)),
    (∀ a ∈ resolved, a.1.isValid = true) ∧ resolved.mapM d.endpointRoute = .ok p.routes

/-- An executor of endpoint policies over the state of its system, with its own memory. -/
structure EndpointExecutor (σ : Type) where
  /-- there are no endpoint host routes yet -/
  Start : σ → Prop
  Reconcile : EndpointPolicy → σ → σ → Prop
  Remove : EndpointPolicy → σ → σ → Prop
  /-- a restart of the core -/
  Restart : σ → σ → Prop
  Host : σ → HostRoute → Prop

/-- Conditions on the calls of a history. -/
structure CallConditions (σ : Type) where
  Reconcile : σ → LatestPolicies → EndpointPolicy → Prop
  Remove : σ → LatestPolicies → EndpointPolicy → Prop

/-- The histories of an executor whose calls meet the conditions. A removal passes the
    policy without routes. -/
inductive PolicyRun {σ : Type} (e : EndpointExecutor σ) (c : CallConditions σ) :
    σ → LatestPolicies → Prop
  | start {s : σ} (hstart : e.Start s) : PolicyRun e c s fun _ => []
  | reconcile {s s' : σ} {latest : LatestPolicies} {p : EndpointPolicy}
      (hrun : PolicyRun e c s latest) (hbuilt : Built p) (hcond : c.Reconcile s latest p)
      (hcall : e.Reconcile p s s') : PolicyRun e c s' (latest.set p.priority p.routes)
  | remove {s s' : σ} {latest : LatestPolicies} {p : EndpointPolicy}
      (hrun : PolicyRun e c s latest) (hvalid : p.valid = true) (hroutes : p.routes = [])
      (hcond : c.Remove s latest p) (hcall : e.Remove p s s') :
      PolicyRun e c s' (latest.set p.priority [])
  | restart {s s' : σ} {latest : LatestPolicies} (hrun : PolicyRun e c s latest)
      (hrestart : e.Restart s s') : PolicyRun e c s' latest

section

variable {p : EndpointPolicy} {d : RecoveryDriver} {r : EndpointRoute}

theorem endpointRoute_eq_ok {a : Addr × UInt16} (h : d.endpointRoute a = .ok r)
    (hvalid : a.1.isValid = true) : isHostPrefix r.pfx = true ∧ 0 < r.ifIndex ∧ r.metric = 1 ∧
      r.pfx = ⟨a.1.withoutZone, a.1.bitLen⟩ := by
  unfold RecoveryDriver.endpointRoute at h
  split at h
  · next path hpath =>
    cases h
    have hpos := (Option.filter_eq_some_iff.mp hpath).2
    refine ⟨?_, by simpa using hpos, rfl, rfl⟩
    cases haddr : a.1 <;> rw [haddr] at hvalid
    · cases hvalid
    all_goals rfl
  · cases h

theorem endpointRoute_congr {a b : Addr × UInt16} {r' : EndpointRoute}
    (ha : d.endpointRoute a = .ok r) (hb : d.endpointRoute b = .ok r') (h : r.pfx = r'.pfx) :
    r = r' := by
  unfold RecoveryDriver.endpointRoute at ha hb
  split at ha
  · next path hpath =>
    cases ha
    split at hb
    · next path' hpath' =>
      cases hb
      obtain ⟨hzone, hbits⟩ := Prefix.mk.inj h
      rw [hbits, hpath', Option.some.injEq] at hpath
      rw [hzone, hbits, hpath]
    · cases hb
  · cases ha

theorem Built.exists_address (h : Built p) : ∃ d : RecoveryDriver, ∀ r ∈ p.routes,
    ∃ a : Addr × UInt16, a.1.isValid = true ∧ d.endpointRoute a = .ok r := by
  obtain ⟨_, d, resolved, hvalid, hroutes⟩ := h
  refine ⟨d, ?_⟩
  generalize p.routes = routes at hroutes
  induction resolved generalizing routes with
  | nil =>
    cases hroutes
    exact nofun
  | cons a resolved ih =>
    obtain ⟨ha, hresolved⟩ := List.forall_mem_cons.mp hvalid
    obtain ⟨r, rs, hr, hrs, rfl⟩ := mapM_cons_eq_ok.mp hroutes
    exact List.forall_mem_cons.mpr ⟨⟨a, ha, hr⟩, ih hresolved rs hrs⟩

theorem Built.host (h : Built p) (hr : r ∈ p.routes) :
    isHostPrefix r.pfx = true ∧ 0 < r.ifIndex ∧ r.metric = 1 := by
  obtain ⟨d, hroutes⟩ := h.exists_address
  obtain ⟨a, hvalid, ha⟩ := hroutes r hr
  obtain ⟨hhost, hindex, hmetric, _⟩ := endpointRoute_eq_ok ha hvalid
  exact ⟨hhost, hindex, hmetric⟩

theorem Built.oneRoute (h : Built p) : OneRoute p.routes := by
  intro r hr r' hr' hpfx
  obtain ⟨d, hroutes⟩ := h.exists_address
  obtain ⟨a, _, ha⟩ := hroutes r hr
  obtain ⟨b, _, hb⟩ := hroutes r' hr'
  exact endpointRoute_congr ha hb hpfx

end

-- === Linux ===

def linuxHost (h : HostState) (x : HostRoute) : Prop :=
  ∃ row ∈ h.tables, row.endpointHost = true ∧ row.pfx = some x.pfx ∧ row.ifIndex = x.ifIndex ∧
    row.gateway = x.gateway

def linuxExecutor (describe : Prefix → String → RouteRow) : EndpointExecutor HostState where
  Start := fun h => h.endpointRows = [] ∧ h.endpointRules = []
  Reconcile := fun p => CompletedCall describe p false
  Remove := fun p => CompletedCall describe p true
  Restart := fun h h' => h' = h
  Host := linuxHost

def linuxConditions : CallConditions HostState where
  Reconcile := fun _ latest p => AgreesElsewhere latest p.priority p.routes
  Remove := fun _ _ _ => True

section Linux

variable {describe : Prefix → String → RouteRow} {h h' : HostState} {latest : LatestPolicies}
  {p : EndpointPolicy}

def endpointRowOf (r : EndpointRoute) : RouteRow where
  kind := .route
  family := familyOf r.pfx
  pfx := some r.pfx
  table := endpointTable
  ifIndex := r.ifIndex
  metric := 1
  gateway := (hostRouteOf r).gateway
  protocol := staticProtocol

def endpointRuleOf (r : EndpointRoute) (priority : Int) : PolicyRule :=
  ⟨familyOf r.pfx, some r.pfx, endpointTable, priority⟩

theorem desiredRow_eq {r : EndpointRoute} (hhost : isHostPrefix r.pfx = true)
    (hindex : 0 < r.ifIndex) (hmetric : r.metric = 1) : desiredRow r = .ok (endpointRowOf r) := by
  simp [desiredRow, hhost, hmetric, not_le.mpr hindex, endpointRowOf, hostRouteOf]

theorem wantedIn_iff {routes : List EndpointRoute} (hone : OneRoute routes)
    (hrows : ∀ r ∈ routes, desiredRow r = .ok (endpointRowOf r)) {row : RouteRow} :
    WantedIn routes row ↔ ∃ r ∈ routes, row = endpointRowOf r := by
  constructor
  · intro hwanted
    obtain ⟨r, hr, hrow⟩ := hwanted.mem
    rw [hrows r hr, Except.ok.injEq] at hrow
    exact ⟨r, hr, hrow.symm⟩
  rintro ⟨r, hr, rfl⟩
  induction routes with
  | nil => exact absurd hr List.not_mem_nil
  | cons r0 routes ih =>
    have htail : r ∈ routes → WantedIn (r0 :: routes) (endpointRowOf r) := fun hmem =>
      .inl (ih hone.tail (fun a ha => hrows a (List.mem_cons_of_mem _ ha)) hmem)
    rcases List.mem_cons.mp hr with rfl | hmem
    · exact hone.head.elim htail fun hfree => .inr ⟨hrows r List.mem_cons_self, hfree⟩
    · exact htail hmem

theorem Built.wants_iff (hbuilt : Built p) {row : RouteRow} :
    p.Wants row ↔ ∃ r ∈ p.routes, row = endpointRowOf r :=
  wantedIn_iff hbuilt.oneRoute fun r hr => by
    obtain ⟨hhost, hindex, hmetric⟩ := hbuilt.host hr
    exact desiredRow_eq hhost hindex hmetric

/-- The rules say which role wants which prefix, and the routes are exact. -/
structure LinuxOk (h : HostState) (latest : LatestPolicies) : Prop where
  table : EndpointTableOk h
  rules : ∀ rule, rule.table = endpointTable →
    (rule ∈ h.rules ↔ ∃ r ∈ latest rule.priority, rule = endpointRuleOf r rule.priority)
  exact : ExactRoutes (linuxHost h) latest

theorem LinuxOk.wantedByOther_iff (hok : LinuxOk h latest) {pfx : Prefix} :
    p.WantedByOther h.rules (some pfx) ↔ WantedElsewhere latest p.priority pfx := by
  constructor
  · rintro ⟨rule, hrule, htable, hpriority, _, hpfx⟩
    obtain ⟨r, hr, heq⟩ := (hok.rules rule htable).mp hrule
    rw [heq] at hpfx
    exact ⟨rule.priority, hpriority, r, hr, Option.some.inj hpfx⟩
  · rintro ⟨n, hn, r, hr, rfl⟩
    have hrule : endpointRuleOf r n ∈ h.rules := (hok.rules _ rfl).mpr ⟨r, hr, rfl⟩
    exact ⟨_, hrule, rfl, hn, (hok.table.hostRule _ hrule rfl).toHost, rfl⟩

theorem LinuxOk.start (hrows : h.endpointRows = []) (hrules : h.endpointRules = []) :
    LinuxOk h fun _ => [] := by
  refine ⟨EndpointTableOk.start hrows hrules, fun rule htable => ?_, exactRoutes_none ?_⟩
  · refine iff_of_false (fun hrule => ?_) (nofun)
    exact List.not_mem_nil (hrules ▸ mem_endpointRules.mpr ⟨hrule, htable⟩)
  · rintro x ⟨row, hrow, hhost, _⟩
    have htable := (RouteRow.endpointHost_iff.mp hhost).2.1
    exact List.not_mem_nil (hrows ▸ mem_endpointRows.mpr ⟨hrow, htable⟩)

/-- A call that leaves the rules and the host routes of other roles and has, of its own,
    those of the routes. -/
theorem LinuxOk.update (hok : LinuxOk h latest) (htable : EndpointTableOk h')
    {routes : List EndpointRoute} (hone : OneRoute routes)
    (hpfx : ∀ r ∈ routes, isHostPrefix r.pfx = true)
    (hagrees : AgreesElsewhere latest p.priority routes)
    (hrules : ∀ rule, rule ∈ h'.rules ↔ (rule ∈ h.rules ∧ ¬ p.OwnRule rule) ∨
      ∃ r ∈ routes, rule = endpointRuleOf r p.priority)
    (hrows : ∀ row : RouteRow, row.HostRoute → (row ∈ h'.tables ↔
      (∃ r ∈ routes, row = endpointRowOf r) ∨ row ∈ h.tables ∧
        (∀ r ∈ routes, some r.pfx ≠ row.pfx) ∧ p.WantedByOther h.rules row.pfx)) :
    LinuxOk h' (latest.set p.priority routes) := by
  refine ⟨htable, fun rule hruleTable => ?_, hok.exact.update hone hagrees fun x => ?_⟩
  · rw [hrules]
    by_cases hpriority : rule.priority = p.priority
    · rw [hpriority, set_self]
      refine or_iff_right fun ⟨hold, hnot⟩ => hnot ⟨hruleTable, hpriority, ?_⟩
      exact (hok.table.hostRule rule hold hruleTable).toHost
    rw [set_of_ne hpriority, ← hok.rules rule hruleTable, or_iff_left,
      and_iff_left fun how => hpriority how.2.1]
    rintro ⟨r, _, rfl⟩
    exact hpriority rfl
  · constructor
    · rintro ⟨row, hrow, hhost, hrowPfx, hindex, hgateway⟩
      rcases (hrows row (htable.hostRoute hrow hhost)).mp hrow with
        ⟨r, hr, rfl⟩ | ⟨hmem, hfree, hother⟩
      · refine .inl ⟨r, hr, ?_⟩
        obtain ⟨pfx, ifIndex, gateway⟩ := x
        cases Option.some.inj hrowPfx
        cases hindex
        cases hgateway
        rfl
      · rw [hrowPfx] at hfree hother
        exact .inr ⟨⟨row, hmem, hhost, hrowPfx, hindex, hgateway⟩,
          fun r hr heq => hfree r hr (congrArg some heq), hok.wantedByOther_iff.mp hother⟩
    · rintro (⟨r, hr, rfl⟩ | ⟨⟨row, hmem, hhost, hrowPfx, hindex, hgateway⟩, hfree, hother⟩)
      · have hroute : (endpointRowOf r).HostRoute := ⟨r.pfx, _, _, hpfx r hr, rfl⟩
        exact ⟨_, (hrows _ hroute).mpr (.inl ⟨r, hr, rfl⟩), hroute.endpointHost, rfl, rfl, rfl⟩
      refine ⟨row, (hrows row (hok.table.hostRoute hmem hhost)).mpr (.inr ⟨hmem, ?_⟩), hhost,
        hrowPfx, hindex, hgateway⟩
      rw [hrowPfx]
      exact ⟨fun r hr heq => hfree r hr (Option.some.inj heq), hok.wantedByOther_iff.mpr hother⟩

theorem LinuxOk.reconcile (hok : LinuxOk h latest) (hbuilt : Built p)
    (hagrees : AgreesElsewhere latest p.priority p.routes)
    (hcall : CompletedCall describe p false h h') :
    LinuxOk h' (latest.set p.priority p.routes) := by
  have hmetric : ∀ route ∈ p.routes, route.metric = 1 := fun r hr => (hbuilt.host hr).2.2
  obtain ⟨ks, ops, hl, hplan, hops⟩ := hcall
  obtain ⟨hrules, hrows⟩ := hok.table.mem_reconcile hl hmetric hplan hops
  have htable := hok.table.cutAt (hok.table.orderly hl hmetric hplan) (.of_performAll hops)
  have hwants : ∀ {P : RouteRow → Prop}, (∃ row, p.Wants row ∧ P row) ↔
      ∃ r ∈ p.routes, P (endpointRowOf r) := by
    intro P
    constructor
    · rintro ⟨row, hrow, hP⟩
      obtain ⟨r, hr, rfl⟩ := hbuilt.wants_iff.mp hrow
      exact ⟨r, hr, hP⟩
    · exact fun ⟨r, hr, hP⟩ => ⟨_, hbuilt.wants_iff.mpr ⟨r, hr, rfl⟩, hP⟩
  refine hok.update htable hbuilt.oneRoute (fun r hr => (hbuilt.host hr).1) hagrees
    (fun rule => (hrules rule).trans (or_congr_right hwants)) fun row hroute => ?_
  have hfree : (∀ r, p.Wants r → r.pfx ≠ row.pfx) ↔ ∀ r ∈ p.routes, some r.pfx ≠ row.pfx := by
    have := not_congr (hwants (P := fun r => r.pfx = row.pfx))
    push Not at this
    exact this
  rw [hrows row hroute.table, hbuilt.wants_iff, hfree, or_iff_right hroute.not_sentinel]
  exact or_congr_right (and_congr_right fun _ => and_iff_right hroute)

theorem LinuxOk.remove (hok : LinuxOk h latest) (hroutes : p.routes = [])
    (hcall : CompletedCall describe p true h h') : LinuxOk h' (latest.set p.priority []) := by
  obtain ⟨ks, ops, hl, hplan, hops⟩ := hcall
  have horderly := hok.table.orderly hl (by simp [hroutes]) hplan
  refine hok.update (hok.table.cutAt horderly (.of_performAll hops)) nofun nofun
    (fun _ _ _ _ => nofun) (fun rule => ?_) fun row hroute => ?_
  · simpa using removal_rules hl hplan hops rule
  · simpa using removal_routes hl hplan hops hroute.endpointHost

theorem PolicyRun.linuxOk (hrun : PolicyRun (linuxExecutor describe) linuxConditions h latest) :
    LinuxOk h latest := by
  induction hrun with
  | start hstart => exact LinuxOk.start hstart.1 hstart.2
  | reconcile _ hbuilt hcond hcall ih => exact ih.reconcile hbuilt hcond hcall
  | remove _ _ hroutes _ hcall ih => exact ih.remove hroutes hcall
  | restart _ hrestart ih =>
    cases hrestart
    exact ih

end Linux

-- === Windows ===

open Windows (ForwardRow Zones RouteApi)

/-- A row that an endpoint route was written as: parks and selected routes have other
    metrics. -/
def EndpointRow (row : ForwardRow) : Prop :=
  row.protocol = Windows.ownedRouteProtocol ∧ row.metric = Windows.endpointRouteMetric ∧
    isHostPrefix row.destinationPrefix = true

def rowHostRoute (row : ForwardRow) : HostRoute :=
  ⟨row.destinationPrefix, row.interfaceIndex.toNat, row.listed.gateway⟩

def windowsHost (table : List ForwardRow) (x : HostRoute) : Prop :=
  ∃ row ∈ table, EndpointRow row ∧ rowHostRoute row = x

def windowsExecutor (zones : Zones) (api : RouteApi) : EndpointExecutor (List ForwardRow) where
  Start := fun table => ∀ x, ¬ windowsHost table x
  Reconcile := fun p table table' =>
    (Windows.reconcileEndpointPolicy zones api p table).2 = table'
  Remove := fun p table table' => (Windows.removeEndpointPolicy zones api p table).2 = table'
  Restart := fun table table' => table' = table
  Host := windowsHost

def Shown (zones : Zones) (r : EndpointRoute) : Prop :=
  r.gateway.isValid = true ∧ r.gateway.isUnspecified = false ∧
    zones.kept r.gateway.zone = r.gateway.zone ∧ r.ifIndex < 2 ^ 32

instance (zones : Zones) (r : EndpointRoute) : Decidable (Shown zones r) :=
  inferInstanceAs (Decidable (_ ∧ _ ∧ _ ∧ _))

/-- No route goes away: a policy may only add to what is wanted, and a role may only be
    removed if other roles want all that it does. -/
def windowsConditions (zones : Zones) : CallConditions (List ForwardRow) where
  Reconcile := fun _ latest p =>
    (∀ n, ∀ r' ∈ latest n, ∀ r ∈ p.routes, r.pfx = r'.pfx → hostRouteOf r = hostRouteOf r') ∧
    (∀ r' ∈ latest p.priority, (∃ r ∈ p.routes, r.pfx = r'.pfx) ∨
      WantedElsewhere latest p.priority r'.pfx) ∧
    ∀ r ∈ p.routes, Shown zones r
  Remove := fun _ latest p =>
    ∀ r' ∈ latest p.priority, WantedElsewhere latest p.priority r'.pfx

section Windows

variable {zones : Zones} {api : RouteApi} {table : List ForwardRow}
  {latest : LatestPolicies} {p : EndpointPolicy} {r : EndpointRoute}

def windowsOperation (r : EndpointRoute) : Windows.Op where
  kind := .route
  family := prefixFamily r.pfx
  pfx := r.pfx
  table := Windows.kernelTable
  ifIndex := r.ifIndex
  metric := Windows.endpointRouteMetric
  gateway := (hostRouteOf r).gateway
  protocol := Windows.ownedRouteProtocol

def windowsRow (zones : Zones) (api : RouteApi) (r : EndpointRoute) : ForwardRow where
  interfaceLuid := (api.luidFromIndex (.ofInt r.ifIndex)).toOption.getD 0
  interfaceIndex := .ofInt r.ifIndex
  destinationPrefix := r.pfx
  nextHop := zones.sockaddr r.gateway
  metric := Windows.endpointRouteMetric

theorem endpointOperation_eq (hhost : isHostPrefix r.pfx = true) (hindex : 0 < r.ifIndex)
    (hmetric : r.metric = 1) : Windows.endpointOperation r = .ok (windowsOperation r) := by
  simp [Windows.endpointOperation, hhost, hmetric, not_le.mpr hindex, windowsOperation, hostRouteOf,
    Windows.endpointRouteMetric]

theorem rowForOperation_endpoint (hhost : isHostPrefix r.pfx = true) (hindex : 0 < r.ifIndex)
    (hgateway : r.gateway.isValid = true) :
    Windows.rowForOperation zones api (windowsOperation r) = .ok (windowsRow zones api r) := by
  have hvalid : r.pfx.isValid = true := (Bool.and_eq_true_iff.mp hhost).1
  simp [Windows.rowForOperation, windowsOperation, hvalid, hindex, hostRouteOf, hgateway,
    toString_ne_empty hgateway, Addr.parse_toString hgateway, ForwardRow.via,
    ForwardRow.onInterface, windowsRow]

theorem applyOperation_endpoint (hhost : isHostPrefix r.pfx = true) (hindex : 0 < r.ifIndex)
    (hgateway : r.gateway.isValid = true) :
    Windows.applyOperation zones api (windowsOperation r) table =
      .ok (table.filter (fun row => !(windowsRow zones api r).names row) ++
        [windowsRow zones api r]) := by
  have hrow : Windows.rowForOperation zones api (windowsOperation r) =
      .ok (windowsRow zones api r) := rowForOperation_endpoint hhost hindex hgateway
  unfold Windows.applyOperation
  rw [hrow]
  dsimp only [windowsOperation, Except.map]
  by_cases hnamed : table.any (windowsRow zones api r).names = true
  · have hgone : (table.filter fun row => !(windowsRow zones api r).names row).any
        (windowsRow zones api r).names = false := by
      simp
    simp [Windows.createRoute, Windows.deleteRoute, hnamed, hgone]
  have hall : table.filter (fun row => !(windowsRow zones api r).names row) = table := by
    rw [List.filter_eq_self]
    intro row hrow
    have hnot : (windowsRow zones api r).names row ≠ true := fun hname =>
      hnamed (List.any_eq_true.mpr ⟨row, hrow, hname⟩)
    simpa using hnot
  simp [Windows.createRoute, hnamed, hall]

theorem rowHostRoute_windowsRow (hindex : 0 < r.ifIndex) (hshown : Shown zones r) :
    rowHostRoute (windowsRow zones api r) = hostRouteOf r := by
  obtain ⟨hgateway, hspecified, hzone, hlt⟩ := hshown
  have hhop : zones.sockaddr r.gateway = r.gateway := Zones.sockaddr_eq_iff.mpr hzone
  simp [rowHostRoute, windowsRow, ForwardRow.listed, hhop, hgateway, hspecified, hostRouteOf,
    (Windows.toNat_ofInt_eq_iff hindex).mpr hlt]

theorem endpointRow_windowsRow (hhost : isHostPrefix r.pfx = true) :
    EndpointRow (windowsRow zones api r) := ⟨rfl, rfl, hhost⟩

/-- A row that the snapshot shows as the operation is the host route already. -/
theorem windowsHost_of_containsRoute (hhost : isHostPrefix r.pfx = true)
    (h : Windows.containsRoute (Windows.snapshotUnlocked table) (windowsOperation r) = true) :
    windowsHost table (hostRouteOf r) := by
  obtain ⟨got, hgot, heq⟩ := List.any_eq_true.mp h
  have hrow : ∃ row ∈ table, got = row.listed := by
    simp only [Windows.snapshotUnlocked, List.mem_append, List.mem_map, List.mem_filter] at hgot
    rcases hgot with ⟨row, ⟨hrow, _⟩, rfl⟩ | ⟨row, ⟨hrow, _⟩, rfl⟩ <;> exact ⟨row, hrow, rfl⟩
  obtain ⟨row, hrow, rfl⟩ := hrow
  have heq := of_decide_eq_true heq
  simp only [ForwardRow.listed, windowsOperation, Windows.Op.mk.injEq] at heq
  obtain ⟨_, _, hpfx, _, hindex, hmetric, hgateway, hprotocol, _⟩ := heq
  refine ⟨row, hrow, ⟨hprotocol, hmetric, hpfx ▸ hhost⟩, ?_⟩
  simp only [rowHostRoute, ForwardRow.listed, hpfx, hindex, hgateway]
  rfl

/-- One route of a policy: its host route comes in, and nothing goes that is not the
    same route. -/
theorem windowsHost_added (hhost : isHostPrefix r.pfx = true) (hindex : 0 < r.ifIndex)
    (hshown : Shown zones r)
    (hsame : ∀ x, windowsHost table x → x.pfx = r.pfx → x = hostRouteOf r) (x : HostRoute) :
    windowsHost (table.filter (fun row => !(windowsRow zones api r).names row) ++
      [windowsRow zones api r]) x ↔ windowsHost table x ∨ x = hostRouteOf r := by
  have hnew : rowHostRoute (windowsRow zones api r) = hostRouteOf r :=
    rowHostRoute_windowsRow hindex hshown
  constructor
  · rintro ⟨row, hrow, hendpoint, rfl⟩
    rcases List.mem_append.mp hrow with hrow | hrow
    · exact .inl ⟨row, (List.mem_filter.mp hrow).1, hendpoint, rfl⟩
    · rw [List.mem_singleton.mp hrow]
      exact .inr hnew
  · have hlast : windowsHost (table.filter (fun row => !(windowsRow zones api r).names row) ++
        [windowsRow zones api r]) (hostRouteOf r) :=
      ⟨_, List.mem_append_right _ (List.mem_singleton_self _), endpointRow_windowsRow hhost, hnew⟩
    rintro (⟨row, hrow, hendpoint, rfl⟩ | rfl)
    · by_cases hnamed : (windowsRow zones api r).names row = true
      · have hpfx : row.destinationPrefix = r.pfx := by
          simp only [ForwardRow.names, Bool.and_eq_true, decide_eq_true_eq] at hnamed
          exact hnamed.1.1
        rw [hsame _ ⟨row, hrow, hendpoint, rfl⟩ hpfx]
        exact hlast
      · exact ⟨row, List.mem_append_left _ (List.mem_filter.mpr ⟨hrow, by simpa using hnamed⟩),
          hendpoint, rfl⟩
    · exact hlast

theorem windowsHost_loop {start : List ForwardRow} {routes : List EndpointRoute}
    (hone : OneRoute routes)
    (hhost : ∀ r ∈ routes, isHostPrefix r.pfx = true ∧ 0 < r.ifIndex ∧ r.metric = 1)
    (hshown : ∀ r ∈ routes, Shown zones r)
    (hsame : ∀ x, windowsHost table x → ∀ r ∈ routes, x.pfx = r.pfx → x = hostRouteOf r)
    (hkept : ∀ x, windowsHost start x → windowsHost table x) (x : HostRoute) :
    windowsHost (applyEach (fun route rows => (Windows.endpointOperation route).bind fun op =>
      if Windows.containsRoute (Windows.snapshotUnlocked start) op then .ok rows
      else Windows.applyOperation zones api op rows) routes table).2 x ↔
      windowsHost table x ∨ ∃ r ∈ routes, x = hostRouteOf r := by
  induction routes generalizing table with
  | nil => simp [applyEach]
  | cons r routes ih =>
    rw [List.forall_mem_cons] at hhost hshown
    obtain ⟨⟨hpfx, hindex, hmetric⟩, hhost⟩ := hhost
    obtain ⟨table1, hstep, htable1⟩ : ∃ table1, ((Windows.endpointOperation r).bind fun op =>
        if Windows.containsRoute (Windows.snapshotUnlocked start) op then .ok table
        else Windows.applyOperation zones api op table) = .ok table1 ∧
        ∀ x, windowsHost table1 x ↔ windowsHost table x ∨ x = hostRouteOf r := by
      rw [endpointOperation_eq hpfx hindex hmetric]
      by_cases hcontains : Windows.containsRoute (Windows.snapshotUnlocked start)
          (windowsOperation r) = true
      · -- the snapshot had the route, and it is still there
        refine ⟨table, if_pos hcontains, fun x => (or_iff_left_of_imp ?_).symm⟩
        rintro rfl
        exact hkept _ (windowsHost_of_containsRoute hpfx hcontains)
      · exact ⟨_, (if_neg hcontains).trans (applyOperation_endpoint hpfx hindex hshown.1.1),
          windowsHost_added hpfx hindex hshown.1 fun x hx => hsame x hx r List.mem_cons_self⟩
    rw [applyEach_cons table1 hstep, ih hone.tail hhost hshown.2 (fun y hy r' hr' hsamePfx => ?_)
      fun y hy => (htable1 y).mpr (.inl (hkept y hy)), htable1]
    · simp only [List.exists_mem_cons_iff, or_assoc]
    · rcases (htable1 y).mp hy with hy | rfl
      · exact hsame y hy r' (List.mem_cons_of_mem _ hr') hsamePfx
      · rw [hone r List.mem_cons_self r' (List.mem_cons_of_mem _ hr') hsamePfx]

theorem windowsHost_reconcile (hbuilt : Built p) (hshown : ∀ r ∈ p.routes, Shown zones r)
    (hsame : ∀ x, windowsHost table x → ∀ r ∈ p.routes, x.pfx = r.pfx → x = hostRouteOf r)
    (x : HostRoute) :
    windowsHost (Windows.reconcileEndpointPolicy zones api p table).2 x ↔
      windowsHost table x ∨ ∃ r ∈ p.routes, x = hostRouteOf r := by
  unfold Windows.reconcileEndpointPolicy
  rw [hbuilt.1, if_neg (by decide)]
  exact windowsHost_loop hbuilt.oneRoute (fun r hr => hbuilt.host hr) hshown hsame (fun _ => id) x

theorem PolicyRun.windowsExact
    (hrun : PolicyRun (windowsExecutor zones api) (windowsConditions zones) table latest) :
    ExactRoutes (windowsHost table) latest := by
  induction hrun with
  | start hstart => exact exactRoutes_none hstart
  | @reconcile s s' latest p _ hbuilt hcond hcall ih =>
    obtain ⟨hagrees, hkeeps, hshown⟩ := hcond
    have hsame : ∀ x, windowsHost s x → ∀ r ∈ p.routes, x.pfx = r.pfx → x = hostRouteOf r := by
      intro x hx r hr hpfx
      obtain ⟨n, r', hr', rfl⟩ := ih.host_iff.mp hx
      exact (hagrees n r' hr' r hr hpfx.symm).symm
    cases hcall
    refine ih.update hbuilt.oneRoute (fun n _ => hagrees n) fun x => ?_
    rw [windowsHost_reconcile hbuilt hshown hsame]
    constructor
    · rintro (hx | hx)
      · by_cases hshared : ∃ r ∈ p.routes, r.pfx = x.pfx
        · obtain ⟨r, hr, hpfx⟩ := hshared
          exact .inl ⟨r, hr, hsame x hx r hr hpfx.symm⟩
        have hfree : ∀ r ∈ p.routes, r.pfx ≠ x.pfx := fun r hr hpfx => hshared ⟨r, hr, hpfx⟩
        refine .inr ⟨hx, hfree, ih.wantedElsewhere hx fun r' hr' hpfx => ?_⟩
        rcases hkeeps r' hr' with ⟨r, hr, hsamePfx⟩ | helsewhere
        · exact absurd (hsamePfx.trans hpfx) (hfree r hr)
        · exact helsewhere
      · exact .inl hx
    · rintro (hx | ⟨hx, _⟩)
      · exact .inr hx
      · exact .inl hx
  | @remove s s' latest p _ hvalid hroutes hcond hcall ih =>
    have hsame : (Windows.removeEndpointPolicy zones api p s).2 = s := by
      simp [Windows.removeEndpointPolicy, hvalid, hroutes, applyEach]
    cases hcall
    rw [hsame]
    refine ih.update (show OneRoute [] by simp [OneRoute]) (fun _ _ _ _ _ hr => by cases hr)
      fun x => ?_
    simpa using fun hx => ih.wantedElsewhere hx fun r' hr' _ => hcond r' hr'
  | restart _ hrestart ih =>
    cases hrestart
    exact ih

end Windows

-- === macOS ===

open Darwin (DarwinSystem DarwinState DatabaseRoute RouteDatabase)

/-- The route of the database is the host route. The system picks the interface of a
    route over a gateway. -/
def Shows (sys : DarwinSystem) (e : DatabaseRoute) (x : HostRoute) : Prop :=
  e.target = x.pfx ∧ isHostPrefix e.target = true ∧ match e.via with
    | .gateway hop => sys.egress hop = some x.ifIndex ∧ x.gateway = hop.toString
    | .interface name => sys.indexByName name = some x.ifIndex ∧ x.gateway = ""
    | .blackhole => False

def darwinHost (sys : DarwinSystem) (s : DarwinState) (x : HostRoute) : Prop :=
  ∃ e ∈ s.db, Shows sys e x

def darwinExecutor (sys : DarwinSystem) : EndpointExecutor DarwinState where
  Start := fun s => (∀ x, ¬ darwinHost sys s x) ∧ ∀ n, s.endpoint n = []
  Reconcile := fun p s s' => (Darwin.reconcileEndpointPolicy sys p s).2 = s'
  Remove := fun p s s' => (Darwin.removeEndpointPolicy p s).2 = s'
  Restart := fun s s' => s' = { s with endpoint := fun _ => [] }
  Host := darwinHost sys

def Remembered (s : DarwinState) (priority : Int) (pfx : Prefix) : Prop :=
  ∃ d ∈ s.endpoint priority, d.pfx = pfx

/-- The interface of the route has a name, and the system reaches the gateway over it. -/
def ReachedOver (sys : DarwinSystem) (r : EndpointRoute) : Prop :=
  (∃ name, sys.nameByIndex r.ifIndex = some name) ∧
    (r.gateway.isValid = true → sys.egress r.gateway = some r.ifIndex)

/-- There is a route at all, and a prefix that goes is one that the process remembers and
    that no other role wants. -/
def darwinConditions (sys : DarwinSystem) : CallConditions DarwinState where
  Reconcile := fun s latest p =>
    p.routes ≠ [] ∧ AgreesElsewhere latest p.priority p.routes ∧
    (∀ r ∈ p.routes, ReachedOver sys r) ∧
    ∀ r' ∈ latest p.priority, (∀ r ∈ p.routes, r.pfx ≠ r'.pfx) →
      (Remembered s p.priority r'.pfx ↔ ¬ WantedElsewhere latest p.priority r'.pfx)
  Remove := fun s latest p => ∀ r' ∈ latest p.priority,
    (Remembered s p.priority r'.pfx ↔ ¬ WantedElsewhere latest p.priority r'.pfx)

section Darwin

variable {sys : DarwinSystem} {s : DarwinState} {db : RouteDatabase} {e : DatabaseRoute}
  {latest : LatestPolicies} {p : EndpointPolicy} {r : EndpointRoute}

def databaseRoute (sys : DarwinSystem) (r : EndpointRoute) : DatabaseRoute :=
  ⟨r.pfx, if r.gateway.isValid then .gateway r.gateway
    else .interface ((sys.nameByIndex r.ifIndex).getD "")⟩

theorem shows_databaseRoute (hhost : isHostPrefix r.pfx = true) (hreached : ReachedOver sys r)
    {x : HostRoute} : Shows sys (databaseRoute sys r) x ↔ x = hostRouteOf r := by
  obtain ⟨⟨name, hname⟩, hegress⟩ := hreached
  obtain ⟨pfx, ifIndex, gateway⟩ := x
  cases hgateway : r.gateway.isValid with
  | true =>
    simp only [Shows, databaseRoute, hgateway, if_true, hhost, hegress hgateway, hostRouteOf,
      true_and, HostRoute.mk.injEq, Option.some.injEq]
    constructor
    · rintro ⟨rfl, rfl, rfl⟩
      exact ⟨rfl, rfl, rfl⟩
    · rintro ⟨rfl, rfl, rfl⟩
      exact ⟨rfl, rfl, rfl⟩
  | false =>
    simp only [Shows, databaseRoute, hgateway, Bool.false_eq_true, if_false, hhost, hname,
      Option.getD_some, sys.indexByName_name hname, hostRouteOf, true_and, HostRoute.mk.injEq,
      Option.some.injEq]
    constructor
    · rintro ⟨rfl, rfl, rfl⟩
      exact ⟨rfl, rfl, rfl⟩
    · rintro ⟨rfl, rfl, rfl⟩
      exact ⟨rfl, rfl, rfl⟩

theorem setRoute_ok (hhost : isHostPrefix r.pfx = true) (hindex : 0 < r.ifIndex)
    (hreached : ReachedOver sys r) (db : RouteDatabase) :
    ∃ db', Darwin.setRoute sys r db = .ok db' ∧
      ∀ e, e ∈ db' ↔ (e ∈ db ∧ e.target ≠ r.pfx) ∨ e = databaseRoute sys r := by
  obtain ⟨⟨name, hname⟩, _⟩ := hreached
  have hroute : (⟨r.pfx, if r.gateway.isValid then .gateway r.gateway else .interface name⟩ :
      DatabaseRoute) = databaseRoute sys r := by
    simp [databaseRoute, hname]
  simp only [Darwin.setRoute, hhost, not_le.mpr hindex, hname, Darwin.replaceRoute, hroute]
  by_cases hthere : db.any (fun e => e.target = r.pfx) = true
  · obtain ⟨old, hold, htarget⟩ := List.any_eq_true.mp hthere
    have htarget : old.target = r.pfx := of_decide_eq_true htarget
    refine ⟨db.map fun e => if e.target = r.pfx then databaseRoute sys r else e, ?_, fun e => ?_⟩
    · have hthere' : db.any (fun e => e.target = (databaseRoute sys r).target) = true := hthere
      simp only [RouteDatabase.change, hthere']
      rfl
    rw [List.mem_map]
    constructor
    · rintro ⟨e', he', rfl⟩
      split
      · exact .inr rfl
      · next hne => exact .inl ⟨he', hne⟩
    · rintro (⟨he, hne⟩ | rfl)
      · exact ⟨e, he, if_neg hne⟩
      · exact ⟨old, hold, if_pos htarget⟩
  · have hnone : ∀ e ∈ db, e.target ≠ r.pfx := fun e he htarget =>
      hthere (List.any_eq_true.mpr ⟨e, he, decide_eq_true htarget⟩)
    have hthere' : ¬ db.any (fun e => e.target = (databaseRoute sys r).target) = true := hthere
    refine ⟨db ++ [databaseRoute sys r], ?_, fun e => ?_⟩
    · simp only [RouteDatabase.change, RouteDatabase.add, hthere']
      rfl
    · rw [List.mem_append, List.mem_singleton]
      exact or_congr_left ⟨fun he => ⟨he, hnone e he⟩, And.left⟩

theorem setRoutes_ok {routes : List EndpointRoute} (hone : OneRoute routes)
    (hhost : ∀ r ∈ routes, isHostPrefix r.pfx = true ∧ 0 < r.ifIndex)
    (hreached : ∀ r ∈ routes, ReachedOver sys r) (db : RouteDatabase) :
    ∃ db', applyEach (Darwin.setRoute sys) routes db = (.ok (), db') ∧
      ∀ e, e ∈ db' ↔ (e ∈ db ∧ ∀ r ∈ routes, r.pfx ≠ e.target) ∨
        ∃ r ∈ routes, e = databaseRoute sys r := by
  induction routes generalizing db with
  | nil =>
    refine ⟨db, rfl, fun e => ?_⟩
    simp
  | cons r routes ih =>
    obtain ⟨⟨hpfx, hindex⟩, hhost'⟩ := List.forall_mem_cons.mp hhost
    obtain ⟨hr, hreached'⟩ := List.forall_mem_cons.mp hreached
    obtain ⟨db1, hset, hdb1⟩ := setRoute_ok hpfx hindex hr db
    obtain ⟨db2, hrest, hdb2⟩ := ih hone.tail hhost' hreached' db1
    refine ⟨db2, (applyEach_cons db1 hset).trans hrest, fun e => ?_⟩
    rw [hdb2, hdb1]
    constructor
    · rintro (⟨⟨he, hne⟩ | rfl, hfree⟩ | ⟨r', hr', rfl⟩)
      · exact .inl ⟨he, List.forall_mem_cons.mpr ⟨Ne.symm hne, hfree⟩⟩
      · exact .inr ⟨r, List.mem_cons_self, rfl⟩
      · exact .inr ⟨r', List.mem_cons_of_mem _ hr', rfl⟩
    rintro (⟨he, hfree⟩ | ⟨r', hr', rfl⟩)
    · obtain ⟨hne, hfree⟩ := List.forall_mem_cons.mp hfree
      exact .inl ⟨.inl ⟨he, Ne.symm hne⟩, hfree⟩
    rcases List.mem_cons.mp hr' with rfl | hmem
    · exact hone.head.elim (fun hmem => .inr ⟨r', hmem, rfl⟩) fun hfree =>
        .inl ⟨.inr rfl, hfree⟩
    · exact .inr ⟨r', hmem, rfl⟩

/-- The loop that deletes routes: each of them is there, and no target comes twice. -/
theorem deleteRoutes_ok {dropped : List EndpointRoute}
    (hnodup : dropped.Pairwise fun a b => a.pfx ≠ b.pfx) (db : RouteDatabase)
    (hthere : ∀ d ∈ dropped, ∃ e ∈ db, e.target = d.pfx) :
    ∃ db', applyEach (fun d => Darwin.deleteRoute d.pfx) dropped db = (.ok (), db') ∧
      ∀ e, e ∈ db' ↔ e ∈ db ∧ ∀ d ∈ dropped, d.pfx ≠ e.target := by
  induction dropped generalizing db with
  | nil =>
    refine ⟨db, rfl, fun e => ?_⟩
    simp
  | cons d dropped ih =>
    obtain ⟨hd, hnodup'⟩ := List.pairwise_cons.mp hnodup
    obtain ⟨⟨e0, he0, htarget⟩, hthere'⟩ := List.forall_mem_cons.mp hthere
    have hany : db.any (fun e => e.target = d.pfx) = true :=
      List.any_eq_true.mpr ⟨e0, he0, decide_eq_true htarget⟩
    have hdelete : Darwin.deleteRoute d.pfx db = .ok (db.filter fun e => e.target ≠ d.pfx) := by
      simp only [Darwin.deleteRoute, RouteDatabase.delete, hany]
      rfl
    have hmem : ∀ e, e ∈ db.filter (fun e => decide (e.target ≠ d.pfx)) ↔
        e ∈ db ∧ d.pfx ≠ e.target := by
      intro e
      rw [List.mem_filter, decide_eq_true_eq, ne_comm]
    obtain ⟨db2, hrest, hdb2⟩ := ih hnodup' (db.filter fun e => e.target ≠ d.pfx) (by
      intro d' hd'
      obtain ⟨e, he, htarget'⟩ := hthere' d' hd'
      exact ⟨e, (hmem e).mpr ⟨he, htarget' ▸ hd d' hd'⟩, htarget'⟩)
    refine ⟨db2, Eq.trans (applyEach_cons _ (by exact hdelete)) hrest, fun e => ?_⟩
    rw [hdb2, hmem, List.forall_mem_cons, and_assoc]

/-- The map of the desired routes has routes of the policy, each prefix once. -/
theorem desiredRoutes_spec (routes : List EndpointRoute) :
    (∀ r ∈ Darwin.desiredRoutes routes, r ∈ routes) ∧
      (Darwin.desiredRoutes routes).Pairwise fun a b => a.pfx ≠ b.pfx := by
  refine List.foldlRecOn routes _ (b := []) (motive := fun desired : List EndpointRoute =>
    (∀ r ∈ desired, r ∈ routes) ∧ desired.Pairwise fun a b => a.pfx ≠ b.pfx) (by simp)
    fun desired hinv r hr => ⟨?_, ?_⟩
  · intro a ha
    rcases List.mem_append.mp ha with ha | ha
    · exact hinv.1 a (List.mem_of_mem_filter ha)
    · exact List.mem_singleton.mp ha ▸ hr
  refine List.pairwise_append.mpr ⟨hinv.2.filter _, List.pairwise_singleton _ _, ?_⟩
  intro a ha b hb
  rw [List.mem_singleton.mp hb]
  simpa using (List.mem_filter.mp ha).2

/-- The memory has prefixes of the latest policies, each once, and the routes are
    exact. -/
structure DarwinOk (sys : DarwinSystem) (s : DarwinState) (latest : LatestPolicies) : Prop where
  remembered : ∀ n pfx, Remembered s n pfx → ∃ r ∈ latest n, r.pfx = pfx
  once : ∀ n, (s.endpoint n).Pairwise fun a b => a.pfx ≠ b.pfx
  exact : ExactRoutes (darwinHost sys s) latest

variable (hok : DarwinOk sys s latest)

include hok

theorem DarwinOk.there {n : Int} {pfx : Prefix} (h : Remembered s n pfx) : ∃ e ∈ s.db, e.target =
    pfx := by
  obtain ⟨r, hr, rfl⟩ := hok.remembered n pfx h
  obtain ⟨e, he, htarget, _⟩ := hok.exact.host_of_mem hr
  exact ⟨e, he, htarget⟩

theorem DarwinOk.kept_iff {n : Int} {x : HostRoute}
    (hx : darwinHost sys s x) (hcond : ∀ r' ∈ latest n, r'.pfx = x.pfx →
      (Remembered s n r'.pfx ↔ ¬ WantedElsewhere latest n r'.pfx)) :
    (∀ d ∈ s.endpoint n, d.pfx ≠ x.pfx) ↔ WantedElsewhere latest n x.pfx := by
  have hnot : (∀ d ∈ s.endpoint n, d.pfx ≠ x.pfx) ↔ ¬ Remembered s n x.pfx := by
    simp [Remembered]
  rw [hnot]
  by_cases hown : ∃ r' ∈ latest n, r'.pfx = x.pfx
  · obtain ⟨r', hr', hpfx⟩ := hown
    rw [← hpfx, hcond r' hr' hpfx, not_not]
  · obtain ⟨m, r, hr, hpfx⟩ := hok.exact.only x hx
    have hm : m ≠ n := fun heq => hown ⟨r, heq ▸ hr, hpfx⟩
    exact iff_of_true (fun h => hown (hok.remembered n _ h)) ⟨m, hm, r, hr, hpfx⟩

/-- A call that sets the routes of a role and deletes, of those it remembers, what the role
    wants no more. -/
theorem DarwinOk.update {n : Int} (routes : List EndpointRoute) (hone : OneRoute routes)
    (hhost : ∀ r ∈ routes, isHostPrefix r.pfx = true) (hreached : ∀ r ∈ routes, ReachedOver sys r)
    (hagrees : AgreesElsewhere latest n routes)
    (hdropped : ∀ r' ∈ latest n, (∀ r ∈ routes, r.pfx ≠ r'.pfx) →
      (Remembered s n r'.pfx ↔ ¬ WantedElsewhere latest n r'.pfx))
    (hdb : ∀ e, e ∈ db ↔ ((e ∈ s.db ∧ ∀ r ∈ routes, r.pfx ≠ e.target) ∨
        ∃ r ∈ routes, e = databaseRoute sys r) ∧
      ∀ d ∈ s.endpoint n, (∀ r ∈ routes, r.pfx ≠ d.pfx) → d.pfx ≠ e.target) :
    DarwinOk sys ⟨db, fun m => if m = n then Darwin.desiredRoutes routes else s.endpoint m⟩
      (latest.set n routes) := by
  obtain ⟨hsub, hpair⟩ := desiredRoutes_spec routes
  refine ⟨fun m pfx hmem => ?_, fun m => ?_, hok.exact.update hone hagrees fun x => ?_⟩
  · by_cases hm : m = n
    · obtain ⟨d, hd, rfl⟩ := hmem
      simp only [hm, if_true] at hd
      exact ⟨d, by rw [hm, set_self]; exact hsub d hd, rfl⟩
    · rw [set_of_ne hm]
      simp only [Remembered, hm, if_false] at hmem
      exact hok.remembered m pfx hmem
  · dsimp only
    split
    · exact hpair
    · exact hok.once m
  · have hshows : (∃ e ∈ db, Shows sys e x) ↔ (∃ r ∈ routes, x = hostRouteOf r) ∨
        darwinHost sys s x ∧ (∀ r ∈ routes, r.pfx ≠ x.pfx) ∧
          ∀ d ∈ s.endpoint n, d.pfx ≠ x.pfx := by
      constructor
      · rintro ⟨e, he, hshows⟩
        rcases (hdb e).mp he with ⟨⟨hold, hfree⟩ | ⟨r, hr, rfl⟩, hkept⟩
        · rw [hshows.1] at hfree hkept
          exact .inr ⟨⟨e, hold, hshows⟩, hfree, fun d hd hpfx => hkept d hd (hpfx ▸ hfree) hpfx⟩
        · exact .inl ⟨r, hr, (shows_databaseRoute (hhost r hr) (hreached r hr)).mp hshows⟩
      · rintro (⟨r, hr, rfl⟩ | ⟨⟨e, hold, hshows⟩, hfree, hkept⟩)
        · exact ⟨databaseRoute sys r, (hdb _).mpr ⟨.inr ⟨r, hr, rfl⟩,
            fun d _ hfree hpfx => hfree r hr hpfx.symm⟩,
            (shows_databaseRoute (hhost r hr) (hreached r hr)).mpr rfl⟩
        · rw [← hshows.1] at hfree hkept
          exact ⟨e, (hdb e).mpr ⟨.inl ⟨hold, hfree⟩, fun d hd _ => hkept d hd⟩, hshows⟩
    refine hshows.trans (or_congr_right (and_congr_right fun hx => and_congr_right fun hfree => ?_))
    exact hok.kept_iff hx fun r' hr' hpfx => hdropped r' hr' (hpfx ▸ hfree)

theorem DarwinOk.reconcile (hbuilt : Built p)
    (hcond : (darwinConditions sys).Reconcile s latest p) :
    DarwinOk sys (Darwin.reconcileEndpointPolicy sys p s).2 (latest.set p.priority p.routes) := by
  obtain ⟨hsome, hagrees, hreached, hdropped⟩ := hcond
  obtain ⟨db1, hset, hdb1⟩ := setRoutes_ok hbuilt.oneRoute
    (fun r hr => ⟨(hbuilt.host hr).1, (hbuilt.host hr).2.1⟩) hreached s.db
  have hfiltered : ∀ d, d ∈ (s.endpoint p.priority).filter (fun d =>
      decide (∀ route ∈ p.routes, route.pfx ≠ d.pfx)) ↔
      d ∈ s.endpoint p.priority ∧ ∀ r ∈ p.routes, r.pfx ≠ d.pfx := fun d => by
    rw [List.mem_filter, decide_eq_true_eq]
  obtain ⟨db2, hdelete, hdb2⟩ := deleteRoutes_ok ((hok.once p.priority).filter
    fun d : EndpointRoute => decide (∀ route ∈ p.routes, route.pfx ≠ d.pfx)) db1 (by
      intro d hd
      obtain ⟨hmem, hfree⟩ := (hfiltered d).mp hd
      obtain ⟨e, he, htarget⟩ := hok.there ⟨d, hmem, rfl⟩
      exact ⟨e, (hdb1 e).mpr (.inl ⟨he, htarget ▸ hfree⟩), htarget⟩)
  have hguard : (!p.valid || p.routes.isEmpty) = false := by
    rw [hbuilt.1]
    simpa using hsome
  simp only [Darwin.reconcileEndpointPolicy, hguard, Bool.false_eq_true, if_false, hset, hdelete]
  refine hok.update p.routes hbuilt.oneRoute (fun r hr => (hbuilt.host hr).1) hreached hagrees
    hdropped fun e => ?_
  rw [hdb2, hdb1]
  simp only [hfiltered, and_imp]

theorem DarwinOk.remove (hvalid : p.valid = true)
    (hcond : (darwinConditions sys).Remove s latest p) :
    DarwinOk sys (Darwin.removeEndpointPolicy p s).2 (latest.set p.priority []) := by
  obtain ⟨db', hdelete, hdb'⟩ := deleteRoutes_ok (hok.once p.priority) s.db
    fun d hd => hok.there ⟨d, hd, rfl⟩
  simp only [Darwin.removeEndpointPolicy, hvalid, Bool.not_true, Bool.false_eq_true, if_false,
    hdelete]
  refine hok.update [] nofun nofun nofun (fun _ _ _ _ => nofun) (fun r' hr' _ => hcond r' hr')
    fun e => ?_
  simpa using hdb' e

omit hok

theorem PolicyRun.darwinOk
    (hrun : PolicyRun (darwinExecutor sys) (darwinConditions sys) s latest) :
    DarwinOk sys s latest := by
  induction hrun with
  | start hstart =>
    refine ⟨fun n pfx ⟨d, hd, _⟩ => ?_, fun n => ?_, exactRoutes_none hstart.1⟩
    · rw [hstart.2 n] at hd
      exact absurd hd List.not_mem_nil
    · rw [hstart.2 n]
      exact List.Pairwise.nil
  | reconcile _ hbuilt hcond hcall ih =>
    cases hcall
    exact ih.reconcile hbuilt hcond
  | remove _ hvalid _ hcond hcall ih =>
    cases hcall
    exact ih.remove hvalid hcond
  | restart _ hrestart ih =>
    cases hrestart
    exact ⟨nofun, fun n => List.Pairwise.nil, ih.exact⟩

end Darwin

/-- In every history whose calls meet the conditions of the platform, the host routes
    are those of the latest policies; so the three platforms have the same. -/
theorem endpoint_routes_exact (describe : Prefix → String → RouteRow) (h : HostState)
    (zones : Windows.Zones) (api : Windows.RouteApi) (table : List Windows.ForwardRow)
    (sys : DarwinSystem) (s : DarwinState) (latest : LatestPolicies) :
    (PolicyRun (linuxExecutor describe) linuxConditions h latest →
      ExactRoutes (linuxHost h) latest) ∧
    (PolicyRun (windowsExecutor zones api) (windowsConditions zones) table latest →
      ExactRoutes (windowsHost table) latest) ∧
    (PolicyRun (darwinExecutor sys) (darwinConditions sys) s latest →
      ExactRoutes (darwinHost sys s) latest) ∧
    (PolicyRun (linuxExecutor describe) linuxConditions h latest →
      PolicyRun (windowsExecutor zones api) (windowsConditions zones) table latest →
      PolicyRun (darwinExecutor sys) (darwinConditions sys) s latest →
      ∀ x, (linuxHost h x ↔ windowsHost table x) ∧ (linuxHost h x ↔ darwinHost sys s x)) := by
  refine ⟨fun hrun => hrun.linuxOk.exact, fun hrun => hrun.windowsExact,
    fun hrun => hrun.darwinOk.exact, ?_⟩
  intro hlinux hwindows hdarwin x
  rw [hlinux.linuxOk.exact.host_iff, hwindows.windowsExact.host_iff,
    hdarwin.darwinOk.exact.host_iff]
  exact ⟨Iff.rfl, Iff.rfl⟩

-- === Samples ===

def anyCall (σ : Type) : CallConditions σ := ⟨fun _ _ _ => True, fun _ _ _ => True⟩

def pathDriver (gateway : Addr) : RecoveryDriver where
  authority := { zoneRoles := fun _ => [], managedSelected := fun _ => false,
                 authorityReady := true }
  roles := fun _ => none
  underlay := { ipv4 := some ⟨4, 2, "eth0", gateway, .zero, 1500, 254, 0⟩ }

def onePolicy (role : String) (priority : Int) (host : BitVec 32) (gateway : BitVec 32) :
    EndpointPolicy where
  role := role
  zone := role
  priority := priority
  routes := [⟨⟨.v4 host, 32⟩, .v4 gateway, 2, 1⟩]

variable {priority : Int}

theorem onePolicy_built {role : String} {host gateway : BitVec 32}
    (hvalid : (onePolicy role priority host gateway).valid = true) :
    Built (onePolicy role priority host gateway) :=
  ⟨hvalid, pathDriver (.v4 gateway), [(.v4 host, 443)],
    fun a ha => by rw [List.mem_singleton.mp ha]; rfl, rfl⟩

def firstRoute : EndpointRoute := ⟨⟨.v4 0xc0000201#32, 32⟩, .v4 0x0a000001#32, 2, 1⟩

def firstPolicy : EndpointPolicy := onePolicy "work" 60 0xc0000201#32 0x0a000001#32

def secondPolicy : EndpointPolicy := onePolicy "work" 60 0xc0000202#32 0x0a000001#32

def otherPolicy : EndpointPolicy := onePolicy "home" 61 0xc0000201#32 0x0a000002#32

def oneInterface : DarwinSystem where
  nameByIndex := fun index => if index = 2 then some "en0" else none
  indexByName := fun name => if name = "en0" then some 2 else none
  egress := fun _ => some 2
  indexByName_name := by
    intro index name h
    split at h
    · cases h
      simp [*]
    · cases h

theorem not_exact_of_unwanted {host : HostRoute → Prop} {latest : LatestPolicies} {x : HostRoute}
    (hx : host x) (hlatest : ∀ n, ∀ r ∈ latest n, r.pfx ≠ x.pfx) : ¬ ExactRoutes host latest := by
  intro h
  obtain ⟨n, r, hr, hpfx⟩ := h.only x hx
  exact hlatest n r hr hpfx

theorem lists_tables (describe : Prefix → String → RouteRow) {h : HostState}
    (hmain : h.main = fun _ => []) : h.Lists describe { routes := h.tables, rules := h.rules } := by
  refine ⟨⟨[], .refl _, fun row => iff_of_false List.not_mem_nil ?_⟩, rfl⟩
  rintro ⟨pfx, r, hr, _⟩
  rw [hmain] at hr
  exact absurd hr List.not_mem_nil

theorem exists_completedCall {describe : Prefix → String → RouteRow} {h : HostState}
    (hok : EndpointTableOk h) (hmain : h.main = fun _ => []) {p : EndpointPolicy} {remove : Bool}
    (hmetric : ∀ r ∈ p.routes, r.metric = 1)
    (hplan : ∀ ks, ∃ ops, endpointPolicyPlan ks p remove = .ok ops) :
    ∃ h', CompletedCall describe p remove h h' ∧ h'.main = fun _ => [] := by
  obtain ⟨ops, hplan⟩ := hplan { routes := h.tables, rules := h.rules }
  have hl := lists_tables describe hmain
  obtain ⟨h', hh'⟩ := hok.completes hl hmetric hplan
  exact ⟨h', ⟨_, ops, hl, hplan, hh'⟩,
    (performAll_outside (plan_on_endpointTable hplan) hh').1.trans hmain⟩

theorem completedCall_onePolicy {describe : Prefix → String → RouteRow} {h : HostState}
    (hok : EndpointTableOk h) (hmain : h.main = fun _ => []) {role : String}
    {host gateway : BitVec 32} (hvalid : (onePolicy role priority host gateway).valid = true) :
    ∃ h', CompletedCall describe (onePolicy role priority host gateway) false h h' ∧
      h'.main = fun _ => [] := by
  refine exists_completedCall hok hmain (fun r hr => ((onePolicy_built hvalid).host hr).2.2)
    fun ks => ?_
  have hdesired : (onePolicy role priority host gateway).desired =
      .ok [endpointRowOf ⟨⟨.v4 host, 32⟩, .v4 gateway, 2, 1⟩] := rfl
  simp [endpointPolicyPlan, hvalid, hdesired, Except.map]

theorem exists_firstCall : ∃ h, CompletedCall sampleDescribe firstPolicy false {} h ∧
    h.main = fun _ => [] :=
  completedCall_onePolicy (LinuxOk.start rfl rfl).table rfl (by decide)

section

variable {describe : Prefix → String → RouteRow} {zones : Zones} {api : RouteApi}
  {sys : DarwinSystem}

theorem linux_start (c : CallConditions HostState) :
    PolicyRun (linuxExecutor describe) c {} fun _ => [] := .start ⟨rfl, rfl⟩

theorem windows_start (c : CallConditions (List ForwardRow)) :
    PolicyRun (windowsExecutor zones api) c [] fun _ => [] :=
  .start nofun

theorem darwin_start (c : CallConditions DarwinState) :
    PolicyRun (darwinExecutor sys) c {} fun _ => [] :=
  .start ⟨nofun, fun _ => rfl⟩

end

theorem mem_set_set {n : Int} {routes routes' : List EndpointRoute} {r : EndpointRoute}
    (h : r ∈ (LatestPolicies.set (LatestPolicies.set (fun _ => []) priority routes) priority
      routes') n) : r ∈ routes' := by
  by_cases hn : n = priority
  · rwa [hn, set_self] at h
  · rw [set_of_ne hn, set_of_ne hn] at h
    exact absurd h List.not_mem_nil

/-- On Windows the route of an earlier policy stays; on macOS the route of a removed
    role stays after a restart; on Linux a role loses its route to another role that wants
    the prefix over another gateway. -/
theorem endpoint_routes_differ :
    (∃ table latest, PolicyRun (windowsExecutor Windows.noZones Windows.sampleApi) (anyCall _)
      table latest ∧ ¬ ExactRoutes (windowsHost table) latest) ∧
    (∃ s latest, PolicyRun (darwinExecutor oneInterface) (anyCall _) s latest ∧
      ¬ ExactRoutes (darwinHost oneInterface s) latest) ∧
    ∃ h latest, PolicyRun (linuxExecutor sampleDescribe) (anyCall _) h latest ∧
      ¬ ExactRoutes (linuxHost h) latest := by
  have hfirst : Built firstPolicy := onePolicy_built (by decide)
  have hsecond : Built secondPolicy := onePolicy_built (by decide)
  have hother : Built otherPolicy := onePolicy_built (by decide)
  refine ⟨?_, ?_, ?_⟩
  · have hstart : PolicyRun (windowsExecutor Windows.noZones Windows.sampleApi) (anyCall _) []
      fun _ => [] := windows_start _
    have hrun := (hstart.reconcile hfirst trivial rfl).reconcile hsecond trivial rfl
    refine ⟨_, _, hrun, not_exact_of_unwanted (x := hostRouteOf firstRoute)
      ⟨windowsRow Windows.noZones Windows.sampleApi firstRoute, by decide +kernel,
        endpointRow_windowsRow (by decide), by decide +kernel⟩ fun n r hr => ?_⟩
    rw [List.mem_singleton.mp (mem_set_set hr)]
    decide
  · have hstart : PolicyRun (darwinExecutor oneInterface) (anyCall _) {} fun _ => [] :=
      darwin_start _
    have hvalid : ({ firstPolicy with routes := [] } : EndpointPolicy).valid = true := by decide
    have hrun := ((hstart.reconcile hfirst trivial rfl).restart rfl).remove hvalid rfl trivial rfl
    refine ⟨_, _, hrun, not_exact_of_unwanted (x := hostRouteOf firstRoute)
      ⟨⟨firstRoute.pfx, .gateway firstRoute.gateway⟩, by decide +kernel, rfl, by decide, rfl, rfl⟩
      fun n r hr => ?_⟩
    exact absurd (mem_set_set hr) List.not_mem_nil
  · obtain ⟨h₁, hcall₁, hmain₁⟩ := exists_firstCall
    have hok₁ := (LinuxOk.start rfl rfl).reconcile hfirst
      (fun _ _ => List.forall_mem_nil _) hcall₁
    obtain ⟨h₂, hcall₂, _⟩ : ∃ h, CompletedCall sampleDescribe otherPolicy false h₁ h ∧
      h.main = fun _ => [] := completedCall_onePolicy hok₁.table hmain₁ (by decide)
    refine ⟨h₂, _, ((linux_start _).reconcile hfirst trivial hcall₁).reconcile hother
      trivial hcall₂, fun hexact => ?_⟩
    obtain ⟨row, hrow, hhost, hpfx, _, hgateway⟩ :=
      hexact.host_of_mem (n := 60) (r := firstRoute) (by decide)
    have hreconciled := hok₁.table.reconciled (fun r hr => (hother.host hr).2.2) hcall₂
    have hwants : otherPolicy.Wants (endpointRowOf
        { firstRoute with gateway := .v4 0x0a000002#32 }) :=
      hother.wants_iff.mpr ⟨_, List.mem_singleton_self _, rfl⟩
    rw [(hreconciled.exact _ hwants).2 row hrow hhost hpfx] at hgateway
    exact absurd hgateway (by decide +kernel)

def sharedPolicy : EndpointPolicy := onePolicy "home" 61 0xc0000201#32 0x0a000001#32

def sharedRemoval : EndpointPolicy := { sharedPolicy with routes := [] }

theorem eq_of_mem_set {latest : LatestPolicies} {routes : List EndpointRoute} {n : Int}
    {r : EndpointRoute} (hlatest : ∀ n, ∀ r ∈ latest n, r = firstRoute)
    (hroutes : ∀ r ∈ routes, r = firstRoute) (hr : r ∈ latest.set priority routes n) :
    r = firstRoute := by
  by_cases hn : n = priority
  · rw [hn, set_self] at hr
    exact hroutes r hr
  · rw [set_of_ne hn] at hr
    exact hlatest n r hr

/-- Two roles want one route, the core is restarted, and one of the roles is removed: the
    route stays on the three platforms. -/
theorem endpoint_routes_exact_sample : ∃ h table s latest,
    latest 60 = [firstRoute] ∧ latest 61 = [] ∧ linuxHost h (hostRouteOf firstRoute) ∧
      ExactRoutes (linuxHost h) latest ∧ ExactRoutes (windowsHost table) latest ∧
      ExactRoutes (darwinHost oneInterface s) latest := by
  have hfirst : Built firstPolicy := onePolicy_built (by decide)
  have hshared : Built sharedPolicy := onePolicy_built (by decide)
  have hsame : ∀ r ∈ [firstRoute], r = firstRoute := fun r hr => List.mem_singleton.mp hr
  let latest₁ : LatestPolicies := LatestPolicies.set (fun _ => []) 60 [firstRoute]
  let latest₂ : LatestPolicies := latest₁.set 61 [firstRoute]
  have hlatest : ∀ n, ∀ r ∈ latest₁ n, r = firstRoute := fun n r hr =>
    eq_of_mem_set (fun _ => List.forall_mem_nil _) hsame hr
  have hagrees : ∀ n, ∀ r' ∈ latest₁ n, ∀ r ∈ sharedPolicy.routes, r.pfx = r'.pfx →
      hostRouteOf r = hostRouteOf r' := fun n r' hr' r hr _ => by
    rw [hlatest n r' hr', hsame r hr]
  have hkept : ∀ r' ∈ latest₂ 61, WantedElsewhere latest₂ 61 r'.pfx := fun r' hr' =>
    ⟨60, by decide, firstRoute, by decide, by rw [eq_of_mem_set hlatest hsame hr']⟩
  have hreached : ∀ r ∈ [firstRoute], ReachedOver oneInterface r := fun r hr => by
    rw [hsame r hr]
    exact ⟨⟨"en0", rfl⟩, fun _ => rfl⟩
  -- the three calls on Linux
  obtain ⟨h₁, hcall₁, hmain₁⟩ := exists_firstCall
  have hrun₁ : PolicyRun (linuxExecutor sampleDescribe) linuxConditions h₁ latest₁ :=
    (linux_start _).reconcile hfirst (fun _ _ => List.forall_mem_nil _) hcall₁
  obtain ⟨h₂, hcall₂, hmain₂⟩ : ∃ h, CompletedCall sampleDescribe sharedPolicy false h₁ h ∧
    h.main = fun _ => [] := completedCall_onePolicy hrun₁.linuxOk.table hmain₁ (by decide)
  have hrun₂ := (hrun₁.reconcile hshared (fun n _ => hagrees n) hcall₂).restart rfl
  obtain ⟨h₃, hcall₃, _⟩ : ∃ h, CompletedCall sampleDescribe sharedRemoval true h₂ h ∧
    h.main = fun _ => [] := exists_completedCall hrun₂.linuxOk.table hmain₂
      (List.forall_mem_nil _) fun ks => by
      simp [endpointPolicyPlan, show sharedRemoval.valid = true by decide]
  obtain ⟨hlinux, hwindows, hdarwin, _⟩ := endpoint_routes_exact sampleDescribe h₃ Windows.noZones
    Windows.sampleApi _ oneInterface _ (latest₂.set 61 [])
  have hexact := hlinux (hrun₂.remove (by decide) rfl trivial hcall₃)
  -- and on the other platforms
  have hwin : PolicyRun (windowsExecutor Windows.noZones Windows.sampleApi)
    (windowsConditions Windows.noZones) [] fun _ => [] := windows_start _
  have hwin := (hwin.reconcile hfirst ⟨fun _ => List.forall_mem_nil _,
    List.forall_mem_nil _, by decide⟩ rfl).reconcile hshared
    ⟨hagrees, List.forall_mem_nil _, by decide⟩ rfl
  have hmac : PolicyRun (darwinExecutor oneInterface) (darwinConditions oneInterface) {}
    fun _ => [] := darwin_start _
  have hmac := (hmac.reconcile hfirst ⟨by decide, fun _ _ => List.forall_mem_nil _,
    hreached, List.forall_mem_nil _⟩ rfl).reconcile hshared
    ⟨by decide, fun n _ => hagrees n, hreached, List.forall_mem_nil _⟩ rfl
  refine ⟨h₃, _, _, _, by decide, by decide, hexact.host_of_mem (n := 60) (by decide), hexact,
    hwindows ((hwin.restart rfl).remove (p := sharedRemoval) (by decide) rfl hkept rfl),
    hdarwin ((hmac.restart rfl).remove (p := sharedRemoval) (by decide) rfl (fun r' hr' => ?_)
      rfl)⟩
  -- the restart has emptied the memory, and the other role wants the prefix
  exact iff_of_false (fun h => h.elim fun _ hd => absurd hd.1 List.not_mem_nil)
    (not_not.mpr (hkept r' hr'))

end Kikimora.Control

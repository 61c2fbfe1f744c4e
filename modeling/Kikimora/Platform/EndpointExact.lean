import Kikimora.Platform.EndpointTable

/-!
# Completed calls for endpoint policies

What the table of the endpoint policies holds once a call has performed its whole
plan, whatever calls were cut off before.
-/

namespace Kikimora.Platform

open Net Routing
open HostState

-- === Completed calls ===

/-- What a completed call leaves of the table: the rules of other roles as they were,
    a host route for every rule, and no host route without a rule. -/
structure Settled (p : EndpointPolicy) (h h' : HostState) : Prop where
  others : ∀ rule, rule.table ≠ endpointTable ∨ rule.priority ≠ p.priority →
    (rule ∈ h'.rules ↔ rule ∈ h.rules)
  once : ∀ rule, rule.table = endpointTable → h'.rules.count rule ≤ 1
  routed : ∀ rule ∈ h'.rules, rule.table = endpointTable →
    ∃ row ∈ h'.tables, row.endpointHost = true ∧ row.pfx = rule.pfx
  needed : ∀ row ∈ h'.tables, row.endpointHost = true →
    ∃ rule ∈ h'.rules, rule.table = endpointTable ∧ rule.pfx = row.pfx

/-- After a reconcile the rules of the policy are those of its prefixes, each with its
    route, and there is nothing left to do. -/
structure Reconciled (describe : Prefix → String → RouteRow) (p : EndpointPolicy)
    (h h' : HostState) : Prop extends Settled p h h' where
  own : ∀ rule, rule.table = endpointTable → rule.priority = p.priority →
    (rule ∈ h'.rules ↔ ∃ row, p.Wants row ∧ rule = p.ruleFor row)
  exact : ∀ row, p.Wants row → row ∈ h'.tables ∧
    ∀ r ∈ h'.tables, r.endpointHost = true → r.pfx = row.pfx → r = row
  again : ∀ ks, h'.Lists describe ks → endpointPolicyPlan ks p false = .ok []

/-- After a removal the policy has no rules, and the last one leaves the table empty. -/
structure Removed (p : EndpointPolicy) (h h' : HostState) : Prop extends Settled p h h' where
  none : ∀ rule, rule.table = endpointTable → rule.priority = p.priority → rule ∉ h'.rules
  empty : h'.endpointRules = [] → h'.endpointRows = []

section Completed

variable {describe : Prefix → String → RouteRow} {h h' : HostState} {ks : KernelState}
  {ops : List Operation} {p : EndpointPolicy} {row : RouteRow}

theorem performAll_deleteRules_of_subperm (describe : Prefix → String → RouteRow)
    {rules : List PolicyRule} (hrules : rules.Subperm h.rules) :
    ∃ h', performAll describe (rules.map .deleteRule) h = some h' := by
  induction rules generalizing h with
  | nil => exact ⟨h, rfl⟩
  | cons rule rules ih =>
    have hmem : rule ∈ h.rules := hrules.subset List.mem_cons_self
    simp only [List.map_cons, performAll, perform, if_pos hmem,
      Option.bind_some]
    exact ih (List.erase_cons_head rule rules ▸ hrules.erase rule)

theorem performAll_deleteRoutes_of_subperm (describe : Prefix → String → RouteRow)
    {rows : List RouteRow} (hrows : rows.Subperm h.tables) :
    ∃ h', performAll describe (rows.map .deleteRoute) h = some h' := by
  induction rows generalizing h with
  | nil => exact ⟨h, rfl⟩
  | cons row rows ih =>
    have hmem : row ∈ h.tables := hrows.subset List.mem_cons_self
    simp only [List.map_cons, performAll, perform, if_pos hmem,
      Option.bind_some]
    exact ih (List.erase_cons_head row rows ▸ hrows.erase row)

theorem EndpointTableOk.nodup_staleRules (hok : EndpointTableOk h) (hl : h.Lists describe ks)
    (desired : List RouteRow) : (p.staleRules ks desired).Nodup := by
  refine List.nodup_iff_count_le_one.mpr fun rule => ?_
  by_cases hmem : rule ∈ p.staleRules ks desired
  · have htable := (mem_staleRules.mp hmem).2.1.1
    refine (List.filter_sublist.count_le rule).trans ?_
    rw [hl.rules]
    exact hok.onceRule rule htable
  · rw [List.count_eq_zero.mpr hmem]
    exact Nat.zero_le 1

theorem EndpointTableOk.nodup_filter (hok : EndpointTableOk h) (hl : h.Lists describe ks)
    {P : RouteRow → Bool} (hP : ∀ row, P row = true → row.table = endpointTable) :
    (ks.routes.filter P).Nodup := by
  have hmain : ∀ row, P row = true → row.table ≠ managedSelectedRouteTable := fun row hrow heq =>
    absurd ((hP row hrow).symm.trans heq) (by decide)
  refine List.nodup_iff_count_le_one.mpr fun row => ?_
  rw [hl.count_filter hmain]
  split
  · next hrow => exact hok.onceRow row (hP row hrow)
  · exact Nat.zero_le 1

theorem reconcile_parts (hplan : endpointPolicyPlan ks p false = .ok ops)
    (hops : performAll describe ops h = some h') :
    ∃ desired h1 h2, p.desired = .ok desired ∧
      performAll describe (p.missing ks desired) h = some h1 ∧
      performAll describe ((p.staleRules ks desired).map .deleteRule) h1 = some h2 ∧
      performAll describe ((p.staleRoutes ks desired).map .deleteRoute) h2 = some h' := by
  obtain ⟨desired, hdesired, rfl⟩ := plan_reconcile hplan
  rw [performAll_append] at hops
  obtain ⟨h2, hh2, hh'⟩ := Option.bind_eq_some_iff.mp hops
  rw [performAll_append] at hh2
  obtain ⟨h1, hh1, hh2⟩ := Option.bind_eq_some_iff.mp hh2
  exact ⟨desired, h1, h2, hdesired, hh1, hh2, hh'⟩

theorem EndpointTableOk.mem_reconcile (hok : EndpointTableOk h) (hl : h.Lists describe ks)
    (hmetric : ∀ route ∈ p.routes, route.metric = 1)
    (hplan : endpointPolicyPlan ks p false = .ok ops)
    (hops : performAll describe ops h = some h') :
    (∀ rule, rule ∈ h'.rules ↔ (rule ∈ h.rules ∧ ¬ p.OwnRule rule) ∨
      ∃ row, p.Wants row ∧ rule = p.ruleFor row) ∧
    ∀ row, row.table = endpointTable → (row ∈ h'.tables ↔ row ∈ sentinels ∨ p.Wants row ∨
      row ∈ h.tables ∧ row.HostRoute ∧ (∀ r, p.Wants r → r.pfx ≠ row.pfx) ∧
        p.WantedByOther h.rules row.pfx) := by
  obtain ⟨desired, h1, h2, hdesired, hh1, hh2, hh'⟩ := reconcile_parts hplan hops
  have hwants : ∀ row, row ∈ desired ↔ p.Wants row := fun row =>
    EndpointPolicy.mem_desired_iff hdesired
  obtain ⟨hhost, hone⟩ := EndpointPolicy.hostRoutes_desired hdesired hmetric
  have hok1 := hok.cutAt (orderlyAll_missing (p := p) hok hl hhost) (.of_performAll hh1)
  have hok2 := hok1.cutAt (orderlyAll_deleteRules _ h1) (.of_performAll hh2)
  have hrules := hok.mem_rules_left hl hok1 hhost (mem_rules_missing hl hh1) hh2
  constructor
  · intro rule
    rw [show h'.rules = h2.rules by rw [performAll_deleteRoutes hh'], hrules]
    simp only [hwants]
  intro row htable
  rw [hok2.mem_tables_of_deleted
    (fun r hr => StaleRoute.table (mem_staleRoutes.mp hr).2) hh',
    show h2.tables = h1.tables by rw [performAll_deleteRules hh2],
    hok.mem_tables_missing hl hhost hone hh1 htable, mem_staleRoutes,
    mem_routes_iff_of_table hl htable, hl.rules]
  simp only [← hwants]
  constructor
  · rintro ⟨hs | hd | ⟨hmem, hroute, hfree⟩, hkept⟩
    · exact .inl hs
    · exact .inr (.inl hd)
    · refine .inr (.inr ⟨hmem, hroute, hfree, ?_⟩)
      by_contra hnot
      exact hkept ⟨hmem, hroute.endpointHost, hnot, hfree⟩
  · rintro (hs | hd | ⟨hmem, hroute, hfree, hother⟩)
    · refine ⟨.inl hs, fun hstale => ?_⟩
      have hhost := hstale.2.1
      simp [RouteRow.endpointHost, kind_of_mem_sentinels hs] at hhost
    · exact ⟨.inr (.inl hd), fun hstale => hstale.2.2.2 row hd rfl⟩
    · exact ⟨.inr (.inr ⟨hmem, hroute, hfree⟩), fun hstale => hstale.2.2.1 hother⟩

theorem EndpointTableOk.hostRoute (hok : EndpointTableOk h) (hmem : row ∈ h.tables)
    (hhost : row.endpointHost = true) : row.HostRoute := by
  obtain ⟨hkind, htable, _⟩ := RouteRow.endpointHost_iff.mp hhost
  exact (hok.planned row hmem htable).hostRoute hkind

/-- What a completed call leaves, by the rows that the policy wants after it. -/
theorem EndpointTableOk.settled (hok : EndpointTableOk h) (hok' : EndpointTableOk h')
    {W : RouteRow → Prop} (hrules : ∀ rule, rule ∈ h'.rules ↔
      (rule ∈ h.rules ∧ ¬ p.OwnRule rule) ∨ ∃ row, W row ∧ rule = p.ruleFor row)
    (hrows : ∀ row ∈ h'.tables, row.HostRoute → W row ∨ p.WantedByOther h.rules row.pfx) :
    Settled p h h' ∧ ∀ rule, rule.table = endpointTable → rule.priority = p.priority →
      (rule ∈ h'.rules ↔ ∃ row, W row ∧ rule = p.ruleFor row) := by
  have hothers : ∀ rule, rule.table ≠ endpointTable ∨ rule.priority ≠ p.priority →
      (rule ∈ h'.rules ↔ rule ∈ h.rules) := by
    intro rule hother
    have hnot : ¬ p.OwnRule rule := fun how => hother.elim (· how.1) (· how.2.1)
    rw [hrules, or_iff_left, and_iff_left hnot]
    rintro ⟨row, _, rfl⟩
    exact hother.elim (· rfl) (· rfl)
  refine ⟨⟨hothers, hok'.onceRule, fun rule hrule htable => ?_, fun row hmem hhost => ?_⟩,
    fun rule htable hpriority => ?_⟩
  · obtain ⟨row, hmem, hhost, hpfx⟩ := hok'.routed rule hrule htable
    exact ⟨row, hmem, hhost.endpointHost, hpfx⟩
  · rcases hrows row hmem (hok'.hostRoute hmem hhost) with
      hw | ⟨rule, hrule, htable, hpriority, _, hpfx⟩
    · exact ⟨p.ruleFor row, (hrules _).mpr (.inr ⟨row, hw, rfl⟩), rfl, rfl⟩
    · exact ⟨rule, (hothers rule (.inr hpriority)).mpr hrule, htable, hpfx⟩
  · rw [hrules]
    refine or_iff_right fun ⟨hmem, hnot⟩ => hnot ⟨htable, hpriority, ?_⟩
    exact (hok.hostRule rule hmem htable).toHost

/-- Where everything that the plan looks for is there, there is nothing to do. -/
theorem EndpointTableOk.plan_nil (hok : EndpointTableOk h) (hl : h.Lists describe ks)
    (hmetric : ∀ route ∈ p.routes, route.metric = 1) (hvalid : p.valid = true)
    {desired : List RouteRow} (hdesired : p.desired = .ok desired) (hguarded : h.Guarded)
    (hwanted : ∀ row, p.Wants row → row ∈ h.tables)
    (hown : ∀ rule, rule.table = endpointTable → rule.priority = p.priority →
      (rule ∈ h.rules ↔ ∃ row, p.Wants row ∧ rule = p.ruleFor row))
    (hneeded : ∀ row ∈ h.tables, row.endpointHost = true →
      ∃ rule ∈ h.rules, rule.table = endpointTable ∧ rule.pfx = row.pfx) :
    endpointPolicyPlan ks p false = .ok [] := by
  have hwants : ∀ row, row ∈ desired ↔ p.Wants row := fun row =>
    EndpointPolicy.mem_desired_iff hdesired
  have hcontains : ∀ row, row ∈ sentinels ∨ row ∈ desired →
      containsRoute ks.routes row = true := by
    rintro row (hs | hd)
    · exact (hok.containsRoute_iff hl (.inl hs)).mpr (hguarded row hs)
    · have hw := (hwants row).mp hd
      exact (hok.containsRoute_iff hl (.inr (hw.hostRoute hmetric))).mpr (hwanted row hw)
  have hmissing : p.missing ks desired = [] := by
    refine List.eq_nil_iff_forall_not_mem.mpr fun op hop => ?_
    have hadds := missing_adds p ks desired op hop
    cases op with
    | route row =>
      obtain ⟨hrow, hnot⟩ := route_mem_missing.mp hop
      rw [hcontains row hrow] at hnot
      cases hnot
    | rule rule =>
      obtain ⟨⟨row, hrow, rfl⟩, hnot⟩ := rule_mem_missing.mp hop
      rw [hl.rules] at hnot
      exact hnot ((hown _ rfl rfl).mpr ⟨row, (hwants row).mp hrow, rfl⟩)
    | _ => exact hadds
  have hstaleRules : p.staleRules ks desired = [] := by
    refine List.eq_nil_iff_forall_not_mem.mpr fun rule hrule => ?_
    obtain ⟨hmem, how, hfree⟩ := mem_staleRules.mp hrule
    obtain ⟨row, hrow, rfl⟩ := (hown rule how.1 how.2.1).mp (hl.rules ▸ hmem)
    exact hfree row ((hwants row).mpr hrow) rfl
  have hstaleRoutes : p.staleRoutes ks desired = [] := by
    refine List.eq_nil_iff_forall_not_mem.mpr fun row hrow => ?_
    obtain ⟨hmem, hstale⟩ := mem_staleRoutes.mp hrow
    obtain ⟨rule, hrule, htable, hpfx⟩ :=
      hneeded row ((mem_routes_iff_of_table hl (StaleRoute.table hstale)).mp hmem) hstale.1
    by_cases hpriority : rule.priority = p.priority
    · obtain ⟨r, hr, rfl⟩ := (hown rule htable hpriority).mp hrule
      exact hstale.2.2 r ((hwants r).mpr hr) hpfx
    · exact hstale.2.1 ⟨rule, hl.rules ▸ hrule, htable, hpriority,
        (hok.hostRule rule hrule htable).toHost, hpfx⟩
  rw [endpointPolicyPlan, hvalid]
  simp only [Bool.not_true, Bool.false_eq_true, if_false, hdesired, Except.map, hmissing,
    hstaleRules, hstaleRoutes, List.map_nil, List.append_nil]

theorem valid_of_plan {remove : Bool} (hplan : endpointPolicyPlan ks p remove = .ok ops) :
    p.valid = true := by
  by_contra hnot
  rw [endpointPolicyPlan, if_pos (by simpa using hnot)] at hplan
  cases hplan

theorem EndpointTableOk.reconciled (hok : EndpointTableOk h)
    (hmetric : ∀ route ∈ p.routes, route.metric = 1) (hcall : CompletedCall describe p false h h') :
    Reconciled describe p h h' := by
  obtain ⟨ks, ops, hl, hplan, hops⟩ := hcall
  have hok' := hok.cutAt (hok.orderly hl hmetric hplan) (.of_performAll hops)
  obtain ⟨hrules, hrows⟩ := hok.mem_reconcile hl hmetric hplan hops
  have hwanted : ∀ row, p.Wants row → row ∈ h'.tables := fun row hrow =>
    (hrows row (hrow.hostRoute hmetric).table).mpr (.inr (.inl hrow))
  obtain ⟨hsettled, hown⟩ := hok.settled hok' hrules fun row hmem hroute => by
    rcases (hrows row hroute.table).mp hmem with hs | hw | ⟨_, _, _, hother⟩
    · exact absurd hs hroute.not_sentinel
    · exact .inl hw
    · exact .inr hother
  refine ⟨hsettled, hown, fun row hrow => ⟨hwanted row hrow, fun r hr hhost hpfx => ?_⟩,
    fun ks' hl' => ?_⟩
  · have hroute := hok'.hostRoute hr hhost
    exact hok'.oneRow r hr row (hwanted row hrow) hroute.table
      (hroute.sameSlot (hrow.hostRoute hmetric) hpfx)
  · obtain ⟨desired, hdesired, _⟩ := plan_reconcile hplan
    exact hok'.plan_nil hl' hmetric (valid_of_plan hplan) hdesired
      (fun s hs => (hrows s (table_of_mem_sentinels hs)).mpr (.inl hs)) hwanted hown hsettled.needed

theorem EndpointTableOk.removed (hok : EndpointTableOk h)
    (hmetric : ∀ route ∈ p.routes, route.metric = 1) (hcall : CompletedCall describe p true h h') :
    Removed p h h' := by
  obtain ⟨ks, ops, hl, hplan, hops⟩ := hcall
  have hok' := hok.cutAt (hok.orderly hl hmetric hplan) (.of_performAll hops)
  obtain ⟨hsettled, hown⟩ := hok.settled hok' (W := fun _ => False)
    (fun rule => by simpa using removal_rules hl hplan hops rule) fun row hmem hroute =>
      .inr ((removal_routes hl hplan hops hroute.endpointHost).mp hmem).2
  refine ⟨hsettled, fun rule htable hpriority => by simp [hown rule htable hpriority],
    fun hempty => ?_⟩
  · refine List.eq_nil_iff_forall_not_mem.mpr fun row hrow => ?_
    obtain ⟨hmem, htable⟩ := mem_endpointRows.mp hrow
    have hnone : ∀ rule ∈ h'.rules, rule.table ≠ endpointTable := fun rule hrule htable =>
      List.not_mem_nil (hempty ▸ mem_endpointRules.mpr ⟨hrule, htable⟩)
    rcases hok'.planned row hmem htable with hs | hhost
    · -- no other role has a rule, so the defaults are deleted as well
      have hother : (ks.rules.any fun rule => rule.table = endpointTable &&
          rule.priority ≠ p.priority) = false := by
        refine List.any_eq_false.mpr fun rule hrule hand => ?_
        simp only [Bool.and_eq_true, decide_eq_true_eq] at hand
        exact hnone rule ((hsettled.others rule (.inr hand.2)).mpr (hl.rules ▸ hrule)) hand.1
      have hdeleted : ∀ r ∈ p.staleRoutes ks [] ++ p.staleSentinels ks, h.tables.count r ≤ 1 :=
        fun r hr => hok.onceRow r ((List.mem_append.mp hr).elim
          (fun hr => StaleRoute.table (mem_staleRoutes.mp hr).2)
          fun hr => RouteRow.table_of_sentinel (mem_staleSentinels hr).2)
      rw [removal_eq hplan hops, mem_diff_iff hdeleted] at hmem
      refine hmem.2 (List.mem_append_right _ ?_)
      have hall : ∀ row ∈ sentinels, row.sentinel = true := by decide
      rw [EndpointPolicy.staleSentinels, hother, if_neg Bool.false_ne_true]
      exact List.mem_filter.mpr ⟨(mem_routes_iff_of_table hl htable).mpr hmem.1, hall row hs⟩
    · obtain ⟨rule, hrule, htable, _⟩ := hsettled.needed row hmem hhost.endpointHost
      exact hnone rule hrule htable

theorem EndpointTableOk.completes (hok : EndpointTableOk h) (hl : h.Lists describe ks)
    (hmetric : ∀ route ∈ p.routes, route.metric = 1) {remove : Bool}
    (hplan : endpointPolicyPlan ks p remove = .ok ops) :
    ∃ h', performAll describe ops h = some h' := by
  have hrulesNodup := fun desired => hok.nodup_staleRules (p := p) hl desired
  have hrowsNodup : ∀ desired, (p.staleRoutes ks desired).Nodup := fun desired =>
    hok.nodup_filter hl fun row hrow => StaleRoute.table (of_decide_eq_true hrow)
  cases remove with
  | false =>
    obtain ⟨desired, hdesired, rfl⟩ := plan_reconcile hplan
    obtain ⟨hhost, hone⟩ := EndpointPolicy.hostRoutes_desired hdesired hmetric
    obtain ⟨h1, hh1⟩ := performAll_adds describe (missing_adds p ks desired) h
    obtain ⟨h2, hh2⟩ := performAll_deleteRules_of_subperm describe (h := h1)
      ((hrulesNodup desired).subperm fun rule hrule =>
        (mem_rules_missing hl hh1 rule).mpr (.inl (hl.rules ▸ (mem_staleRules.mp hrule).1)))
    have htables : h2.tables = h1.tables := by rw [performAll_deleteRules hh2]
    obtain ⟨h3, hh3⟩ := performAll_deleteRoutes_of_subperm describe (h := h2)
      ((hrowsNodup desired).subperm fun row hrow => by
        obtain ⟨hmem, hstale⟩ := mem_staleRoutes.mp hrow
        have hmem := (mem_routes_iff_of_table hl (StaleRoute.table hstale)).mp hmem
        rw [htables, hok.mem_tables_missing hl hhost hone hh1 (StaleRoute.table hstale)]
        exact .inr (.inr ⟨hmem, hok.hostRoute hmem hstale.1, hstale.2.2⟩))
    refine ⟨h3, ?_⟩
    rw [performAll_append, performAll_append, hh1, Option.bind_some, hh2,
      Option.bind_some, hh3]
  | true =>
    rw [plan_remove hplan, List.append_assoc, ← List.map_append]
    obtain ⟨h1, hh1⟩ := performAll_deleteRules_of_subperm describe (h := h)
      ((hrulesNodup []).subperm fun rule hrule => hl.rules ▸ (mem_staleRules.mp hrule).1)
    have htables : h1.tables = h.tables := by rw [performAll_deleteRules hh1]
    have hnodup : (p.staleRoutes ks [] ++ p.staleSentinels ks).Nodup := by
      refine List.nodup_append.mpr ⟨hrowsNodup [], (hok.nodup_filter hl fun row =>
        RouteRow.table_of_sentinel).sublist (staleSentinels_sublist p ks), fun a ha b hb heq => ?_⟩
      have hkind := (RouteRow.endpointHost_iff.mp (mem_staleRoutes.mp ha).2.1).1
      have hsentinel := (mem_staleSentinels hb).2
      simp [← heq, RouteRow.sentinel, hkind] at hsentinel
    obtain ⟨h2, hh2⟩ := performAll_deleteRoutes_of_subperm describe (h := h1)
      (hnodup.subperm fun row hrow => by
        rw [htables]
        rcases List.mem_append.mp hrow with hrow | hrow
        · obtain ⟨hmem, hstale⟩ := mem_staleRoutes.mp hrow
          exact (mem_routes_iff_of_table hl (StaleRoute.table hstale)).mp hmem
        · obtain ⟨hmem, hsentinel⟩ := mem_staleSentinels hrow
          exact (mem_routes_iff_of_table hl (RouteRow.table_of_sentinel hsentinel)).mp hmem)
    refine ⟨h2, ?_⟩
    rw [performAll_append, hh1, Option.bind_some, hh2]

end Completed

/-- The table is fail-closed in every state, exact after every completed call, and
    every call can be completed. -/
theorem EndpointRun.exact_and_guarded {describe : Prefix → String → RouteRow} {h : HostState}
    (hrun : EndpointRun describe h) :
    (∀ rule ∈ h.rules, rule.table = endpointTable →
      ∃ row ∈ h.tables, row ∈ sentinels ∧ row.family = rule.family) ∧
    ∀ p : EndpointPolicy, (∀ route ∈ p.routes, route.metric = 1) →
      (∀ h', CompletedCall describe p false h h' → Reconciled describe p h h') ∧
      (∀ h', CompletedCall describe p true h h' → Removed p h h') ∧
      ∀ remove ks ops, h.Lists describe ks → endpointPolicyPlan ks p remove = .ok ops →
        ∃ h', performAll describe ops h = some h' := by
  have hok := hrun.tableOk
  refine ⟨fun rule hrule htable => ?_, fun p hmetric => ⟨fun h' => hok.reconciled hmetric,
    fun h' => hok.removed hmetric, fun remove ks ops hl => hok.completes hl hmetric⟩⟩
  have hguarded := hok.guarded rule hrule htable
  obtain ⟨pfx, priority, _, rfl⟩ := hok.hostRule rule hrule htable
  have hfamily : ∃ row ∈ sentinels, row.family = familyOf pfx := by
    unfold familyOf
    split <;> decide
  obtain ⟨row, hrow, hfamily⟩ := hfamily
  exact ⟨row, hguarded row hrow, hrow, hfamily⟩

-- === A sample ===

def samplePolicy : EndpointPolicy where
  role := "work"
  zone := "corp"
  priority := 60
  routes := [⟨⟨.v4 0xc0000201#32, 32⟩, .v4 0x0a000001#32, 2, 1⟩]

def sampleDescribe : Prefix → String → RouteRow := fun pfx _ => { pfx := some pfx, table := 254 }

def samplePlan : List Operation := (endpointPolicyPlan {} samplePolicy false).toOption.getD []

theorem lists_empty (describe : Prefix → String → RouteRow) :
    HostState.Lists describe {} {} :=
  ⟨⟨[], .refl _, fun _ => ⟨nofun, nofun⟩⟩, rfl⟩

/-- The policy is reconciled over empty tables: two defaults, a route and a rule. -/
theorem endpointTable_sample : samplePlan.length = 4 ∧
    ∃ h, CompletedCall sampleDescribe samplePolicy false {} h ∧
      Reconciled sampleDescribe samplePolicy {} h := by
  have hplan : endpointPolicyPlan {} samplePolicy false = .ok samplePlan := by decide +kernel
  have hrun : EndpointRun sampleDescribe {} := .start rfl rfl
  obtain ⟨hreconciled, _, hcompletes⟩ := hrun.exact_and_guarded.2 samplePolicy (by decide)
  obtain ⟨h, hh⟩ := hcompletes false {} samplePlan (lists_empty _) hplan
  have hcall : CompletedCall sampleDescribe samplePolicy false {} h :=
    ⟨{}, samplePlan, lists_empty _, hplan, hh⟩
  exact ⟨by decide +kernel, h, hcall, hreconciled h hcall⟩

end Kikimora.Platform

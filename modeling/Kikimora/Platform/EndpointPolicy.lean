import Kikimora.Platform.Executor

/-!
# Endpoint policies

An endpoint policy keeps the transport endpoints of one role reachable over the
physical underlay: a host route for each of them in a table of its own, and a
rule of the role's priority that leads to it. All roles share the table.
-/

namespace Kikimora.Platform

open Net Routing
open HostState

-- === Policies ===

/-- `endpoint.Route` -/
structure EndpointRoute where
  pfx : Prefix
  gateway : Addr
  ifIndex : Int
  metric : UInt32
  deriving DecidableEq, Repr

/-- `endpoint.Policy`, without where its endpoints come from. -/
structure EndpointPolicy where
  role : String
  zone : String
  priority : Int
  routes : List EndpointRoute := []
  deriving DecidableEq, Repr

def EndpointPolicy.valid (p : EndpointPolicy) : Bool := p.role ≠ "" && p.zone ≠ "" && 0 < p.priority

def toHost (pfx : Option Prefix) : Bool := pfx.any isHostPrefix

/-- The row of an endpoint route, which must be a host route. -/
def desiredRow (route : EndpointRoute) : Except String RouteRow :=
  if !isHostPrefix route.pfx || route.ifIndex ≤ 0 then .error "invalid endpoint route"
  else .ok
    { kind := .route, family := familyOf route.pfx, pfx := some route.pfx, table := endpointTable,
      ifIndex := route.ifIndex, metric := if route.metric = 0 then 1 else route.metric,
      gateway := if route.gateway.isValid then route.gateway.toString else "",
      protocol := staticProtocol }

/-- The last row of each prefix counts. -/
def desiredRows (rows : List RouteRow) : List RouteRow :=
  rows.foldl (fun desired row => desired.filter (fun r => r.pfx ≠ row.pfx) ++ [row]) []

def prefixText (row : RouteRow) : String := (row.pfx.map Prefix.toString).getD ""

def EndpointPolicy.desired (p : EndpointPolicy) : Except String (List RouteRow) :=
  (p.routes.mapM desiredRow).map fun rows =>
    (desiredRows rows).insertionSort fun a b => prefixText a ≤ prefixText b

/-- The rows that keep a lookup from leaving the table. -/
def sentinels : List RouteRow :=
  [{ kind := .unreachable, family := familyV4, pfx := some ⟨.v4 0, 0⟩, table := endpointTable,
     metric := 32767, protocol := staticProtocol },
   { kind := .unreachable, family := familyV6, pfx := some ⟨.v6 0 "", 0⟩, table := endpointTable,
     metric := 32767, protocol := staticProtocol }]

def containsRoute (routes : List RouteRow) (want : RouteRow) : Bool :=
  routes.any fun got => { got with source := want.source } = want

def EndpointPolicy.ruleFor (p : EndpointPolicy) (row : RouteRow) : PolicyRule :=
  ⟨row.family, row.pfx, endpointTable, p.priority⟩

/-- A rule of the role, by its priority. -/
def EndpointPolicy.OwnRule (p : EndpointPolicy) (rule : PolicyRule) : Prop :=
  rule.table = endpointTable ∧ rule.priority = p.priority ∧ toHost rule.pfx = true

instance (p : EndpointPolicy) (rule : PolicyRule) : Decidable (p.OwnRule rule) :=
  inferInstanceAs (Decidable (_ ∧ _ ∧ _))

def EndpointPolicy.WantedByOther (p : EndpointPolicy) (rules : List PolicyRule)
    (pfx : Option Prefix) : Prop :=
  ∃ rule ∈ rules, rule.table = endpointTable ∧ rule.priority ≠ p.priority ∧
    toHost rule.pfx = true ∧ rule.pfx = pfx

instance (p : EndpointPolicy) (rules : List PolicyRule) (pfx : Option Prefix) :
    Decidable (p.WantedByOther rules pfx) :=
  inferInstanceAs (Decidable (∃ rule ∈ rules, _))

def RouteRow.endpointHost (row : RouteRow) : Bool :=
  row.kind = .route && row.table = endpointTable && toHost row.pfx

def RouteRow.sentinel (row : RouteRow) : Bool :=
  row.kind = .unreachable && row.table = endpointTable && row.protocol = staticProtocol

def EndpointPolicy.staleRules (p : EndpointPolicy) (current : KernelState)
    (desired : List RouteRow) : List PolicyRule :=
  current.rules.filter fun rule => p.OwnRule rule ∧ ∀ row ∈ desired, row.pfx ≠ rule.pfx

/-- A host row that neither this role nor another wants. -/
def EndpointPolicy.StaleRoute (p : EndpointPolicy) (rules : List PolicyRule)
    (desired : List RouteRow) (row : RouteRow) : Prop :=
  row.endpointHost = true ∧ ¬ p.WantedByOther rules row.pfx ∧ ∀ r ∈ desired, r.pfx ≠ row.pfx

instance (p : EndpointPolicy) (rules : List PolicyRule) (desired : List RouteRow) (row : RouteRow) :
    Decidable (p.StaleRoute rules desired row) :=
  inferInstanceAs (Decidable (_ ∧ _ ∧ _))

def EndpointPolicy.staleRoutes (p : EndpointPolicy) (current : KernelState)
    (desired : List RouteRow) : List RouteRow :=
  current.routes.filter fun row => p.StaleRoute current.rules desired row

def EndpointPolicy.staleSentinels (p : EndpointPolicy) (current : KernelState) : List RouteRow :=
  if current.rules.any fun rule => rule.table = endpointTable && rule.priority ≠ p.priority then []
  else current.routes.filter RouteRow.sentinel

/-- What a reconciliation adds, each row before its rule. -/
def EndpointPolicy.missing (p : EndpointPolicy) (current : KernelState)
    (desired : List RouteRow) : List Operation :=
  (sentinels.filter fun row => !containsRoute current.routes row).map .route ++
    desired.flatMap fun row =>
      (if containsRoute current.routes row then [] else [.route row]) ++
        (if p.ruleFor row ∈ current.rules then [] else [.rule (p.ruleFor row)])

/-- The operations of a reconciliation or of a removal. -/
def endpointPolicyPlan (current : KernelState) (p : EndpointPolicy) (remove : Bool) :
    Except String (List Operation) :=
  if !p.valid then .error "invalid endpoint policy"
  else if remove then
    .ok ((p.staleRules current []).map .deleteRule ++ (p.staleRoutes current []).map .deleteRoute ++
      (p.staleSentinels current).map .deleteRoute)
  else p.desired.map fun desired =>
    p.missing current desired ++ (p.staleRules current desired).map .deleteRule ++
      (p.staleRoutes current desired).map .deleteRoute

-- === Plans ===

section

variable {ks : KernelState} {p : EndpointPolicy} {ops : List Operation} {desired : List RouteRow}
  {row : RouteRow} {op : Operation}

theorem RouteRow.endpointHost_iff {row : RouteRow} : row.endpointHost = true ↔
    row.kind = .route ∧ row.table = endpointTable ∧ toHost row.pfx = true := by
  simp [RouteRow.endpointHost, and_assoc]

theorem plan_reconcile (hplan : endpointPolicyPlan ks p false = .ok ops) :
    ∃ desired, p.desired = .ok desired ∧ ops = p.missing ks desired ++
      (p.staleRules ks desired).map .deleteRule ++ (p.staleRoutes ks desired).map .deleteRoute := by
  unfold endpointPolicyPlan at hplan
  split at hplan
  · cases hplan
  cases hdesired : p.desired with
  | error e =>
    rw [hdesired] at hplan
    cases hplan
  | ok desired =>
    rw [hdesired] at hplan
    cases hplan
    exact ⟨desired, rfl, rfl⟩

theorem plan_remove (hplan : endpointPolicyPlan ks p true = .ok ops) :
    ops = (p.staleRules ks []).map .deleteRule ++ (p.staleRoutes ks []).map .deleteRoute ++
      (p.staleSentinels ks).map .deleteRoute := by
  unfold endpointPolicyPlan at hplan
  split at hplan
  · cases hplan
  · cases hplan
    rfl

theorem mem_staleRules {rule : PolicyRule} : rule ∈ p.staleRules ks desired ↔
    rule ∈ ks.rules ∧ p.OwnRule rule ∧ ∀ row ∈ desired, row.pfx ≠ rule.pfx := by
  simp [EndpointPolicy.staleRules]

theorem mem_staleRoutes : row ∈ p.staleRoutes ks desired ↔
    row ∈ ks.routes ∧ p.StaleRoute ks.rules desired row := by
  simp [EndpointPolicy.staleRoutes]

theorem RouteRow.table_of_sentinel (h : row.sentinel = true) : row.table = endpointTable := by
  simp only [RouteRow.sentinel, Bool.and_eq_true, decide_eq_true_eq] at h
  exact h.1.2

theorem StaleRoute.table {rules : List PolicyRule} {desired : List RouteRow}
    (h : p.StaleRoute rules desired row) : row.table = endpointTable :=
  (RouteRow.endpointHost_iff.mp h.1).2.1

theorem staleSentinels_sublist (p : EndpointPolicy) (ks : KernelState) :
    (p.staleSentinels ks).Sublist (ks.routes.filter RouteRow.sentinel) := by
  unfold EndpointPolicy.staleSentinels
  split
  · exact List.nil_sublist _
  · exact .refl _

theorem mem_staleSentinels (h : row ∈ p.staleSentinels ks) :
    row ∈ ks.routes ∧ row.sentinel = true :=
  List.mem_filter.mp ((staleSentinels_sublist p ks).subset h)

theorem mem_missing : op ∈ p.missing ks desired ↔
    (∃ row, (row ∈ sentinels ∨ row ∈ desired) ∧ containsRoute ks.routes row = false ∧
      op = .route row) ∨
    ∃ row ∈ desired, p.ruleFor row ∉ ks.rules ∧ op = .rule (p.ruleFor row) := by
  have hrow : ∀ row, op ∈ (if containsRoute ks.routes row then [] else [.route row]) ++
      (if p.ruleFor row ∈ ks.rules then [] else [.rule (p.ruleFor row)]) ↔
      (containsRoute ks.routes row = false ∧ op = .route row) ∨
        p.ruleFor row ∉ ks.rules ∧ op = .rule (p.ruleFor row) := by
    intro row
    split_ifs <;> simp [*]
  simp only [EndpointPolicy.missing, List.mem_append (s := List.map _ _), List.mem_map,
    List.mem_filter, List.mem_flatMap, hrow, Bool.not_eq_true']
  constructor
  · rintro (⟨row, ⟨hs, hc⟩, rfl⟩ | ⟨row, hd, ⟨hc, rfl⟩ | ⟨hr, rfl⟩⟩)
    · exact .inl ⟨row, .inl hs, hc, rfl⟩
    · exact .inl ⟨row, .inr hd, hc, rfl⟩
    · exact .inr ⟨row, hd, hr, rfl⟩
  rintro (⟨row, hs | hd, hc, rfl⟩ | ⟨row, hd, hr, rfl⟩)
  · exact .inl ⟨row, ⟨hs, hc⟩, rfl⟩
  · exact .inr ⟨row, hd, .inl ⟨hc, rfl⟩⟩
  · exact .inr ⟨row, hd, .inr ⟨hr, rfl⟩⟩

end

-- === Removal ===

section

variable {describe : Prefix → String → RouteRow} {h h' : HostState} {ks : KernelState}
  {p : EndpointPolicy} {ops : List Operation}

/-- A removal deletes, and does nothing else. -/
theorem removal_eq (hplan : endpointPolicyPlan ks p true = .ok ops)
    (hops : performAll describe ops h = some h') :
    h' = { h with
      rules := h.rules.diff (p.staleRules ks [])
      tables := h.tables.diff (p.staleRoutes ks [] ++ p.staleSentinels ks) } := by
  rw [plan_remove hplan, List.append_assoc, ← List.map_append, performAll_append] at hops
  obtain ⟨h1, h1eq, hrest⟩ := Option.bind_eq_some_iff.mp hops
  obtain rfl := performAll_deleteRules h1eq
  exact performAll_deleteRoutes hrest

/-- A removal takes the rules of the role, and only these. -/
theorem removal_rules (hl : h.Lists describe ks) (hplan : endpointPolicyPlan ks p true = .ok ops)
    (hops : performAll describe ops h = some h') (rule : PolicyRule) :
    rule ∈ h'.rules ↔ rule ∈ h.rules ∧ ¬ p.OwnRule rule := by
  rw [removal_eq hplan hops, ← List.count_pos_iff, ← List.count_pos_iff, List.count_diff]
  simp only [EndpointPolicy.staleRules, hl.rules, List.not_mem_nil, false_imp_iff, implies_true,
    and_true]
  by_cases hown : p.OwnRule rule
  · rw [List.count_filter (by simpa using hown)]
    simp [hown]
  have hzero : (h.rules.filter fun rule => decide (p.OwnRule rule)).count rule = 0 := by
    refine List.count_eq_zero.mpr fun hmem => hown ?_
    simpa using (List.mem_filter.mp hmem).2
  rw [hzero]
  simp [hown]

/-- A removal leaves an endpoint host route exactly when another role wants it. -/
theorem removal_routes (hl : h.Lists describe ks) (hplan : endpointPolicyPlan ks p true = .ok ops)
    (hops : performAll describe ops h = some h') {row : RouteRow}
    (hhost : row.endpointHost = true) :
    row ∈ h'.tables ↔ row ∈ h.tables ∧ p.WantedByOther h.rules row.pfx := by
  have hsentinel : (p.staleSentinels ks).count row = 0 := by
    refine List.count_eq_zero.mpr fun hmem => ?_
    have hsentinel := (mem_staleSentinels hmem).2
    simp [RouteRow.sentinel, (RouteRow.endpointHost_iff.mp hhost).1] at hsentinel
  have htable : ∀ row, decide (p.StaleRoute ks.rules [] row) = true →
      row.table ≠ managedSelectedRouteTable := by
    intro row hstale
    rw [StaleRoute.table (of_decide_eq_true hstale)]
    decide
  rw [removal_eq hplan hops, ← List.count_pos_iff, ← List.count_pos_iff, List.count_diff,
    List.count_append, hsentinel, EndpointPolicy.staleRoutes, hl.count_filter htable, hl.rules]
  have hstale : p.StaleRoute h.rules [] row ↔ ¬ p.WantedByOther h.rules row.pfx := by
    simp [EndpointPolicy.StaleRoute, hhost]
  by_cases hwanted : p.WantedByOther h.rules row.pfx <;> simp [hstale, hwanted]

theorem removal_main (hplan : endpointPolicyPlan ks p true = .ok ops)
    (hops : performAll describe ops h = some h') : h'.main = h.main := by
  rw [removal_eq hplan hops]

end

-- === What a policy wants ===

def RouteRow.HostRoute (row : RouteRow) : Prop :=
  ∃ pfx ifIndex gateway, isHostPrefix pfx = true ∧ row =
    { kind := .route, family := familyOf pfx, pfx := some pfx, table := endpointTable,
      ifIndex := ifIndex, metric := 1, gateway := gateway, protocol := staticProtocol }

def WantedIn : List EndpointRoute → RouteRow → Prop
  | [], _ => False
  | route :: routes, row =>
    WantedIn routes row ∨ desiredRow route = .ok row ∧ ∀ r ∈ routes, r.pfx ≠ route.pfx

def EndpointPolicy.Wants (p : EndpointPolicy) (row : RouteRow) : Prop := WantedIn p.routes row

section Wanted

variable {p : EndpointPolicy} {routes : List EndpointRoute} {route : EndpointRoute}
  {rows : List RouteRow} {a b row : RouteRow}

theorem desiredRow_eq_ok (h : desiredRow route = .ok row) :
    row.pfx = some route.pfx ∧ row.table = endpointTable ∧
      (route.metric = 1 → row.HostRoute) := by
  unfold desiredRow at h
  split at h
  · cases h
  next hvalid =>
  cases h
  refine ⟨rfl, rfl, fun hmetric => ⟨route.pfx, route.ifIndex,
    if route.gateway.isValid then route.gateway.toString else "", ?_, ?_⟩⟩
  · simp only [Bool.or_eq_true, Bool.not_eq_true', decide_eq_true_eq, not_or] at hvalid
    simpa using hvalid.1
  · simp [hmetric]

theorem WantedIn.mem (h : WantedIn routes row) :
    ∃ route ∈ routes, desiredRow route = .ok row := by
  induction routes with
  | nil => exact h.elim
  | cons route routes ih =>
    rcases h with h | ⟨h, _⟩
    · obtain ⟨r, hr, hrow⟩ := ih h
      exact ⟨r, List.mem_cons_of_mem route hr, hrow⟩
    · exact ⟨route, List.mem_cons_self, h⟩

/-- A policy wants one row of a prefix. -/
theorem WantedIn.unique (ha : WantedIn routes a) (hb : WantedIn routes b) (h : a.pfx = b.pfx) :
    a = b := by
  have hlater : ∀ {routes : List EndpointRoute} {route : EndpointRoute} {a b : RouteRow},
      WantedIn routes a → desiredRow route = .ok b → (∀ r ∈ routes, r.pfx ≠ route.pfx) →
      a.pfx ≠ b.pfx := by
    intro routes route a b ha hb hlast heq
    obtain ⟨r, hr, hrow⟩ := ha.mem
    rw [(desiredRow_eq_ok hrow).1, (desiredRow_eq_ok hb).1] at heq
    exact hlast r hr (Option.some.inj heq)
  induction routes with
  | nil => exact ha.elim
  | cons route routes ih =>
    rcases ha with ha | ⟨ha, hlasta⟩
    · rcases hb with hb | ⟨hb, hlastb⟩
      · exact ih ha hb
      · exact absurd h (hlater ha hb hlastb)
    · rcases hb with hb | ⟨hb, _⟩
      · exact absurd h.symm (hlater hb ha hlasta)
      · exact Except.ok.inj (ha.symm.trans hb)

theorem EndpointPolicy.Wants.hostRoute (h : p.Wants row)
    (hmetric : ∀ route ∈ p.routes, route.metric = 1) : row.HostRoute := by
  obtain ⟨route, hroute, hrow⟩ := h.mem
  exact (desiredRow_eq_ok hrow).2.2 (hmetric route hroute)

def LastIn : List RouteRow → RouteRow → Prop
  | [], _ => False
  | r :: rows, row => LastIn rows row ∨ row = r ∧ ∀ x ∈ rows, x.pfx ≠ r.pfx

theorem mem_desiredRows_iff : row ∈ desiredRows rows ↔ LastIn rows row := by
  have hfold : ∀ rows acc : List RouteRow, row ∈ rows.foldl
      (fun desired r => desired.filter (fun x => x.pfx ≠ r.pfx) ++ [r]) acc ↔
      (row ∈ acc ∧ ∀ r ∈ rows, row.pfx ≠ r.pfx) ∨ LastIn rows row := by
    intro rows
    induction rows with
    | nil => simp [LastIn]
    | cons r rows ih =>
      intro acc
      rw [List.foldl_cons, ih]
      simp only [List.mem_append, List.mem_filter, decide_eq_true_eq, List.mem_singleton,
        List.forall_mem_cons, LastIn]
      constructor
      · rintro (⟨⟨hacc, hr⟩ | rfl, hrows⟩ | hlast)
        · exact .inl ⟨hacc, hr, hrows⟩
        · exact .inr (.inr ⟨rfl, fun x hx => (hrows x hx).symm⟩)
        · exact .inr (.inl hlast)
      rintro (⟨hacc, hr, hrows⟩ | hlast | ⟨rfl, hrows⟩)
      · exact .inl ⟨.inl ⟨hacc, hr⟩, hrows⟩
      · exact .inr hlast
      · exact .inl ⟨.inr rfl, fun x hx => (hrows x hx).symm⟩
  rw [desiredRows, hfold]
  simp

theorem mapM_cons_eq_ok {ε α β : Type} {f : α → Except ε β} {x : α} {xs : List α} {ys : List β} :
    (x :: xs).mapM f = .ok ys ↔ ∃ y ys', f x = .ok y ∧ xs.mapM f = .ok ys' ∧ ys = y :: ys' := by
  rw [List.mapM_cons]
  cases hx : f x with
  | error e =>
    refine ⟨nofun, ?_⟩
    rintro ⟨y, ys', hy, _⟩
    cases hy
  | ok y =>
    cases hxs : xs.mapM f with
    | error e =>
      refine ⟨nofun, ?_⟩
      rintro ⟨y, ys', _, hys, _⟩
      cases hys
    | ok ys' =>
      constructor
      · intro h
        cases h
        exact ⟨y, ys', rfl, rfl, rfl⟩
      rintro ⟨_, _, hy, hys, rfl⟩
      cases hy
      cases hys
      rfl

theorem pfx_mem_of_mapM (h : routes.mapM desiredRow = .ok rows) (pfx : Prefix) :
    (∃ row ∈ rows, row.pfx = some pfx) ↔ ∃ route ∈ routes, route.pfx = pfx := by
  induction routes generalizing rows with
  | nil =>
    cases h
    simp
  | cons route routes ih =>
    obtain ⟨row, rows, hrow, hrest, rfl⟩ := mapM_cons_eq_ok.mp h
    simp only [List.exists_mem_cons_iff, ih hrest, (desiredRow_eq_ok hrow).1, Option.some.injEq]

theorem lastIn_iff_wantedIn (h : routes.mapM desiredRow = .ok rows) :
    LastIn rows row ↔ WantedIn routes row := by
  induction routes generalizing rows with
  | nil =>
    cases h
    exact Iff.rfl
  | cons route routes ih =>
    obtain ⟨first, rows, hfirst, hrest, rfl⟩ := mapM_cons_eq_ok.mp h
    have hlater : (∀ x ∈ rows, x.pfx ≠ first.pfx) ↔ ∀ r ∈ routes, r.pfx ≠ route.pfx := by
      have := not_congr (pfx_mem_of_mapM hrest route.pfx)
      rw [(desiredRow_eq_ok hfirst).1]
      push Not at this
      exact this
    simp only [LastIn, WantedIn, ih hrest, hlater, hfirst, Except.ok.injEq, eq_comm (a := row)]

theorem EndpointPolicy.mem_desired_iff (h : p.desired = .ok rows) : row ∈ rows ↔ p.Wants row := by
  unfold desired at h
  cases hall : p.routes.mapM desiredRow with
  | error e =>
    rw [hall] at h
    cases h
  | ok all =>
    rw [hall] at h
    cases h
    rw [List.mem_insertionSort, mem_desiredRows_iff, lastIn_iff_wantedIn hall]
    rfl

theorem EndpointPolicy.hostRoutes_desired (h : p.desired = .ok rows)
    (hmetric : ∀ route ∈ p.routes, route.metric = 1) :
    (∀ row ∈ rows, row.HostRoute) ∧ ∀ a ∈ rows, ∀ b ∈ rows, a.pfx = b.pfx → a = b :=
  ⟨fun _ hrow => ((mem_desired_iff h).mp hrow).hostRoute hmetric,
    fun _ ha _ hb => WantedIn.unique ((mem_desired_iff h).mp ha) ((mem_desired_iff h).mp hb)⟩

end Wanted

-- === The table of the plans ===

def Operation.OnEndpointTable : Operation → Prop
  | .route row | .deleteRoute row => row.table = endpointTable
  | .rule _ | .deleteRule _ => True
  | .park _ | .deletePark _ => False

section Table

variable {describe : Prefix → String → RouteRow} {h h' : HostState} {ks : KernelState}
  {p : EndpointPolicy} {ops : List Operation} {row : RouteRow}

theorem table_of_mem_sentinels (h : row ∈ sentinels) : row.table = endpointTable := by
  revert row
  decide

/-- A plan touches no other table. -/
theorem plan_on_endpointTable {remove : Bool} (hplan : endpointPolicyPlan ks p remove = .ok ops) :
    ∀ op ∈ ops, op.OnEndpointTable := by
  intro op hop
  cases remove with
  | false =>
    obtain ⟨desired, hdesired, rfl⟩ := plan_reconcile hplan
    simp only [List.mem_append, List.mem_map] at hop
    rcases hop with (hop | ⟨_, _, rfl⟩) | ⟨row, hrow, rfl⟩
    · rcases mem_missing.mp hop with ⟨row, hs | hd, _, rfl⟩ | ⟨_, _, _, rfl⟩
      · exact table_of_mem_sentinels hs
      · obtain ⟨route, _, hrow⟩ := ((EndpointPolicy.mem_desired_iff hdesired).mp hd).mem
        exact (desiredRow_eq_ok hrow).2.1
      · trivial
    · trivial
    · exact StaleRoute.table (mem_staleRoutes.mp hrow).2
  | true =>
    obtain rfl := plan_remove hplan
    simp only [List.mem_append, List.mem_map] at hop
    rcases hop with (⟨_, _, rfl⟩ | ⟨row, hrow, rfl⟩) | ⟨row, hrow, rfl⟩
    · trivial
    · exact StaleRoute.table (mem_staleRoutes.mp hrow).2
    · exact RouteRow.table_of_sentinel (mem_staleSentinels hrow).2

/-- Whatever part of such operations is performed, the main table and the rows of
    the other tables stay. -/
theorem performAll_outside (hops : ∀ op ∈ ops, op.OnEndpointTable)
    (hh : performAll describe ops h = some h') :
    h'.main = h.main ∧
      ∀ row, row.table ≠ endpointTable → (row ∈ h'.tables ↔ row ∈ h.tables) := by
  refine performAll_keeps (P := fun x => x.main = h.main ∧ ∀ row,
    row.table ≠ endpointTable → (row ∈ x.tables ↔ row ∈ h.tables)) (fun op hop x x' hx hx' => ?_)
    ⟨rfl, fun _ _ => Iff.rfl⟩ hh
  have hon := hops op hop
  have herase : ∀ (t : RouteRow), t.table = endpointTable → ∀ row, row.table ≠ endpointTable →
      (row ∈ x.tables.erase t ↔ row ∈ x.tables) := by
    intro t ht row hrow
    refine List.mem_erase_of_ne fun heq => hrow ?_
    rw [heq]
    exact ht
  cases op with
  | route t =>
    cases hx'
    refine ⟨hx.1, fun row hrow => ?_⟩
    have hne : row ≠ t := fun heq => hrow (heq ▸ hon)
    have hslot : row.sameSlot t = false := by
      have htable : ¬ row.table = t.table := fun heq => hrow (heq.trans hon)
      simp [RouteRow.sameSlot, htable]
    simp only [List.mem_append, List.mem_filter, hslot, Bool.not_false, and_true,
      List.mem_singleton, hne, or_false]
    exact hx.2 row hrow
  | deleteRoute t =>
    simp only [perform] at hx'
    split at hx'
    · cases hx'
      exact ⟨hx.1, fun row hrow => (herase t hon row hrow).trans (hx.2 row hrow)⟩
    · cases hx'
  | rule rule =>
    cases hx'
    exact hx
  | deleteRule rule =>
    simp only [perform] at hx'
    split at hx'
    · cases hx'
      exact hx
    · cases hx'
  | park pfx | deletePark pfx => exact hon.elim

end Table

end Kikimora.Platform

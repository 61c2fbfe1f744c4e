import Kikimora.Platform.EndpointPolicy

/-!
# The table of the endpoint policies

All roles share one table. It is written by the plans of `endpointPolicyPlan` alone,
and a call can be cut off between any two operations of the kernel: what holds of
the table holds in the middle of a plan as well.
-/

namespace Kikimora.Platform

open Net Routing
open EndpointPolicy
open HostState

-- === Runs ===

/-- The states in which a call that performs operations can be cut off. A rule is
    added by two operations of the kernel, of which the first deletes it. -/
inductive CutAt (describe : Prefix → String → RouteRow) :
    List Operation → HostState → HostState → Prop
  | here {ops : List Operation} {h : HostState} : CutAt describe ops h h
  | within {rule : PolicyRule} {ops : List Operation} {h : HostState} :
      CutAt describe (.rule rule :: ops) h { h with rules := h.rules.erase rule }
  | next {op : Operation} {ops : List Operation} {h h₁ h' : HostState}
      (hop : h.perform describe op = some h₁) (hrest : CutAt describe ops h₁ h') :
      CutAt describe (op :: ops) h h'

def HostState.endpointRows (h : HostState) : List RouteRow :=
  h.tables.filter fun row => row.table = endpointTable

def HostState.endpointRules (h : HostState) : List PolicyRule :=
  h.rules.filter fun rule => rule.table = endpointTable

/-- A call that may end after any of its operations. -/
def PolicyCall (describe : Prefix → String → RouteRow) (p : EndpointPolicy) (remove : Bool)
    (h h' : HostState) : Prop :=
  ∃ ks ops, h.Lists describe ks ∧ endpointPolicyPlan ks p remove = .ok ops ∧
    CutAt describe ops h h'

/-- A call whose operations have all been performed. -/
def CompletedCall (describe : Prefix → String → RouteRow) (p : EndpointPolicy) (remove : Bool)
    (h h' : HostState) : Prop :=
  ∃ ks ops, h.Lists describe ks ∧ endpointPolicyPlan ks p remove = .ok ops ∧
    performAll describe ops h = some h'

/-- The runs of the table: it is empty at first, and then written by calls for
    policies alone. -/
inductive EndpointRun (describe : Prefix → String → RouteRow) : HostState → Prop
  | start {h : HostState} (hrows : h.endpointRows = []) (hrules : h.endpointRules = []) :
      EndpointRun describe h
  | outside {h h' : HostState} (hrun : EndpointRun describe h)
      (hrows : h'.endpointRows = h.endpointRows) (hrules : h'.endpointRules = h.endpointRules) :
      EndpointRun describe h'
  | call {h h' : HostState} {p : EndpointPolicy} {remove : Bool} (hrun : EndpointRun describe h)
      (hmetric : ∀ route ∈ p.routes, route.metric = 1)
      (hcall : PolicyCall describe p remove h h') : EndpointRun describe h'

-- === The invariant ===

def PolicyRule.HostRule (rule : PolicyRule) : Prop :=
  ∃ pfx priority, isHostPrefix pfx = true ∧ rule = ⟨familyOf pfx, some pfx, endpointTable, priority⟩

def RouteRow.Planned (row : RouteRow) : Prop := row ∈ sentinels ∨ row.HostRoute

def HostState.Guarded (h : HostState) : Prop := ∀ row ∈ sentinels, row ∈ h.tables

def HostState.Routed (h : HostState) (pfx : Option Prefix) : Prop :=
  ∃ row ∈ h.tables, row.HostRoute ∧ row.pfx = pfx

/-- What holds of the table in every state: there is nothing in it that a plan has
    not written, at most one row for a slot, and a rule leads to a guarded table with
    a host route for it. -/
structure EndpointTableOk (h : HostState) : Prop where
  planned : ∀ row ∈ h.tables, row.table = endpointTable → row.Planned
  oneRow : ∀ a ∈ h.tables, ∀ b ∈ h.tables, a.table = endpointTable → a.sameSlot b = true → a = b
  onceRow : ∀ row, row.table = endpointTable → h.tables.count row ≤ 1
  hostRule : ∀ rule ∈ h.rules, rule.table = endpointTable → rule.HostRule
  onceRule : ∀ rule, rule.table = endpointTable → h.rules.count rule ≤ 1
  guarded : ∀ rule ∈ h.rules, rule.table = endpointTable → h.Guarded
  routed : ∀ rule ∈ h.rules, rule.table = endpointTable → h.Routed rule.pfx

section

variable {a b row : RouteRow} {rule : PolicyRule}

theorem kind_of_mem_sentinels (h : row ∈ sentinels) : row.kind = .unreachable := by
  revert row
  decide

theorem RouteRow.HostRoute.kind (h : row.HostRoute) : row.kind = .route := by
  obtain ⟨pfx, ifIndex, gateway, _, rfl⟩ := h
  rfl

theorem RouteRow.HostRoute.table (h : row.HostRoute) : row.table = endpointTable := by
  obtain ⟨pfx, ifIndex, gateway, _, rfl⟩ := h
  rfl

theorem RouteRow.HostRoute.source (h : row.HostRoute) : row.source = "" := by
  obtain ⟨pfx, ifIndex, gateway, _, rfl⟩ := h
  rfl

theorem RouteRow.HostRoute.endpointHost (h : row.HostRoute) : row.endpointHost = true := by
  obtain ⟨pfx, ifIndex, gateway, hpfx, rfl⟩ := h
  simp [RouteRow.endpointHost, toHost, hpfx]

theorem RouteRow.HostRoute.not_sentinel (h : row.HostRoute) : row ∉ sentinels := fun hmem =>
  absurd (h.kind.symm.trans (kind_of_mem_sentinels hmem)) (by decide)

theorem RouteRow.Planned.table (h : row.Planned) : row.table = endpointTable :=
  h.elim table_of_mem_sentinels RouteRow.HostRoute.table

theorem RouteRow.Planned.hostRoute (h : row.Planned) (hkind : row.kind = .route) :
    row.HostRoute := by
  rcases h with hmem | hhost
  · exact absurd (hkind.symm.trans (kind_of_mem_sentinels hmem)) (by decide)
  · exact hhost

theorem PolicyRule.HostRule.toHost (h : rule.HostRule) : toHost rule.pfx = true := by
  obtain ⟨pfx, priority, hpfx, rfl⟩ := h
  exact hpfx

theorem sameSlot_iff :
    a.sameSlot b = true ↔
      a.family = b.family ∧ a.pfx = b.pfx ∧ a.table = b.table ∧ a.metric = b.metric := by
  simp [RouteRow.sameSlot, and_assoc]

theorem RouteRow.HostRoute.metric_ne (h : a.HostRoute) (hb : b ∈ sentinels) :
    a.metric ≠ b.metric := by
  obtain ⟨pfx, ifIndex, gateway, _, rfl⟩ := h
  have hall : ∀ b ∈ sentinels, (1 : UInt32) ≠ b.metric := by decide
  exact hall b hb

theorem sentinels_sameSlot (ha : a ∈ sentinels) (hb : b ∈ sentinels)
    (h : a.sameSlot b = true) : a = b := by
  have hall : ∀ a ∈ sentinels, ∀ b ∈ sentinels, a.sameSlot b = true → a = b := by decide
  exact hall a ha b hb h

theorem RouteRow.HostRoute.sameSlot (ha : a.HostRoute) (hb : b.HostRoute) (h : a.pfx = b.pfx) :
    a.sameSlot b = true := by
  obtain ⟨pfx, ifIndex, gateway, _, rfl⟩ := ha
  obtain ⟨pfx', ifIndex', gateway', _, rfl⟩ := hb
  obtain rfl : pfx = pfx' := Option.some.inj h
  exact sameSlot_iff.mpr ⟨rfl, rfl, rfl, rfl⟩

end

-- === One operation ===

/-- When an operation keeps the invariant: a rule comes after its route and the
    defaults, and a row goes only when no rule needs it. -/
def Operation.Orderly (h : HostState) : Operation → Prop
  | .route row => row.Planned
  | .rule r => r.HostRule ∧ h.Guarded ∧ h.Routed r.pfx
  | .deleteRule _ => True
  | .deleteRoute row => ∀ r ∈ h.rules, r.table = endpointTable →
      row ∉ sentinels ∧ row.pfx ≠ r.pfx
  | .park _ | .deletePark _ => False

section Step

variable {describe : Prefix → String → RouteRow} {h h' : HostState} {row r : RouteRow}
  {rule : PolicyRule} {op : Operation}

theorem mem_replaced : r ∈ h.tables.filter (fun x => !x.sameSlot row) ++ [row] ↔
    (r ∈ h.tables ∧ r.sameSlot row = false) ∨ r = row := by
  simp

theorem HostState.Guarded.route (hg : h.Guarded) (hrow : row.Planned) :
    HostState.Guarded { h with tables := h.tables.filter (fun x => !x.sameSlot row) ++ [row] } := by
  intro s hs
  refine mem_replaced.mpr ?_
  cases hslot : s.sameSlot row with
  | false => exact .inl ⟨hg s hs, rfl⟩
  | true =>
    rcases hrow with hmem | hhost
    · exact .inr (sentinels_sameSlot hs hmem hslot)
    · exact absurd (sameSlot_iff.mp hslot).2.2.2.symm (hhost.metric_ne hs)

theorem HostState.Routed.route {pfx : Option Prefix} (hr : h.Routed pfx) (hrow : row.Planned) :
    HostState.Routed { h with tables := h.tables.filter (fun x => !x.sameSlot row) ++ [row] }
      pfx := by
  obtain ⟨r, hmem, hhost, rfl⟩ := hr
  cases hslot : r.sameSlot row with
  | false => exact ⟨r, mem_replaced.mpr (.inl ⟨hmem, hslot⟩), hhost, rfl⟩
  | true =>
    have hslots := sameSlot_iff.mp hslot
    rcases hrow with hsentinel | hhost'
    · exact absurd hslots.2.2.2 (hhost.metric_ne hsentinel)
    · exact ⟨row, mem_replaced.mpr (.inr rfl), hhost', hslots.2.1.symm⟩

theorem EndpointTableOk.route (hok : EndpointTableOk h) (hrow : row.Planned) :
    EndpointTableOk
      { h with tables := h.tables.filter (fun x => !x.sameSlot row) ++ [row] } where
  planned := by
    intro r hr htable
    rcases mem_replaced.mp hr with ⟨hmem, _⟩ | rfl
    · exact hok.planned r hmem htable
    · exact hrow
  oneRow := by
    intro a ha b hb htable hslot
    rcases mem_replaced.mp ha with ⟨hamem, hane⟩ | rfl
    · rcases mem_replaced.mp hb with ⟨hbmem, _⟩ | rfl
      · exact hok.oneRow a hamem b hbmem htable hslot
      · exact absurd hslot (by rw [hane]; decide)
    rcases mem_replaced.mp hb with ⟨_, hbne⟩ | rfl
    · refine absurd ?_ (ne_of_eq_of_ne hbne (by decide : false ≠ true))
      rw [sameSlot_iff] at hslot ⊢
      exact ⟨hslot.1.symm, hslot.2.1.symm, hslot.2.2.1.symm, hslot.2.2.2.symm⟩
    · rfl
  onceRow := by
    intro r htable
    by_cases hr : r = row
    · subst hr
      have hself : r.sameSlot r = true := sameSlot_iff.mpr ⟨rfl, rfl, rfl, rfl⟩
      have hzero : (h.tables.filter fun x => !x.sameSlot r).count r = 0 :=
        List.count_eq_zero.mpr fun hmem => by simpa [hself] using (List.mem_filter.mp hmem).2
      simp [hzero]
    · have hle := (List.filter_sublist (p := fun x => !x.sameSlot row) (l := h.tables)).count_le r
      simpa [Ne.symm hr] using hle.trans (hok.onceRow r htable)
  hostRule := hok.hostRule
  onceRule := hok.onceRule
  guarded := fun rule hrule htable => (hok.guarded rule hrule htable).route hrow
  routed := fun rule hrule htable => (hok.routed rule hrule htable).route hrow

theorem EndpointTableOk.eraseRule (hok : EndpointTableOk h) (rule : PolicyRule) :
    EndpointTableOk { h with rules := h.rules.erase rule } where
  planned := hok.planned
  oneRow := hok.oneRow
  onceRow := hok.onceRow
  hostRule := fun r hr => hok.hostRule r (List.mem_of_mem_erase hr)
  onceRule := fun r htable => (List.erase_sublist.count_le r).trans (hok.onceRule r htable)
  guarded := fun r hr => hok.guarded r (List.mem_of_mem_erase hr)
  routed := fun r hr => hok.routed r (List.mem_of_mem_erase hr)

theorem EndpointTableOk.addRule (hok : EndpointTableOk h) (hrule : rule.HostRule)
    (hguarded : h.Guarded) (hrouted : h.Routed rule.pfx) :
    EndpointTableOk { h with rules := h.rules.erase rule ++ [rule] } where
  planned := hok.planned
  oneRow := hok.oneRow
  onceRow := hok.onceRow
  hostRule := by
    intro r hr htable
    rcases List.mem_append.mp hr with hmem | hmem
    · exact hok.hostRule r (List.mem_of_mem_erase hmem) htable
    · exact List.mem_singleton.mp hmem ▸ hrule
  onceRule := by
    intro r htable
    have hone := hok.onceRule r htable
    simp only [List.count_append, List.count_singleton]
    by_cases hr : r = rule
    · subst hr
      rw [List.count_erase_self]
      simp only [BEq.rfl, if_true]
      omega
    · rw [List.count_erase_of_ne hr]
      simpa [Ne.symm hr] using hone
  guarded := fun _ _ _ => hguarded
  routed := by
    intro r hr htable
    rcases List.mem_append.mp hr with hmem | hmem
    · exact hok.routed r (List.mem_of_mem_erase hmem) htable
    · exact List.mem_singleton.mp hmem ▸ hrouted

theorem EndpointTableOk.eraseRow (hok : EndpointTableOk h)
    (hfree : ∀ rule ∈ h.rules, rule.table = endpointTable → row ∉ sentinels ∧ row.pfx ≠ rule.pfx) :
    EndpointTableOk { h with tables := h.tables.erase row } where
  planned := fun r hr => hok.planned r (List.mem_of_mem_erase hr)
  oneRow := fun a ha b hb =>
    hok.oneRow a (List.mem_of_mem_erase ha) b (List.mem_of_mem_erase hb)
  onceRow := fun r htable => (List.erase_sublist.count_le r).trans (hok.onceRow r htable)
  hostRule := hok.hostRule
  onceRule := hok.onceRule
  guarded := by
    intro rule hrule htable s hs
    refine (List.mem_erase_of_ne ?_).mpr (hok.guarded rule hrule htable s hs)
    rintro rfl
    exact (hfree rule hrule htable).1 hs
  routed := by
    intro rule hrule htable
    obtain ⟨r, hmem, hhost, hpfx⟩ := hok.routed rule hrule htable
    refine ⟨r, (List.mem_erase_of_ne ?_).mpr hmem, hhost, hpfx⟩
    rintro rfl
    exact (hfree rule hrule htable).2 hpfx

/-- One orderly operation keeps the table. -/
theorem EndpointTableOk.perform (hok : EndpointTableOk h) (horderly : op.Orderly h)
    (hop : h.perform describe op = some h') : EndpointTableOk h' := by
  cases op with
  | route row =>
    cases hop
    exact hok.route horderly
  | rule rule =>
    cases hop
    exact hok.addRule horderly.1 horderly.2.1 horderly.2.2
  | deleteRule rule =>
    simp only [perform] at hop
    split at hop <;> cases hop
    exact hok.eraseRule rule
  | deleteRoute row =>
    simp only [perform] at hop
    split at hop <;> cases hop
    exact hok.eraseRow horderly
  | park pfx | deletePark pfx => exact horderly.elim

end Step

-- === A whole plan ===

def OrderlyAll (describe : Prefix → String → RouteRow) : List Operation → HostState → Prop
  | [], _ => True
  | op :: ops, h => op.Orderly h ∧ ∀ h', h.perform describe op = some h' →
      OrderlyAll describe ops h'

section Plans

variable {describe : Prefix → String → RouteRow} {h h' : HostState} {ops ops' : List Operation}

/-- So do orderly operations, wherever they are cut off. -/
theorem EndpointTableOk.cutAt (hok : EndpointTableOk h) (horderly : OrderlyAll describe ops h)
    (hcut : CutAt describe ops h h') : EndpointTableOk h' := by
  induction hcut with
  | here => exact hok
  | within => exact hok.eraseRule _
  | next hop _ ih => exact ih (hok.perform horderly.1 hop) (horderly.2 _ hop)

theorem OrderlyAll.append (h1 : OrderlyAll describe ops h)
    (h2 : ∀ h', performAll describe ops h = some h' → OrderlyAll describe ops' h') :
    OrderlyAll describe (ops ++ ops') h := by
  induction ops generalizing h with
  | nil => exact h2 h rfl
  | cons op ops ih =>
    refine ⟨h1.1, fun h' hop => ih (h1.2 h' hop) fun h'' hrest => h2 h'' ?_⟩
    rw [performAll, hop]
    exact hrest

theorem CutAt.of_performAll (hops : performAll describe ops h = some h') :
    CutAt describe ops h h' := by
  induction ops generalizing h with
  | nil =>
    cases hops
    exact .here
  | cons op ops ih =>
    obtain ⟨h1, hop, hrest⟩ := Option.bind_eq_some_iff.mp hops
    exact .next hop (ih hrest)

theorem orderlyAll_deleteRules (rules : List PolicyRule) (h : HostState) :
    OrderlyAll describe (rules.map .deleteRule) h := by
  induction rules generalizing h with
  | nil => trivial
  | cons rule rules ih => exact ⟨trivial, fun h' _ => ih h'⟩

theorem orderlyAll_deleteRoutes {rows : List RouteRow}
    (hrows : ∀ row ∈ rows, (Operation.deleteRoute row).Orderly h) :
    OrderlyAll describe (rows.map .deleteRoute) h := by
  induction rows generalizing h with
  | nil => trivial
  | cons row rows ih =>
    rw [List.forall_mem_cons] at hrows
    refine ⟨hrows.1, fun h' hop => ih fun r hr => ?_⟩
    simp only [perform] at hop
    split at hop <;> cases hop
    exact hrows.2 r hr

theorem orderlyAll_routes {rows : List RouteRow} (hrows : ∀ row ∈ rows, row.Planned)
    (h : HostState) : OrderlyAll describe (rows.map .route) h := by
  induction rows generalizing h with
  | nil => trivial
  | cons row rows ih =>
    rw [List.forall_mem_cons] at hrows
    exact ⟨hrows.1, fun h' _ => ih hrows.2 h'⟩

theorem orderlyAll_desired {p : EndpointPolicy} {ks : KernelState}
    {desired : List RouteRow} (hdesired : ∀ row ∈ desired, row.HostRoute) (hg : h.Guarded)
    (hpresent : ∀ row ∈ desired, containsRoute ks.routes row = true → h.Routed row.pfx) :
    OrderlyAll describe (desired.flatMap fun row =>
      (if containsRoute ks.routes row then [] else [.route row]) ++
        (if p.ruleFor row ∈ ks.rules then [] else [.rule (p.ruleFor row)])) h := by
  induction desired generalizing h with
  | nil => trivial
  | cons row desired ih =>
    rw [List.forall_mem_cons] at hdesired hpresent
    rw [List.flatMap_cons, List.append_assoc]
    have hhost : (p.ruleFor row).HostRule := by
      obtain ⟨pfx, ifIndex, gateway, hpfx, rfl⟩ := hdesired.1
      exact ⟨pfx, p.priority, hpfx, rfl⟩
    -- the rule, and what follows
    have hrest : ∀ h : HostState, h.Guarded → h.Routed row.pfx →
        (∀ r ∈ desired, containsRoute ks.routes r = true → h.Routed r.pfx) →
        OrderlyAll describe ((if p.ruleFor row ∈ ks.rules then [] else [.rule (p.ruleFor row)]) ++
          desired.flatMap fun row => (if containsRoute ks.routes row then [] else [.route row]) ++
            (if p.ruleFor row ∈ ks.rules then [] else [.rule (p.ruleFor row)])) h := by
      intro h hg hr hp
      split
      · exact ih hdesired.2 hg hp
      · refine ⟨⟨hhost, hg, hr⟩, fun h' hop => ?_⟩
        cases hop
        exact ih hdesired.2 hg hp
    split
    · next hrow => exact hrest h hg (hpresent.1 hrow) hpresent.2
    refine ⟨.inr hdesired.1, fun h' hop => ?_⟩
    cases hop
    refine hrest _ (hg.route (.inr hdesired.1)) ?_ fun r hr hpr =>
      (hpresent.2 r hr hpr).route (.inr hdesired.1)
    exact ⟨row, mem_replaced.mpr (.inr rfl), hdesired.1, rfl⟩

end Plans

-- === Routes and rules that are added ===

section

variable {describe : Prefix → String → RouteRow} {h h' : HostState} {ks : KernelState}
  {ops : List Operation} {p : EndpointPolicy} {desired : List RouteRow} {row : RouteRow}

def Operation.Adds : Operation → Prop
  | .route _ | .rule _ => True
  | _ => False

theorem performAll_adds (describe : Prefix → String → RouteRow) (hops : ∀ op ∈ ops, op.Adds)
    (h : HostState) :
    ∃ h', performAll describe ops h = some h' := by
  induction ops generalizing h with
  | nil => exact ⟨h, rfl⟩
  | cons op ops ih =>
    rw [List.forall_mem_cons] at hops
    cases op with
    | route row => exact ih hops.2 _
    | rule rule => exact ih hops.2 _
    | _ => exact hops.1.elim

theorem mem_rules_of_adds (hops : ∀ op ∈ ops, op.Adds)
    (hh : performAll describe ops h = some h') (rule : PolicyRule) :
    rule ∈ h'.rules ↔ rule ∈ h.rules ∨ .rule rule ∈ ops := by
  induction ops generalizing h with
  | nil =>
    cases hh
    simp
  | cons op ops ih =>
    rw [List.forall_mem_cons] at hops
    cases op with
    | route row =>
      rw [ih hops.2 hh]
      simp
    | rule r =>
      rw [ih hops.2 hh]
      have hadd : rule ∈ h.rules.erase r ++ [r] ↔ rule ∈ h.rules ∨ rule = r := by
        by_cases heq : rule = r
        · simp [heq]
        · simp [heq, List.mem_erase_of_ne heq]
      rw [hadd, List.mem_cons, Operation.rule.injEq, or_assoc]
    | _ => exact hops.1.elim

theorem mem_tables_of_adds (hops : ∀ op ∈ ops, op.Adds)
    (hone : ∀ a b, .route a ∈ ops → .route b ∈ ops → a.sameSlot b = true → a = b)
    (hh : performAll describe ops h = some h') (row : RouteRow) :
    row ∈ h'.tables ↔
      .route row ∈ ops ∨ row ∈ h.tables ∧ ∀ r, .route r ∈ ops → row.sameSlot r = false := by
  induction ops generalizing h with
  | nil =>
    cases hh
    simp
  | cons op ops ih =>
    rw [List.forall_mem_cons] at hops
    have ih := fun h hh => ih (h := h) hops.2
      (fun a b ha hb => hone a b (List.mem_cons_of_mem op ha) (List.mem_cons_of_mem op hb)) hh
    cases op with
    | route r =>
      rw [ih _ hh]
      simp only [mem_replaced, List.mem_cons, Operation.route.injEq]
      constructor
      · rintro (hlater | ⟨⟨hmem, hslot⟩ | rfl, hslots⟩)
        · exact .inl (.inr hlater)
        · refine .inr ⟨hmem, ?_⟩
          rintro x (rfl | hx)
          · exact hslot
          · exact hslots x hx
        · exact .inl (.inl rfl)
      · rintro ((rfl | hlater) | ⟨hmem, hslots⟩)
        · -- a later route of the same slot is the same row
          by_cases hlater : .route row ∈ ops
          · exact .inl hlater
          refine .inr ⟨.inr rfl, fun x hx => ?_⟩
          cases hslot : row.sameSlot x with
          | false => rfl
          | true =>
            obtain rfl := hone row x List.mem_cons_self (List.mem_cons_of_mem _ hx) hslot
            exact absurd hx hlater
        · exact .inl hlater
        · exact .inr ⟨.inl ⟨hmem, hslots r (.inl rfl)⟩, fun x hx => hslots x (.inr hx)⟩
    | rule r =>
      rw [ih _ hh]
      simp
    | _ => exact hops.1.elim

theorem missing_adds (p : EndpointPolicy) (ks : KernelState) (desired : List RouteRow) :
    ∀ op ∈ p.missing ks desired, op.Adds := by
  intro op hop
  rcases mem_missing.mp hop with ⟨_, _, _, rfl⟩ | ⟨_, _, _, rfl⟩
  all_goals trivial

theorem route_mem_missing : .route row ∈ p.missing ks desired ↔
    (row ∈ sentinels ∨ row ∈ desired) ∧ containsRoute ks.routes row = false := by
  simp [mem_missing]

theorem rule_mem_missing {rule : PolicyRule} : .rule rule ∈ p.missing ks desired ↔
    (∃ row ∈ desired, rule = p.ruleFor row) ∧ rule ∉ ks.rules := by
  rw [mem_missing]
  constructor
  · rintro (⟨_, _, _, heq⟩ | ⟨row, hrow, hnot, heq⟩)
    · cases heq
    · cases heq
      exact ⟨⟨row, hrow, rfl⟩, hnot⟩
  · rintro ⟨⟨row, hrow, rfl⟩, hnot⟩
    exact .inr ⟨row, hrow, hnot, rfl⟩

end

-- === The plans are orderly ===

section

variable {describe : Prefix → String → RouteRow} {h h' : HostState} {ks : KernelState}
  {ops : List Operation} {p : EndpointPolicy} {desired : List RouteRow} {row : RouteRow}

theorem mem_routes_iff_of_table (hl : h.Lists describe ks) (htable : row.table = endpointTable) :
    row ∈ ks.routes ↔ row ∈ h.tables := by
  rw [hl.mem_iff]
  refine or_iff_left ?_
  rintro ⟨pfx, r, _, rfl⟩
  have hmain : (mainRow describe pfx r).table = managedSelectedRouteTable := by cases r <;> rfl
  rw [hmain] at htable
  exact absurd htable (by decide)

/-- The plan looks for a row that it would write, and finds it exactly when it is
    there. -/
theorem EndpointTableOk.containsRoute_iff (hok : EndpointTableOk h) (hl : h.Lists describe ks)
    (hrow : row.Planned) : containsRoute ks.routes row = true ↔ row ∈ h.tables := by
  have hsource : ∀ row : RouteRow, row.Planned → row.source = "" := by
    rintro row (hmem | hhost)
    · revert row
      decide
    · exact hhost.source
  unfold containsRoute
  rw [List.any_eq_true]
  constructor
  · rintro ⟨got, hgot, heq⟩
    have heq : { got with source := row.source } = row := of_decide_eq_true heq
    have htable : got.table = endpointTable := by
      rw [← hrow.table, ← heq]
    have hmem := (mem_routes_iff_of_table hl htable).mp hgot
    have : got = row := by
      rw [← heq, hsource row hrow, ← hsource got (hok.planned got hmem htable)]
    exact this ▸ hmem
  · intro hmem
    exact ⟨row, (mem_routes_iff_of_table hl hrow.table).mpr hmem, by simp⟩

theorem mem_diff_iff {α : Type} [DecidableEq α] {xs ys : List α} (honce : ∀ y ∈ ys, xs.count y ≤ 1)
    (x : α) : x ∈ xs.diff ys ↔ x ∈ xs ∧ x ∉ ys := by
  rw [← List.count_pos_iff, ← List.count_pos_iff, List.count_diff]
  by_cases hx : x ∈ ys
  · have hle := honce x hx
    have hpos := List.count_pos_iff.mpr hx
    simp only [hx, not_true_eq_false, and_false, iff_false]
    omega
  · rw [List.count_eq_zero.mpr hx]
    simp [hx]

theorem EndpointTableOk.mem_rules_of_deleted (hok : EndpointTableOk h) {rules : List PolicyRule}
    (hrules : ∀ rule ∈ rules, rule.table = endpointTable)
    (hh : performAll describe (rules.map .deleteRule) h = some h') (rule : PolicyRule) :
    rule ∈ h'.rules ↔ rule ∈ h.rules ∧ rule ∉ rules := by
  rw [performAll_deleteRules hh]
  exact mem_diff_iff (fun r hr => hok.onceRule r (hrules r hr)) rule

theorem EndpointTableOk.mem_tables_of_deleted (hok : EndpointTableOk h) {rows : List RouteRow}
    (hrows : ∀ row ∈ rows, row.table = endpointTable)
    (hh : performAll describe (rows.map .deleteRoute) h = some h') (row : RouteRow) :
    row ∈ h'.tables ↔ row ∈ h.tables ∧ row ∉ rows := by
  rw [performAll_deleteRoutes hh]
  exact mem_diff_iff (fun r hr => hok.onceRow r (hrows r hr)) row

theorem mem_rules_missing (hl : h.Lists describe ks)
    (hh : performAll describe (p.missing ks desired) h = some h') (rule : PolicyRule) :
    rule ∈ h'.rules ↔ rule ∈ h.rules ∨ ∃ row ∈ desired, rule = p.ruleFor row := by
  rw [mem_rules_of_adds (missing_adds p ks desired) hh, rule_mem_missing, hl.rules]
  tauto

/-- The host routes after what was missing is added: those that are desired, and the
    others at their prefixes. -/
theorem EndpointTableOk.mem_tables_missing (hok : EndpointTableOk h) (hl : h.Lists describe ks)
    (hdesired : ∀ row ∈ desired, row.HostRoute)
    (hone : ∀ a ∈ desired, ∀ b ∈ desired, a.pfx = b.pfx → a = b)
    (hh : performAll describe (p.missing ks desired) h = some h')
    (htable : row.table = endpointTable) :
    row ∈ h'.tables ↔ row ∈ sentinels ∨ row ∈ desired ∨
      row ∈ h.tables ∧ row.HostRoute ∧ ∀ r ∈ desired, r.pfx ≠ row.pfx := by
  have hplanned : ∀ r, .route r ∈ p.missing ks desired → r.Planned ∧ r ∉ h.tables := by
    intro r hr
    obtain ⟨hwanted, hnot⟩ := route_mem_missing.mp hr
    have hr : r.Planned := hwanted.imp_right (hdesired r)
    refine ⟨hr, fun hmem => ?_⟩
    rw [(hok.containsRoute_iff hl hr).mpr hmem] at hnot
    cases hnot
  have hslots : ∀ a b, (a ∈ sentinels ∨ a ∈ desired) → (b ∈ sentinels ∨ b ∈ desired) →
      a.sameSlot b = true → a = b := by
    rintro a b (ha | ha) (hb | hb) hslot
    · exact sentinels_sameSlot ha hb hslot
    · exact absurd (sameSlot_iff.mp hslot).2.2.2.symm ((hdesired b hb).metric_ne ha)
    · exact absurd (sameSlot_iff.mp hslot).2.2.2 ((hdesired a ha).metric_ne hb)
    · exact hone a ha b hb (sameSlot_iff.mp hslot).2.1
  rw [mem_tables_of_adds (missing_adds p ks desired) (fun a b ha hb =>
    hslots a b (route_mem_missing.mp ha).1 (route_mem_missing.mp hb).1) hh, route_mem_missing]
  have hnotIn : ∀ row : RouteRow, row.Planned →
      (containsRoute ks.routes row = false ↔ row ∉ h.tables) := fun row hrow => by
    rw [← hok.containsRoute_iff hl hrow, Bool.not_eq_true]
  constructor
  · rintro (⟨hwanted, _⟩ | ⟨hmem, hslot⟩)
    · exact hwanted.imp_right .inl
    rcases hok.planned row hmem htable with hsentinel | hhost
    · exact .inl hsentinel
    by_cases hpfx : ∃ r ∈ desired, r.pfx = row.pfx
    · obtain ⟨r, hr, hpfx⟩ := hpfx
      have hsame := hhost.sameSlot (hdesired r hr) hpfx.symm
      by_cases hrmem : r ∈ h.tables
      · exact .inr (.inl (hok.oneRow row hmem r hrmem htable hsame ▸ hr))
      have hroute := route_mem_missing (p := p).mpr
        ⟨.inr hr, (hnotIn r (.inr (hdesired r hr))).mpr hrmem⟩
      rw [hslot r hroute] at hsame
      cases hsame
    · push Not at hpfx
      exact .inr (.inr ⟨hmem, hhost, hpfx⟩)
  · intro hcases
    by_cases hmem : row ∈ h.tables
    · refine .inr ⟨hmem, fun r hr => ?_⟩
      cases hslot : row.sameSlot r with
      | false => rfl
      | true =>
        obtain ⟨hwanted, _⟩ := route_mem_missing.mp hr
        have heq : row = r := by
          rcases hcases with hs | hd | ⟨_, hhost, hfree⟩
          · exact hslots row r (.inl hs) hwanted hslot
          · exact hslots row r (.inr hd) hwanted hslot
          · rcases hwanted with hs | hd
            · exact absurd (sameSlot_iff.mp hslot).2.2.2 (hhost.metric_ne hs)
            · exact absurd (sameSlot_iff.mp hslot).2.1.symm (hfree r hd)
        exact absurd (heq ▸ hmem) (hplanned r hr).2
    · have hwanted : row ∈ sentinels ∨ row ∈ desired :=
        hcases.imp_right fun hd => hd.resolve_right fun hin => hmem hin.1
      exact .inl ⟨hwanted, (hnotIn row (hwanted.imp_right (hdesired row))).mpr hmem⟩

theorem orderlyAll_missing (hok : EndpointTableOk h) (hl : h.Lists describe ks)
    (hdesired : ∀ row ∈ desired, row.HostRoute) :
    OrderlyAll describe (p.missing ks desired) h := by
  have hsentinels : ∀ row ∈ sentinels.filter (fun row => !containsRoute ks.routes row),
      row.Planned := fun row hrow => .inl (List.mem_of_mem_filter hrow)
  refine (orderlyAll_routes hsentinels h).append fun h1 hh1 => ?_
  -- the first part is what is missing for no routes: the sentinels are there, and every
  -- host route stays
  have hh1 : performAll describe (p.missing ks []) h = some h1 := by
    simpa [EndpointPolicy.missing] using hh1
  have hmem : ∀ {row : RouteRow}, row.table = endpointTable → (row ∈ h1.tables ↔ _) :=
    hok.mem_tables_missing hl (by simp) (by simp) hh1
  refine orderlyAll_desired hdesired
    (fun s hs => (hmem (table_of_mem_sentinels hs)).mpr (.inl hs)) fun row hrow hc => ?_
  have hhost := hdesired row hrow
  have hrow := (hok.containsRoute_iff hl (.inr hhost)).mp hc
  exact ⟨row, (hmem hhost.table).mpr (.inr (.inr ⟨hrow, hhost, by simp⟩)), hhost, rfl⟩

/-- The rules that are left once the stale ones are deleted are those of other roles
    and the desired ones. -/
theorem EndpointTableOk.mem_rules_left (hok : EndpointTableOk h) (hl : h.Lists describe ks)
    {h1 : HostState} (hok1 : EndpointTableOk h1)
    (hdesired : ∀ row ∈ desired, row.HostRoute)
    (hrules : ∀ rule, rule ∈ h1.rules ↔ rule ∈ h.rules ∨ ∃ row ∈ desired, rule = p.ruleFor row)
    (hh : performAll describe ((p.staleRules ks desired).map .deleteRule) h1 = some h')
    (rule : PolicyRule) : rule ∈ h'.rules ↔
      (rule ∈ h.rules ∧ ¬ p.OwnRule rule) ∨ ∃ row ∈ desired, rule = p.ruleFor row := by
  have htable : ∀ rule ∈ p.staleRules ks desired, rule.table = endpointTable :=
    fun rule hrule => (mem_staleRules.mp hrule).2.1.1
  rw [hok1.mem_rules_of_deleted htable hh, hrules, mem_staleRules, hl.rules]
  constructor
  · rintro ⟨hmem | hnew, hkept⟩
    · by_cases hown : p.OwnRule rule
      · right
        have hpfx : ∃ row ∈ desired, row.pfx = rule.pfx := by
          by_contra hnone
          push Not at hnone
          exact hkept ⟨hmem, hown, hnone⟩
        obtain ⟨row, hrow, hpfx⟩ := hpfx
        obtain ⟨q, priority, _, rfl⟩ := hok.hostRule rule hmem hown.1
        obtain ⟨q', ifIndex, gateway, _, rfl⟩ := hdesired row hrow
        obtain rfl : q' = q := Option.some.inj hpfx
        obtain rfl : priority = p.priority := hown.2.1
        exact ⟨_, hrow, rfl⟩
      · exact .inl ⟨hmem, hown⟩
    · exact .inr hnew
  · rintro (⟨hmem, hnot⟩ | ⟨row, hrow, rfl⟩)
    · exact ⟨.inl hmem, fun hstale => hnot hstale.2.1⟩
    · exact ⟨.inr ⟨row, hrow, rfl⟩, fun hstale => hstale.2.2 row hrow rfl⟩

theorem EndpointTableOk.stale_orderly (hok : EndpointTableOk h) (hl : h.Lists describe ks)
    {h2 : HostState} (hrules : ∀ rule, rule ∈ h2.rules ↔
      (rule ∈ h.rules ∧ ¬ p.OwnRule rule) ∨ ∃ row ∈ desired, rule = p.ruleFor row) :
    ∀ row ∈ p.staleRoutes ks desired, (Operation.deleteRoute row).Orderly h2 := by
  intro row hrow rule hrule htable
  obtain ⟨_, hhost, hwanted, hfree⟩ := mem_staleRoutes.mp hrow
  constructor
  · intro hsentinel
    simp [RouteRow.endpointHost, kind_of_mem_sentinels hsentinel] at hhost
  intro hpfx
  rcases (hrules rule).mp hrule with ⟨hmem, hnot⟩ | ⟨r, hr, rfl⟩
  · have htoHost := (hok.hostRule rule hmem htable).toHost
    refine hwanted ⟨rule, hl.rules ▸ hmem, htable, fun hpriority => ?_, htoHost, hpfx.symm⟩
    exact hnot ⟨htable, hpriority, htoHost⟩
  · exact hfree r hr hpfx.symm

/-- The planned operations are orderly. -/
theorem EndpointTableOk.orderly (hok : EndpointTableOk h) (hl : h.Lists describe ks)
    (hmetric : ∀ route ∈ p.routes, route.metric = 1) {remove : Bool}
    (hplan : endpointPolicyPlan ks p remove = .ok ops) : OrderlyAll describe ops h := by
  cases remove with
  | false =>
    obtain ⟨desired, hdesired, rfl⟩ := plan_reconcile hplan
    have hhost := (hostRoutes_desired hdesired hmetric).1
    have hmissing := orderlyAll_missing (p := p) hok hl hhost
    refine (hmissing.append fun h1 _ => orderlyAll_deleteRules _ h1).append fun h2 hh2 => ?_
    rw [performAll_append] at hh2
    obtain ⟨h1, hh1, hh2⟩ := Option.bind_eq_some_iff.mp hh2
    refine orderlyAll_deleteRoutes (hok.stale_orderly hl (hok.mem_rules_left hl
      (hok.cutAt hmissing (.of_performAll hh1)) hhost (mem_rules_missing hl hh1) hh2))
  | true =>
    rw [plan_remove hplan]
    refine ((orderlyAll_deleteRules _ h).append fun h1 hh1 => ?_).append fun h2 hh2 => ?_
    · exact orderlyAll_deleteRoutes (hok.stale_orderly hl (hok.mem_rules_left hl hok
        (nofun) (fun rule => by simp) hh1))
    rw [performAll_append] at hh2
    obtain ⟨h1, hh1, hh2⟩ := Option.bind_eq_some_iff.mp hh2
    have hleft : ∀ rule, rule ∈ h1.rules ↔ (rule ∈ h.rules ∧ ¬ p.OwnRule rule) ∨
        ∃ row ∈ ([] : List RouteRow), rule = p.ruleFor row :=
      hok.mem_rules_left hl hok (nofun)
        (fun rule => by simp) hh1
    rw [performAll_deleteRoutes hh2]
    refine orderlyAll_deleteRoutes fun row hrow rule hrule htable => ?_
    -- the defaults go only when every rule is one of the policy
    obtain ⟨hmem, hnot⟩ := ((hleft rule).mp hrule).resolve_right (by simp)
    unfold staleSentinels at hrow
    split at hrow
    · cases hrow
    next hnone =>
    refine absurd ⟨htable, ?_, (hok.hostRule rule hmem htable).toHost⟩ hnot
    by_contra hpriority
    exact hnone (List.any_eq_true.mpr ⟨rule, hl.rules ▸ hmem, by simp [htable, hpriority]⟩)

end

-- === Every state of a run ===

section

variable {describe : Prefix → String → RouteRow} {h h' : HostState}

theorem mem_endpointRows {row : RouteRow} :
    row ∈ h.endpointRows ↔ row ∈ h.tables ∧ row.table = endpointTable := by
  simp [endpointRows]

theorem mem_endpointRules {rule : PolicyRule} :
    rule ∈ h.endpointRules ↔ rule ∈ h.rules ∧ rule.table = endpointTable := by
  simp [endpointRules]

theorem count_endpointRows {row : RouteRow} (htable : row.table = endpointTable) :
    h.endpointRows.count row = h.tables.count row :=
  List.count_filter (decide_eq_true htable)

theorem count_endpointRules {rule : PolicyRule} (htable : rule.table = endpointTable) :
    h.endpointRules.count rule = h.rules.count rule :=
  List.count_filter (decide_eq_true htable)

/-- What happens elsewhere is no matter. -/
theorem EndpointTableOk.outside (hok : EndpointTableOk h)
    (hrows : h'.endpointRows = h.endpointRows) (hrules : h'.endpointRules = h.endpointRules) :
    EndpointTableOk h' := by
  have hrowCount : ∀ {row}, row.table = endpointTable →
      h'.tables.count row = h.tables.count row := by
    intro row htable
    rw [← count_endpointRows htable, hrows, count_endpointRows htable]
  have hruleCount : ∀ {rule}, rule.table = endpointTable →
      h'.rules.count rule = h.rules.count rule := by
    intro rule htable
    rw [← count_endpointRules htable, hrules, count_endpointRules htable]
  have hrow : ∀ {row}, row.table = endpointTable → (row ∈ h'.tables ↔ row ∈ h.tables) := by
    intro row htable
    rw [← List.count_pos_iff, hrowCount htable, List.count_pos_iff]
  have hrule : ∀ {rule}, rule.table = endpointTable → (rule ∈ h'.rules ↔ rule ∈ h.rules) := by
    intro rule htable
    rw [← List.count_pos_iff, hruleCount htable, List.count_pos_iff]
  constructor
  · exact fun row hmem htable => hok.planned row ((hrow htable).mp hmem) htable
  · intro a ha b hb htable hslot
    have hb' : b.table = endpointTable := (sameSlot_iff.mp hslot).2.2.1 ▸ htable
    exact hok.oneRow a ((hrow htable).mp ha) b ((hrow hb').mp hb) htable hslot
  · exact fun row htable => (hrowCount htable).trans_le (hok.onceRow row htable)
  · exact fun rule hmem htable => hok.hostRule rule ((hrule htable).mp hmem) htable
  · exact fun rule htable => (hruleCount htable).trans_le (hok.onceRule rule htable)
  · intro rule hmem htable s hs
    exact (hrow (table_of_mem_sentinels hs)).mpr
      (hok.guarded rule ((hrule htable).mp hmem) htable s hs)
  · intro rule hmem htable
    obtain ⟨row, hrow', hhost, hpfx⟩ := hok.routed rule ((hrule htable).mp hmem) htable
    exact ⟨row, (hrow hhost.table).mpr hrow', hhost, hpfx⟩

theorem EndpointTableOk.start (hrows : h.endpointRows = []) (hrules : h.endpointRules = []) :
    EndpointTableOk h := by
  have hempty : EndpointTableOk { h with tables := [], rules := [] } := by
    constructor <;> simp
  exact hempty.outside hrows hrules

/-- The invariant holds in every state of a run, also in the middle of a call. -/
theorem EndpointRun.tableOk (hrun : EndpointRun describe h) : EndpointTableOk h := by
  induction hrun with
  | start hrows hrules => exact .start hrows hrules
  | outside _ hrows hrules ih => exact ih.outside hrows hrules
  | call _ hmetric hcall ih =>
    obtain ⟨ks, ops, hl, hplan, hcut⟩ := hcall
    exact ih.cutAt (ih.orderly hl hmetric hplan) hcut

end

end Kikimora.Platform

import Kikimora.Platform.RouteManager

/-!
# The routing executor

The row view of the routing tables that the endpoint policies and the legacy
parks work on, and what the operations of a transaction do to the tables. The
rules are those of the Linux executor.
-/

namespace Kikimora.Platform

open Net Routing

-- === Rows ===

/-- The kinds under which a snapshot lists a route. -/
inductive RowKind
  | route
  | unreachable
  | park
  deriving DecidableEq, Repr

/-- A `routing.Operation` that a snapshot lists among the routes. Its prefix is
    `none` where the text does not parse. -/
structure RouteRow where
  kind : RowKind := .route
  family : Nat := 0
  pfx : Option Prefix
  table : Int
  ifIndex : Int := 0
  metric : UInt32 := 0
  gateway : String := ""
  source : String := ""
  protocol : Int := 0
  deriving DecidableEq, Repr

/-- A `routing.Operation` that a snapshot lists among the rules. -/
structure PolicyRule where
  family : Nat
  pfx : Option Prefix
  table : Int
  priority : Int
  deriving DecidableEq, Repr

structure KernelState where
  routes : List RouteRow := []
  rules : List PolicyRule := []

/-- A `routing.Operation` of a transaction, by its kind. -/
inductive Operation
  /-- `route` and `unreachable`, by the kind of the row -/
  | route (row : RouteRow)
  | deleteRoute (row : RouteRow)
  | rule (rule : PolicyRule)
  | deleteRule (rule : PolicyRule)
  | park (pfx : Prefix)
  | deletePark (pfx : Prefix)
  deriving DecidableEq, Repr

/-- Steps one after the other up to the first that fails; what was done before it stays. -/
def applyEach {α σ : Type} (step : α → σ → Except String σ) : List α → σ → Except String Unit × σ
  | [], s => (.ok (), s)
  | a :: rest, s =>
    match step a s with
    | .error e => (.error e, s)
    | .ok s => applyEach step rest s

theorem applyEach_cons {α σ : Type} {step : α → σ → Except String σ} {a : α} {rest : List α}
    {s : σ} (s' : σ) (h : step a s = .ok s') :
    applyEach step (a :: rest) s = applyEach step rest s' := by
  simp only [applyEach, h]

def staticProtocol : Int := 4

def endpointTable : Int := 51890

def familyV4 : Nat := 2

def familyV6 : Nat := 10

def familyOf (pfx : Prefix) : Nat := if pfx.addr.bitLen = 128 then familyV6 else familyV4

def legacyPark : SelectedParkIdentity where
  kind := .unreachable
  table := managedSelectedRouteTable
  ifIndex := 0
  nextHop := ""
  protocol := staticProtocol
  metric := managedParkMetric
  scope := 0
  interfaceLuid := 0

-- === Tables ===

/-- The main table by prefix, the rows of all other tables, and the rules. -/
structure HostState where
  main : Kernel := fun _ => []
  tables : List RouteRow := []
  rules : List PolicyRule := []

/-- How a snapshot lists a row of the main table; `describe` gives the row behind
    the description of a foreign one. -/
def mainRow (describe : Prefix → String → RouteRow) (pfx : Prefix) : SelectedKernelRow → RouteRow
  | .route i =>
    { kind := .route, family := familyOf pfx, pfx := some pfx, table := managedSelectedRouteTable,
      ifIndex := i.ifIndex, metric := i.metric, gateway := i.nextHop, protocol := i.protocol }
  | .park i =>
    { kind := .unreachable, family := familyOf pfx, pfx := some pfx,
      table := managedSelectedRouteTable, ifIndex := i.ifIndex, metric := i.metric,
      gateway := i.nextHop, protocol := i.protocol }
  | .foreign text => { describe pfx text with pfx := some pfx, table := managedSelectedRouteTable }

def takesParkMetric (describe : Prefix → String → RouteRow) (pfx : Prefix)
    (row : SelectedKernelRow) : Bool :=
  (mainRow describe pfx row).metric = managedParkMetric

def deletedAsPark (describe : Prefix → String → RouteRow) (pfx : Prefix)
    (row : SelectedKernelRow) : Bool :=
  (mainRow describe pfx row).metric = managedParkMetric &&
    (mainRow describe pfx row).protocol = staticProtocol

def RouteRow.sameSlot (a b : RouteRow) : Bool :=
  a.family = b.family && a.pfx = b.pfx && a.table = b.table && a.metric = b.metric

namespace HostState

def withMain (h : HostState) (k : Kernel) : HostState := { h with main := k }

/-- `applyOperation`, when no system call fails for a reason of its own: deleting
    what is not there is an error, adding a park over a row of its metric is
    not. -/
def perform (describe : Prefix → String → RouteRow) (h : HostState) : Operation → Option HostState
  | .route row => some { h with tables := h.tables.filter (fun r => !r.sameSlot row) ++ [row] }
  | .deleteRoute row =>
    if row ∈ h.tables then some { h with tables := h.tables.erase row } else none
  | .rule rule => some { h with rules := h.rules.erase rule ++ [rule] }
  | .deleteRule rule => if rule ∈ h.rules then some { h with rules := h.rules.erase rule } else none
  | .park pfx =>
    if (h.main pfx).any (takesParkMetric describe pfx) then some h
    else some (h.withMain fun q => if q = pfx then h.main q ++ [.park legacyPark] else h.main q)
  | .deletePark pfx =>
    if (h.main pfx).any (deletedAsPark describe pfx) then
      some (h.withMain fun q =>
        if q = pfx then (h.main q).filter (fun row => !deletedAsPark describe pfx row)
        else h.main q)
    else none

def performAll (describe : Prefix → String → RouteRow) : List Operation → HostState →
    Option HostState
  | [], h => some h
  | op :: ops, h => (h.perform describe op).bind (performAll describe ops)

def HasRow (describe : Prefix → String → RouteRow) (h : HostState) (row : RouteRow) : Prop :=
  row ∈ h.tables ∨ ∃ pfx r, r ∈ h.main pfx ∧ row = mainRow describe pfx r

/-- The contract of a snapshot: it lists the rows of all tables, each row outside
    the main table as often as it is there, and the rules. -/
structure Lists (describe : Prefix → String → RouteRow) (h : HostState) (ks : KernelState) :
    Prop where
  routes : ∃ main, ks.routes.Perm (main ++ h.tables) ∧
    ∀ row, row ∈ main ↔ ∃ pfx r, r ∈ h.main pfx ∧ row = mainRow describe pfx r
  rules : ks.rules = h.rules

theorem Lists.mem_iff {describe : Prefix → String → RouteRow} {h : HostState} {ks : KernelState}
    (hl : h.Lists describe ks) (row : RouteRow) : row ∈ ks.routes ↔ h.HasRow describe row := by
  obtain ⟨main, hperm, hmain⟩ := hl.routes
  rw [hperm.mem_iff, List.mem_append, hmain]
  exact or_comm

theorem Lists.count_filter {describe : Prefix → String → RouteRow} {h : HostState}
    {ks : KernelState} (hl : h.Lists describe ks) {P : RouteRow → Bool}
    (hP : ∀ row, P row = true → row.table ≠ managedSelectedRouteTable) (row : RouteRow) :
    (ks.routes.filter P).count row = if P row then h.tables.count row else 0 := by
  obtain ⟨main, hperm, hmain⟩ := hl.routes
  have hnone : main.filter P = [] := by
    refine List.filter_eq_nil_iff.mpr fun r hr hPr => hP r hPr ?_
    obtain ⟨pfx, x, _, rfl⟩ := (hmain r).mp hr
    cases x <;> rfl
  rw [(hperm.filter P).count_eq, List.filter_append, hnone, List.nil_append]
  split
  · next hrow => exact List.count_filter hrow
  · next hrow => exact List.count_eq_zero.mpr fun hmem => hrow (List.mem_filter.mp hmem).2

section Perform

variable {describe : Prefix → String → RouteRow} {h h' : HostState}

theorem performAll_append (ops ops' : List Operation) (h : HostState) :
    performAll describe (ops ++ ops') h =
      (performAll describe ops h).bind (performAll describe ops') := by
  induction ops generalizing h with
  | nil => rfl
  | cons op ops ih =>
    simp only [List.cons_append, performAll]
    cases h.perform describe op with
    | none => rfl
    | some h1 => exact ih h1

theorem performAll_keeps {P : HostState → Prop} {ops : List Operation}
    (hstep : ∀ op ∈ ops, ∀ h h', P h → h.perform describe op = some h' → P h')
    (hp : P h) (hops : performAll describe ops h = some h') : P h' := by
  induction ops generalizing h with
  | nil =>
    cases hops
    exact hp
  | cons op ops ih =>
    obtain ⟨h1, h1eq, hrest⟩ := Option.bind_eq_some_iff.mp hops
    exact ih (fun op' hmem => hstep op' (List.mem_cons_of_mem op hmem))
      (hstep op List.mem_cons_self h h1 hp h1eq) hrest

theorem performAll_deleteRules {rules : List PolicyRule}
    (hh : performAll describe (rules.map .deleteRule) h = some h') :
    h' = { h with rules := h.rules.diff rules } := by
  induction rules generalizing h with
  | nil =>
    cases hh
    rfl
  | cons rule rules ih =>
    simp only [List.map_cons, performAll, perform] at hh
    split at hh
    · rw [ih hh, List.diff_cons]
    · cases hh

theorem performAll_deleteRoutes {rows : List RouteRow}
    (hh : performAll describe (rows.map .deleteRoute) h = some h') :
    h' = { h with tables := h.tables.diff rows } := by
  induction rows generalizing h with
  | nil =>
    cases hh
    rfl
  | cons row rows ih =>
    simp only [List.map_cons, performAll, perform] at hh
    split at hh
    · rw [ih hh, List.diff_cons]
    · cases hh

theorem performAll_deleteParks {prefixes : List Prefix}
    (hh : performAll describe (prefixes.map .deletePark) h = some h') :
    h'.tables = h.tables ∧ h'.rules = h.rules ∧ ∀ pfx row, row ∈ h'.main pfx ↔
      row ∈ h.main pfx ∧ ¬ (pfx ∈ prefixes ∧ deletedAsPark describe pfx row = true) := by
  induction prefixes generalizing h with
  | nil =>
    cases hh
    simp
  | cons p prefixes ih =>
    simp only [List.map_cons, performAll, perform] at hh
    split at hh
    · obtain ⟨htables, hrules, hmain⟩ := ih hh
      refine ⟨htables, hrules, fun pfx row => ?_⟩
      rw [hmain]
      simp only [withMain, List.mem_cons]
      by_cases hpfx : pfx = p
      · subst hpfx
        simp only [if_true, List.mem_filter, Bool.not_eq_true', true_or, true_and]
        constructor
        · rintro ⟨⟨hrow, hnot⟩, _⟩
          exact ⟨hrow, by simp [hnot]⟩
        · rintro ⟨hrow, hnot⟩
          exact ⟨⟨hrow, by simpa using hnot⟩, fun hand => hnot hand.2⟩
      · simp only [hpfx, if_false, false_or]
    · cases hh

/-- Adding the parks of a list of prefixes leaves all rows and takes the park metric at
    every prefix. -/
theorem performAll_parks {prefixes : List Prefix}
    (hh : performAll describe (prefixes.map .park) h = some h') :
    (∀ pfx row, row ∈ h.main pfx → row ∈ h'.main pfx) ∧
    (∀ pfx row, row ∈ h'.main pfx →
      row ∈ h.main pfx ∨ pfx ∈ prefixes ∧ row = .park legacyPark) ∧
    ∀ pfx ∈ prefixes, ∃ row ∈ h'.main pfx, takesParkMetric describe pfx row = true := by
  induction prefixes generalizing h with
  | nil =>
    cases hh
    exact ⟨fun _ _ h => h, fun _ _ h => .inl h, nofun⟩
  | cons p prefixes ih =>
    obtain ⟨h1, h1eq, hrest⟩ := Option.bind_eq_some_iff.mp hh
    obtain ⟨hkeep, hnew, htaken⟩ := ih hrest
    have hone : (∀ pfx row, row ∈ h.main pfx → row ∈ h1.main pfx) ∧
        (∀ pfx row, row ∈ h1.main pfx → row ∈ h.main pfx ∨ pfx = p ∧ row = .park legacyPark) ∧
        ∃ row ∈ h1.main p, takesParkMetric describe p row = true := by
      simp only [perform] at h1eq
      split at h1eq
      · next htaken =>
        cases h1eq
        exact ⟨fun _ _ h => h, fun _ _ h => .inl h, List.any_eq_true.mp htaken⟩
      cases h1eq
      simp only [withMain]
      refine ⟨fun pfx row hrow => ?_, fun pfx row hrow => ?_, .park legacyPark, ?_, rfl⟩
      · split
        · exact List.mem_append_left _ hrow
        · exact hrow
      · split at hrow
        · next hpfx =>
          exact (List.mem_append.mp hrow).imp_right fun h => ⟨hpfx, List.mem_singleton.mp h⟩
        · exact .inl hrow
      · rw [if_true]
        exact List.mem_append_right _ (List.mem_singleton_self _)
    refine ⟨fun pfx row hrow => hkeep pfx row (hone.1 pfx row hrow), fun pfx row hrow => ?_, ?_⟩
    · rcases hnew pfx row hrow with hrow | ⟨hpfx, hrow⟩
      · rcases hone.2.1 pfx row hrow with hrow | ⟨rfl, hrow⟩
        · exact .inl hrow
        · exact .inr ⟨List.mem_cons_self, hrow⟩
      · exact .inr ⟨List.mem_cons_of_mem p hpfx, hrow⟩
    · refine List.forall_mem_cons.mpr ⟨?_, htaken⟩
      obtain ⟨row, hrow, htakes⟩ := hone.2.2
      exact ⟨row, hkeep p row hrow, htakes⟩

end Perform

end HostState

end Kikimora.Platform

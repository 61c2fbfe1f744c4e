import Kikimora.Control.Frame
import Kikimora.Control.Ownership
import Kikimora.Control.Retirement

/-!
# The release of a role

An explicit disconnect releases what the driver owns for a role. A legacy role
and a role with managed selected routes take two separately written ways.
-/

namespace Kikimora.Control

open Net Routing Platform Kikimora.Core Lib
open RecoveryDriver

-- === What a release owes ===

/-- A park installed for the role at the prefix: a managed role names it in a
    record, for a legacy role the executor was asked for it. -/
def ParkOf (d : RecoveryDriver) (role : String) (s : DriverSystem) (pfx : Prefix)
    (i : SelectedParkIdentity) : Prop :=
  if d.managedSelected role then
    ∃ e, s.world.registry.lookup ⟨role, pfx⟩ = some e ∧ e.NamesPark i
  else pfx ∈ s.installed role ∧ i = legacyPark

/-- The ownership checkpoint of the role names no route. A managed role without a
    state directory keeps none. -/
def CheckpointEmpty (d : RecoveryDriver) (role : String) (s : DriverSystem) : Prop :=
  if d.managedSelected role then
    d.selectedRoutes.stateDir role = true →
      ∀ c, s.world.disk role = some c → c.entries.getD [] = []
  else ∀ c, s.files role = .found c → c.baseline = [] ∧ c.observed = [] ∧ c.parked = []

/-- The product shows no resource of the role. -/
structure ShowsNothing (runtime : RoleRuntime) : Prop where
  publication : runtime.publication.published = false
  parking : runtime.parking.active = false ∧ runtime.parking.prefixes = []
  endpoint : runtime.endpoint.state ≠ "ready"

def WantedOnlyBy (d : RecoveryDriver) (role : String) (s : DriverSystem) (row : RouteRow) : Prop :=
  row.endpointHost = true ∧ (∃ pfx ∈ s.wanted role, row.pfx = some pfx) ∧
    ¬ (d.policy role).WantedByOther s.rules row.pfx

instance (d : RecoveryDriver) (role : String) (s : DriverSystem) (row : RouteRow) :
    Decidable (WantedOnlyBy d role s row) :=
  inferInstanceAs (Decidable (_ ∧ _ ∧ _))

/-- What the release of a role owes that goes from `s` to `s'`: everything of the
    role is gone, and nothing of another role has changed. -/
structure FullyReleased (d : RecoveryDriver) (role : String) (s s' : DriverSystem) : Prop where
  publication : s'.publications (d.policy role).zone = none
  rules : ∀ rule ∈ s'.rules, ¬ (d.policy role).OwnRule rule
  routes : ∀ row ∈ s'.tables, ¬ WantedOnlyBy d role s row
  parks : ∀ pfx i, ParkOf d role s pfx i → .park i ∉ s'.world.kernel pfx
  checkpoint : CheckpointEmpty d role s'
  product : ∀ runtime, s'.world.runtime role = some runtime → ShowsNothing runtime
  otherPublications : ∀ zone, zone ≠ (d.policy role).zone →
    s'.publications zone = s.publications zone
  otherRules : ∀ rule, ¬ (d.policy role).OwnRule rule → (rule ∈ s'.rules ↔ rule ∈ s.rules)
  otherRoutes : ∀ row, row.endpointHost = true → (d.policy role).WantedByOther s.rules row.pfx →
    (row ∈ s'.tables ↔ row ∈ s.tables)
  otherParks : ∀ other, other ≠ role → ∀ pfx i, ParkOf d other s pfx i →
    (.park i ∈ s'.world.kernel pfx ↔ .park i ∈ s.world.kernel pfx)

-- === What it needs ===

/-- The release of a legacy role will delete the parks at the prefix: they are known
    in memory, or in the checkpoint as long as that has not been loaded. -/
def Tracked (d : RecoveryDriver) (role : String) (s : DriverSystem) (pfx : Prefix) : Prop :=
  d.executor = true ∧
    match s.memory.ownershipLoaded role, s.files role with
    | false, .found c => pfx ∈ c.parked.map OwnedRoute.pfx
    | _, _ => pfx ∈ s.memory.parks role

/-- The state before the release of a legacy role: its product entry shows neither
    parks nor an endpoint policy, since it is written back as it was, every park of
    the role is tracked, and no park of another role is at a tracked prefix. -/
structure LegacyReady (d : RecoveryDriver) (role : String) (s : DriverSystem) : Prop where
  leshy : d.leshy = false → s.publications (d.policy role).zone = none
  policy : d.routes = false → (∀ rule ∈ s.rules, ¬ (d.policy role).OwnRule rule) ∧
    ∀ row ∈ s.tables, ¬ WantedOnlyBy d role s row
  parks : ∀ pfx ∈ s.installed role, .park legacyPark ∈ s.world.kernel pfx → Tracked d role s pfx
  product : ∀ runtime, s.world.runtime role = some runtime →
    (d.leshy = false → runtime.publication.published = false) ∧
    (runtime.parking.active = false ∧ runtime.parking.prefixes = []) ∧
    runtime.endpoint.state ≠ "ready"
  alone : ∀ other, other ≠ role → ∀ pfx i, ParkOf d other s pfx i → Tracked d role s pfx →
    .park i ∈ s.world.kernel pfx → deletedAsPark d.describe pfx (.park i) = false

def ShownPark (e : SelectedRoute) : Prop :=
  ∃ p, e.park = some p ∧ p.owned.isSome = true ∧ (p.state = .active ∨ p.state = .retiring)

/-- The state before the release of a managed role: nothing is published and no
    endpoint policy is there, since neither is touched, no record is left out by the
    flush of the zone or forgotten by the retirement, and no park is shared. -/
structure ManagedReady (d : RecoveryDriver) (role : String) (s : DriverSystem) : Prop where
  publication : s.publications (d.policy role).zone = none
  rules : ∀ rule ∈ s.rules, ¬ (d.policy role).OwnRule rule
  routes : ∀ row ∈ s.tables, ¬ WantedOnlyBy d role s row
  product : ∀ runtime, s.world.runtime role = some runtime → runtime.endpoint.state ≠ "ready" ∧
    ∀ e ∈ s.world.registry.snapshot role, e.zone ≠ (d.policy role).zone → ¬ ShownPark e
  zone : ∀ e ∈ s.world.registry.snapshot role, e.zone ≠ (d.policy role).zone →
    d.selectedRoutes.stateDir role = false ∧ ∀ i, e.NamesPark i → .park i ∉ s.world.kernel e.pfx
  pending : ∀ e ∈ s.world.registry.snapshot role, e.zone = (d.policy role).zone →
    ¬ PendingParkInstalled e.pfx e s.world
  alone : ∀ other, other ≠ role → ∀ e ∈ s.world.registry.snapshot role,
    e.zone = (d.policy role).zone → ∀ i, ParkOf d other s e.pfx i → e.NamesPark i →
    .park i ∉ s.world.kernel e.pfx

def ReleaseReady (d : RecoveryDriver) (role : String) (s : DriverSystem) : Prop :=
  if d.managedSelected role then ManagedReady d role s else LegacyReady d role s

-- === Programs of the driver that return ===

namespace RecoveryDriver

section Returning

variable {α β : Type} {d : RecoveryDriver} {name label : String} {s s' : DriverSystem} {u : Unit}

theorem returns_service {c : RecoveryCall (Except String α)} {a : α} :
    (service c).Returns (RecoveryStep d) s a s' ↔ RecoveryStep d c s (.ok a) s' := by
  simp only [service, Prog.returns_bind, Prog.returns_perform, Prog.returns_ofExcept]
  constructor
  · rintro ⟨x, s1, hstep, hx, rfl⟩
    cases x with
    | error e => cases hx
    | ok b =>
      cases hx
      exact hstep
  · exact fun h => ⟨_, _, h, rfl, rfl⟩

theorem returns_peek {f : DriverMemory → β} {b : β}
    (h : (peek f).Returns (RecoveryStep d) s b s') : b = f s.memory ∧ s' = s :=
  Prog.returns_perform.mp h

theorem returns_remember {f : DriverMemory → DriverMemory}
    (h : (remember f).Returns (RecoveryStep d) s u s') : s' = { s with memory := f s.memory } :=
  (Prog.returns_perform.mp h).2

theorem returns_labelled {p : RecoveryM α} {a : α}
    (h : (labelled label p).Returns (RecoveryStep d) s a s') : p.Returns (RecoveryStep d) s a s' :=
  h.of_tryCatch.resolve_right fun ⟨_, _, hfail⟩ => Prog.returns_fail hfail

theorem returns_attempt {p : RecoveryM Unit}
    (h : (attempt p).Returns (RecoveryStep d) s none s') : p.Returns (RecoveryStep d) s () s' :=
  Prog.Returns.of_attempt h

theorem returns_productRole {x : RoleRuntime}
    (h : (productRole name).Returns (RecoveryStep d) s x s') :
    x = (s.world.runtime name).getD {} ∧ s' = s :=
  Prog.returns_perform.mp h

theorem returns_role {x : RoleEntry × RoleRuntime}
    (h : (d.role name).Returns (RecoveryStep d) s x s') :
    d.roles name = some x.1 ∧ x.2 = (s.world.runtime name).getD {} ∧ s' = s := by
  unfold role at h
  split at h
  · exact absurd h Prog.returns_fail
  next r hr =>
  obtain ⟨product, s1, hproduct, hret⟩ := Prog.returns_bind.mp h
  obtain ⟨rfl, rfl⟩ := returns_productRole hproduct
  obtain ⟨rfl, rfl⟩ := Prog.returns_ret.mp hret
  exact ⟨hr, rfl, rfl⟩

theorem returns_path (h : (d.ownershipCheckpointPath name).Returns (RecoveryStep d) s u s') :
    s' = s := by
  obtain ⟨⟨r, product⟩, s1, hrole, hpath⟩ := Prog.returns_bind.mp h
  obtain ⟨-, -, rfl⟩ := returns_role hrole
  dsimp only at hpath
  split at hpath
  · exact absurd hpath Prog.returns_fail
  · exact (Prog.returns_ret.mp hpath).2

def ownershipCheckpoint (name : String) (r : RoleEntry) (m : DriverMemory) : ParkingCheckpoint where
  role := name
  iface := r.interfaceName
  ifIndex := r.ifIndex
  baseline := m.baselines name
  observed := m.ownership name
  parked := (m.parks name).map fun pfx => ⟨name, r.interfaceName, r.ifIndex, pfx⟩

theorem returns_writeOwnershipCheckpoint
    (h : (d.writeOwnershipCheckpoint name).Returns (RecoveryStep d) s u s') : ∃ r, s' = { s with
      files := setAt s.files name (.found (ownershipCheckpoint name r s.memory)) } := by
  obtain ⟨_, s1, hpath, hafter⟩ := Prog.returns_bind.mp h
  obtain rfl := returns_path hpath
  obtain ⟨⟨r, product⟩, s2, hrole, hmemory⟩ := Prog.returns_bind.mp hafter
  obtain ⟨-, -, rfl⟩ := returns_role hrole
  obtain ⟨m, s3, hrecall, hwrite⟩ := Prog.returns_bind.mp hmemory
  obtain ⟨rfl, rfl⟩ := returns_peek hrecall
  rcases returns_service.mp hwrite with ⟨_, rfl⟩ | ⟨_, herr, _⟩
  · exact ⟨r, rfl⟩
  · cases herr

theorem returns_parkingSnapshot {kernel : KernelState}
    (h : d.parkingSnapshot.Returns (RecoveryStep d) s kernel s') :
    d.executor = true ∧ s.host.Lists d.describe kernel ∧ s' = s := by
  unfold parkingSnapshot at h
  split at h
  · exact absurd h Prog.returns_fail
  next hexecutor =>
  obtain ⟨rfl, ⟨ks, hks, hlists⟩ | ⟨_, herr⟩⟩ := returns_service.mp h
  · cases hks
    exact ⟨by simpa using hexecutor, hlists, rfl⟩
  · cases herr

def RestoredParks (d : RecoveryDriver) (name : String) (s : DriverSystem) (parks : List Prefix) :
    Prop :=
  match s.memory.ownershipLoaded name, s.files name with
  | false, .found c => ∃ kernel, s.host.Lists d.describe kernel ∧
      parks = (c.parked.map OwnedRoute.pfx).filter (parkListed kernel)
  | _, _ => parks = s.memory.parks name

def OwnedBefore (name : String) (s : DriverSystem) (o : OwnedRoute) : Prop :=
  o ∈ s.memory.ownership name ∨ s.memory.ownershipLoaded name = false ∧
    ∃ c, s.files name = .found c ∧ o ∈ restoredOwnership name c

theorem returns_restoreFrom {c : ParkingCheckpoint}
    (h : (d.restoreFrom name c).Returns (RecoveryStep d) s u s') :
    ∃ m files kernel, s' = { s with memory := m, files := files } ∧
      s.host.Lists d.describe kernel ∧
      m.parks name = (c.parked.map OwnedRoute.pfx).filter (parkListed kernel) ∧
      ∀ o ∈ m.ownership name, o ∈ restoredOwnership name c := by
  obtain ⟨⟨r, product⟩, s1, hrole, hrestore⟩ := Prog.returns_bind.mp h
  obtain ⟨-, -, rfl⟩ := returns_role hrole
  dsimp only at hrestore
  split at hrestore
  · exact absurd hrestore Prog.returns_fail
  next hname =>
  obtain ⟨_, s2, hverified, hrest⟩ := Prog.returns_bind.mp hrestore
  obtain ⟨kernel, s3, hsnapshot, hremember⟩ := Prog.returns_bind.mp hverified
  obtain ⟨-, hlists, rfl⟩ := returns_parkingSnapshot hsnapshot
  obtain rfl := returns_remember hremember
  obtain rfl : c.role = name := not_not.mp hname
  split at hrest
  · obtain ⟨_, s4, hcleared, hwrite⟩ := Prog.returns_bind.mp hrest
    obtain rfl := returns_remember hcleared
    obtain ⟨_, rfl⟩ := returns_writeOwnershipCheckpoint hwrite
    refine ⟨_, _, kernel, rfl, hlists, setAt_self _ _ _, fun o ho => ?_⟩
    dsimp only at ho
    rw [setAt_self] at ho
    cases ho
  · obtain rfl := returns_remember hrest
    refine ⟨_, s3.files, kernel, rfl, hlists, setAt_self _ _ _, fun o ho => ?_⟩
    dsimp only at ho
    rwa [setAt_self] at ho

theorem returns_restoreOwnershipCheckpoint
    (h : (d.restoreOwnershipCheckpoint name).Returns (RecoveryStep d) s u s') :
    ∃ m files, s' = { s with memory := m, files := files } ∧
      RestoredParks d name s (m.parks name) ∧ ∀ o ∈ m.ownership name, OwnedBefore name s o := by
  obtain ⟨loaded, s1, hrecall, hload⟩ := Prog.returns_bind.mp h
  obtain ⟨rfl, rfl⟩ := returns_peek hrecall
  unfold RestoredParks
  split at hload
  · next hloaded =>
    obtain ⟨-, rfl⟩ := Prog.returns_ret.mp hload
    exact ⟨s'.memory, s'.files, rfl, by rw [hloaded], fun _ ho => .inl ho⟩
  next hloaded =>
  rw [Bool.not_eq_true] at hloaded
  rw [hloaded]
  obtain ⟨_, s2, hpath, hread⟩ := Prog.returns_bind.mp hload
  obtain rfl := returns_path hpath
  obtain ⟨file, s3, hfile, hrest⟩ := Prog.returns_bind.mp hread
  obtain ⟨rfl, rfl⟩ := Prog.returns_perform.mp hfile
  cases hf : s3.files name with
  | missing =>
    rw [hf] at hrest
    obtain rfl := returns_remember hrest
    exact ⟨_, s3.files, rfl, rfl, fun _ ho => .inl ho⟩
  | undecodable message =>
    rw [hf] at hrest
    obtain ⟨_, s4, hset, hquarantine⟩ := Prog.returns_bind.mp hrest
    obtain rfl := returns_remember hset
    rcases Prog.returns_perform.mp hquarantine with rfl | rfl
    · exact ⟨_, s3.files, rfl, rfl, fun _ ho => .inl ho⟩
    · exact ⟨_, _, rfl, rfl, fun _ ho => .inl ho⟩
  | found c =>
    rw [hf] at hrest
    obtain ⟨m, files, kernel, rfl, hlists, hparks, howned⟩ := returns_restoreFrom hrest
    exact ⟨m, files, rfl, ⟨kernel, hlists, hparks⟩,
      fun o ho => .inr ⟨hloaded, c, hf, howned o ho⟩⟩

theorem returns_updateRoleResources {endpoint : EndpointState} {publication : PublicationState}
    {parking : ParkingState} {validation : ValidationResult}
    (h : (updateRoleResources name endpoint publication parking validation).Returns
      (RecoveryStep d) s u s') : s' = { s with world := { s.world with
      runtime := updatedResources name endpoint publication parking validation
        s.world.runtime } } :=
  (Prog.returns_perform.mp h).2

theorem returns_releasePublication {zone : String} {product : RoleRuntime} (hzone : zone ≠ "")
    (h : (d.releasePublication name zone product).Returns (RecoveryStep d) s () s') :
    ∃ k, LeshyEdits s.world.kernel k ∧ s' = { s with
      world := { s.world.withKernel k with
        runtime := if d.leshy = true then
            updatedResources name product.endpoint {} product.parking product.validation
              s.world.runtime
          else s.world.runtime }
      publications := if d.leshy = true then setAt s.publications zone none
        else s.publications } := by
  unfold releasePublication at h
  split at h
  · next hnone =>
    obtain ⟨-, rfl⟩ := Prog.returns_ret.mp h
    have hleshy := hnone.resolve_left hzone
    exact ⟨s'.world.kernel, fun _ _ _ => Iff.rfl, by simp [hleshy, World.withKernel]⟩
  next hsome =>
  have hleshy : d.leshy = true := by
    simpa using (not_or.mp hsome).2
  obtain ⟨_, s1, hwithdraw, hupdate⟩ := Prog.returns_bind.mp h
  obtain ⟨k, published, hedits, ⟨_, rfl⟩ | ⟨_, herr, _⟩, rfl⟩ :=
    returns_service.mp (returns_labelled hwithdraw)
  · obtain rfl := returns_updateRoleResources hupdate
    exact ⟨k, hedits, by simp [hleshy, World.withKernel]⟩
  · cases herr

/-- What is left of the endpoint policies, with the main table and everything that
    is no route or rule as before. -/
structure PolicyReleased (d : RecoveryDriver) (policy : EndpointPolicy) (s s' : DriverSystem) :
    Prop where
  kernel : s'.world.kernel = s.world.kernel
  runtime : s'.world.runtime = s.world.runtime
  publications : s'.publications = s.publications
  memory : s'.memory = s.memory
  rules : ∀ rule, rule ∈ s'.rules ↔ rule ∈ s.rules ∧ (d.routes = true → ¬ policy.OwnRule rule)
  routes : ∀ row, row.endpointHost = true → (row ∈ s'.tables ↔ row ∈ s.tables ∧
    (d.routes = true → policy.WantedByOther s.rules row.pfx))

theorem returns_releaseEndpointPolicy {policy : EndpointPolicy} (hvalid : policy.valid = true)
    (h : (d.releaseEndpointPolicy name policy).Returns (RecoveryStep d) s () s') :
    PolicyReleased d policy s s' := by
  unfold releaseEndpointPolicy at h
  rw [hvalid] at h
  cases hroutes : d.routes with
  | false =>
    rw [hroutes, if_pos (by decide)] at h
    obtain ⟨-, rfl⟩ := Prog.returns_ret.mp h
    exact ⟨rfl, rfl, rfl, rfl, by simp [hroutes], by simp [hroutes]⟩
  | true =>
    rw [hroutes, if_neg (by decide)] at h
    rcases returns_service.mp (returns_labelled h) with
      ⟨_, herr, _⟩ | ⟨ks, ops, hlists, hplan, done, host, ⟨_, rfl⟩ | ⟨_, _, herr, _⟩, hall, rfl⟩
    · cases herr
    · refine ⟨removal_main hplan hall, rfl, rfl, rfl, fun rule => ?_, fun row hhost => ?_⟩
      · refine (removal_rules hlists hplan hall rule).trans ?_
        simp [hroutes, DriverSystem.host]
      · refine (removal_routes hlists hplan hall hhost).trans ?_
        simp [hroutes, DriverSystem.host]
    · cases herr

/-- What is left when the parks, the ownership and its checkpoint are released. -/
structure ParksReleased (d : RecoveryDriver) (name : String) (s s' : DriverSystem) : Prop where
  runtime : s'.world.runtime = s.world.runtime
  publications : s'.publications = s.publications
  tables : s'.tables = s.tables
  rules : s'.rules = s.rules
  rows : ∀ pfx row, row ∈ s'.world.kernel pfx ↔ row ∈ s.world.kernel pfx ∧
    ¬ (d.executor = true ∧ pfx ∈ s.memory.parks name ∧ deletedAsPark d.describe pfx row = true)
  file : ∃ c, s'.files name = .found c ∧ c.baseline = [] ∧ c.observed = [] ∧ c.parked = []

theorem returns_clear (h : (d.clear name).Returns (RecoveryStep d) s () s') :
    s'.world.runtime = s.world.runtime ∧ s'.publications = s.publications ∧
    s'.tables = s.tables ∧ s'.rules = s.rules ∧ s'.memory.parks name = [] ∧
    ∀ pfx row, row ∈ s'.world.kernel pfx ↔ row ∈ s.world.kernel pfx ∧
      ¬ (d.executor = true ∧ pfx ∈ s.memory.parks name ∧
        deletedAsPark d.describe pfx row = true) := by
  obtain ⟨prefixes, s1, hmemory, hdelete⟩ := Prog.returns_bind.mp h
  obtain ⟨rfl, rfl⟩ := Prog.returns_perform.mp hmemory
  split at hdelete
  · next hnone =>
    obtain ⟨-, rfl⟩ := Prog.returns_ret.mp hdelete
    simp only [Bool.or_eq_true, Bool.not_eq_true', List.isEmpty_iff] at hnone
    rcases hnone with hexecutor | hparks
    · simp [hexecutor]
    · simp [hparks]
  · next hsome =>
    obtain ⟨done, host, ⟨_, rfl⟩ | ⟨_, _, herr, _⟩, hall, rfl⟩ := returns_service.mp hdelete
    · obtain ⟨htables, hrules, hmain⟩ := HostState.performAll_deleteParks hall
      simp only [Bool.or_eq_true, not_or, Bool.not_eq_true', Bool.not_eq_false] at hsome
      refine ⟨rfl, rfl, htables, hrules, setAt_self _ _ _, fun pfx row => ?_⟩
      refine (hmain pfx row).trans ?_
      simp [hsome.1, DriverSystem.host]
    · cases herr

theorem returns_releaseParks (h : (d.releaseParks name).Returns (RecoveryStep d) s [] s') :
    ParksReleased d name s s' := by
  obtain ⟨parks, s1, hclear, hrest⟩ := Prog.returns_bind.mp h
  obtain ⟨_, s2, hremember, hwrite⟩ := Prog.returns_bind.mp hrest
  obtain rfl := returns_remember hremember
  obtain ⟨checkpoint, s3, hcheckpoint, hret⟩ := Prog.returns_bind.mp hwrite
  obtain ⟨hnil, rfl⟩ := Prog.returns_ret.mp hret
  obtain ⟨hparks, hfile⟩ := List.append_eq_nil_iff.mp hnil.symm
  obtain rfl : parks = none := by simpa using hparks
  obtain rfl : checkpoint = none := by simpa using hfile
  obtain ⟨hruntime, hpublications, htables, hrules, hnone, hrows⟩ :=
    returns_clear (returns_labelled (returns_attempt hclear))
  obtain ⟨r, rfl⟩ :=
    returns_writeOwnershipCheckpoint (returns_labelled (returns_attempt hcheckpoint))
  refine ⟨hruntime, hpublications, htables, hrules, hrows, _, setAt_self _ _ _, setAt_self _ _ _,
    setAt_self _ _ _, ?_⟩
  simp only [ownershipCheckpoint, hnone, List.map_nil]

/-- What the release of a legacy role leaves, by the parks that it knew of. -/
structure LegacyReleased (d : RecoveryDriver) (name : String) (product : RoleRuntime)
    (parks : List Prefix) (s s' : DriverSystem) : Prop where
  restored : RestoredParks d name s parks
  publications : s'.publications = if d.leshy = true then
    setAt s.publications (d.policy name).zone none else s.publications
  rules : ∀ rule, rule ∈ s'.rules ↔
    rule ∈ s.rules ∧ (d.routes = true → ¬ (d.policy name).OwnRule rule)
  routes : ∀ row, row.endpointHost = true → (row ∈ s'.tables ↔ row ∈ s.tables ∧
    (d.routes = true → (d.policy name).WantedByOther s.rules row.pfx))
  rows : ∀ pfx i, .park i ∈ s'.world.kernel pfx ↔ .park i ∈ s.world.kernel pfx ∧
    ¬ (d.executor = true ∧ pfx ∈ parks ∧ deletedAsPark d.describe pfx (.park i) = true)
  file : ∃ c, s'.files name = .found c ∧ c.baseline = [] ∧ c.observed = [] ∧ c.parked = []
  runtime : s'.world.runtime = if d.leshy = true then
      updatedResources name product.endpoint {} product.parking product.validation s.world.runtime
    else s.world.runtime

theorem returns_releaseLegacy {r : RoleEntry} {product : RoleRuntime}
    (hentry : d.roles name = some r) (hvalid : (d.policy name).valid = true)
    (h : (d.releaseLegacy name r product).Returns (RecoveryStep d) s () s') :
    ∃ parks, LegacyReleased d name product parks s s' := by
  have hpolicy : effectiveEndpointPolicy r.cfg = d.policy name := by
    rw [policy, hentry]
    rfl
  have hzone : (d.policy name).zone ≠ "" := by
    simp only [EndpointPolicy.valid, Bool.and_eq_true, decide_eq_true_eq] at hvalid
    exact hvalid.1.2
  unfold releaseLegacy at h
  rw [hpolicy] at h
  obtain ⟨_, s1, hload, h1⟩ := Prog.returns_bind.mp h
  obtain ⟨m, files, rfl, hrestored, -⟩ :=
    returns_restoreOwnershipCheckpoint (returns_labelled hload)
  obtain ⟨⟨parked, owned⟩, s2, hrecall, h2⟩ := Prog.returns_bind.mp h1
  obtain ⟨-, rfl⟩ := returns_peek hrecall
  obtain ⟨publication, s3, hpublication, h3⟩ := Prog.returns_bind.mp h2
  obtain ⟨endpoint, s4, hendpoint, h4⟩ := Prog.returns_bind.mp h3
  obtain ⟨rest, s5, hparks, h5⟩ := Prog.returns_bind.mp h4
  dsimp only at h5
  split at h5
  · next hnone =>
    simp only [List.isEmpty_iff, List.append_eq_nil_iff, Option.toList_eq_nil_iff] at hnone
    obtain ⟨⟨rfl, rfl⟩, rfl⟩ := hnone
    obtain ⟨-, rfl⟩ := Prog.returns_ret.mp h5
    obtain ⟨k, hedits, rfl⟩ := returns_releasePublication hzone (returns_attempt hpublication)
    have hp := returns_releaseEndpointPolicy hvalid (returns_attempt hendpoint)
    have hr := returns_releaseParks hparks
    refine ⟨m.parks name, hrestored, hr.publications.trans hp.publications, ?_, ?_, ?_, hr.file,
      hr.runtime.trans hp.runtime⟩
    · rw [hr.rules]
      exact hp.rules
    · rw [hr.tables]
      exact hp.routes
    · intro pfx i
      rw [hr.rows, hp.kernel, hp.memory]
      exact and_congr_left' (hedits pfx (.park i) nofun)
  · exact absurd h5 Prog.returns_fail

end Returning

end RecoveryDriver

-- === A legacy role ===

section

variable {d : RecoveryDriver} {role : String} {s s' : DriverSystem} {parks : List Prefix}

section

variable {endpoint : EndpointState} {publication : PublicationState} {parking : ParkingState}
  {validation : ValidationResult} {roles : String → Option RoleRuntime}

theorem updatedResources_none (h : roles role = none) :
    updatedResources role endpoint publication parking validation roles role = none := by
  simp only [updatedResources, Controller.updateRoleResources, Controller.update, h,
    Option.bind_none]

theorem updatedResources_some {runtime : RoleRuntime} (h : roles role = some runtime) :
    ∃ runtime', updatedResources role endpoint publication parking validation roles role =
      some runtime' ∧ runtime'.endpoint = endpoint ∧ runtime'.publication = publication ∧
      runtime'.parking = parking := by
  simp only [updatedResources, Controller.updateRoleResources, Controller.update, h,
    Option.bind_some, Controller.roles_bump, Controller.roles_setRole, if_true]
  exact ⟨_, rfl, rfl, rfl, rfl⟩

theorem showsNothing_updated :
    (∀ runtime, updatedResources role endpoint {} parking validation roles role = some runtime →
      ShowsNothing runtime) ↔
    ∀ runtime, roles role = some runtime →
      (parking.active = false ∧ parking.prefixes = []) ∧ endpoint.state ≠ "ready" := by
  cases hr : roles role with
  | none =>
    rw [updatedResources_none hr]
    simp
  | some runtime =>
    obtain ⟨runtime', hr', rfl, hpublication, rfl⟩ : ∃ runtime',
        updatedResources role endpoint {} parking validation roles role = some runtime' ∧ _ :=
      updatedResources_some hr
    rw [hr']
    simp only [Option.some.injEq, forall_eq']
    exact ⟨fun h => ⟨h.parking, h.endpoint⟩, fun h => ⟨by rw [hpublication], h.1, h.2⟩⟩

end

theorem deletedAsPark_legacyPark (pfx : Prefix) :
    deletedAsPark d.describe pfx (.park legacyPark) = true := rfl

/-- Where a park is in the kernel, the checkpoint's word for it is as good as the
    memory's. -/
theorem tracked_iff (h : RestoredParks d role s parks) {pfx : Prefix} {i : SelectedParkIdentity}
    (hrow : .park i ∈ s.world.kernel pfx)
    (hdel : deletedAsPark d.describe pfx (.park i) = true) :
    d.executor = true ∧ pfx ∈ parks ↔ Tracked d role s pfx := by
  refine and_congr_right fun _ => ?_
  unfold RestoredParks at h
  split at h
  · next c _ hfile =>
    obtain ⟨kernel, hlists, rfl⟩ := h
    have hlisted : parkListed kernel pfx = true := by
      refine List.any_eq_true.mpr ⟨mainRow d.describe pfx (.park i),
        (hlists.mem_iff _).mpr (.inr ⟨pfx, _, hrow, rfl⟩), ?_⟩
      simp only [deletedAsPark, Bool.and_eq_true, decide_eq_true_eq] at hdel
      have hmetric : i.metric = managedParkMetric := hdel.1
      simp [mainRow, hmetric]
    simp [List.mem_filter, hlisted]
  · rw [h]

/-- A release of a legacy role does what it owes exactly from the states that it
    needs. -/
theorem legacyReleased_iff (hlegacy : d.managedSelected role = false)
    (h : LegacyReleased d role ((s.world.runtime role).getD {}) parks s s') :
    FullyReleased d role s s' ↔ LegacyReady d role s := by
  have hgone : ∀ pfx i, .park i ∈ s.world.kernel pfx → (.park i ∉ s'.world.kernel pfx ↔
      Tracked d role s pfx ∧ deletedAsPark d.describe pfx (.park i) = true) := by
    intro pfx i hrow
    rw [h.rows, not_and_not_right]
    constructor
    · intro hdeleted
      obtain ⟨hexecutor, hmem, hdel⟩ := hdeleted hrow
      exact ⟨(tracked_iff h.restored hrow hdel).mp ⟨hexecutor, hmem⟩, hdel⟩
    · rintro ⟨htracked, hdel⟩ -
      obtain ⟨hexecutor, hmem⟩ := (tracked_iff h.restored hrow hdel).mpr htracked
      exact ⟨hexecutor, hmem, hdel⟩
  have hproduct : (∀ runtime, s'.world.runtime role = some runtime → ShowsNothing runtime) ↔
      ∀ runtime, s.world.runtime role = some runtime →
        (d.leshy = false → runtime.publication.published = false) ∧
        (runtime.parking.active = false ∧ runtime.parking.prefixes = []) ∧
        runtime.endpoint.state ≠ "ready" := by
    rw [h.runtime]
    split
    · next hleshy =>
      rw [showsNothing_updated]
      refine forall_congr' fun runtime => forall_congr' fun hruntime => ?_
      simp [hleshy, hruntime]
    next hleshy =>
    refine forall_congr' fun runtime => forall_congr' fun _ => ?_
    rw [Bool.not_eq_true] at hleshy
    exact ⟨fun hs => ⟨fun _ => hs.publication, hs.parking, hs.endpoint⟩,
      fun hs => ⟨hs.1 hleshy, hs.2.1, hs.2.2⟩⟩
  have hstays : ∀ pfx i, .park i ∉ s.world.kernel pfx → .park i ∉ s'.world.kernel pfx :=
    fun pfx i hnot hrow => hnot ((h.rows pfx i).mp hrow).1
  constructor
  · intro hreleased
    refine ⟨fun hleshy => ?_, fun hroutes => ⟨fun rule hrule => ?_, fun row hrow honly => ?_⟩,
      fun pfx hpfx hrow => ?_, fun runtime hruntime => ?_,
      fun other hother pfx i hpark htracked hrow => ?_⟩
    · have := hreleased.publication
      rwa [h.publications, if_neg (by simp [hleshy])] at this
    · exact hreleased.rules rule ((h.rules rule).mpr ⟨hrule, by simp [hroutes]⟩)
    · exact hreleased.routes row ((h.routes row honly.1).mpr ⟨hrow, by simp [hroutes]⟩) honly
    · have hpark : ParkOf d role s pfx legacyPark := by
        rw [ParkOf, hlegacy, if_neg (by decide)]
        exact ⟨hpfx, rfl⟩
      exact ((hgone pfx legacyPark hrow).mp (hreleased.parks pfx legacyPark hpark)).1
    · exact hproduct.mp hreleased.product runtime hruntime
    by_contra hdel
    rw [Bool.not_eq_false] at hdel
    exact (hgone pfx i hrow).mpr ⟨htracked, hdel⟩
      ((hreleased.otherParks other hother pfx i hpark).mpr hrow)
  · intro hready
    refine ⟨?_, fun rule hrule hown => ?_, fun row hrow honly => ?_, fun pfx i hpark => ?_, ?_,
      hproduct.mpr hready.product, fun zone hzone => ?_, fun rule hown => ?_,
      fun row hhost hwanted => ?_, fun other hother pfx i hpark => ?_⟩
    · rw [h.publications]
      split
      · exact setAt_self _ _ _
      · next hleshy => exact hready.leshy (by simpa using hleshy)
    · obtain ⟨hmem, hroutes⟩ := (h.rules rule).mp hrule
      cases hd : d.routes with
      | true => exact hroutes hd hown
      | false => exact (hready.policy hd).1 rule hmem hown
    · obtain ⟨hmem, hroutes⟩ := (h.routes row honly.1).mp hrow
      cases hd : d.routes with
      | true => exact honly.2.2 (hroutes hd)
      | false => exact (hready.policy hd).2 row hmem honly
    · rw [ParkOf, hlegacy, if_neg (by decide)] at hpark
      obtain ⟨hpfx, rfl⟩ := hpark
      by_cases hrow : .park legacyPark ∈ s.world.kernel pfx
      · exact (hgone pfx legacyPark hrow).mpr
          ⟨hready.parks pfx hpfx hrow, deletedAsPark_legacyPark pfx⟩
      · exact hstays pfx legacyPark hrow
    · rw [CheckpointEmpty, hlegacy, if_neg (by decide)]
      obtain ⟨c, hfile, hempty⟩ := h.file
      intro c' hfile'
      rw [hfile] at hfile'
      cases hfile'
      exact hempty
    · rw [h.publications]
      split
      · exact setAt_of_ne _ _ hzone
      · rfl
    · rw [h.rules]
      exact and_iff_left fun _ => hown
    · rw [h.routes row hhost]
      exact and_iff_left fun _ => hwanted
    · refine ⟨fun hrow => ((h.rows pfx i).mp hrow).1, fun hrow => ?_⟩
      by_contra hnot
      obtain ⟨htracked, hdel⟩ := (hgone pfx i hrow).mp hnot
      rw [hready.alone other hother pfx i hpark htracked hrow] at hdel
      cases hdel

end

-- === Retirements that return ===

def Honest {α : Type} (p : ManagerM α) : Prop :=
  ∀ w a w', p.Returns FaultStep w a w' → p.run handle w = (.ok a, w')

section Honest

variable {α β : Type}

theorem Honest.ret (a : α) : Honest (.ret a : ManagerM α) := by
  intro w b w' h
  obtain ⟨rfl, rfl⟩ := Prog.returns_ret.mp h
  rfl

theorem Honest.fail (e : ManagerError) : Honest (.fail e : ManagerM α) :=
  fun _ _ _ h => absurd h Prog.returns_fail

theorem Honest.bind {p : ManagerM α} {f : α → ManagerM β} (h : Honest p)
    (hf : ∀ a, Honest (f a)) : Honest (p.bind f) := by
  intro w b w' hret
  obtain ⟨a, w1, hp, hfa⟩ := Prog.returns_bind.mp hret
  rw [Prog.run_bind, h w a w1 hp]
  exact hf a w1 b w' hfa

theorem Honest.memory (f : Memory → β × Memory) : Honest (Control.memory f) := by
  intro w b w' h
  rcases Prog.returns_perform.mp h with ⟨rfl, rfl⟩ | h
  · rfl
  · exact h.elim

theorem Honest.ofExcept (x : Except ManagerError α) : Honest (.ofExcept x : ManagerM α) := by
  cases x with
  | error e => exact .fail e
  | ok a => exact .ret a

theorem Honest.answered {c : Effect (Except String β)}
    (hc : ∀ w b w', FaultStep c w (.ok b) w' → handle c w = (.ok b, w')) :
    Honest ((Prog.perform c).bind fun r => .ofExcept (r.mapError .text) : ManagerM β) := by
  intro w b w' h
  obtain ⟨x, w1, hstep, hreturns⟩ := Prog.returns_bind.mp h
  obtain ⟨hx, rfl⟩ := Prog.returns_ofExcept.mp hreturns
  cases x with
  | error e => nomatch (show Except.error (ManagerError.text e) = .ok b from hx)
  | ok a =>
    obtain rfl : a = b := Except.ok.inj hx
    simp only [Prog.perform, Prog.call_bind, Prog.ret_bind, Prog.run,
      hc w a w' (Prog.returns_perform.mp hstep)]
    rfl

theorem routes_honest (c : RouteCall β) : Honest (routes c) := by
  refine .answered fun w b w' h => ?_
  rcases h with ⟨hb, rfl⟩ | ⟨_, _, herr, _⟩
  · exact Prod.ext hb.symm rfl
  · cases herr

theorem writeCheckpoint_honest (cfg : Config) (role : String) (generation : UInt64) :
    Honest (writeCheckpoint cfg role generation) := by
  unfold writeCheckpoint
  split
  · exact .ret ()
  refine .bind (.memory _) fun _ => .answered fun w b w' h => ?_
  rcases h with ⟨hb, rfl⟩ | ⟨_, herr, _⟩
  · exact Prod.ext hb.symm rfl
  · cases herr

theorem registry_honest (op : MemorySelectedRegistry → RegistryResult) : Honest (registry op) :=
  .bind (.memory _) fun _ => .ofExcept _

theorem checkpoint_honest (cfg : Config) (role : String) : Honest (checkpoint cfg role) :=
  .bind (.memory _) fun generation => writeCheckpoint_honest cfg role generation

theorem registryEntryDeref_honest (role : String) (pfx : Prefix) :
    Honest (registryEntryDeref role pfx) := by
  refine .bind (.memory _) fun record => ?_
  cases record with
  | none => exact .fail _
  | some record => exact .ret record

theorem retirePark_honest (cfg : Config) (role : String) (pfx : Prefix) (record : SelectedRoute) :
    Honest (retirePark cfg role pfx record) := by
  have hresume : Honest (resumeParkRetirementLocked cfg role pfx) := by
    refine .bind (.memory _) fun record => ?_
    split
    · exact .ret ()
    · exact .bind (routes_honest _) fun _ => .bind (registry_honest _) fun _ =>
        checkpoint_honest cfg role
  unfold retirePark
  split
  · exact .bind (registry_honest _) fun _ => checkpoint_honest cfg role
  · exact .bind (registry_honest _) fun _ => .bind (checkpoint_honest cfg role) fun _ => hresume
  · exact .bind (registry_honest _) fun _ => .bind (checkpoint_honest cfg role) fun _ => hresume
  · exact hresume
  · exact .ret ()
  · exact .ret ()

theorem retireRecordLocked_honest (cfg : Config) (role : String) (pfx : Prefix) :
    Honest (retireRecordLocked cfg role pfx) := by
  unfold retireRecordLocked
  split
  · exact .fail _
  refine .bind (.memory _) fun record => ?_
  cases record with
  | none => exact .ret ()
  | some record =>
    have hbegin : Honest (beginRetirement cfg role pfx record) := by
      unfold beginRetirement
      split
      · exact .ret record
      · exact .bind (registry_honest _) fun _ => .bind (checkpoint_honest cfg role) fun _ =>
          registryEntryDeref_honest role pfx
    exact .bind hbegin fun record => .bind (routes_honest _) fun _ =>
      .bind (retirePark_honest cfg role pfx record) fun _ => .bind (registry_honest _) fun _ =>
      .bind (checkpoint_honest cfg role) fun _ => .memory _

end Honest

-- === A managed role ===

/-- What the retirement of some records leaves when it returns: nothing of a record
    whose park was not forgotten, and everything else as before. -/
structure Flushed (role : String) (entries : List SelectedRoute) (w w' : World) : Prop where
  wellFormed : w'.registry.WellFormed
  runtime : w'.runtime = w.runtime
  gone : ∀ e ∈ entries, ¬ PendingParkInstalled e.pfx e w →
    w'.registry.lookup ⟨role, e.pfx⟩ = none ∧
      ∀ row, row ∈ w'.kernel e.pfx ↔ row ∈ w.kernel e.pfx ∧ ¬ e.NamesRow row
  forgotten : ∀ e ∈ entries, PendingParkInstalled e.pfx e w →
    ∃ i, e.NamesPark i ∧ .park i ∈ w'.kernel e.pfx
  records : ∀ key, (∀ e ∈ entries, key ≠ ⟨role, e.pfx⟩) →
    w'.registry.lookup key = w.registry.lookup key
  rows : ∀ pfx, (∀ e ∈ entries, pfx ≠ e.pfx) → w'.kernel pfx = w.kernel pfx

section Managed

variable {cfg : Config} {role : String} {w w' : World} {entries : List SelectedRoute}

theorem exec_runtime {α : Type} {p : ManagerM α} {trace : List (Event Effect World)}
    {o : Outcome ManagerError α} (h : Exec FaultStep p w trace o w') : w'.runtime = w.runtime := by
  induction h with
  | ret a s | fail e s | crash p s => rfl
  | call hb _ ih => exact ih.trans hb.runtime_eq

theorem returns_retireRecordLocked {pfx : Prefix} {e : SelectedRoute} (hw : w.registry.WellFormed)
    (hl : w.registry.lookup ⟨role, pfx⟩ = some e)
    (h : (retireRecordLocked cfg role pfx).Returns FaultStep w () w') :
    Reached ⟨role, pfx⟩ w w' ∧
    (¬ PendingParkInstalled pfx e w → Retired cfg role pfx e w w') ∧
    (PendingParkInstalled pfx e w → ∃ i, e.NamesPark i ∧ .park i ∈ w'.kernel pfx) := by
  have hroutes : cfg.routesResolved = true := by
    by_contra hnone
    unfold retireRecordLocked at h
    rw [if_pos (by simpa using hnone)] at h
    exact Prog.returns_fail h
  have hrun := retireRecordLocked_honest cfg role pfx w () w' h
  refine ⟨?_, fun hpending => ?_, ?_⟩
  · have hstays : Stays ⟨role, pfx⟩ (retireRecordLocked cfg role pfx) Any :=
      retireRecordLocked_stays cfg role
    have hreached := hstays.reached w
    rw [hrun] at hreached
    exact hreached.1
  · obtain ⟨trace, he⟩ := h
    exact (upholding_sound (retireRecordLocked_keeps hw hroutes hl hpending) he).2 () rfl
  · rintro ⟨p, i, hp, hs, ho, hi⟩
    refine ⟨i, ⟨p, hp, .inl ho⟩, ?_⟩
    rcases (runs_retireRecordLocked_pending hw hroutes hl hp hs hi).ofHandler with
      ⟨⟨⟩, _, hrow⟩ | ⟨_, _, hfalse⟩
    · rwa [hrun] at hrow
    · exact hfalse.elim

theorem Flushed.cons {e : SelectedRoute} {w1 : World}
    (hnodup : e.pfx ∉ entries.map SelectedRoute.pfx) (hreached : Reached ⟨role, e.pfx⟩ w w1)
    (hretired : ¬ PendingParkInstalled e.pfx e w → Retired cfg role e.pfx e w w1)
    (hforgotten : PendingParkInstalled e.pfx e w → ∃ i, e.NamesPark i ∧ .park i ∈ w1.kernel e.pfx)
    (hruntime : w1.runtime = w.runtime) (h : Flushed role entries w1 w') :
    Flushed role (e :: entries) w w' := by
  have hne : ∀ x ∈ entries, e.pfx ≠ x.pfx := fun x hx heq =>
    hnodup (List.mem_map.mpr ⟨x, hx, heq.symm⟩)
  have hkernel : ∀ x ∈ entries, w1.kernel x.pfx = w.kernel x.pfx := fun x hx =>
    hreached.kernel _ (hne x hx).symm
  have hpending : ∀ x ∈ entries,
      (PendingParkInstalled x.pfx x w1 ↔ PendingParkInstalled x.pfx x w) := by
    intro x hx
    unfold PendingParkInstalled
    rw [hkernel x hx]
  refine ⟨h.wellFormed, h.runtime.trans hruntime, ?_, ?_, fun key hkey => ?_, fun pfx hpfx => ?_⟩
  · refine List.forall_mem_cons.mpr ⟨fun hp => ?_, fun x hx hp => ?_⟩
    · rw [h.records _ fun x hx heq => hne x hx (congrArg SelectedRouteKey.pfx heq),
        h.rows _ fun x hx => hne x hx]
      exact ⟨(hretired hp).registry, (hretired hp).rows⟩
    · rw [← hkernel x hx]
      exact h.gone x hx (mt (hpending x hx).mp hp)
  · refine List.forall_mem_cons.mpr ⟨fun hp => ?_, fun x hx hp => ?_⟩
    · rw [h.rows _ fun x hx => hne x hx]
      exact hforgotten hp
    · exact h.forgotten x hx ((hpending x hx).mpr hp)
  · rw [List.forall_mem_cons] at hkey
    exact (h.records key hkey.2).trans (hreached.lookup key hkey.1)
  · rw [List.forall_mem_cons] at hpfx
    exact (h.rows pfx hpfx.2).trans (hreached.kernel pfx hpfx.1)

theorem firstErr_of_retireAll {firstErr : Option ManagerError}
    (h : (flushZoneLocked.retireAll cfg role entries firstErr).Returns FaultStep w none w') :
    firstErr = none := by
  induction entries generalizing w firstErr with
  | nil => exact (Prog.returns_ret.mp h).1.symm
  | cons e entries ih =>
    obtain ⟨err, w1, _, hrest⟩ := Prog.returns_bind.mp h
    exact (Option.or_eq_none_iff.mp (ih hrest)).1

theorem returns_retireAll {firstErr : Option ManagerError} (hw : w.registry.WellFormed)
    (hnodup : (entries.map SelectedRoute.pfx).Nodup)
    (hl : ∀ e ∈ entries, w.registry.lookup ⟨role, e.pfx⟩ = some e)
    (h : (flushZoneLocked.retireAll cfg role entries firstErr).Returns FaultStep w none w') :
    Flushed role entries w w' := by
  induction entries generalizing w firstErr with
  | nil =>
    obtain ⟨-, rfl⟩ := Prog.returns_ret.mp h
    exact ⟨hw, rfl, fun _ he => absurd he List.not_mem_nil, fun _ he => absurd he List.not_mem_nil,
      fun _ _ => rfl, fun _ _ => rfl⟩
  | cons e entries ih =>
    rw [List.map_cons, List.nodup_cons] at hnodup
    rw [List.forall_mem_cons] at hl
    obtain ⟨err, w1, hattempt, hrest⟩ := Prog.returns_bind.mp h
    obtain rfl : err = none := (Option.or_eq_none_iff.mp (firstErr_of_retireAll hrest)).2
    have hretire := Prog.Returns.of_attempt hattempt
    obtain ⟨hreached, hretired, hforgotten⟩ := returns_retireRecordLocked hw hl.1 hretire
    have hruntime : w1.runtime = w.runtime := hretire.elim fun _ he => exec_runtime he
    refine .cons hnodup.1 hreached hretired hforgotten hruntime
      (ih (hreached.wellFormed hw) hnodup.2 (fun x hx => ?_) hrest)
    rw [hreached.lookup _ fun heq =>
      hnodup.1 (List.mem_map.mpr ⟨x, hx, congrArg SelectedRouteKey.pfx heq⟩)]
    exact hl.2 x hx

theorem returns_writeCheckpoint {generation : UInt64}
    (h : (writeCheckpoint cfg role generation).Returns FaultStep w () w') :
    w'.registry = w.registry ∧ w'.kernel = w.kernel ∧ w'.runtime = w.runtime ∧
    (cfg.stateDir role = true →
      w'.disk role = some (checkpointOf w.registry role cfg.platform generation)) := by
  have hrun := writeCheckpoint_honest cfg role generation w () w' h
  unfold writeCheckpoint at hrun
  split at hrun
  · next hdir =>
    obtain ⟨-, rfl⟩ := Prod.ext_iff.mp hrun
    exact ⟨rfl, rfl, rfl, fun hd => by simp [hd] at hdir⟩
  · obtain ⟨-, rfl⟩ := Prod.ext_iff.mp hrun
    exact ⟨rfl, rfl, rfl, fun _ => World.disk_written_self _ _ _⟩

def zoneRecords (w : World) (role zone : String) : List SelectedRoute :=
  (w.registry.snapshot role).filter (·.zone = zone)

theorem returns_flushZone {authority : RouteAuthority} {zone : String}
    (hw : w.registry.WellFormed) (hzone : role ∈ authority.zoneRoles zone)
    (h : (flushZone cfg authority zone).Returns FaultStep w () w') :
    Flushed role (zoneRecords w role zone) w w' ∧
    (cfg.stateDir role = true → ∃ generation,
      w'.disk role = some (checkpointOf w'.registry role cfg.platform generation)) := by
  unfold flushZone at h
  split at h
  · next id hid =>
    obtain rfl : role = id := by
      rw [hid] at hzone
      exact List.mem_singleton.mp hzone
    obtain ⟨generation, w1, hgeneration, hflush⟩ := Prog.returns_bind.mp h
    have hrun := Honest.memory _ w generation w1 hgeneration
    obtain ⟨-, rfl⟩ := Prod.ext_iff.mp hrun
    obtain ⟨entries, w2, hsnapshot, hbatch⟩ := Prog.returns_bind.mp hflush
    have hrun := Honest.memory _ _ entries w2 hsnapshot
    obtain ⟨hentries, rfl⟩ := Prod.ext_iff.mp hrun
    obtain rfl := Except.ok.inj hentries
    obtain ⟨firstErr, w3, hretire, hwrite⟩ := Prog.returns_bind.mp hbatch
    obtain ⟨err, w4, hattempt, hend⟩ := Prog.returns_bind.mp hwrite
    cases herr : firstErr.or err with
    | some e =>
      rw [herr] at hend
      exact absurd hend Prog.returns_fail
    | none =>
      obtain ⟨rfl, rfl⟩ := Option.or_eq_none_iff.mp herr
      obtain ⟨-, rfl⟩ := Prog.returns_ret.mp hend
      obtain ⟨hregistry, hkernel, hruntime, hdisk⟩ :=
        returns_writeCheckpoint (Prog.Returns.of_attempt hattempt)
      have hnodup : ((zoneRecords w role zone).map SelectedRoute.pfx).Nodup :=
        (hw.nodup_pfx_snapshot role).sublist (List.filter_sublist.map _)
      have hlookup : ∀ e ∈ zoneRecords w role zone, w.registry.lookup ⟨role, e.pfx⟩ = some e :=
        fun e he => hw.mem_snapshot_iff.mp (List.mem_of_mem_filter he)
      have hflushed := returns_retireAll
        (w := w.withMemory (w.memory.setRole role (w.memory.roleState role))) hw hnodup hlookup
        hretire
      rw [hregistry]
      exact ⟨⟨hregistry ▸ hflushed.wellFormed, hruntime.trans hflushed.runtime,
        by rw [hregistry, hkernel]; exact hflushed.gone,
        by rw [hkernel]; exact hflushed.forgotten,
        by rw [hregistry]; exact hflushed.records,
        by rw [hkernel]; exact hflushed.rows⟩, fun hdir => ⟨_, hdisk hdir⟩⟩
  · exact absurd h Prog.returns_fail

/-- A flush that forgets no park leaves exactly the records of other zones. -/
theorem Flushed.mem_snapshot_iff {zone : String} (h : Flushed role (zoneRecords w role zone) w w')
    (hw : w.registry.WellFormed)
    (hpending : ∀ e ∈ zoneRecords w role zone, ¬ PendingParkInstalled e.pfx e w)
    (e : SelectedRoute) : e ∈ w'.registry.snapshot role ↔
      e ∈ w.registry.snapshot role ∧ e.zone ≠ zone := by
  have hkey : e ∈ w.registry.snapshot role → e.zone ≠ zone → ∀ x ∈ zoneRecords w role zone,
      (⟨role, e.pfx⟩ : SelectedRouteKey) ≠ ⟨role, x.pfx⟩ := by
    intro he hne x hx heq
    have hlx := hw.mem_snapshot_iff.mp (List.mem_of_mem_filter hx)
    rw [← heq, hw.mem_snapshot_iff.mp he] at hlx
    cases hlx
    exact hne (by simpa using (List.mem_filter.mp hx).2)
  rw [h.wellFormed.mem_snapshot_iff]
  constructor
  · intro hl
    have hout : ∀ x ∈ zoneRecords w role zone,
        (⟨role, e.pfx⟩ : SelectedRouteKey) ≠ ⟨role, x.pfx⟩ := by
      intro x hx heq
      rw [heq, (h.gone x hx (hpending x hx)).1] at hl
      cases hl
    have he : e ∈ w.registry.snapshot role :=
      hw.mem_snapshot_iff.mpr ((h.records _ hout).symm.trans hl)
    exact ⟨he, fun hz => hout e (List.mem_filter.mpr ⟨he, by simpa using hz⟩) rfl⟩
  · rintro ⟨he, hne⟩
    rw [h.records _ (hkey he hne)]
    exact hw.mem_snapshot_iff.mp he

theorem parkingState_empty_iff (entries : List SelectedRoute) :
    ((parkingState entries).active = false ∧ (parkingState entries).prefixes = []) ↔
      ∀ e ∈ entries, ¬ ShownPark e := by
  have hprefixes : (parkingState entries).prefixes = [] ↔ ∀ e ∈ entries, ¬ ShownPark e := by
    simp only [parkingState, List.map_eq_nil_iff, List.filter_eq_nil_iff]
    simp only [ShownPark, Option.any_eq_true, Bool.and_eq_true, Bool.or_eq_true, decide_eq_true_eq]
  rw [← hprefixes]
  refine ⟨fun h => h.2, fun hnil => ⟨?_, hnil⟩⟩
  -- with no prefixes it would have to be active without a record
  cases hactive : (parkingState entries).active with
  | false => rfl
  | true =>
    simp only [parkingState, Bool.and_eq_true, decide_eq_true_eq, List.length_map] at hactive
    simp only [parkingState, List.map_eq_nil_iff] at hnil
    rw [hnil] at hactive
    have hempty : entries = [] := List.length_eq_zero_iff.mp hactive.2.symm
    simp [hempty] at hactive

end Managed

section ManagedRelease

variable {d : RecoveryDriver} {role : String} {s s' : DriverSystem}

/-- What the release of a managed role leaves. -/
structure ManagedReleased (d : RecoveryDriver) (role : String) (w : World) (s s' : DriverSystem) :
    Prop where
  flushed : Flushed role (zoneRecords s.world role (d.policy role).zone) s.world w
  disk : d.selectedRoutes.stateDir role = true → ∃ generation,
    w.disk role = some (checkpointOf w.registry role d.selectedRoutes.platform generation)
  eq : s' = { s with world := { w with
    runtime := updatedResources role ((w.runtime role).getD {}).endpoint {}
      (parkingState (w.registry.snapshot role)) ((w.runtime role).getD {}).validation w.runtime } }

theorem returns_releaseManagedSelected (hw : s.world.registry.WellFormed)
    (hzone : (d.policy role).zone ≠ "")
    (hauthority : role ∈ d.authority.zoneRoles (d.policy role).zone)
    (h : (d.releaseManagedSelected role).Returns (RecoveryStep d) s [] s') :
    ∃ w, ManagedReleased d role w s s' := by
  obtain ⟨⟨r, product⟩, s1, hrole, h1⟩ := Prog.returns_bind.mp h
  obtain ⟨hentry, -, rfl⟩ := returns_role hrole
  have hpolicy : effectiveEndpointPolicy r.cfg = d.policy role := by
    rw [policy, hentry]
    rfl
  dsimp only at h1
  rw [hpolicy, if_neg hzone] at h1
  obtain ⟨errs, s2, hflush, h2⟩ := Prog.returns_bind.mp h1
  obtain ⟨state, s3, hstate, h3⟩ := Prog.returns_bind.mp h2
  obtain ⟨rfl, rfl⟩ := Prog.returns_perform.mp hstate
  obtain ⟨product', s4, hproduct, h4⟩ := Prog.returns_bind.mp h3
  obtain ⟨rfl, rfl⟩ := returns_productRole hproduct
  obtain ⟨_, s5, hupdate, h5⟩ := Prog.returns_bind.mp h4
  obtain rfl := returns_updateRoleResources hupdate
  obtain ⟨rfl, rfl⟩ := Prog.returns_ret.mp h5
  obtain ⟨answer, s6, hselected, h6⟩ := Prog.returns_bind.mp hflush
  obtain ⟨trace, w, he, rfl⟩ := Prog.returns_perform.mp hselected
  cases answer with
  | error e => cases (Prog.returns_ret.mp h6).1
  | ok u =>
    obtain ⟨-, rfl⟩ := Prog.returns_ret.mp h6
    obtain ⟨hflushed, hdisk⟩ := returns_flushZone hw hauthority ⟨trace, he⟩
    exact ⟨w, hflushed, hdisk, rfl⟩

theorem managedReleased_iff {w : World} (hmanaged : d.managedSelected role = true)
    (hw : s.world.registry.WellFormed) (h : ManagedReleased d role w s s') :
    FullyReleased d role s s' ↔ ManagedReady d role s := by
  obtain ⟨hflushed, hdisk, rfl⟩ := h
  have hparkOf : ∀ pfx i, ParkOf d role s pfx i ↔
      ∃ e ∈ s.world.registry.snapshot role, e.pfx = pfx ∧ e.NamesPark i := by
    intro pfx i
    rw [ParkOf, hmanaged, if_pos rfl]
    constructor
    · rintro ⟨e, hl, hn⟩
      obtain rfl : e.pfx = pfx := hw.pfx_eq hl
      exact ⟨e, hw.mem_snapshot_iff.mpr hl, rfl, hn⟩
    · rintro ⟨e, he, rfl, hn⟩
      exact ⟨e, hw.mem_snapshot_iff.mp he, hn⟩
  have hzoned : ∀ e, e ∈ zoneRecords s.world role (d.policy role).zone ↔
      e ∈ s.world.registry.snapshot role ∧ e.zone = (d.policy role).zone := by
    simp [zoneRecords, List.mem_filter]
  -- a record of another zone is alone at its prefix, so that its rows stay
  have hkept : ∀ e ∈ s.world.registry.snapshot role, e.zone ≠ (d.policy role).zone →
      w.kernel e.pfx = s.world.kernel e.pfx := by
    intro e he hne
    refine hflushed.rows _ fun x hx heq => hne ?_
    have hlx := hw.mem_snapshot_iff.mp ((hzoned x).mp hx).1
    rw [← heq, hw.mem_snapshot_iff.mp he] at hlx
    cases hlx
    exact ((hzoned e).mp hx).2
  have hproduct : (∀ runtime, updatedResources role ((w.runtime role).getD {}).endpoint {}
      (parkingState (w.registry.snapshot role)) ((w.runtime role).getD {}).validation w.runtime
        role = some runtime → ShowsNothing runtime) ↔
      ∀ runtime, s.world.runtime role = some runtime → runtime.endpoint.state ≠ "ready" ∧
        ∀ e ∈ w.registry.snapshot role, ¬ ShownPark e := by
    rw [showsNothing_updated, parkingState_empty_iff, hflushed.runtime]
    refine forall_congr' fun runtime => forall_congr' fun hruntime => ?_
    rw [hruntime]
    exact and_comm
  constructor
  · intro hr
    have hpending : ∀ e ∈ zoneRecords s.world role (d.policy role).zone,
        ¬ PendingParkInstalled e.pfx e s.world := by
      intro e he hp
      obtain ⟨i, hn, hrow⟩ := hflushed.forgotten e he hp
      exact hr.parks e.pfx i ((hparkOf _ _).mpr ⟨e, ((hzoned e).mp he).1, rfl, hn⟩) hrow
    have hleft := hflushed.mem_snapshot_iff hw hpending
    refine ⟨hr.publication, hr.rules, hr.routes, fun runtime hruntime => ?_,
      fun e he hne => ⟨?_, fun i hn hrow => ?_⟩,
      fun e he hz => hpending e ((hzoned e).mpr ⟨he, hz⟩),
        fun other hother e he hz i hpark hn hrow => ?_⟩
    · obtain ⟨hendpoint, hshown⟩ := hproduct.mp hr.product runtime hruntime
      exact ⟨hendpoint, fun e he hne => hshown e ((hleft e).mpr ⟨he, hne⟩)⟩
    · by_contra hdir
      rw [Bool.not_eq_false] at hdir
      obtain ⟨generation, hfile⟩ := hdisk hdir
      have hcheckpoint := hr.checkpoint
      rw [CheckpointEmpty, hmanaged, if_pos rfl] at hcheckpoint
      have hnil : w.registry.snapshot role = [] := hcheckpoint hdir _ hfile
      have hmem := (hleft e).mpr ⟨he, hne⟩
      rw [hnil] at hmem
      cases hmem
    · rw [← hkept e he hne] at hrow
      exact hr.parks e.pfx i ((hparkOf _ _).mpr ⟨e, he, rfl, hn⟩) hrow
    · have hmem := (hzoned e).mpr ⟨he, hz⟩
      have hstays := (hr.otherParks other hother e.pfx i hpark).mpr hrow
      exact (((hflushed.gone e hmem (hpending e hmem)).2 (.park i)).mp hstays).2 hn
  · intro hready
    have hpending : ∀ e ∈ zoneRecords s.world role (d.policy role).zone,
        ¬ PendingParkInstalled e.pfx e s.world := fun e he =>
      hready.pending e ((hzoned e).mp he).1 ((hzoned e).mp he).2
    have hleft := hflushed.mem_snapshot_iff hw hpending
    refine ⟨hready.publication, hready.rules, hready.routes, fun pfx i hpark hrow => ?_, ?_,
      hproduct.mpr fun runtime hruntime => ?_, fun _ _ => rfl, fun _ _ => Iff.rfl,
      fun _ _ _ => Iff.rfl, fun other hother pfx i hpark => ?_⟩
    · obtain ⟨e, he, rfl, hn⟩ := (hparkOf pfx i).mp hpark
      by_cases hz : e.zone = (d.policy role).zone
      · have hmem := (hzoned e).mpr ⟨he, hz⟩
        exact (((hflushed.gone e hmem (hpending e hmem)).2 (.park i)).mp hrow).2 hn
      · rw [show w.kernel e.pfx = _ from hkept e he hz] at hrow
        exact (hready.zone e he hz).2 i hn hrow
    · rw [CheckpointEmpty, hmanaged, if_pos rfl]
      intro hdir c hc
      obtain ⟨generation, hfile⟩ := hdisk hdir
      rw [show w.disk role = some c from hc] at hfile
      cases hfile
      refine List.eq_nil_iff_forall_not_mem.mpr fun e he => ?_
      obtain ⟨he, hne⟩ := (hleft e).mp he
      rw [(hready.zone e he hne).1] at hdir
      cases hdir
    · obtain ⟨hendpoint, hshown⟩ := hready.product runtime hruntime
      exact ⟨hendpoint, fun e he => hshown e ((hleft e).mp he).1 ((hleft e).mp he).2⟩
    · by_cases hpfx : ∃ e ∈ zoneRecords s.world role (d.policy role).zone, pfx = e.pfx
      · obtain ⟨e, he, rfl⟩ := hpfx
        refine ((hflushed.gone e he (hpending e he)).2 (.park i)).trans
          (and_iff_left_of_imp fun hrow hn => ?_)
        exact hready.alone other hother e ((hzoned e).mp he).1 ((hzoned e).mp he).2 i hpark hn hrow
      · push Not at hpfx
        exact Iff.of_eq (congrArg _ (hflushed.rows pfx hpfx))

end ManagedRelease

-- === Both ways ===

/-- A release that returns nil has released everything of the role and nothing else
    exactly when the state before it is ready for it. -/
theorem released_iff {d : RecoveryDriver} {role : String} {s s' : DriverSystem}
    (hw : s.world.registry.WellFormed) (hvalid : (d.policy role).valid = true)
    (hzone : role ∈ d.authority.zoneRoles (d.policy role).zone)
    {trace : List (Event RecoveryCall DriverSystem)}
    (he : Exec (RecoveryStep d) (d.releaseResources role) s trace (.returned ()) s') :
    FullyReleased d role s s' ↔ ReleaseReady d role s := by
  have hzone_ne : (d.policy role).zone ≠ "" := by
    simp only [EndpointPolicy.valid, Bool.and_eq_true, decide_eq_true_eq] at hvalid
    exact hvalid.1.2
  obtain ⟨⟨r, product⟩, s₁, hrole, hrelease⟩ := Prog.returns_bind.mp ⟨trace, he⟩
  obtain ⟨hentry, rfl, rfl⟩ := returns_role hrole
  unfold ReleaseReady
  cases hmanaged : d.managedSelected role with
  | false =>
    dsimp only at hrelease
    rw [hmanaged, if_neg (by decide)] at hrelease
    obtain ⟨parks, hreleased⟩ := returns_releaseLegacy hentry hvalid hrelease
    exact legacyReleased_iff hmanaged hreleased
  | true =>
    dsimp only at hrelease
    rw [hmanaged, if_pos rfl] at hrelease
    obtain ⟨errs, s₂, hselected, hend⟩ := Prog.returns_bind.mp hrelease
    split at hend
    · next herrs =>
      obtain rfl := List.isEmpty_iff.mp herrs
      obtain ⟨-, rfl⟩ := Prog.returns_ret.mp hend
      obtain ⟨w, hreleased⟩ := returns_releaseManagedSelected hw hzone_ne hzone hselected
      exact managedReleased_iff hmanaged hw hreleased
    · exact absurd hend Prog.returns_fail

/-- The role `work` of the sample driver, managed or not, with a physical path for its
    endpoint. -/
def endpointDriver (managed : Bool) : RecoveryDriver :=
  { legacyDriver with
    managedSelected := fun _ => managed
    underlay :=
      { epoch := 1
        ipv4 := some ⟨4, 2, "eth0", .v4 0xc0a80001#32, .v4 0xc0a80010#32, 1500, 254, 100⟩ } }

def sampleEndpoint : EndpointState :=
  { state := "ready", appliedUnderlayEpoch := 1, resolved := [(.v4 0xc6336401#32, 443)] }

def freshSystem : DriverSystem where
  world :=
    { platform := samplePlatform
      runtime := fun role => if role = "work" then some {} else none }

def playEndpoint (managed : Bool) (p : RecoveryDriver → RecoveryM Unit) (s : DriverSystem) :
    Except DriverError Unit × DriverSystem :=
  (p (endpointDriver managed)).run (recoveryHandle (endpointDriver managed) [] sampleEndpoint) s

def activeSystem (managed : Bool) : DriverSystem :=
  (playEndpoint managed (·.publish "work")
    (playEndpoint managed (·.applyEndpoint "work") freshSystem).2).2

def ReleaseAfterActivation (d : RecoveryDriver) (s s' : DriverSystem) : Prop :=
  ∃ s₁, (d.applyEndpoint "work").Returns (RecoveryStep d) freshSystem () s₁ ∧
    (d.publish "work").Returns (RecoveryStep d) s₁ () s ∧
    (d.releaseResources "work").Returns (RecoveryStep d) s () s'

def releasedSystem (managed : Bool) : DriverSystem :=
  (playEndpoint managed (·.releaseResources "work") (activeSystem managed)).2

def endpointChecked (managed : Bool) (p : RecoveryDriver → RecoveryM Unit) (s : DriverSystem) :
    Bool :=
  ((p (endpointDriver managed)).events
    (recoveryHandle (endpointDriver managed) [] sampleEndpoint) s).all fun ev =>
      ev.call.contained []

theorem playEndpoint_returns (managed : Bool) (p : RecoveryDriver → RecoveryM Unit)
    {s : DriverSystem} (h : s.Covered [])
    (hall : endpointChecked managed p s = true ∧ (playEndpoint managed p s).1.isOk = true) :
    (p (endpointDriver managed)).Returns (RecoveryStep (endpointDriver managed)) s ()
      (playEndpoint managed p s).2 ∧ (playEndpoint managed p s).2.Covered [] :=
  ⟨returns_of_isOk (exec_contained h hall.1).1 hall.2, (exec_contained h hall.1).2⟩

/-- A managed release asks the selected routes and does not read the tables. -/
theorem releaseManaged_returns :
    ((endpointDriver true).releaseResources "work").Returns (RecoveryStep (endpointDriver true))
      (activeSystem true) () (releasedSystem true) := by
  have hexec : Exec (RecoveryStep (endpointDriver true)) _ (activeSystem true) _
      (Prog.Outcome.of (playEndpoint true (·.releaseResources "work") (activeSystem true)).1)
      (releasedSystem true) ∧ True :=
    Prog.exec_checked (K := fun _ c => !c.readsTables) (J := fun _ => True)
      (fun _ c _ hc _ => ⟨recoveryStep_handle c fun h => by simp [h] at hc, trivial⟩)
      (by decide +kernel) trivial
  exact returns_of_isOk hexec.1 (by decide +kernel)

theorem releaseAfterActivation (managed : Bool) :
    ReleaseAfterActivation (endpointDriver managed) (activeSystem managed)
      (releasedSystem managed) := by
  obtain ⟨happly, happlied⟩ := playEndpoint_returns managed (·.applyEndpoint "work")
    (s := freshSystem) (fun _ _ => rfl) (by cases managed <;> decide +kernel)
  obtain ⟨hpublish, hpublished⟩ := playEndpoint_returns managed (·.publish "work") happlied
    (by cases managed <;> decide +kernel)
  refine ⟨_, happly, hpublish, ?_⟩
  cases managed with
  | false =>
    exact (playEndpoint_returns false (·.releaseResources "work") hpublished (by decide +kernel)).1
  | true => exact releaseManaged_returns

/-- The release of a managed role leaves its publication, its rule and its host route,
    and that of a legacy role leaves the product with a ready endpoint policy. -/
theorem release_leaves_resources :
    (∃ s s', ReleaseAfterActivation (endpointDriver true) s s' ∧
      s'.publications "corp" = some "tun0" ∧
      (∃ rule ∈ s'.rules, ((endpointDriver true).policy "work").OwnRule rule) ∧
      (∃ row ∈ s'.tables, WantedOnlyBy (endpointDriver true) "work" s row) ∧
      ¬ FullyReleased (endpointDriver true) "work" s s') ∧
    ∃ s s' runtime, ReleaseAfterActivation (endpointDriver false) s s' ∧
      s'.rules = [] ∧ s'.world.runtime "work" = some runtime ∧ runtime.endpoint.state = "ready" ∧
      ¬ FullyReleased (endpointDriver false) "work" s s' := by
  have hpublication : (releasedSystem true).publications "corp" = some "tun0" := by decide +kernel
  have hready : ((releasedSystem false).world.runtime "work").map (·.endpoint.state) =
      some "ready" := by
    decide +kernel
  obtain ⟨runtime, hruntime, hstate⟩ := Option.map_eq_some_iff.mp hready
  refine ⟨⟨_, _, releaseAfterActivation true, hpublication, by decide +kernel, by decide +kernel,
    fun h => ?_⟩, _, _, runtime, releaseAfterActivation false, by decide +kernel, hruntime, hstate,
    fun h => (h.product runtime hruntime).endpoint hstate⟩
  have hgone : (releasedSystem true).publications "corp" = none := h.publication
  cases hgone

/-- A legacy role that was only published is released. -/
theorem released_iff_published : ∃ s trace s', s.publications "corp" = some "tun0" ∧
    Exec (RecoveryStep (endpointDriver false)) ((endpointDriver false).releaseResources "work") s
      trace (.returned ()) s' ∧ FullyReleased (endpointDriver false) "work" s s' := by
  let s := (playEndpoint false (·.publish "work") freshSystem).2
  have hcovered : s.Covered [] :=
    (playEndpoint_returns _ _ (fun _ _ => rfl) (by decide +kernel)).2
  obtain ⟨trace, he⟩ :=
    (playEndpoint_returns false (·.releaseResources "work") hcovered (by decide +kernel)).1
  have hshown : (s.world.runtime "work").map
      (fun runtime => (runtime.parking.active, runtime.parking.prefixes, runtime.endpoint.state)) =
        some (false, [], "") := by
    decide +kernel
  have hready : LegacyReady (endpointDriver false) "work" s := by
    refine ⟨nofun, nofun, fun pfx hpfx => ?_, fun runtime hruntime => ?_,
      fun other _ pfx i _ _ hrow => ?_⟩
    · rw [hcovered pfx List.not_mem_nil]
      exact nofun
    · rw [hruntime, Option.map_some, Option.some.injEq, Prod.mk.injEq, Prod.mk.injEq] at hshown
      exact ⟨nofun, ⟨hshown.1, hshown.2.1⟩, by rw [hshown.2.2]; decide⟩
    · rw [hcovered pfx List.not_mem_nil] at hrow
      cases hrow
  exact ⟨s, trace, _, by decide +kernel, he,
    (released_iff MemorySelectedRegistry.wellFormed_empty rfl (List.mem_singleton_self _) he).mpr
      hready⟩

end Kikimora.Control

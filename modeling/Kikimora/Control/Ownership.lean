import Kikimora.Control.RecoveryDriver

/-!
# The ownership of a legacy role

A legacy role owns the static host routes that Leshy has added on its interface.
The driver infers them: a publication captures the routes that are there as a
baseline, and later snapshots give what has come since.
-/

namespace Kikimora.Control

open Net Routing Platform Kikimora.Core Lib
open RecoveryDriver

-- === Runs ===

/-- A role without managed selected routes, on the interface of its entry. -/
structure LegacyRole (d : RecoveryDriver) (role : String) (r : RoleEntry) : Prop where
  entry : d.roles role = some r
  legacy : d.managedSelected role = false
  named : role ≠ ""

def RouteOn (d : RecoveryDriver) (r : RoleEntry) (s : DriverSystem) (pfx : Prefix) : Prop :=
  ∃ row, s.host.HasRow d.describe row ∧ candidatePrefix r.ifIndex row = some pfx

def Owned (role : String) (s : DriverSystem) (pfx : Prefix) : Prop :=
  ∃ o ∈ s.memory.ownership role, o.pfx = pfx

/-- The driver's part of a run. -/
inductive OwnershipAction
  | publish
  | resyncLeshy
  | observeRestoration
  | activate
  deriving DecidableEq, Repr

def OwnershipAction.program (d : RecoveryDriver) (role : String) : OwnershipAction → RecoveryM Unit
  | publish => d.publish role
  | resyncLeshy => d.resyncLeshy role
  | observeRestoration => d.observeRestoration role
  | activate => d.activateReadyRole role

def AlreadyActive (d : RecoveryDriver) (role : String) (s : DriverSystem) : Prop :=
  d.enabled = false ∨ ∃ runtime, s.world.runtime role = some runtime ∧
    (runtime.endpoint.appliedUnderlayEpoch = d.underlay.epoch && runtime.endpoint.state = "ready" &&
      runtime.publication.published && !runtime.parking.active) = true

def OwnershipAction.publishes (d : RecoveryDriver) (role : String) (s : DriverSystem) :
    OwnershipAction → Prop
  | publish => True
  | resyncLeshy | observeRestoration => False
  | activate => ¬ AlreadyActive d role s

def OwnershipAction.observes (d : RecoveryDriver) (role : String) (s : DriverSystem) :
    OwnershipAction → Prop
  | publish => False
  | resyncLeshy | observeRestoration => True
  | activate => ¬ AlreadyActive d role s

/-- A role that has never published. -/
structure Unpublished (role : String) (s : DriverSystem) : Prop where
  ownership : s.memory.ownership role = []
  baseline : s.memory.baselines role = []
  file : s.files role = .missing
  first : s.firstBaseline role = none

/-- The runs of one role on one interface, with a condition on every step in the
    state in which it is made. Leshy adds and deletes routes at any time, also
    while a step calls it, and a step may be cut off at any call. -/
inductive OwnershipRun (d : RecoveryDriver) (role : String)
    (R : OwnershipAction → DriverSystem → Prop) : DriverSystem → Prop
  | start {s : DriverSystem} (h : Unpublished role s) : OwnershipRun d role R s
  | leshy {s : DriverSystem} {k : Kernel} (hrun : OwnershipRun d role R s)
      (h : LeshyEdits s.world.kernel k) :
      OwnershipRun d role R { s with world := s.world.withKernel k }
  | step {s s' : DriverSystem} {a : OwnershipAction}
      {trace : List (Event RecoveryCall DriverSystem)} {o : Outcome DriverError Unit}
      (hrun : OwnershipRun d role R s) (hR : R a s)
      (he : Exec (RecoveryStep d) (a.program d role) s trace o s') : OwnershipRun d role R s'

def OwnsAdded (d : RecoveryDriver) (role : String) (r : RoleEntry) (s : DriverSystem) : Prop :=
  ∀ first, s.firstBaseline role = some first →
    ∀ pfx, RouteOn d r s pfx → pfx ∉ first → Owned role s pfx

def KeepsOwned (d : RecoveryDriver) (role : String) (r : RoleEntry) (s s' : DriverSystem) : Prop :=
  ∀ pfx, Owned role s pfx → RouteOn d r s pfx → RouteOn d r s' pfx → Owned role s' pfx

def SparesBaseline (role : String) (s : DriverSystem) : Prop :=
  ∀ first, s.firstBaseline role = some first → ∀ pfx ∈ first, ¬ Owned role s pfx

/-- What a step owes. The second and third demand are on every call that it
    makes. -/
structure OwnershipExact (d : RecoveryDriver) (role : String) (r : RoleEntry) (a : OwnershipAction)
    (s : DriverSystem) (trace : List (Event RecoveryCall DriverSystem))
    (o : Outcome DriverError Unit) (s' : DriverSystem) : Prop where
  covers : a.observes d role s → o = .returned () → OwnsAdded d role r s'
  keeps : ∀ ev ∈ trace, KeepsOwned d role r ev.before ev.after
  spares : SparesBaseline role s' ∧ ∀ ev ∈ trace, SparesBaseline role ev.after

/-- A publication meets exactly the routes of the first baseline, and the first one
    meets some. -/
def SameRoutes (d : RecoveryDriver) (role : String) (r : RoleEntry) (a : OwnershipAction)
    (s : DriverSystem) : Prop :=
  a.publishes d role s →
    match s.firstBaseline role with
    | none => ∃ pfx, RouteOn d r s pfx
    | some first => ∀ pfx, RouteOn d r s pfx ↔ pfx ∈ first

-- === The invariant ===

/-- Before the first baseline nothing is owned or remembered. After it, the
    baseline is the first one, and nothing of it is owned. -/
def Inferred (d : RecoveryDriver) (role : String) (r : RoleEntry) (s : DriverSystem) : Prop :=
  match s.firstBaseline role with
  | none => s.memory.ownership role = [] ∧ s.memory.baselines role = [] ∧
      ∀ c, s.files role = .found c → c.observed = [] ∧ c.baseline = []
  | some first => d.leshy = true ∧ d.executor = true ∧ r.interfaceName ≠ "" ∧ 0 < r.ifIndex ∧
      s.memory.ownershipLoaded role = true ∧ first ≠ [] ∧
      (∀ pfx, pfx ∈ (s.memory.baselines role).map OwnedRoute.pfx ↔ pfx ∈ first) ∧
      ∀ pfx ∈ first, ¬ Owned role s pfx

/-- The ownership of the role is as before. -/
structure SameOwnership (role : String) (s s' : DriverSystem) : Prop where
  ownership : s'.memory.ownership role = s.memory.ownership role
  baselines : s'.memory.baselines role = s.memory.baselines role
  loaded : s'.memory.ownershipLoaded role = s.memory.ownershipLoaded role
  first : s'.firstBaseline role = s.firstBaseline role

def NothingNew (d : RecoveryDriver) (r : RoleEntry) (s s' : DriverSystem) : Prop :=
  ∀ pfx, RouteOn d r s' pfx → RouteOn d r s pfx

/-- The ownership and the routes of the interface are as before. -/
structure Still (d : RecoveryDriver) (role : String) (r : RoleEntry) (s s' : DriverSystem) : Prop
    extends SameOwnership role s s' where
  routes : ∀ pfx, RouteOn d r s' pfx ↔ RouteOn d r s pfx

def owning (d : RecoveryDriver) (role : String) (r : RoleEntry) :
    Setting RecoveryCall DriverSystem where
  Step := RecoveryStep d
  Guarantee ev := KeepsOwned d role r ev.before ev.after ∧ SparesBaseline role ev.after
  Crash := Inferred d role r

section Invariant

variable {d : RecoveryDriver} {role : String} {r : RoleEntry} {s s' s'' : DriverSystem}

theorem Unpublished.inferred (h : Unpublished role s) : Inferred d role r s := by
  unfold Inferred
  rw [h.first]
  refine ⟨h.ownership, h.baseline, fun c hc => ?_⟩
  rw [h.file] at hc
  cases hc

theorem Inferred.sparesBaseline (h : Inferred d role r s) : SparesBaseline role s := by
  intro first hfirst
  unfold Inferred at h
  rw [hfirst] at h
  exact h.2.2.2.2.2.2.2

theorem SameOwnership.refl (role : String) (s : DriverSystem) : SameOwnership role s s :=
  ⟨rfl, rfl, rfl, rfl⟩

theorem SameOwnership.trans (h : SameOwnership role s s') (h' : SameOwnership role s' s'') :
    SameOwnership role s s'' :=
  ⟨h'.ownership.trans h.ownership, h'.baselines.trans h.baselines, h'.loaded.trans h.loaded,
    h'.first.trans h.first⟩

theorem SameOwnership.owned_iff (h : SameOwnership role s s') (pfx : Prefix) :
    Owned role s' pfx ↔ Owned role s pfx := by
  unfold Owned
  rw [h.ownership]

theorem SameOwnership.keepsOwned (h : SameOwnership role s s') : KeepsOwned d role r s s' :=
  fun pfx howned _ _ => (h.owned_iff pfx).mpr howned

/-- The invariant is about the ownership, and about the file as long as there is no
    baseline. -/
theorem Inferred.same (h : Inferred d role r s) (hs : SameOwnership role s s')
    (hfile : ∀ c, s'.files role = .found c → s.files role = .found c ∨
      c.observed = s.memory.ownership role ∧ c.baseline = s.memory.baselines role) :
    Inferred d role r s' := by
  unfold Inferred at h ⊢
  rw [hs.first]
  cases hfirst : s.firstBaseline role with
  | none =>
    rw [hfirst] at h
    obtain ⟨howned, hbase, hc⟩ := h
    refine ⟨hs.ownership.trans howned, hs.baselines.trans hbase, fun c hfound => ?_⟩
    rcases hfile c hfound with hfound | ⟨ho, hb⟩
    · exact hc c hfound
    · exact ⟨ho.trans howned, hb.trans hbase⟩
  | some first =>
    rw [hfirst] at h
    simp only [hs.loaded, hs.baselines, hs.owned_iff]
    exact h

theorem OwnsAdded.same (h : OwnsAdded d role r s) (hs : SameOwnership role s s')
    (hnew : NothingNew d r s s') : OwnsAdded d role r s' := by
  intro first hfirst pfx hon hnot
  rw [hs.first] at hfirst
  exact (hs.owned_iff pfx).mpr (h first hfirst pfx (hnew pfx hon) hnot)

theorem Still.refl (d : RecoveryDriver) (role : String) (r : RoleEntry) (s : DriverSystem) :
    Still d role r s s :=
  ⟨.refl role s, fun _ => Iff.rfl⟩

theorem Still.trans (h : Still d role r s s') (h' : Still d role r s' s'') : Still d role r s s'' :=
  ⟨h.toSameOwnership.trans h'.toSameOwnership, fun pfx => (h'.routes pfx).trans (h.routes pfx)⟩

theorem Still.nothingNew (h : Still d role r s s') : NothingNew d r s s' :=
  fun pfx hon => (h.routes pfx).mp hon

theorem routeOn_congr (hmain : s'.world.kernel = s.world.kernel)
    (htables : ∀ row, row.table ≠ endpointTable → (row ∈ s'.tables ↔ row ∈ s.tables))
    (pfx : Prefix) : RouteOn d r s' pfx ↔ RouteOn d r s pfx := by
  refine exists_congr fun row => and_congr_left fun hrow => ?_
  have htable : row.table ≠ endpointTable := by
    unfold candidatePrefix at hrow
    split at hrow
    · next hc => exact hc.2.1
    · cases hrow
  simp only [HostState.HasRow, DriverSystem.host, hmain, htables row htable]

theorem Still.of_eq (hown : SameOwnership role s s') (hmain : s'.world.kernel = s.world.kernel)
    (htables : s'.tables = s.tables) : Still d role r s s' :=
  ⟨hown, routeOn_congr hmain fun _ _ => by rw [htables]⟩

end Invariant

-- === Calls ===

section

variable {d : RecoveryDriver} {role : String} {r : RoleEntry} {s s' : DriverSystem} {α β : Type}
  {Q : β → DriverSystem → Prop}

theorem owning_call {c : RecoveryCall β} (h : Inferred d role r s)
    (hc : ∀ b s', RecoveryStep d c s b s' →
      Inferred d role r s' ∧ KeepsOwned d role r s s' ∧ Q b s') :
    (Prog.perform c : RecoveryM β).Keeps (owning d role r) Q s := by
  refine .perform h fun b s' hs => ?_
  obtain ⟨h', hkeeps, hQ⟩ := hc b s' hs
  exact ⟨⟨hkeeps, h'.sparesBaseline⟩, h', hQ⟩

theorem owning_aside {c : RecoveryCall β} (h : Inferred d role r s)
    (hc : ∀ b s', RecoveryStep d c s b s' →
      SameOwnership role s s' ∧ s'.files = s.files ∧ Q b s') :
    (Prog.perform c : RecoveryM β).Keeps (owning d role r) Q s := by
  refine owning_call h fun b s' hs => ?_
  obtain ⟨hsame, hfiles, hQ⟩ := hc b s' hs
  exact ⟨h.same hsame fun c hc => .inl (hfiles ▸ hc), hsame.keepsOwned, hQ⟩

theorem owning_service {c : RecoveryCall (Except String α)} {Q : α → DriverSystem → Prop}
    (h : (Prog.perform c : RecoveryM (Except String α)).Keeps (owning d role r)
      (fun b s' => ∀ a, b = .ok a → Q a s') s) :
    (RecoveryDriver.service c).Keeps (owning d role r) Q s := by
  refine .andThen h fun b s' hinf hb => ?_
  cases b with
  | error e => exact .fail hinf
  | ok a => exact .ret hinf (hb a rfl)

variable (h : Inferred d role r s)

include h

theorem owning_product {f : (String → Option RoleRuntime) → β × (String → Option RoleRuntime)} :
    (Prog.perform (.product f) : RecoveryM β).Keeps (owning d role r)
      (fun _ => Still d role r s) s := by
  refine owning_aside h fun b s' hs => ?_
  obtain ⟨-, rfl⟩ := hs
  exact ⟨⟨rfl, rfl, rfl, rfl⟩, rfl, .of_eq ⟨rfl, rfl, rfl, rfl⟩ rfl rfl⟩

theorem owning_peek {f : DriverMemory → β} (hQ : Q (f s.memory) s) : (peek f).Keeps
    (owning d role r) Q s := by
  refine owning_aside h fun b s' hs => ?_
  obtain ⟨rfl, rfl⟩ := hs
  exact ⟨.refl role _, rfl, hQ⟩

theorem owning_snapshot {Q : KernelState → DriverSystem → Prop}
    (hQ : ∀ ks, s.host.Lists d.describe ks → Q ks s) : (RecoveryDriver.service .snapshot).Keeps
    (owning d role r) Q s := by
  refine owning_service (owning_aside h fun b s' hs => ?_)
  obtain ⟨rfl, hb⟩ := hs
  refine ⟨.refl role s', rfl, fun ks hks => ?_⟩
  rcases hb with ⟨ks', rfl, hlists⟩ | ⟨e, rfl⟩
  · cases hks
    exact hQ ks hlists
  · cases hks

theorem owning_parks {f : DriverMemory → β × DriverMemory}
    (hf : (f s.memory).2.ownership = s.memory.ownership ∧
      (f s.memory).2.baselines = s.memory.baselines ∧
      (f s.memory).2.ownershipLoaded = s.memory.ownershipLoaded) :
    (Prog.perform (.memory f) : RecoveryM β).Keeps (owning d role r)
      (fun _ => Still d role r s) s := by
  have hsame : SameOwnership role s { s with memory := (f s.memory).2 } :=
    ⟨congrFun hf.1 role, congrFun hf.2.1 role, congrFun hf.2.2 role, rfl⟩
  refine owning_aside h fun b s' hs => ?_
  obtain ⟨-, rfl⟩ := hs
  exact ⟨hsame, rfl, .of_eq hsame rfl rfl⟩

theorem owning_leshy {c : RecoveryCall (Except String Unit)} {publications : String → Option String}
    (hc : ∀ b s', RecoveryStep d c s b s' → Leshy publications s b s') :
    (RecoveryDriver.service c).Keeps (owning d role r) (fun _ => SameOwnership role s) s := by
  refine owning_service (owning_aside h fun b s' hs => ?_)
  obtain ⟨k, published, _, _, rfl⟩ := hc b s' hs
  exact ⟨⟨rfl, rfl, rfl, rfl⟩, rfl, fun _ _ => ⟨rfl, rfl, rfl, rfl⟩⟩

theorem owning_reconcile {p : EndpointPolicy} :
    (RecoveryDriver.service (.reconcileEndpointPolicy p)).Keeps (owning d role r)
      (fun _ => Still d role r s) s := by
  refine owning_service (owning_aside h fun b s' hs => ?_)
  rcases hs with ⟨e, rfl, rfl⟩ | ⟨ks, ops, _, hplan, done, host, hdone, hperform, rfl⟩
  · exact ⟨⟨rfl, rfl, rfl, rfl⟩, rfl, nofun⟩
  have hon : ∀ op ∈ done, op.OnEndpointTable := by
    intro op hop
    refine plan_on_endpointTable hplan op ?_
    rcases hdone with ⟨_, rfl⟩ | ⟨_, n, _, rfl⟩
    · exact hop
    · exact List.mem_of_mem_take hop
  obtain ⟨hmain, htables⟩ := performAll_outside hon hperform
  exact ⟨⟨rfl, rfl, rfl, rfl⟩, rfl, fun _ _ => ⟨⟨rfl, rfl, rfl, rfl⟩, routeOn_congr hmain htables⟩⟩

theorem owning_deletePark {pfx : Prefix} :
    (Prog.perform (.apply role [.deletePark pfx]) : RecoveryM (Except String Unit)).Keeps
    (owning d role r) (fun _ s' => SameOwnership role s s' ∧ NothingNew d r s s') s := by
  refine owning_aside h fun b s' hs => ?_
  obtain ⟨done, host, hdone, hperform, rfl⟩ := hs
  refine ⟨⟨rfl, rfl, rfl, rfl⟩, rfl, ⟨rfl, rfl, rfl, rfl⟩, ?_⟩
  obtain ⟨prefixes, hprefixes⟩ : ∃ prefixes : List Prefix, done = prefixes.map .deletePark := by
    rcases hdone with ⟨_, rfl⟩ | ⟨_, n, _, rfl⟩
    · exact ⟨[pfx], rfl⟩
    · exact ⟨[pfx].take n, by rw [List.map_take]; rfl⟩
  rw [hprefixes] at hperform
  obtain ⟨htables, _, hmain⟩ := HostState.performAll_deleteParks hperform
  rintro q ⟨row, hrow, hcand⟩
  refine ⟨row, ?_, hcand⟩
  rcases hrow with hrow | ⟨p, x, hx, rfl⟩
  · exact .inl (htables ▸ hrow)
  · exact .inr ⟨p, x, ((hmain p x).mp hx).1, rfl⟩

omit h

end

-- === Parts of the steps ===

section

variable {d : RecoveryDriver} {role : String} {r : RoleEntry} {s s' : DriverSystem}

theorem owning_role (hl : LegacyRole d role r) (h : Inferred d role r s) :
    (d.role role).Keeps (owning d role r) (fun x s' => x.1 = r ∧ Still d role r s s') s := by
  unfold RecoveryDriver.role
  rw [hl.entry]
  exact .andThen (owning_product h) fun _ _ h' hs => .ret h' ⟨rfl, hs⟩

theorem owning_path (hl : LegacyRole d role r) (h : Inferred d role r s) :
    (d.ownershipCheckpointPath role).Keeps (owning d role r) (fun _ => Still d role r s) s := by
  refine .andThen (owning_role hl h) fun _ s' h' hs => ?_
  dsimp only
  split_ifs
  · exact .fail h'
  · exact .ret h' hs.2

theorem owning_writeCheckpoint {c : ParkingCheckpoint} (h : Inferred d role r s)
    (hobserved : c.observed = s.memory.ownership role)
    (hbaseline : c.baseline = s.memory.baselines role) :
    (RecoveryDriver.service (.writeCheckpoint role c)).Keeps (owning d role r)
      (fun _ => Still d role r s) s := by
  have hsame : SameOwnership role s { s with files := setAt s.files role (.found c) } :=
    ⟨rfl, rfl, rfl, rfl⟩
  have hwritten : Inferred d role r { s with files := setAt s.files role (.found c) } := by
    refine h.same hsame fun c' hc' => .inr ?_
    dsimp only at hc'
    rw [setAt_self] at hc'
    cases hc'
    exact ⟨hobserved, hbaseline⟩
  refine owning_service (owning_call h fun b s' hs => ?_)
  rcases hs with ⟨rfl, rfl⟩ | ⟨e, rfl, rfl | rfl⟩
  · exact ⟨hwritten, hsame.keepsOwned, fun _ _ => .of_eq hsame rfl rfl⟩
  · exact ⟨h, (SameOwnership.refl role _).keepsOwned, nofun⟩
  · exact ⟨hwritten, hsame.keepsOwned, nofun⟩

theorem owning_writeOwnershipCheckpoint (hl : LegacyRole d role r) (h : Inferred d role r s) :
    (d.writeOwnershipCheckpoint role).Keeps (owning d role r) (fun _ => Still d role r s) s := by
  refine .andThen (owning_path hl h) fun _ s1 h1 hs1 => ?_
  refine .andThen (owning_role hl h1) fun _ s2 h2 hs2 => ?_
  refine .step (owning_peek h2 ?_)
  exact (owning_writeCheckpoint h2 rfl rfl).mono fun _ s3 hs3 => (hs1.trans hs2.2).trans hs3

theorem mem_candidates {ks : KernelState} (hl : LegacyRole d role r)
    (hlists : s.host.Lists d.describe ks) (hname : r.interfaceName ≠ "") (hindex : 0 < r.ifIndex)
    (pfx : Prefix) :
    (∃ o ∈ selectedRouteCandidates ks role r, o.pfx = pfx) ↔ RouteOn d r s pfx := by
  unfold selectedRouteCandidates
  rw [if_neg (by simp [hl.named, hname, not_le.mpr hindex])]
  simp only [List.mem_map, List.mem_eraseDups, List.mem_filterMap, exists_exists_and_eq_and,
    exists_eq_right, hlists.mem_iff]
  rfl

theorem mem_ownedDelta {current baseline : List OwnedRoute} {o : OwnedRoute} :
    o ∈ ownedDelta current baseline ↔ o ∈ current ∧ isHostPrefix o.pfx = true ∧
      o.pfx ∉ baseline.map OwnedRoute.pfx := by
  simp [ownedDelta]

theorem host_of_onInterface {pfx : Prefix} (h : RouteOn d r s pfx) :
    isHostPrefix pfx = true := by
  obtain ⟨row, _, hcand⟩ := h
  unfold candidatePrefix at hcand
  split at hcand
  · exact (Option.filter_eq_some_iff.mp hcand).2
  · cases hcand

theorem ownership_withDelta (owned : List OwnedRoute) (m : DriverMemory) :
    (withDelta role owned m).ownership role =
      if owned = [] then m.ownership role else owned := by
  unfold withDelta
  cases owned with
  | nil =>
    cases hm : m.ownership role with
    | nil => simp
    | cons o os => simp [hm]
  | cons o os => simp

/-- With the routes of the interface at hand, a delta finds everything that is not
    in the first baseline, and nothing that is. -/
theorem owned_withDelta {current : List OwnedRoute} {first : List Prefix}
    (hbase : ∀ pfx, pfx ∈ (s.memory.baselines role).map OwnedRoute.pfx ↔ pfx ∈ first)
    (hspares : ∀ pfx ∈ first, ¬ Owned role s pfx)
    (hcurrent : ∀ pfx, (∃ o ∈ current, o.pfx = pfx) ↔ RouteOn d r s pfx) :
    let s' := { s with
      memory := withDelta role (ownedDelta current (s.memory.baselines role)) s.memory }
    (∀ pfx, RouteOn d r s pfx → pfx ∉ first → Owned role s' pfx) ∧
      ∀ pfx ∈ first, ¬ Owned role s' pfx := by
  dsimp only [Owned]
  rw [ownership_withDelta]
  refine ⟨fun pfx hon hnot => ?_, fun pfx hfirst hex => ?_⟩
  · obtain ⟨o, ho, rfl⟩ := (hcurrent pfx).mpr hon
    have hmem : o ∈ ownedDelta current (s.memory.baselines role) :=
      mem_ownedDelta.mpr ⟨ho, host_of_onInterface hon, fun hb => hnot ((hbase _).mp hb)⟩
    rw [if_neg (List.ne_nil_of_mem hmem)]
    exact ⟨o, hmem, rfl⟩
  · split at hex
    · exact hspares pfx hfirst hex
    · obtain ⟨o, ho, rfl⟩ := hex
      exact (mem_ownedDelta.mp ho).2.2 ((hbase _).mpr hfirst)

theorem baselines_withDelta (owned : List OwnedRoute) (m : DriverMemory) :
    (withDelta role owned m).baselines = m.baselines ∧
      (withDelta role owned m).ownershipLoaded = m.ownershipLoaded := by
  unfold withDelta
  split <;> exact ⟨rfl, rfl⟩

/-- The driver's use of a snapshot: afterwards everything that has come since the
    first baseline is owned. -/
theorem owning_captureOwnedDelta (hl : LegacyRole d role r) (h : Inferred d role r s) :
    (d.captureOwnedDelta role r).Keeps (owning d role r) (fun _ => OwnsAdded d role r) s := by
  unfold captureOwnedDelta
  have hinf := h
  cases hfirst : s.firstBaseline role with
  | none =>
    -- there is no baseline yet, and nothing to cover
    have hcovers : OwnsAdded d role r s := by
      intro first hsome
      rw [hfirst] at hsome
      cases hsome
    rw [Inferred, hfirst] at hinf
    split_ifs
    · exact .ret h hcovers
    refine .step (owning_snapshot h fun ks _ => ?_)
    refine .step (owning_peek h ?_)
    rw [hinf.2.1]
    exact .ret h hcovers
  | some first =>
    rw [Inferred, hfirst] at hinf
    obtain ⟨hleshy, hexec, hname, hindex, hloaded, hne, hbase, hspares⟩ := hinf
    simp only [hexec, Bool.not_true, Bool.false_eq_true, if_false]
    refine .step (owning_snapshot h fun ks hlists => ?_)
    refine .step (owning_peek h ?_)
    have hnonempty : (s.memory.baselines role).isEmpty = false := by
      refine List.isEmpty_eq_false_iff.mpr fun hnil => hne ?_
      refine List.eq_nil_iff_forall_not_mem.mpr fun pfx hpfx => ?_
      have := (hbase pfx).mpr hpfx
      rw [hnil] at this
      cases this
    rw [hnonempty]
    refine .step (owning_call h fun b s' hs => ?_)
    obtain ⟨_, rfl⟩ := hs
    obtain ⟨howns, hspares'⟩ := owned_withDelta hbase hspares
      (mem_candidates hl hlists hname hindex)
    obtain ⟨hbase', hloaded'⟩ : (withDelta role _ s.memory).baselines = _ ∧ _ := baselines_withDelta
      (ownedDelta (selectedRouteCandidates ks role r) (s.memory.baselines role)) s.memory
    have h' : Inferred d role r
        { s with
          memory := withDelta role
            (ownedDelta (selectedRouteCandidates ks role r)
              (s.memory.baselines role)) s.memory } := by
      unfold Inferred
      simp only [hfirst, hbase', hloaded']
      exact ⟨hleshy, hexec, hname, hindex, hloaded, hne, hbase, hspares'⟩
    refine ⟨h', fun pfx howned hon _ => howns pfx hon fun hmem => hspares pfx hmem howned, ?_⟩
    refine (owning_writeOwnershipCheckpoint hl h').mono fun _ s2 hs2 =>
      OwnsAdded.same ?_ hs2.toSameOwnership hs2.nothingNew
    intro first' hfirst' pfx hon hnot
    cases hfirst'.symm.trans hfirst
    exact howns pfx hon hnot

theorem owning_captureOwnershipBaseline (hl : LegacyRole d role r) (h : Inferred d role r s)
    (hleshy : d.leshy = true) (hname : r.interfaceName ≠ "") (hindex : 0 < r.ifIndex)
    (hroutes : SameRoutes d role r .publish s) :
    (d.captureOwnershipBaseline role r).Keeps (owning d role r) (fun _ _ => True) s := by
  unfold RecoveryDriver.captureOwnershipBaseline
  cases hexec : d.executor with
  | false => exact .ret h trivial
  | true =>
    refine .step (owning_snapshot h fun ks hlists => ?_)
    refine .step (owning_call h fun b s' hs => ?_)
    obtain rfl : s' = s.captured role (selectedRouteCandidates ks role r) := hs
    have hcand : ∀ pfx, pfx ∈ (selectedRouteCandidates ks role r).map OwnedRoute.pfx ↔
        RouteOn d r s pfx := by
      intro pfx
      rw [← mem_candidates hl hlists hname hindex pfx, List.mem_map]
    have h' : Inferred d role r (s.captured role (selectedRouteCandidates ks role r)) := by
      unfold Inferred at h ⊢
      have hroutes := hroutes trivial
      cases hfirst : s.firstBaseline role with
      | none =>
        rw [hfirst] at h hroutes
        simp only [DriverSystem.captured, setAt_self, hfirst, Option.getD_none]
        refine ⟨hleshy, hexec, hname, hindex, trivial, fun hnil => ?_, fun _ => trivial, ?_⟩
        · obtain ⟨pfx, hon⟩ := hroutes
          have := (hcand pfx).mpr hon
          rw [hnil] at this
          cases this
        · rintro pfx _ ⟨o, ho, _⟩
          rw [show s.memory.ownership role = [] from h.1] at ho
          cases ho
      | some first =>
        rw [hfirst] at h hroutes
        simp only [DriverSystem.captured, setAt_self, hfirst, Option.getD_some]
        obtain ⟨_, _, _, _, _, hne, _, hspares⟩ := h
        exact ⟨hleshy, hexec, hname, hindex, trivial, hne,
          fun pfx => (hcand pfx).trans (hroutes pfx), hspares⟩
    exact ⟨h', fun _ howned _ _ => howned,
      (owning_writeOwnershipCheckpoint hl h').mono fun _ _ _ => trivial⟩

/-- Whether a publication may go on is the same in both states. -/
structure SameRouteView (d : RecoveryDriver) (role : String) (r : RoleEntry) (s s' : DriverSystem) :
    Prop where
  first : s'.firstBaseline role = s.firstBaseline role
  routes : ∀ pfx, RouteOn d r s' pfx ↔ RouteOn d r s pfx

theorem Still.sameView (h : Still d role r s s') :
    SameRouteView d role r s s' := ⟨h.first, h.routes⟩

theorem SameRouteView.trans {s'' : DriverSystem} (h : SameRouteView d role r s s')
    (h' : SameRouteView d role r s' s'') : SameRouteView d role r s s'' :=
  ⟨h'.first.trans h.first, fun pfx => (h'.routes pfx).trans (h.routes pfx)⟩

theorem SameRoutes.sameView (h : SameRoutes d role r .publish s)
    (hs : SameRouteView d role r s s') :
    SameRoutes d role r .publish s' := by
  intro _
  simp only [hs.first, hs.routes]
  exact h trivial

/-- As long as there is no baseline, the memory may be set to one without
    ownership. -/
theorem owning_remember_nothing {f : DriverMemory → DriverMemory} (h : Inferred d role r s)
    (hfirst : s.firstBaseline role = none)
    (hf : (f s.memory).ownership role = [] ∧ (f s.memory).baselines role = []) :
    (remember f).Keeps (owning d role r) (fun _ => SameRouteView d role r s) s := by
  refine owning_call h fun b s' hs => ?_
  obtain ⟨_, rfl⟩ := hs
  rw [Inferred, hfirst] at h
  have h' : Inferred d role r { s with memory := f s.memory } := by
    unfold Inferred
    simp only [hfirst]
    exact ⟨hf.1, hf.2, h.2.2⟩
  refine ⟨h', fun pfx howned => ?_, rfl, routeOn_congr rfl fun _ _ => Iff.rfl⟩
  obtain ⟨o, ho, _⟩ := howned
  rw [h.1] at ho
  cases ho

theorem owning_parkingSnapshot {Q : KernelState → DriverSystem → Prop} (h : Inferred d role r s)
    (hQ : ∀ ks, Q ks s) : d.parkingSnapshot.Keeps (owning d role r) Q s := by
  unfold RecoveryDriver.parkingSnapshot
  split_ifs
  · exact .fail h
  · exact owning_snapshot h fun ks _ => hQ ks

theorem owning_restoreFrom {c : ParkingCheckpoint} (hl : LegacyRole d role r)
    (h : Inferred d role r s) (hfirst : s.firstBaseline role = none)
    (hc : c.observed = [] ∧ c.baseline = []) :
    (d.restoreFrom role c).Keeps (owning d role r) (fun _ => SameRouteView d role r s) s := by
  refine .andThen (owning_role hl h) fun x s1 h1 hs1 => ?_
  dsimp only
  split
  · exact .fail h1
  refine .andThen (.step (owning_parkingSnapshot h1 fun _ => owning_parks h1 ⟨rfl, rfl, rfl⟩))
    fun _ s2 h2 hs2 => ?_
  have hview := hs1.2.sameView.trans hs2.sameView
  have hnone := hview.first.trans hfirst
  split
  · refine .andThen (owning_remember_nothing h2 hnone (by simp)) fun _ s3 h3 hs3 => ?_
    exact (owning_writeOwnershipCheckpoint hl h3).mono fun _ s4 hs4 =>
      (hview.trans hs3).trans hs4.sameView
  · refine (owning_remember_nothing h2 hnone ?_).mono fun _ s3 hs3 => hview.trans hs3
    simp [restoredOwnership, hc.1, hc.2]

theorem owning_restoreOwnershipCheckpoint (hl : LegacyRole d role r) (h : Inferred d role r s) :
    (d.restoreOwnershipCheckpoint role).Keeps (owning d role r)
      (fun _ => SameRouteView d role r s) s := by
  refine .step (owning_peek h ?_)
  split_ifs with hloaded
  · exact .ret h (Still.refl d role r s).sameView
  -- with a baseline the ownership counts as loaded
  have hfirst : s.firstBaseline role = none := by
    unfold Inferred at h
    cases hfirst : s.firstBaseline role with
    | none => rfl
    | some first =>
      rw [hfirst] at h
      exact absurd h.2.2.2.2.1 hloaded
  refine .andThen (owning_path hl h) fun _ s1 h1 hs1 => ?_
  have hview1 := hs1.sameView
  have hnone1 := hview1.first.trans hfirst
  have hinf1 : Inferred d role r s1 := h1
  rw [Inferred, hnone1] at hinf1
  refine .step (owning_aside h1 fun file s2 hs2 => ?_)
  obtain ⟨rfl, rfl⟩ := hs2
  refine ⟨.refl role _, rfl, ?_⟩
  have hset := owning_remember_nothing (f := fun m => { m with
    ownershipLoaded := setAt m.ownershipLoaded role true }) h1 hnone1 ⟨hinf1.1, hinf1.2.1⟩
  cases hfile : s2.files role with
  | missing => exact hset.mono fun _ s3 hs3 => hview1.trans hs3
  | undecodable message =>
    refine .andThen hset fun _ s3 h3 hs3 => ?_
    refine owning_call h3 fun _ s4 hs4 => ?_
    have hview := hview1.trans hs3
    rcases hs4 with rfl | rfl
    · exact ⟨h3, (SameOwnership.refl role _).keepsOwned, hview⟩
    have hstill : Still d role r s3 { s3 with files := setAt s3.files role .missing } :=
      .of_eq ⟨rfl, rfl, rfl, rfl⟩ rfl rfl
    have h4 := h3.same hstill.toSameOwnership fun c hc => by
      dsimp only at hc
      rw [setAt_self] at hc
      cases hc
    exact ⟨h4, hstill.keepsOwned, hview.trans hstill.sameView⟩
  | found c =>
    exact (owning_restoreFrom hl h1 hnone1 (hinf1.2.2 c hfile)).mono fun _ s3 hs3 =>
      hview1.trans hs3

theorem owning_observeRestorationFromKernel (h : Inferred d role r s) :
    (d.observeRestorationFromKernel role).Keeps (owning d role r)
      (fun _ s' => SameOwnership role s s' ∧ NothingNew d r s s') s := by
  refine .step (owning_parkingSnapshot h fun kernel => ?_)
  refine .step (owning_peek h ?_)
  refine (Prog.Keeps.forEach (fun _ s' => Inferred d role r s' ∧ SameOwnership role s s' ∧
    NothingNew d r s s') (fun s' hs' => hs'.1) (fun pfx _ s1 hs1 => ?_) _
    ⟨h, .refl role s, fun _ => id⟩).mono fun _ s' hs' => hs'.2
  obtain ⟨h1, hsame1, hnew1⟩ := hs1
  split_ifs
  · refine .andThen (owning_parks h1 ⟨rfl, rfl, rfl⟩) fun _ s2 h2 hs2 => ?_
    have hsame2 := hsame1.trans hs2.toSameOwnership
    have hnew2 : NothingNew d r s s2 := fun q hq => hnew1 q (hs2.nothingNew q hq)
    split_ifs
    · refine .andThen (owning_deletePark h2) fun _ s3 h3 hs3 => ?_
      exact .ret h3 ⟨h3, hsame2.trans hs3.1, fun q hq => hnew2 q (hs3.2 q hq)⟩
    · exact .ret h2 ⟨h2, hsame2, hnew2⟩
  · exact .ret h1 ⟨h1, hsame1, hnew1⟩

theorem owning_publishParks (hl : LegacyRole d role r) (h : Inferred d role r s) :
    (d.publishParks role).Keeps (owning d role r) (fun _ => Still d role r s) s := by
  refine .step (owning_peek h ?_)
  refine .andThen (owning_product h) fun _ s1 h1 hs1 => ?_
  refine .andThen (owning_product h1) fun _ s2 h2 hs2 => ?_
  exact (owning_writeOwnershipCheckpoint hl h2).mono fun _ s3 hs3 => (hs1.trans hs2).trans hs3

end

-- === Steps ===

section

variable {d : RecoveryDriver} {role : String} {r : RoleEntry} {s s' : DriverSystem}
  (hl : LegacyRole d role r)

include hl

variable (h : Inferred d role r s)

include h

theorem owning_observeRoutes :
    (d.observeRoutes role).Keeps (owning d role r) (fun _ => SameRouteView d role r s) s := by
  unfold RecoveryDriver.observeRoutes
  split_ifs
  · exact .ret h (Still.refl d role r s).sameView
  · exact .step (owning_snapshot h fun _ _ => owning_restoreOwnershipCheckpoint hl h)

theorem owning_applyEndpoint :
    (d.applyEndpoint role).Keeps (owning d role r) (fun _ => Still d role r s) s := by
  unfold RecoveryDriver.applyEndpoint
  split_ifs
  · exact .ret h (.refl d role r s)
  refine .andThen (owning_role hl h) fun x s1 h1 hs1 => ?_
  dsimp only
  split_ifs
  · exact .fail h1
  · exact .fail h1
  refine .step (owning_aside h1 fun resolved s2 hs2 => ?_)
  obtain rfl : s2 = s1 := hs2
  refine ⟨.refl role _, rfl, .step (.ofExcept h1 fun state _ => ?_)⟩
  split_ifs
  · exact .fail h1
  refine .step (.ofExcept h1 fun routes _ => ?_)
  refine .andThen (owning_reconcile h1) fun _ s3 h3 hs3 => ?_
  exact (owning_product h3).mono fun _ s4 hs4 => (hs1.2.trans hs3).trans hs4

theorem owning_publish (hroutes : SameRoutes d role r .publish s) :
    (d.publish role).Keeps (owning d role r) (fun _ _ => True) s := by
  unfold RecoveryDriver.publish
  cases hleshy : d.leshy with
  | false => exact .ret h trivial
  | true =>
    refine .andThen (owning_role hl h) ?_
    rintro ⟨_, product⟩ s1 h1 ⟨rfl, hs1⟩
    dsimp only
    split_ifs with hface hlegacy
    · exact .fail h1
    · exact absurd hlegacy (by simp [hl.legacy])
    rw [not_or, not_le] at hface
    refine .seq (owning_captureOwnershipBaseline hl h1 hleshy hface.1 hface.2
      (hroutes.sameView hs1.sameView)) fun _ s2 h2 => ?_
    refine .seq (owning_leshy h2 fun b s' hs => hs.2) fun _ s3 h3 => ?_
    refine .seq (owning_product h3) fun _ s4 h4 => ?_
    refine .step (owning_aside h4 fun _ s5 hs5 => ?_)
    obtain ⟨-, rfl⟩ := hs5
    exact ⟨.refl role _, rfl, (owning_product h4).mono fun _ _ _ => trivial⟩

theorem owning_resyncLeshy :
    (d.resyncLeshy role).Keeps (owning d role r) (fun _ => OwnsAdded d role r) s := by
  unfold RecoveryDriver.resyncLeshy
  cases hleshy : d.leshy with
  | false =>
    -- without Leshy there was no publication
    refine .ret h fun first hfirst => ?_
    rw [Inferred, hfirst, hleshy] at h
    cases h.1
  | true =>
    refine .andThen (owning_role hl h) ?_
    rintro ⟨_, product⟩ s1 h1 ⟨rfl, _⟩
    dsimp only
    split_ifs
    · exact .fail h1
    exact .seq (owning_leshy h1 fun b s' hs => hs) fun _ s2 h2 => owning_captureOwnedDelta hl h2

theorem owning_observeRestoration :
    (d.observeRestoration role).Keeps (owning d role r) (fun _ => OwnsAdded d role r) s := by
  unfold RecoveryDriver.observeRestoration
  rw [if_neg (by simp [hl.legacy]), hl.entry]
  cases hexec : d.executor with
  | false =>
    refine .ret h fun first hfirst => ?_
    rw [Inferred, hfirst, hexec] at h
    cases h.2.1
  | true =>
    refine .andThen (owning_captureOwnedDelta hl h) fun _ s1 h1 hcovers => ?_
    refine .andThen (owning_observeRestorationFromKernel h1) fun _ s2 h2 hs2 => ?_
    refine .andThen (owning_publishParks hl h2) fun _ s3 h3 hs3 => ?_
    refine .step (owning_peek h3 ?_)
    split_ifs
    · exact .fail h3
    · exact .ret h3 ((hcovers.same hs2.1 hs2.2).same hs3.toSameOwnership hs3.nothingNew)

omit h

omit hl

theorem owning_labelled {label : String} {p : RecoveryM Unit} {Q : Unit → DriverSystem → Prop}
    (h : p.Keeps (owning d role r) Q s) :
    (RecoveryDriver.labelled label p).Keeps (owning d role r) Q s :=
  .tryCatch h fun _ _ h' => .fail h'

/-- An activation publishes in the state in which it starts, as far as the
    ownership is concerned. -/
theorem owning_activateReadyRole (hl : LegacyRole d role r) (h : Inferred d role r s)
    (hroutes : SameRoutes d role r .activate s) :
    (d.activateReadyRole role).Keeps (owning d role r)
      (fun _ s' => ¬ AlreadyActive d role s → OwnsAdded d role r s') s := by
  unfold RecoveryDriver.activateReadyRole
  cases henabled : d.enabled with
  | false => exact .ret h fun hnot => absurd (.inl henabled) hnot
  | true =>
    refine .step (owning_aside h fun b s1 hs1 => ?_)
    obtain ⟨rfl, hs1⟩ := hs1
    obtain rfl : s1 = s := hs1
    refine ⟨.refl role _, rfl, ?_⟩
    dsimp only
    cases hruntime : s1.world.runtime role with
    | none => exact .fail h
    | some runtime =>
      dsimp only
      split_ifs with hactive
      · exact (owning_product h).mono fun _ _ _ hnot =>
          absurd (.inr ⟨runtime, hruntime, hactive⟩) hnot
      have hpending : ¬ AlreadyActive d role s1 := by
        rintro (hoff | ⟨runtime', hruntime', hactive'⟩)
        · rw [henabled] at hoff
          cases hoff
        · cases hruntime'.symm.trans hruntime
          exact hactive hactive'
      have hpublish : SameRoutes d role r .publish s1 := fun _ => hroutes hpending
      refine .andThen (owning_labelled (owning_observeRoutes hl h)) fun _ s2 h2 hs2 => ?_
      refine .andThen (owning_labelled (owning_applyEndpoint hl h2)) fun _ s3 h3 hs3 => ?_
      refine .seq (owning_labelled (owning_publish hl h3
        (hpublish.sameView (hs2.trans hs3.sameView)))) fun _ s4 h4 => ?_
      refine .seq (owning_labelled (owning_resyncLeshy hl h4)) fun _ s5 h5 => ?_
      refine .andThen (owning_labelled (owning_observeRestoration hl h5))
        fun _ s6 h6 hcovers => ?_
      exact (owning_product h6).mono fun _ s7 hs7 _ =>
        hcovers.same hs7.toSameOwnership hs7.nothingNew

theorem owning_program (hl : LegacyRole d role r) (h : Inferred d role r s) (a : OwnershipAction)
    (hroutes : SameRoutes d role r a s) :
    (a.program d role).Keeps (owning d role r)
      (fun _ s' => a.observes d role s → OwnsAdded d role r s') s := by
  cases a with
  | publish => exact (owning_publish hl h hroutes).mono fun _ _ _ hobserves => hobserves.elim
  | resyncLeshy => exact (owning_resyncLeshy hl h).mono fun _ _ hcovers _ => hcovers
  | observeRestoration => exact (owning_observeRestoration hl h).mono fun _ _ hcovers _ => hcovers
  | activate => exact owning_activateReadyRole hl h hroutes

theorem OwnershipRun.inferred (hl : LegacyRole d role r)
    (hrun : OwnershipRun d role (SameRoutes d role r) s) : Inferred d role r s := by
  induction hrun with
  | start h => exact h.inferred
  | leshy _ _ ih => exact ih.same ⟨rfl, rfl, rfl, rfl⟩ fun c hc => .inl hc
  | step _ hR he ih => exact (Prog.Safe.sound (owning_program hl ih _ hR) he).2.1

/-- In every run in which each publication meets exactly the routes of the first
    baseline, and the first one meets some, every step keeps the ownership exact. -/
theorem OwnershipRun.exact (hl : LegacyRole d role r)
    (hrun : OwnershipRun d role (SameRoutes d role r) s) {a : OwnershipAction}
    (hR : SameRoutes d role r a s) {trace : List (Event RecoveryCall DriverSystem)}
    {o : Outcome DriverError Unit} (he : Exec (RecoveryStep d) (a.program d role) s trace o s') :
    OwnershipExact d role r a s trace o s' := by
  obtain ⟨hall, hinf, hreturned, _⟩ :=
    Prog.Safe.sound (owning_program hl (hrun.inferred hl) a hR) he
  exact ⟨fun hobserves ho => hreturned () ho hobserves, fun ev hev => (hall ev hev).1,
    hinf.sparesBaseline, fun ev hev => (hall ev hev).2⟩

end

-- === Runs that lose track ===

def tunEntry : RoleEntry :=
  { cfg := some { name := "work", leshyZone := "corp", rulePriority := 60, stateDir := "/var/lib" },
    interfaceName := "tun0", ifIndex := 7 }

def legacyDriver : RecoveryDriver where
  authority := workAuthority
  roles name := if name = "work" then some tunEntry else none

def secondPrefix : Prefix := ⟨.v4 0x0a000002#32, 32⟩

def thirdPrefix : Prefix := ⟨.v4 0x0a000003#32, 32⟩

def samplePrefixes : List Prefix := [samplePrefix, secondPrefix, thirdPrefix]

def staticRoutes (prefixes : List Prefix) : Kernel := fun pfx =>
  if pfx ∈ samplePrefixes ∧ pfx ∈ prefixes then [.route (sampleIdentity 7)] else []

def unpublishedSystem (prefixes : List Prefix) : DriverSystem where
  world := { platform := samplePlatform, kernel := staticRoutes prefixes }

def reroute (prefixes : List Prefix) (k : Kernel) : Kernel := fun pfx =>
  (k pfx).filter (fun | .route _ => false | _ => true) ++ staticRoutes prefixes pfx

/-- What happens in a sample run. -/
inductive OwnershipMove
  /-- Leshy changes the routes to these -/
  | leshy (prefixes : List Prefix)
  | act (a : OwnershipAction)

namespace OwnershipMove

def play (s : DriverSystem) : OwnershipMove → DriverSystem
  | leshy prefixes => { s with world := s.world.withKernel (reroute prefixes s.world.kernel) }
  | act a =>
    ((a.program legacyDriver "work").run (recoveryHandle legacyDriver samplePrefixes {}) s).2

def checked (s : DriverSystem) : OwnershipMove → Bool
  | leshy _ => true
  | act a =>
    ((a.program legacyDriver "work").events (recoveryHandle legacyDriver samplePrefixes {}) s).all
      fun ev => ev.call.contained samplePrefixes

end OwnershipMove

def checkedMoves (s : DriverSystem) : List OwnershipMove → Bool
  | [] => true
  | m :: moves => m.checked s && checkedMoves (m.play s) moves

def playOwnership (prefixes : List Prefix) (moves : List OwnershipMove) : DriverSystem :=
  moves.foldl OwnershipMove.play (unpublishedSystem prefixes)

section Plays

variable {s : DriverSystem} {prefixes : List Prefix} {pfx : Prefix} {row : SelectedKernelRow}
  {moves : List OwnershipMove}

theorem staticRoutes_route (h : row ∈ staticRoutes prefixes pfx) :
    row = .route (sampleIdentity 7) := by
  unfold staticRoutes at h
  split at h
  · exact List.mem_singleton.mp h
  · cases h

theorem staticRoutes_covered (h : s.world.kernel = staticRoutes prefixes) :
    s.Covered samplePrefixes := by
  intro pfx hpfx
  rw [h]
  exact if_neg fun hmem => hpfx hmem.1

theorem reroute_leshyEdits (prefixes : List Prefix) (k : Kernel) :
    LeshyEdits k (reroute prefixes k) := by
  intro pfx row hrow
  have hstatic : row ∉ staticRoutes prefixes pfx := fun h => hrow _ (staticRoutes_route h)
  unfold reroute
  rw [List.mem_append, or_iff_left hstatic, List.mem_filter]
  cases row with
  | route i => exact absurd rfl (hrow i)
  | _ => exact and_iff_left rfl

theorem reroute_covered (h : s.Covered samplePrefixes) (prefixes : List Prefix) :
    { s with world := s.world.withKernel (reroute prefixes s.world.kernel) }.Covered
      samplePrefixes := by
  intro pfx hpfx
  change reroute prefixes s.world.kernel pfx = []
  rw [reroute, h pfx hpfx, staticRoutes, if_neg fun hmem => hpfx hmem.1]
  rfl

theorem returns_of_isOk {p : RecoveryM Unit} {d : RecoveryDriver} {s' : DriverSystem}
    {trace : List (Event RecoveryCall DriverSystem)} {answer : Except DriverError Unit}
    (he : Exec (RecoveryStep d) p s trace (Prog.Outcome.of answer) s')
    (hok : answer.isOk = true) : p.Returns (RecoveryStep d) s () s' := by
  cases answer with
  | ok u => exact ⟨trace, he⟩
  | error e => cases hok

theorem OwnershipRun.play {R : OwnershipAction → DriverSystem → Prop} {m : OwnershipMove}
    (hrun : OwnershipRun legacyDriver "work" R s) (h : s.Covered samplePrefixes)
    (hm : m.checked s = true) (hR : ∀ a, m = .act a → R a s) :
    OwnershipRun legacyDriver "work" R (m.play s) ∧ (m.play s).Covered samplePrefixes := by
  cases m with
  | leshy prefixes =>
    exact ⟨.leshy hrun (reroute_leshyEdits prefixes _), reroute_covered h prefixes⟩
  | act a =>
    obtain ⟨he, hcovered⟩ := exec_contained h hm
    exact ⟨.step hrun (hR a rfl) he, hcovered⟩

theorem playOwnership_run (h : checkedMoves (unpublishedSystem prefixes) moves = true) :
    OwnershipRun legacyDriver "work" (fun _ _ => True) (playOwnership prefixes moves) ∧
    (playOwnership prefixes moves).Covered samplePrefixes := by
  suffices hall : ∀ s, OwnershipRun legacyDriver "work" (fun _ _ => True) s →
      s.Covered samplePrefixes → checkedMoves s moves = true →
      OwnershipRun legacyDriver "work" (fun _ _ => True) (moves.foldl OwnershipMove.play s) ∧
      (moves.foldl OwnershipMove.play s).Covered samplePrefixes from
    hall _ (.start ⟨rfl, rfl, rfl, rfl⟩) (staticRoutes_covered rfl) h
  clear h
  induction moves with
  | nil => exact fun s hrun hs _ => ⟨hrun, hs⟩
  | cons m moves ih =>
    intro s hrun hs hm
    rw [checkedMoves, Bool.and_eq_true] at hm
    obtain ⟨hrun', hs'⟩ := hrun.play hs hm.1 fun _ _ => trivial
    exact ih _ hrun' hs' hm.2

end Plays

def ResyncOf (s s' : DriverSystem) : Prop :=
  OwnershipRun legacyDriver "work" (fun _ _ => True) s ∧ ∃ trace,
    Exec (RecoveryStep legacyDriver) (OwnershipAction.resyncLeshy.program legacyDriver "work") s
      trace (.returned ()) s'

def resync : OwnershipMove := .act .resyncLeshy

def resyncAnswer (s : DriverSystem) : Except DriverError Unit :=
  ((legacyDriver.resyncLeshy "work").run (recoveryHandle legacyDriver samplePrefixes {}) s).1

theorem resync_returns {s : DriverSystem} (h : s.Covered samplePrefixes)
    (hall : resync.checked s = true ∧ (resyncAnswer s).isOk = true) :
    (OwnershipAction.resyncLeshy.program legacyDriver "work").Returns (RecoveryStep legacyDriver) s
      () (resync.play s) :=
  returns_of_isOk (exec_contained h hall.1).1 hall.2

theorem routeOn_sample {s : DriverSystem}
    (h : .route (sampleIdentity 7) ∈ s.world.kernel samplePrefix) :
    RouteOn legacyDriver tunEntry s samplePrefix :=
  ⟨_, .inr ⟨samplePrefix, _, h, rfl⟩, by decide⟩

def tunRoute (pfx : Prefix) : OwnedRoute := ⟨"work", "tun0", 7, pfx⟩

def publishThen (prefixes : List Prefix) : List OwnershipMove := [.act .publish, .leshy prefixes]

def twoPublications : List OwnershipMove :=
  publishThen [samplePrefix, secondPrefix] ++ [resync] ++ publishThen samplePrefixes

def awayAtSecond : List OwnershipMove :=
  publishThen [secondPrefix] ++ publishThen [samplePrefix, secondPrefix]

/-- The routes that Leshy adds to an empty interface are not owned after the
    resync. -/
theorem empty_baseline_owns_nothing : ∃ s s', ResyncOf s s' ∧
    s'.firstBaseline "work" = some [] ∧ RouteOn legacyDriver tunEntry s' samplePrefix ∧
    ¬ Owned "work" s' samplePrefix := by
  obtain ⟨hrun, hcovered⟩ : _ ∧ (playOwnership [] (publishThen [samplePrefix])).Covered _ :=
    playOwnership_run (by decide +kernel)
  have howned : (resync.play (playOwnership [] (publishThen [samplePrefix]))).memory.ownership
      "work" = [] := by
    decide +kernel
  refine ⟨_, _, ⟨hrun, resync_returns hcovered (by decide +kernel)⟩, by decide +kernel,
    routeOn_sample (by decide +kernel), ?_⟩
  rintro ⟨o, ho, -⟩
  cases ho

/-- After a second publication the routes that came before it count as baseline: one
    that was owned is not owned after the next resync. -/
theorem second_publication_disowns : ∃ s s', ResyncOf s s' ∧
    Owned "work" s samplePrefix ∧ RouteOn legacyDriver tunEntry s samplePrefix ∧
    RouteOn legacyDriver tunEntry s' samplePrefix ∧ ¬ Owned "work" s' samplePrefix := by
  obtain ⟨hrun, hcovered⟩ : _ ∧ (playOwnership [secondPrefix] twoPublications).Covered _ :=
    playOwnership_run (by decide +kernel)
  have howned : tunRoute samplePrefix ∈
      (playOwnership [secondPrefix] twoPublications).memory.ownership "work" := by
    decide +kernel
  have howned' : (resync.play (playOwnership [secondPrefix] twoPublications)).memory.ownership
      "work" = [tunRoute thirdPrefix] := by
    decide +kernel
  refine ⟨_, _, ⟨hrun, resync_returns hcovered (by decide +kernel)⟩, ⟨_, howned, rfl⟩,
    routeOn_sample (by decide +kernel), routeOn_sample (by decide +kernel), ?_⟩
  rintro ⟨o, ho, hpfx⟩
  rw [howned', List.mem_singleton] at ho
  rw [ho] at hpfx
  exact absurd hpfx (by decide)

/-- A route of the first baseline that is away at a second publication and comes back
    is owned. -/
theorem second_publication_owns_baseline : ∃ s s' first, ResyncOf s s' ∧
    s'.firstBaseline "work" = some first ∧ samplePrefix ∈ first ∧ Owned "work" s' samplePrefix := by
  obtain ⟨hrun, hcovered⟩ :
      _ ∧ (playOwnership [samplePrefix, secondPrefix] awayAtSecond).Covered _ :=
    playOwnership_run (by decide +kernel)
  have hfirst : (resync.play (playOwnership [samplePrefix, secondPrefix]
      awayAtSecond)).firstBaseline "work" = some [samplePrefix, secondPrefix] := by
    decide +kernel
  have howned : tunRoute samplePrefix ∈ (resync.play (playOwnership [samplePrefix, secondPrefix]
      awayAtSecond)).memory.ownership "work" := by
    decide +kernel
  exact ⟨_, _, _, ⟨hrun, resync_returns hcovered (by decide +kernel)⟩, hfirst,
    List.mem_cons_self .., _, howned, rfl⟩

/-- Ownership is not what Leshy added: routes on an empty interface are missed, a
    second publication disowns routes, and it can make a route of the first baseline
    owned. -/
theorem ownership_loses_track :
    (∃ s s', ResyncOf s s' ∧ s'.firstBaseline "work" = some [] ∧
      ¬ OwnsAdded legacyDriver "work" tunEntry s') ∧
    (∃ s s', ResyncOf s s' ∧ ¬ KeepsOwned legacyDriver "work" tunEntry s s') ∧
    ∃ s s', ResyncOf s s' ∧ ¬ SparesBaseline "work" s' := by
  obtain ⟨s, s', hresync, hfirst, hon, hnot⟩ := empty_baseline_owns_nothing
  obtain ⟨t, t', hresync', howned, ht, ht', hnot'⟩ := second_publication_disowns
  obtain ⟨u, u', first, hresync'', hfirst', hmem, howned'⟩ := second_publication_owns_baseline
  exact ⟨⟨s, s', hresync, hfirst, fun h => hnot (h [] hfirst _ hon List.not_mem_nil)⟩,
    ⟨t, t', hresync', fun h => hnot' (h _ howned ht ht')⟩,
    ⟨u, u', hresync'', fun h => h first hfirst' _ hmem howned'⟩⟩

/-- With a route on the interface at the first publication, the route that Leshy adds
    later is owned after the resync. -/
theorem ownership_exact_sample : ∃ s trace s',
    OwnershipExact legacyDriver "work" tunEntry .resyncLeshy s trace (.returned ()) s' ∧
    RouteOn legacyDriver tunEntry s' samplePrefix ∧ Owned "work" s' samplePrefix := by
  have hpublish : SameRoutes legacyDriver "work" tunEntry .publish
      (unpublishedSystem [secondPrefix]) := fun _ =>
    ⟨secondPrefix, _, .inr ⟨secondPrefix, .route (sampleIdentity 7), by decide +kernel, rfl⟩,
      by decide⟩
  have hstart : OwnershipRun legacyDriver "work" (SameRoutes legacyDriver "work" tunEntry)
      (unpublishedSystem [secondPrefix]) := .start ⟨rfl, rfl, rfl, rfl⟩
  obtain ⟨hpublished, hcovered⟩ := hstart.play (m := .act .publish) (staticRoutes_covered rfl)
    (by decide +kernel) (by rintro a ⟨⟩; exact hpublish)
  obtain ⟨hrun, hcovered'⟩ := hpublished.play (m := .leshy [samplePrefix, secondPrefix]) hcovered
    rfl nofun
  obtain ⟨trace, he⟩ := resync_returns hcovered' (by decide +kernel)
  have howned : tunRoute samplePrefix ∈ (resync.play (playOwnership [secondPrefix]
      (publishThen [samplePrefix, secondPrefix]))).memory.ownership "work" := by
    decide +kernel
  have hexact := OwnershipRun.exact (r := tunEntry) ⟨rfl, rfl, by decide⟩ hrun
    (a := .resyncLeshy) False.elim he
  exact ⟨_, trace, _, hexact, routeOn_sample (by decide +kernel), _, howned, rfl⟩

end Kikimora.Control

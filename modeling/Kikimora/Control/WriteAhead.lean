import Kikimora.Control.Ledger
import Kikimora.Control.Observer

/-!
# Write-ahead transactions

Every transaction writes the target of a mutation to disk before it issues the
mutation, and drops an authorized row from the checkpoint only after the
platform has accounted for it. Where that rests on what a transaction finds when
it starts, the lemma says so.
-/

namespace Kikimora.Control

open Net Routing Platform Kikimora.Core

def KeepsLedger (cfg : Config) (role : String) (pfx : Prefix) (base : World) {α : Type}
    (p : ManagerM α) (w : World) (l : Ledger) : Prop :=
  p.Keeps (ledgered role (LedgeredAt cfg role pfx base)) (fun _ _ => True) (w, l)

def Prepared (role : String) (w : World) (e : SelectedRoute) : Prop :=
  e.state = .applying → ∃ d, diskRecord w role e.pfx = some d ∧ d.Authorizes (.route e.desired)

def ParkDisowned (e : SelectedRoute) : Prop :=
  ∀ p, e.park = some p → p.state = .pending → p.owned = none

section Programs

variable {cfg : Config} {role : String} {pfx : Prefix} {base w : World} {l : Ledger}
  {e : SelectedRoute} {α : Type} {Q : Unit → World × Ledger → Prop} {p : SelectedPark}
  {d : SelectedParkIdentity}

section

variable (h : Holding cfg role pfx base e w l)

include h

theorem ledger_plain (t : RecordTransition) (ht : t.Plain)
    (hQ : ∀ e' w', t.Edits e e' → Holding cfg role pfx base e' w' l → Q () (w', l)) :
    (registry fun r => t.apply r role pfx).Keeps (transacting cfg role pfx base) Q (w, l) :=
  ledger_record t h (fun _ hedit _ _ hn => hedit.namesRow ht hn) hQ

end

-- === Retiring a record ===

theorem mem_removalCandidates_of_names {i : SelectedRouteIdentity} (h : e.Names i) :
    i ∈ removalCandidates e := by
  by_cases ho : e.owned = some i
  · simp [removalCandidates, ho]
  rcases h with h | ⟨rfl, hs⟩ | ⟨rfl, hs, hr⟩
  · exact absurd h ho
  · simp [removalCandidates, ho, hs]
  · simp [removalCandidates, ho, hs, hr]

theorem mem_parkRemovalCandidates_of_names (hs : p.state = .retiring) (pfx : Prefix) :
    ∃ ids, parkRemovalCandidates pfx p = .ok ids ∧ ∀ i, p.Names i → i ∈ ids := by
  refine ⟨_, by simp only [parkRemovalCandidates, hs]; rfl, fun i hn => ?_⟩
  by_cases ho : p.owned = some i
  · simp [ho]
  rcases hn with hn | ⟨_, ha⟩ | ⟨rfl, _, hr⟩
  · exact absurd hn ho
  · simp [hs] at ha
  · simp [ho, hr]

/-- No row of the prefix is authorized, as far as routes go. -/
def RoutesSettled (pfx : Prefix) (l : Ledger) : Prop := ∀ i, ¬ l.authorized pfx (.route i)

section Retirement

variable (h : Holding cfg role pfx base e w l)

include h

theorem ledger_removeSelectedRoute
    (hQ : ∀ w' l', Holding cfg role pfx base e w' l' → RoutesSettled pfx l' → Q () (w', l')) :
    (routes (.removeSelectedRoute e)).Keeps (transacting cfg role pfx base) Q (w, l) := by
  obtain rfl := h.wellFormed.pfx_eq h.lookup
  refine ledger_reads h (fun _ _ => id) fun _ w' l' h' hkept => hQ w' l' h' fun i hi => ?_
  obtain ⟨hold, hns⟩ := hkept _ hi
  exact hns ⟨rfl, i, mem_removalCandidates_of_names (h.names hold), rfl⟩

theorem ledger_removeManagedPark (hp : e.park = some p) (hs : p.state = .retiring)
    (hQ : ∀ w' l', Holding cfg role pfx base e w' l' →
      (∀ row, l'.authorized pfx row → l.authorized pfx row) →
      (∀ i, ¬ l'.authorized pfx (.park i)) → Q () (w', l')) :
    (routes (.removeManagedPark role pfx p)).Keeps (transacting cfg role pfx base) Q (w, l) := by
  refine ledger_reads h (fun _ _ => id) fun _ w' l' h' hkept =>
    hQ w' l' h' (fun row hrow => (hkept row hrow).1) fun i hi => ?_
  obtain ⟨hold, hns⟩ := hkept _ hi
  obtain ⟨q, hq, hn⟩ := h.names hold
  cases hp.symm.trans hq
  obtain ⟨ids, hids, hall⟩ := mem_parkRemovalCandidates_of_names hs pfx
  exact hns ⟨rfl, ids, hids, i, hall i hn, rfl⟩

theorem ledger_clearPark (hnone : ∀ i, ¬ l.authorized pfx (.park i))
    (hQ : ∀ w' e', Holding cfg role pfx base e' w' l → e'.park = none → e'.state = e.state →
      Q () (w', l)) :
    (registry (·.clearPark role pfx)).Keeps (transacting cfg role pfx base) Q (w, l) := by
  refine ledger_record .clearPark h (fun e' hedit row hrow hn => ?_) fun e' w' hedit h' => ?_
  · cases row with
    | route i => exact hedit.names hn (by simp)
    | park i => exact absurd hrow (hnone i)
    | foreign text => exact hn
  · cases hedit with
    | clearNoPark hp => exact hQ w' _ h' hp rfl
    | clearPark _ _ => exact hQ w' _ h' rfl rfl

/-- A checkpoint authorizes no route of a record that is not Applying. -/
theorem ledger_checkpoint_routes
    (hQ : ∀ w' l', Holding cfg role pfx base e w' l' →
      (e.state = .retiring → RoutesSettled pfx l → RoutesSettled pfx l') → Q () (w', l')) :
    (checkpoint cfg role).Keeps (transacting cfg role pfx base) Q (w, l) := by
  refine ledger_checkpoint h fun w' l' h' _ hnew => hQ w' l' h' fun hs hnone i hi => ?_
  rcases hnew _ hi with hold | ⟨ha, _⟩
  · exact hnone i hold
  · rw [hs] at ha
    cases ha

theorem resumeParkRetirement_ledgered (hp : e.park = some p) (hs : p.state = .retiring)
    (hQ : ∀ w' l' e', Holding cfg role pfx base e' w' l' → e'.park = none →
      (e.state = .retiring → RoutesSettled pfx l → RoutesSettled pfx l') → Q () (w', l')) :
    (resumeParkRetirement cfg role pfx p).Keeps (transacting cfg role pfx base) Q (w, l) := by
  refine .step (ledger_removeManagedPark h hp hs fun w1 l1 h1 hsub hnone => ?_)
  refine .step (ledger_clearPark h1 hnone fun w2 e2 h2 hp2 hs2 => ?_)
  exact ledger_checkpoint_routes h2 fun w3 l3 h3 hroutes => hQ w3 l3 e2 h3 hp2
    fun hret hnone => hroutes (hs2.trans hret) fun i hi => hnone i (hsub _ hi)

/-- A record without a park names no park row. -/
theorem Holding.settled (hp : e.park = none) (hroutes : RoutesSettled pfx l)
    (row : SelectedKernelRow) : ¬ l.authorized pfx row := by
  intro hrow
  have hn := h.names hrow
  cases row with
  | route i => exact hroutes i hrow
  | park i =>
    obtain ⟨p, hp', _⟩ := hn
    rw [hp] at hp'
    cases hp'
  | foreign text => exact hn

theorem resumeParkRetirementLocked_ledgered (hret : e.state = .retiring) (hp : e.park = some p)
    (hs : p.state = .retiring) (hroutes : RoutesSettled pfx l)
    (hQ : ∀ w' l', LedgeredAt cfg role pfx base w' l' → (∀ row, ¬ l'.authorized pfx row) →
      Q () (w', l')) :
    (resumeParkRetirementLocked cfg role pfx).Keeps (transacting cfg role pfx base) Q (w, l) := by
  refine .step (keeps_read h.1 ?_)
  rw [registryEntryOf_eq h.wellFormed, h.lookup]
  simp only [Option.bind_some, hp]
  exact resumeParkRetirement_ledgered h hp hs fun w2 l2 e2 h2 hp2 hsub =>
    hQ w2 l2 h2.1 (h2.settled hp2 (hsub hret hroutes))

theorem retirePark_ledgered (hret : e.state = .retiring) (hpark : ParkDisowned e)
    (hroutes : RoutesSettled pfx l)
    (hQ : ∀ w' l', LedgeredAt cfg role pfx base w' l' → (∀ row, ¬ l'.authorized pfx row) →
      Q () (w', l')) :
    (retirePark cfg role pfx e).Keeps (transacting cfg role pfx base) Q (w, l) := by
  unfold retirePark
  cases hp : e.park with
  | none => exact .ret h.1 (hQ w l h.1 (h.settled hp hroutes))
  | some p =>
    have hmark : ((registry (·.markParkRetiring role pfx)).bind fun _ =>
        (checkpoint cfg role).bind fun _ => resumeParkRetirementLocked cfg role pfx).Keeps
          (transacting cfg role pfx base) Q (w, l) := by
      refine .step (ledger_plain h .markParkRetiring trivial fun e1 _ hedit h1 => ?_)
      refine .step (ledger_checkpoint_routes h1 fun w2 l2 h2 hsub => ?_)
      cases hedit
      exact resumeParkRetirementLocked_ledgered h2 hret rfl rfl (hsub hret hroutes) hQ
    simp only [Option.map_some]
    cases hs : p.state with
    | pending =>
      refine .step (ledger_clearPark h (fun i hi => ?_) fun w1 e1 h1 hp1 hs1 => ?_)
      · obtain ⟨q, hq, hn⟩ := h.names hi
        cases hp.symm.trans hq
        have ho := hn.owned (by simp [hs]) (by simp [hs])
        rw [hpark p hp hs] at ho
        cases ho
      · exact ledger_checkpoint_routes h1 fun w2 l2 h2 hsub =>
          hQ w2 l2 h2.1 (h2.settled hp1 (hsub (hs1.trans hret) hroutes))
    | applying | active => exact hmark
    | retiring => exact resumeParkRetirementLocked_ledgered h hret hp hs hroutes hQ
    | other text => exact absurd hs (((h.wellFormed _ _ h.lookup).2.park p hp).known text)

/-- `retireRecordLocked`, from the Retiring record on. -/
abbrev finishRetirement (cfg : Config) (role : String) (pfx : Prefix) (record : SelectedRoute) :
    ManagerM Unit :=
  (routes (.removeSelectedRoute record)).bind fun _ =>
    (retirePark cfg role pfx record).bind fun _ =>
    (registry fun r => (.ok (), r.remove role pfx)).bind fun _ =>
    (checkpoint cfg role).bind fun _ => clearVerificationForPrefix pfx

theorem retired_ledgered (hret : e.state = .retiring) (hpark : ParkDisowned e) :
    KeepsLedger cfg role pfx base (finishRetirement cfg role pfx e) w l := by
  refine .step (ledger_removeSelectedRoute h fun w2 l2 h2 hroutes => ?_)
  refine .step (retirePark_ledgered h2 hret hpark hroutes fun w3 l3 h3 hnone => ?_)
  refine .step (ledger_erase h3 hnone fun w4 h4 => ?_)
  refine .step (.step (keeps_memory h4 (h4.of_eq rfl rfl rfl) (ledger_writeCheckpoint h.dir
    (h4.of_eq rfl rfl rfl) fun w5 l5 h5 _ _ _ => ?_)))
  exact keeps_memory h5 (h5.of_eq rfl rfl rfl) trivial

end Retirement

/-- The retirement of a record whose park owns nothing while it is Pending. -/
theorem retireRecordLocked_ledgered (hdir : cfg.stateDir role = true)
    (h : LedgeredAt cfg role pfx base w l)
    (hpark : ∀ e, w.registry.lookup ⟨role, pfx⟩ = some e → ParkDisowned e) :
    KeepsLedger cfg role pfx base (retireRecordLocked cfg role pfx) w l := by
  unfold retireRecordLocked
  split_ifs
  · exact .fail h
  refine .step (keeps_read h ?_)
  rw [registryEntryOf_eq h.wellFormed]
  cases hl : w.registry.lookup ⟨role, pfx⟩ with
  | none => exact .ret h trivial
  | some e =>
    have he : Holding cfg role pfx base e w l := ⟨h, hdir, hl⟩
    refine .step ?_
    unfold beginRetirement
    split_ifs with hs
    · exact .ret h (retired_ledgered he hs (hpark e hl))
    refine .step (ledger_plain he .markRetiring trivial fun e1 _ hedit h1 => ?_)
    refine .step (ledger_checkpoint h1 fun w2 l2 h2 _ _ => ?_)
    cases hedit
    refine .step (keeps_read h2.1 ?_)
    rw [registryEntryOf_eq h2.wellFormed, h2.lookup]
    exact .ret h2.1 (retired_ledgered h2 rfl (hpark e hl))

-- === Transactions ===

/-- The rows that have been authorized have to be named, and a row is ahead when
    the checkpoint authorizes it. -/
def ledgerTenure (hdir : cfg.stateDir role = true) :
    Tenure (ledgerOf role) (WrittenAhead role) cfg role where
  Inv := Ledgered cfg role
  At := LedgeredAt cfg role
  Live pfx _ l := l.authorized pfx
  Ahead pfx w _ row := ∃ d, diskRecord w role pfx = some d ∧ d.Authorizes row
  Unparks _ _ _ _ := True
  May _ := True
  onPark _ := trivial
  wellFormed h := h.wellFormed
  start pfx h := h.start pfx
  done h := h.toLedgered
  elsewhere h hk := h.elsewhere _ hk
  memory h hr := h.of_eq hr rfl rfl
  record t _ h hkeep hQ := ledger_record t ⟨h.inv, hdir, h.lookup⟩ hkeep
    fun e' w' hedit h' => hQ e' w' hedit ⟨h'.1, h'.lookup⟩ fun _ => trivial
  checkpoint h hQ := ledger_checkpoint ⟨h.inv, hdir, h.lookup⟩ fun w' l' h' hd _ =>
    hQ w' l' ⟨h'.1, h'.lookup⟩ (fun _ ha => ⟨_, hd, ha⟩) fun _ => trivial
  reads hc h hQ := ledger_quiet h.inv (fun _ => hc.not_issued) fun b w' l' hb h' hr _ hk hkept =>
    hQ b w' l' hb ⟨h', hr ▸ h.lookup⟩ (by rw [hk, hc.plan, applyAll_nil])
      (fun row hrow => (hkept row hrow).1) fun _ => trivial
  reconcilePark h hp hs ha hQ := by
    obtain ⟨d, hd, ha⟩ := ha
    exact ledger_reconcileManagedPark ⟨h.inv, hdir, h.lookup⟩ hp hs hd ha
      fun result w' l' h' => hQ result w' l' ⟨h'.1, h'.lookup⟩
  removePark h hp hs _ hQ := ledger_removeManagedPark ⟨h.inv, hdir, h.lookup⟩ hp hs
    fun w' l' h' _ => hQ w' l' ⟨h'.1, h'.lookup⟩
  reconcileRoute _ h hs hpfx ha hQ := by
    obtain ⟨d, hd, ha⟩ := ha
    exact ledger_reconcileSelectedRoute ⟨h.inv, hdir, h.lookup⟩ hs hpfx hd ha
      fun result w' l' h' => hQ result w' l' ⟨h'.1, h'.lookup⟩
  retiring _ _ := trivial
  proven _ _ _ _ := trivial

theorem reconcileRecordLocked_ledgered (hdir : cfg.stateDir role = true)
    (h : LedgeredAt cfg role pfx base w l)
    (hprep : ∀ e, w.registry.lookup ⟨role, pfx⟩ = some e → Prepared role w e) :
    KeepsLedger cfg role pfx base (reconcileRecordLocked cfg role pfx) w l :=
  (ledgerTenure hdir).reconcileRecordLocked (fun _ => trivial) h fun e hl hs => by
    have hahead := hprep e hl hs
    rwa [h.wellFormed.pfx_eq hl] at hahead

theorem reconciled_ledgered (hdir : cfg.stateDir role = true) (h : LedgeredAt cfg role pfx base w l)
    (hprep : ∀ e, w.registry.lookup ⟨role, pfx⟩ = some e → Prepared role w e) :
    KeepsLedger cfg role pfx base
      ((reconcileRecordLocked cfg role pfx).bind fun _ => .ret ()) w l :=
  (reconcileRecordLocked_ledgered hdir h hprep).seq fun _ _ hs => .ret hs trivial

-- === Ensure and Restore ===

def Ensures (role : String) (w : World) (a : EnsureRequest) : Prop :=
  ∀ e i, w.registry.lookup ⟨role, a.pfx⟩ = some e → e.TargetUnproven →
    w.platform.normalizeSelectedRoute ⟨role, a.pfx, a.ifIndex, .zero⟩ = .ok i → i = e.desired

/-- An Applying record is on disk with its target, and the target is what the
    platform makes of the interface. -/
def Restores (role : String) (ifIndex : Int) (w : World) (e : SelectedRoute) : Prop :=
  Prepared role w e ∧ (e.state = .applying → ∀ i,
    w.platform.normalizeSelectedRoute ⟨role, e.pfx, ifIndex, .zero⟩ = .ok i → i = e.desired)

theorem applySelectedRouteCanonical_ledgered {a : EnsureRequest} {fastPathAllowed : Bool}
    (hdir : cfg.stateDir role = true) (h : LedgeredAt cfg role a.pfx base w l)
    (ha : Ensures role w a) :
    KeepsLedger cfg role a.pfx base
      (applySelectedRouteCanonical cfg role a fastPathAllowed) w l := by
  unfold applySelectedRouteCanonical
  split_ifs
  · exact .fail h
  refine .step (ledger_quiet h (fun _ _ => id) fun identity w1 l1 hok h1 hr1 _ _ _ => ?_)
  have h2 : LedgeredAt cfg role a.pfx base (w1.touched role) l1 := h1.of_eq rfl rfl rfl
  refine .step (keeps_memory h1 h2 ?_)
  split_ifs
  · exact .ret h2 trivial
  -- the checkpoint authorizes the target of a record that is Applying already
  have hrest : ∀ w3, LedgeredAt cfg role a.pfx base w3 l1 →
      KeepsLedger cfg role a.pfx base
        (((writeCheckpoint cfg role a.generation).tryCatch fun e =>
          .fail (.wrapped "checkpoint reserved ownership" e)).bind fun _ =>
          ((reconcileRecordLocked cfg role a.pfx).tryCatch fun e =>
            if isForeignRowError e then .fail (.conflict role a.zone a.pfx.toString)
            else .fail e).bind fun mutated => .ret !mutated) w3 l1 := by
    intro w3 h3
    refine .step (.tryCatch (ledger_writeCheckpoint hdir h3
      fun w4 l4 h4 hr4 hd4 _ => ?_) fun _ _ hs => .fail hs)
    have hprep : ∀ e, w4.registry.lookup ⟨role, a.pfx⟩ = some e → Prepared role w4 e :=
      fun e hl hs => ⟨e, by rw [h4.wellFormed.pfx_eq hl, hd4, ← hr4, hl], hs, rfl⟩
    refine .seq (.tryCatch (reconcileRecordLocked_ledgered hdir h4 hprep) fun err s hs => ?_)
      fun _ _ hs => .ret hs trivial
    split_ifs <;> exact .fail hs
  exact .step (ledger_reserve hdir h2 rfl (fun e hl hu => ha e identity (hr1 ▸ hl) hu hok)
    (fun _ _ _ => hrest _ h2) fun h3 => hrest _ h3.1)

theorem restoreOne_ledgered {runtime : RoleRuntime} {v4Ready v6Ready : Bool}
    (h : Holding cfg role e.pfx base e w l) (he : Restores role runtime.toad.ifIndex w e) :
    KeepsLedger cfg role e.pfx base (restoreOne cfg role runtime v4Ready v6Ready e) w l := by
  unfold restoreOne
  split_ifs with hskip
  · exact .ret h.1 trivial
  have hret : e.state ≠ .retiring := by
    intro hs
    simp [restoreSkips, hs] at hskip
  refine .step (ledger_quiet h.1 (fun _ _ => id) fun identity w1 l1 hok h1 hr1 hd1 _ _ => ?_)
  have h2 : LedgeredAt cfg role e.pfx base (w1.touched role) l1 := h1.of_eq rfl rfl rfl
  refine .step (keeps_memory h1 h2 ?_)
  have hl : (w1.touched role).registry.lookup ⟨role, e.pfx⟩ = some e := hr1 ▸ h.lookup
  have hdisk : diskRecord w1 role e.pfx = diskRecord w role e.pfx := diskRecord_of_disk hd1 role _
  refine .step (ledger_reserve h.dir h2 rfl (fun e' hl' hu => ?_)
    (fun e' h' _ => reconciled_ledgered h.dir h2 fun e'' hl'' hs => ?_)
    fun h3 => reconciled_ledgered h.dir h3.1 fun e'' hl'' hs => ?_)
  · cases hl.symm.trans hl'
    exact he.2 (hu.1.resolve_right fun hr => hret hr.1) identity hok
  · cases hl.symm.trans hl''
    obtain ⟨d, hd, hda⟩ := he.1 hs
    exact ⟨d, hdisk.trans hd, hda⟩
  cases h3.lookup.symm.trans hl''
  -- an Applying record keeps its target
  rw [hl] at hs ⊢
  have hs' : e.state = .applying := by
    simp only [Reservation.next] at hs
    split_ifs at hs
    exact hs
  obtain ⟨d, hd, hda⟩ := he.1 hs'
  have hi : identity = e.desired := he.2 hs' identity hok
  exact ⟨d, hdisk.trans hd, hi ▸ hda⟩

-- === Loops over the records of the role ===

/-- The disk record of another prefix is the old one or the one in memory. -/
theorem stable_prepared (hdir : cfg.stateDir role = true) :
    (ledgerTenure hdir).Stable (Prepared role) := by
  intro pfx w w' l' e h hne hl he hs
  rcases h.diskElsewhere _ hne with hd | hd
  · rw [hd]
    exact he hs
  · exact ⟨e, hd.trans hl, hs, rfl⟩

theorem stable_restores (hdir : cfg.stateDir role = true) (ifIndex : Int) :
    (ledgerTenure hdir).Stable (Restores role ifIndex) := by
  intro pfx w w' l' e h hne hl he
  refine ⟨stable_prepared hdir pfx w w' l' e h hne hl he.1, ?_⟩
  rw [h.platform]
  exact he.2

-- === Operations ===

def KeepsRoleLedger (cfg : Config) (role : String) (p : ManagerM α) (w : World) (l : Ledger) :
    Prop :=
  p.Keeps (ledgered role (Ledgered cfg role)) (fun _ _ => True) (w, l)

theorem KeepsLedger.forRole {p : ManagerM α} (h : KeepsLedger cfg role pfx w p w l) :
    KeepsRoleLedger cfg role p w l :=
  (keeps_weaken h fun _ _ hf => hf.toLedgered).mono fun _ _ _ => trivial

theorem Ledgered.touched (h : Ledgered cfg role w l) : Ledgered cfg role (w.touched role) l :=
  h.of_eq rfl rfl

theorem withdrawalPlan_ledgered (entries : List SelectedRoute) (h : Ledgered cfg role w l) :
    KeepsRoleLedger cfg role (withdrawalPlan role entries) w l := by
  induction entries generalizing w l with
  | nil => exact .ret h trivial
  | cons entry entries ih =>
    unfold withdrawalPlan
    split_ifs
    · exact ih h
    cases provenPark entry with
    | none => exact .fail h
    | some park =>
      refine .seq (routes_ledgered h fun _ _ => id) fun present s hs => ?_
      split_ifs
      · exact .fail hs
      · exact .seq (ih hs) fun plan s' hs' => .ret hs' trivial

theorem withdrawSelected_ledgered (h : Ledgered cfg role w l) :
    KeepsRoleLedger cfg role (withdrawSelected cfg role) w l := by
  refine .step (keeps_memory h h.touched ?_)
  split_ifs
  · exact .fail h.touched
  · exact .fail h.touched
  refine .step (keeps_read h.touched ?_)
  refine .seq (withdrawalPlan_ledgered _ h.touched) fun plan s hs => ?_
  refine .seq (.forAll (fun item s h => ?_) plan hs) fun _ s hs => .forAll
    (fun item s h => ?_) plan hs
  · exact (routes_ledgered h fun _ _ => id).mono fun _ _ _ => trivial
  refine .seq (routes_ledgered h fun _ _ => id) fun present s hs => ?_
  split_ifs
  · exact .fail hs
  · exact .ret hs trivial

section Operations

variable (hdir : cfg.stateDir role = true)

include hdir

theorem parkRegistered_ledgered (h : Ledgered cfg role w l) :
    KeepsRoleLedger cfg role (parkRegistered cfg role) w l :=
  Tenure.parkRegistered (T := ledgerTenure hdir) (R := fun _ => True)
    (fun _ _ _ _ _ _ _ _ => trivial) h h.touched fun _ _ => trivial

theorem observeRestoration_ledgered (h : Ledgered cfg role w l) :
    KeepsRoleLedger cfg role (observeRestoration cfg role) w l :=
  Tenure.observeRestoration (T := ledgerTenure hdir) (R := fun _ => True)
    (fun _ _ _ _ _ _ _ _ => trivial) h h.touched fun _ _ => trivial

theorem restore_ledgered {v4Ready v6Ready : Bool} (h : Ledgered cfg role w l)
    (hrestores : ∀ runtime, w.runtime role = some runtime → ∀ pfx e,
      w.registry.lookup ⟨role, pfx⟩ = some e → Restores role runtime.toad.ifIndex w e) :
    KeepsRoleLedger cfg role (restore cfg role v4Ready v6Ready) w l := by
  unfold restore
  split_ifs
  · exact .fail h
  refine .step (keeps_roleRuntime h ?_)
  cases hrt : w.runtime role with
  | none => exact .fail h
  | some runtime =>
    refine .step (keeps_memory h h.touched ?_)
    split_ifs
    · exact .fail h.touched
    refine .step (keeps_read h.touched ?_)
    refine .seq (Tenure.forEach (stable_restores hdir runtime.toad.ifIndex)
      (fun e w' l' h' he => restoreOne_ledgered ⟨h'.inv, hdir, h'.lookup⟩ he)
      ((ledgerTenure hdir).loop h.touched (List.Sublist.refl _)
        fun e _ hl => hrestores runtime hrt e.pfx e hl))
      fun _ s hs => ?_
    have hs' : Ledgered cfg role s.1 s.2 := hs
    exact .step (keeps_memory hs hs'.touched
      ((writeCheckpoint_ledgered hs'.touched).mono fun _ _ _ => trivial))

/-- A failing record does not stop the batch, and its transaction keeps the
    ledger all the same. -/
theorem retireAll_ledgered (entries : List SelectedRoute) (firstErr : Option ManagerError)
    (h : (ledgerTenure hdir).Loop (fun _ => ParkDisowned) entries (w, l)) :
    KeepsRoleLedger cfg role (flushZoneLocked.retireAll cfg role entries firstErr) w l := by
  induction entries generalizing w l firstErr with
  | nil => exact .ret h.inv trivial
  | cons entry entries ih =>
    have hretire : KeepsLedger cfg role entry.pfx w (retireRecordLocked cfg role entry.pfx) w l :=
      retireRecordLocked_ledgered hdir (h.inv.start entry.pfx) fun e hl => by
        cases (h.current entry List.mem_cons_self).symm.trans hl
        exact h.ready _ List.mem_cons_self
    have hbody : KeepsLedger cfg role entry.pfx w
        (((retireRecordLocked cfg role entry.pfx).bind fun _ => .ret none).tryCatch
          fun e => .ret (some e)) w l :=
      .tryCatch (hretire.seq fun _ _ hs => .ret hs trivial) fun _ _ hs => .ret hs trivial
    exact .bind (h.step ((ledgerTenure hdir).stable_const ParkDisowned) hbody)
      fun err s hs => ih _ hs

theorem flushZoneLocked_ledgered {zone : String} {generation : UInt64} (h : Ledgered cfg role w l)
    (hpark : ∀ pfx e, w.registry.lookup ⟨role, pfx⟩ = some e → e.zone = zone → ParkDisowned e) :
    KeepsRoleLedger cfg role (flushZoneLocked cfg role zone generation) w l := by
  refine .step (keeps_read h ?_)
  refine .seq (retireAll_ledgered hdir _ none ((ledgerTenure hdir).loop h List.filter_sublist
    fun e he hl => hpark e.pfx e hl (by simpa using (List.mem_filter.mp he).2)))
    fun firstErr s hs => ?_
  have hwrite : KeepsRoleLedger cfg role
      (((writeCheckpoint cfg role generation).bind fun _ => .ret none).tryCatch
        fun e => .ret (some e)) s.1 s.2 :=
    .tryCatch (.seq (writeCheckpoint_ledgered hs) fun _ _ hs' => .ret hs' trivial)
      fun _ _ hs' => .ret hs' trivial
  refine .seq hwrite fun err s' hs' => ?_
  split
  · exact .ret hs' trivial
  · exact .fail hs'

theorem auditRecord_ledgered {rows : List SelectedKernelRow}
    (h : LedgeredAt cfg role e.pfx base w l) (hl : w.registry.lookup ⟨role, e.pfx⟩ = some e)
    (hprep : Prepared role w e) :
    KeepsLedger cfg role e.pfx base (auditRecord cfg role e rows) w l := by
  have h1 : Holding cfg role e.pfx base e (w.touched role) l :=
    ⟨h.of_eq rfl rfl rfl, hdir, hl⟩
  have hreconcile : KeepsLedger cfg role e.pfx base
      ((reconcileRecordLocked cfg role e.pfx).bind fun _ => .ret ()) (w.touched role) l := by
    refine reconciled_ledgered hdir h1.1 fun e' hl' => ?_
    cases hl.symm.trans hl'
    exact hprep
  have hnotify (notice : Notice) :
      KeepsLedger cfg role e.pfx base (notify notice) (w.touched role) l :=
    keeps_notify h1.1 (h1.1.of_eq rfl rfl rfl) trivial
  refine .step (keeps_memory h h1.1 ?_)
  by_cases hpark : e.park.isSome = true
  · rw [if_pos hpark]
    split_ifs
    · exact hnotify _
    · exact .ret h1.1 trivial
  rw [if_neg hpark]
  split
  · exact hnotify _
  cases planSelectedRoute rows (some e) with
  | error message =>
    refine .step (.step (keeps_memory h1.1 (h1.1.of_eq rfl rfl rfl) ?_))
    refine keeps_notify (h1.1.of_eq rfl rfl rfl) (h1.1.of_eq rfl rfl rfl) ?_
    exact .fail (h1.1.of_eq rfl rfl rfl)
  | ok action =>
    cases hs : e.state with
    | retiring =>
      refine retireRecordLocked_ledgered hdir h1.1 fun e' hl' p hp => ?_
      cases hl.symm.trans hl'
      simp [hp] at hpark
    | active =>
      split_ifs
      · exact keeps_memory h1.1 (h1.1.of_eq (Memory.registry_mintToken ..) rfl rfl) trivial
      refine .step (ledger_plain h1 .beginRepair trivial fun e2 _ hedit h2 => ?_)
      refine .step (ledger_checkpoint h2 fun w3 l3 h3 _ _ => ?_)
      refine reconciled_ledgered hdir h3.1 fun e' hl' hs' => ?_
      cases h3.lookup.symm.trans hl'
      cases hedit
      cases hs'
    | applying | pending => exact hreconcile
    | other text => exact .ret h1.1 trivial

theorem auditEntry_ledgered {entry : SelectedRoute} {rows : List SelectedKernelRow}
    (h : LedgeredAt cfg role entry.pfx base w l)
    (hprep : ∀ e, w.registry.lookup ⟨role, entry.pfx⟩ = some e → Prepared role w e) :
    KeepsLedger cfg role entry.pfx base (auditEntry cfg role entry rows) w l := by
  refine .step (keeps_read h ?_)
  rw [registryEntryOf_eq h.wellFormed]
  cases hl : w.registry.lookup ⟨role, entry.pfx⟩ with
  | none => exact .ret h trivial
  | some e =>
    have hpfx := h.wellFormed.pfx_eq hl
    dsimp only
    split_ifs
    · exact .ret h trivial
    · rw [← hpfx] at h hl ⊢
      exact auditRecord_ledgered hdir h hl (hprep e (hpfx ▸ hl))

theorem prefixInvalidation_ledgered {flags : RoleFlags} (h : LedgeredAt cfg role pfx base w l)
    (hprep : ∀ e, w.registry.lookup ⟨role, pfx⟩ = some e → Prepared role w e)
    (hpark : ∀ e, w.registry.lookup ⟨role, pfx⟩ = some e → e.state = .retiring → ParkDisowned e) :
    KeepsLedger cfg role pfx base (prefixInvalidation cfg role pfx flags) w l := by
  refine .step (keeps_read h ?_)
  rw [registryEntryOf_eq h.wellFormed]
  cases hl : w.registry.lookup ⟨role, pfx⟩ with
  | none => exact .ret h trivial
  | some e =>
    dsimp only
    split_ifs
    · exact keeps_notify h (h.of_eq rfl rfl rfl) trivial
    · exact .ret h trivial
    cases hs : e.state with
    | retiring =>
      refine retireRecordLocked_ledgered hdir h fun e' hl' => ?_
      cases hl.symm.trans hl'
      exact hpark e hl hs
    | pending | applying | active => exact reconciled_ledgered hdir h hprep
    | other text => exact .ret h trivial

end Operations

end Programs

end Kikimora.Control

import Kikimora.Control.ParkResume
import Kikimora.Core.Decide

/-!
# A managed recovery without faults

The selected-route steps of a managed recovery one after the other: what each
leaves of every record and of the rows of its prefix, and when the whole of them
brings the routes back.
-/

namespace Kikimora.Control

open Net Routing Platform Kikimora.Core Lib

theorem Each.then_agrees {role : String} {Post : Outcomes} {w₀ w w' : World}
    (h : Each role Post w₀ w) (ha : Agrees w w') : Each role Post w₀ w' :=
  ⟨⟨h.wellFormed₀, by rw [ha.registry]; exact h.wellFormed, ha.platform.trans h.platform,
    ha.runtime.trans h.runtime, fun id => (ha.frozen id).trans (h.frozen id),
    by rw [ha.registry]; exact h.elsewhere, by rw [ha.kernel]; exact h.kernel⟩,
    by rw [ha.registry, ha.kernel]; exact h.record⟩

section Stages

variable {cfg : Config} {role : String} {pfx : Prefix} {w₀ w w' : World} {e : SelectedRoute}
  {d : SelectedParkIdentity} {rows : List SelectedKernelRow} {X : ManagerError → World → Prop}

-- === Withdrawal ===

/-- What `WithdrawSelected` does to a record: it keeps the record and deletes its
    candidates. -/
def WithdrawOutcome : Outcomes := fun e rows e' rows' =>
  e' = e ∧ ∀ row, row ∈ rows' ↔ row ∈ rows ∧ ∀ i ∈ removalCandidates e, row ≠ .route i

theorem forEach_map {α β : Type} (f : α → β) (body : β → ManagerM Unit) (xs : List α) :
    Prog.forEach (fun x => body (f x)) xs = Prog.forEach body (xs.map f) := by
  induction xs with
  | nil => rfl
  | cons x xs ih =>
    simp only [Prog.forEach, List.map_cons]
    rw [ih]

theorem runs_withdrawalPlan {entries : List SelectedRoute}
    (h : ∀ e ∈ entries, e.state ≠ .retiring ∧
      ∃ d, e.park = some (activePark d) ∧ .park d ∈ w.kernel e.pfx) :
    (withdrawalPlan role entries).Safe clean (fun plan w' => w = w' ∧
      plan.map ProtectedRecord.record = entries ∧
      ∀ item ∈ plan, .park item.park ∈ w.kernel item.record.pfx) X w := by
  induction entries with
  | nil => exact ⟨trivial, rfl, rfl, fun item hi => absurd hi List.not_mem_nil⟩
  | cons e entries ih =>
    rw [List.forall_mem_cons] at h
    obtain ⟨⟨hs, d, hp, hrow⟩, hrest⟩ := h
    unfold withdrawalPlan
    have hproven : provenPark e = some d := by simp [provenPark, hp, activePark]
    simp only [hs, if_false, hproven]
    refine .step (runs_reads (b := true) (by simp [RouteCall.plan, observeManagedPark, hrow])
      ?_)
    refine .bind (ih hrest) ?_
    rintro plan _ ⟨rfl, hmap, hplan⟩
    exact ⟨trivial, rfl, by simp [hmap], List.forall_mem_cons.mpr ⟨hrow, hplan⟩⟩

theorem runs_withdrawSelected (hw : w.registry.WellFormed) (hroutes : cfg.routesResolved = true)
    (hfrozen : (w.memory.roleState role).frozen = true)
    (hparked : ∀ pfx e, w.registry.lookup ⟨role, pfx⟩ = some e → e.state ≠ .retiring ∧
      ∃ d, e.park = some (activePark d) ∧ .park d ∈ w.kernel pfx) :
    (withdrawSelected cfg role).Safe clean (fun _ => Each role WithdrawOutcome w) X w := by
  refine .step (runs_roleState fun w1 ha => ?_)
  simp only [hfrozen, hroutes, Bool.not_true, Bool.false_eq_true, if_false]
  rw [← ha.registry] at hw hparked
  rw [← ha.kernel] at hparked
  refine .step (runs_read ?_)
  refine .bind (runs_withdrawalPlan fun e he => hparked _ e (hw.mem_snapshot_iff.mp he)) ?_
  rintro plan _ ⟨rfl, hmap, hplan⟩
  rw [Prog.bind_eq, forEach_map ProtectedRecord.record fun e => routes (.removeSelectedRoute e),
    hmap]
  refine .bind (runs_each (P := WithdrawOutcome) hw fun e w2 hl _ _ hat => ?_) ?_
  · have hok := removeSelectedRoute_ok w2.kernel hat.canonical hat.wellFormed.known
    refine runs_writes hat (b := ()) hok ?_ fun w3 h3 => ⟨e, _, h3, rfl, fun row => ?_⟩
    · intro m hm
      obtain ⟨ids, hids⟩ := removeSelectedRoute_writes w2.kernel e
      rw [RouteCall.plan, hids, List.map_map] at hm
      obtain ⟨_, _, rfl⟩ := List.mem_map.mp hm
      rfl
    · rw [RouteCall.plan, mem_removeSelectedRoute hok, hat.rows]
      simp only [true_and, not_exists, not_and, ne_eq]
  · -- the parks are still there
    intro _ w2 h2
    refine (Prog.Safe.forEach (X := X) (fun xs w' => w2 = w' ∧ ∀ item ∈ xs, item ∈ plan)
      (fun _ _ => trivial) ?_ plan ⟨rfl, fun _ h => h⟩).mono ?_ fun _ _ hx => hx
    · rintro item items _ ⟨rfl, hitems⟩
      rw [List.forall_mem_cons] at hitems
      have hmem : item.record ∈ w1.registry.snapshot role :=
        hmap ▸ List.mem_map_of_mem hitems.1
      obtain ⟨e', _, rfl, hrows⟩ := h2.record _ _ (hw.mem_snapshot_iff.mp hmem)
      have hpresent : .park item.park ∈ w2.kernel item.record.pfx :=
        (hrows _).mpr ⟨hplan item hitems.1, by simp⟩
      refine .step (runs_reads (b := true)
        (by simp [RouteCall.plan, observeManagedPark, hpresent]) ?_)
      exact ⟨trivial, rfl, hitems.2⟩
    · rintro _ _ ⟨rfl, _⟩
      exact h2.of_agrees ha

-- === Restoring ===

/-- The selected rows of a prefix are exactly the one row, its other rows are as
    before. -/
def RestoredRows (i : SelectedRouteIdentity) (rows rows' : List SelectedKernelRow) : Prop :=
  ∀ row, row ∈ rows' ↔ row = .route i ∨ (row ∈ rows ∧ ∀ j, row ≠ .route j)

theorem agrees_mintToken (w : World) (role : String) (entry : SelectedRoute) :
    Agrees w (w.withMemory (w.memory.mintToken role entry)) := by
  refine ⟨w.memory.registry_mintToken role entry, rfl, rfl, rfl, fun id => ?_⟩
  unfold Memory.mintToken
  cases hr : w.memory.roles role with
  | none => rfl
  | some state =>
    by_cases hid : id = role
    · subst hid
      simp [World.withMemory, Memory.roleState, Memory.setRole, hr]
    · simp [World.withMemory, Memory.roleState, Memory.setRole, hid]

theorem runs_driveTransaction {action : SelectedReconcileAction}
    (h : At role pfx w₀ e rows w) (hs : e.state = .applying)
    (hplan : planSelectedRoute rows (some e) = .ok action) (hif : 0 < e.desired.ifIndex) :
    (driveTransaction cfg role e).Safe clean (fun _ w' => ∃ rows',
      At role pfx w₀ { e with owned := some e.desired, state := .active } rows' w' ∧
      RestoredRows e.desired rows rows') X w := by
  obtain rfl : e.pfx = pfx := h.pfx_eq
  have hcall : reconcileSelectedRoute w.kernel ⟨role, e.pfx, e.desired.ifIndex, .zero⟩ e =
      (.ok ⟨decide (action ≠ .none), e.desired⟩, reconcileMutations e.pfx e action) := by
    have hc : canonicalRoutePrefix e.pfx = true := h.canonical
    simp [reconcileSelectedRoute, hc, not_le.mpr hif, h.rows, hplan]
  unfold driveTransaction
  rw [if_neg (not_not.mpr hs)]
  refine .step (runs_writes h (congrArg Prod.fst hcall : _ = Except.ok _) ?_
    fun w1 h1 => ?_)
  · intro m hm
    rw [RouteCall.plan, hcall] at hm
    exact pfx_of_mem_reconcileMutations hm
  rw [if_neg (not_not.mpr rfl)]
  refine .step (runs_record (.markActive e.desired) h1 trivial
    (by simp [RecordTransition.mutate, hs]; rfl) fun w2 h2 => ?_)
  refine .step (runs_checkpoint fun w3 ha3 => ?_)
  refine .step (runs_memory ⟨trivial, ?_⟩)
  refine ⟨_, (h2.agrees ha3).agrees (agrees_mintToken w3 role e), fun row => ?_⟩
  rw [RouteCall.plan, hcall, mem_reconcileMutations (h.rows ▸ hplan), h.rows]

/-- A record that is Pending or Applying over rows that the planner accepts. -/
theorem runs_reconcileRecordLocked {action : SelectedReconcileAction}
    (h : At role pfx w₀ e rows w) (hroutes : cfg.routesResolved = true)
    (hs : e.state = .pending ∨ e.state = .applying)
    (hplan : planSelectedRoute rows (some e) = .ok action) (hif : 0 < e.desired.ifIndex) :
    (reconcileRecordLocked cfg role pfx).Safe clean (fun _ w' => ∃ rows',
      At role pfx w₀ { e with owned := some e.desired, state := .active } rows' w' ∧
      RestoredRows e.desired rows rows') X w := by
  simp only [reconcileRecordLocked, hroutes, Bool.not_true, Bool.false_eq_true, if_false]
  refine .step (runs_registryEntry h ?_)
  rcases hs with hs | hs
  · simp only [hs]
    refine .step (.tryCatch (X := fun _ _ => False)
      (runs_reads (b := ()) ?_ ?_) fun _ _ hx => hx.elim)
    · simp [RouteCall.plan, preflightSelectedRoute, h.rows, hplan, Except.map]
    refine .step (runs_record .markApplying (f := { e with state := .applying }) h
      trivial (by simp [RecordTransition.mutate, hs]) fun w1 h1 => ?_)
    refine .step (runs_checkpoint fun w2 ha2 => ?_)
    refine .step (runs_registryEntryDeref (h1.agrees ha2) ?_)
    -- the planner is no stricter with an authorized record
    obtain ⟨_, hall, hcount, _, _⟩ := planSelectedRoute_eq_ok_iff.mp hplan
    exact runs_driveTransaction (h1.agrees ha2) rfl
      (planSelectedRoute_eq_ok_iff.mpr ⟨by simp, hall, hcount, fun _ _ => rfl, rfl⟩) hif
  · simp only [hs]
    exact runs_driveTransaction h hs hplan hif

/-- `Reserve` as `Restore` makes it: the target is replaced, and an Active record
    whose target changes is Pending again. -/
theorem runs_reserve {a : Reservation} (hkey : a.key = ⟨role, pfx⟩) (hrole : role ≠ "")
    (hv : a.desired.validate a.pfx = .ok ()) (h : At role pfx w₀ e rows w)
    {Q : Unit → World → Prop}
    (hQ : ∀ e' w', At role pfx w₀ e' rows w' → e'.desired = a.desired → e'.owned = e.owned →
      e'.park = e.park →
      e'.state = (if e.state = .active && e.desired ≠ a.desired then .pending else e.state) →
      Q () w') :
    (registry (·.reserve a)).Safe clean Q X w := by
  have hrole' : a.role ≠ "" := by
    rw [show a.role = role from congrArg SelectedRouteKey.role hkey]
    exact hrole
  refine .step (runs_memory ?_)
  rcases reserve_spec w.registry a with ⟨message, he⟩ | ⟨_, _, ⟨e', hl, hm, he⟩ | he⟩
  · simp only [MemorySelectedRegistry.reserve, hrole', hv, if_false] at he
    split_ifs at he
    · cases he
    · cases he
  · cases h.lookup.symm.trans (hkey ▸ hl)
    have hd : e.desired = a.desired := by
      simp only [Reservation.matches, Bool.and_eq_true, decide_eq_true_eq] at hm
      exact hm.1.1.1.1.1
    simp only [he]
    exact ⟨trivial, hQ e w h hd rfl rfl (by simp [hd])⟩
  · simp only [he]
    have hl : w.registry.lookup a.key = some e := hkey ▸ h.lookup
    have hset := h.touches.wellFormed.reserved hv
    rw [hl, hkey] at hset ⊢
    exact ⟨trivial, hQ _ (w.withRegistry (w.registry.set ⟨role, pfx⟩ (a.next (some e))))
      ⟨h.touches.set hset, MemorySelectedRegistry.lookup_set_self .., h.rows⟩ rfl rfl rfl rfl⟩

/-- What `Restore` does to a record behind its park: one that counts as Active on
    the current interface is left alone, any other gets its row on that
    interface. -/
def RestoreOutcome (p : RoutePlatform) (role : String) (ifIndex : Int) : Outcomes :=
  fun e rows e' rows' =>
    if e.state = .active ∧ e.desired.ifIndex = ifIndex then e' = e ∧ rows' = rows
    else ∃ i, p.normalizeSelectedRoute ⟨role, e.pfx, ifIndex, .zero⟩ = .ok i ∧ e'.state = .active ∧
      e'.desired = i ∧ e'.owned = some i ∧ e'.park = e.park ∧ RestoredRows i rows rows'

/-- The platform normalizes every canonical prefix to a valid route on the
    requested interface. -/
def RoutesNormalize (p : RoutePlatform) (role : String) (ifIndex : Int) : Prop :=
  ∀ pfx, isCanonicalPrefix pfx = true →
    ∃ i, p.normalizeSelectedRoute ⟨role, pfx, ifIndex, .zero⟩ = .ok i ∧
      i.validate pfx = .ok () ∧ i.ifIndex = ifIndex

/-- A record that a recovery has to bring back. -/
structure Recovering (e : SelectedRoute) : Prop where
  state : e.state = .pending ∨ e.state = .applying ∨ e.state = .active
  host : e.source = .dns → isHostPrefix e.pfx = true

theorem restoreSkips_iff {ifIndex : Int} (h : Recovering e) (hw : e.WellFormed) :
    restoreSkips ifIndex true true e = true ↔
      e.state = .active ∧ e.desired.ifIndex = ifIndex := by
  have hs : e.state ≠ .retiring := by
    rcases h.state with h | h | h <;> simp [h]
  have hdns : (decide (e.source = .dns) && !isHostPrefix e.pfx) = false := by
    by_cases hd : e.source = .dns
    · simp [h.host hd]
    · simp [hd]
  simp only [restoreSkips, hdns, hs, Bool.not_true, ite_self, decide_false, Bool.false_or,
    Bool.and_eq_true, decide_eq_true_eq]
  constructor
  · rintro ⟨⟨ha, _⟩, hi⟩
    exact ⟨ha, hi⟩
  · rintro ⟨ha, hi⟩
    exact ⟨⟨ha, hw.owned_of_active ha⟩, hi⟩

theorem runs_restoreOne {runtime : RoleRuntime} (h : At role e.pfx w₀ e rows w) (hrole : role ≠ "")
    (hroutes : cfg.routesResolved = true) (hif : 0 < runtime.toad.ifIndex)
    (hnorm : RoutesNormalize w.platform role runtime.toad.ifIndex) (hrec : Recovering e)
    (hp : e.park = some (activePark d)) (hrows : ∀ row, row ∈ rows ↔ row = .park d) :
    (restoreOne cfg role runtime true true e).Safe clean (fun _ w' => ∃ e' rows',
      At role e.pfx w₀ e' rows' w' ∧
        RestoreOutcome w.platform role runtime.toad.ifIndex e rows e' rows') X w := by
  unfold restoreOne RestoreOutcome
  simp only [restoreSkips_iff hrec h.wellFormed]
  split_ifs with hskip
  · exact ⟨trivial, e, rows, h, rfl, rfl⟩
  obtain ⟨i, hi, hv, hidx⟩ := hnorm e.pfx h.canonical
  refine .step (runs_reads (b := i) (by rw [RouteCall.plan, hi]) ?_)
  refine .step (runs_memory ?_)
  have h1 := h.agrees (agrees_roleState w role)
  refine .step (runs_reserve rfl hrole hv h1 fun e2 w2 h2 hd ho hpark hstate => ?_)
  replace hd : e2.desired = i := hd
  -- an Active record is on another interface, so its target has changed
  have hs2 : e2.state = .pending ∨ e2.state = .applying := by
    rcases hrec.state with hs | hs | hs
    · exact .inl (by simpa [hs] using hstate)
    · exact .inr (by simpa [hs] using hstate)
    · have hne : e.desired ≠ i := fun heq => hskip ⟨hs, by rw [heq, hidx]⟩
      exact .inl (by simpa [hs, hne] using hstate)
  have hnone : .route e2.desired ∉ rows := by simp [hrows]
  have hplan : planSelectedRoute rows (some e2) = .ok (plannedAction e2 rows) := by
    refine planSelectedRoute_eq_ok_iff.mpr ⟨?_, fun row hrow => ?_,
      by rw [List.count_eq_zero.mpr hnone]; omega, fun _ hm => absurd hm hnone, rfl⟩
    · rcases hs2 with hs | hs <;> simp [hs]
    · rw [(hrows row).mp hrow]
      simp [SelectedKernelRow.AuthorizedBy, parkRowAuthorized, hpark, hp, activePark,
        SelectedPark.authorizesRow]
  refine .step ((runs_reconcileRecordLocked h2 hroutes hs2 hplan
    (by rw [hd, hidx]; exact hif)).mono ?_ fun _ _ hx => hx)
  rintro _ w3 ⟨rows3, h3, hrows3⟩
  exact ⟨trivial, _, rows3, h3, i, hi, rfl, hd, congrArg some hd, hpark,
    by rw [← hd]; exact hrows3⟩

theorem runs_restore {runtime : RoleRuntime} (hw : w.registry.WellFormed) (hrole : role ≠ "")
    (hroutes : cfg.routesResolved = true) (hrt : w.runtime role = some runtime)
    (hif : 0 < runtime.toad.ifIndex)
    (hnorm : RoutesNormalize w.platform role runtime.toad.ifIndex)
    (hrec : ∀ pfx e, w.registry.lookup ⟨role, pfx⟩ = some e → Recovering e ∧
      ∃ d, e.park = some (activePark d) ∧ ∀ row, row ∈ w.kernel pfx ↔ row = .park d) :
    (restore cfg role true true).Safe clean
      (fun _ => Each role (RestoreOutcome w.platform role runtime.toad.ifIndex) w) X w := by
  simp only [restore, hroutes, Bool.not_true, Bool.false_eq_true, if_false]
  refine .step (runs_roleRuntime ?_)
  rw [hrt]
  refine .step (runs_roleState fun w1 ha => ?_)
  rw [if_neg (not_le.mpr hif)]
  rw [← ha.registry] at hw hrec
  rw [← ha.kernel] at hrec
  refine .step (runs_read ?_)
  refine .bind (runs_each
    (P := RestoreOutcome w.platform role runtime.toad.ifIndex) hw fun e w2 hl hplat _ hat => ?_) ?_
  · obtain ⟨hr, d, hp, hrows⟩ := hrec _ e hl
    have hplat' : w2.platform = w.platform := hplat.trans ha.platform
    rw [← hplat'] at hnorm ⊢
    exact runs_restoreOne hat hrole hroutes hif hnorm hr hp hrows
  · intro _ w2 h2
    exact runs_checkpoint fun w3 ha3 => (h2.then_agrees ha3).of_agrees ha

-- === Observing the restoration ===

theorem scanBeforeUnpark_eq {desired : SelectedRouteIdentity} {seen : Bool}
    (h : ∀ row ∈ rows, row = .park d ∨ ∃ i, row = .route i) :
    scanBeforeUnpark pfx desired d rows seen = .ok (seen || decide (.route desired ∈ rows)) := by
  induction rows generalizing seen with
  | nil => simp [scanBeforeUnpark]
  | cons row rows ih =>
    rw [List.forall_mem_cons] at h
    rcases h.1 with rfl | ⟨i, rfl⟩
    · simp [scanBeforeUnpark, ih h.2]
    rw [scanBeforeUnpark, ih h.2]
    by_cases hi : i = desired
    · simp [hi]
    · simp [hi, Ne.symm hi]

theorem runs_unpark (h : At role e.pfx w₀ e rows w) (hp : e.park = some (activePark d))
    (hrow : .route e.desired ∈ rows) :
    (unpark cfg role e d).Safe clean (fun _ w' => ∃ rows',
      At role e.pfx w₀ { e with park := none } rows' w' ∧
        ∀ row, row ∈ rows' ↔ row ∈ rows ∧ row ≠ .park d) X w := by
  let retiring : SelectedPark := ⟨.retiring, d, some d, false⟩
  refine .step (runs_record .markParkRetiring (f := { e with park := some retiring }) h
    trivial (by simp [RecordTransition.mutate, hp, activePark, retiring]) fun w1 h₁ => ?_)
  refine .step (runs_checkpoint fun w2 ha2 => ?_)
  have h₂ := h₁.agrees ha2
  refine .step (runs_read ?_)
  have hshared : (sharedPark w2.registry role e).park = some retiring := by
    simp [sharedPark, hp, h₂.lookup]
  simp only [hshared]
  have hc : parkRemovalCandidates e.pfx retiring = .ok [d] := by
    simp [parkRemovalCandidates, retiring]
  refine .step (runs_writes h₂ (b := ()) ?_ ?_ fun w3 h3 => ?_)
  · simp [RouteCall.plan, removeManagedPark, hc]
  · intro m hm
    obtain ⟨ids, hids⟩ := removeManagedPark_writes w2.kernel e.pfx retiring
    obtain ⟨_, _, rfl⟩ := List.mem_map.mp hm
    rfl
  have hrows3 : ∀ row, row ∈ w3.kernel e.pfx ↔ row ∈ rows ∧ row ≠ .park d := by
    intro row
    rw [h3.rows, RouteCall.plan, mem_removeManagedPark hc, h₂.rows]
    simp
  refine .step (runs_reads (b := w3.kernel) rfl ?_)
  have hscan : scanAfterUnpark e.pfx e.desired d (w3.kernel e.pfx) = .ok () := by
    have h1 : .park d ∉ w3.kernel e.pfx := by simp [hrows3]
    have h2 : .route e.desired ∈ w3.kernel e.pfx := (hrows3 _).mpr ⟨hrow, by simp⟩
    simp [scanAfterUnpark, h1, h2]
  rw [hscan]
  refine .step ⟨trivial, ?_⟩
  refine .step (runs_record .clearPark (f := { e with park := none }) h3 trivial
    (by simp [RecordTransition.mutate, retiring]) fun w4 h4 => ?_)
  refine runs_checkpoint fun w5 ha5 => ⟨_, h4.agrees ha5, fun row => ?_⟩
  rw [← h3.rows]
  exact hrows3 row

/-- A record behind its park, with or without its selected row. -/
structure Awaiting (e : SelectedRoute) (d : SelectedParkIdentity) (rows : List SelectedKernelRow) :
    Prop where
  state : e.state = .active
  park : e.park = some (activePark d)
  row : .park d ∈ rows
  rows : ∀ row ∈ rows, row = .park d ∨ row = .route e.desired

/-- What `ObserveRestoration` does to such a record: it is unparked exactly when
    its row is there. -/
def ObserveOutcome : Outcomes := fun e rows e' rows' =>
  if .route e.desired ∈ rows then
    e' = { e with park := none } ∧ ∀ row, row ∈ rows' ↔ row = .route e.desired
  else e' = e ∧ rows' = rows

theorem runs_observeRestorationOne (h : At role e.pfx w₀ e rows w) (hwait : Awaiting e d rows)
    (hwins : .route e.desired ∈ rows → w.platform.wins e.pfx e.desired d = true) :
    (observeRestorationOne cfg role e).Safe clean (fun _ w' => ∃ e' rows',
      At role e.pfx w₀ e' rows' w' ∧ ObserveOutcome e rows e' rows') X w := by
  have ho : e.owned = some e.desired := h.wellFormed.owned_of_active hwait.state
  have hscan : scanBeforeUnpark e.pfx e.desired d (w.kernel e.pfx) false =
      .ok (decide (.route e.desired ∈ rows)) := by
    rw [h.rows, scanBeforeUnpark_eq fun row hrow => (hwait.rows row hrow).imp_right fun h => ⟨_, h⟩]
    simp
  simp only [observeRestorationOne, hwait.park, activePark]
  refine .tryCatch (X := fun e' w' => e' = .parkNotProven ∧ w = w' ∧
    .route e.desired ∉ rows) ?_ ?_
  · simp only [retireProvenPark, hwait.state, ho, ne_eq, not_true_eq_false, or_self, if_false]
    refine .step (runs_reads (b := true)
      (by simp [RouteCall.plan, observeManagedPark, h.rows, hwait.row]) ?_)
    refine .step (.step (runs_reads (b := w.kernel) rfl ?_))
    rw [hscan]
    refine .step ⟨trivial, ?_⟩
    by_cases hrow : .route e.desired ∈ rows
    · simp only [hrow, decide_true, Bool.not_true, Bool.false_eq_true, if_false]
      refine .step (runs_reads (b := true)
        (by simp [RouteCall.plan, hwins hrow]) ⟨trivial, ?_⟩)
      refine (runs_unpark h hwait.park hrow).mono ?_ fun _ _ hx => hx
      rintro _ w1 ⟨rows1, h1, hrows1⟩
      refine ⟨_, rows1, h1, ?_⟩
      rw [ObserveOutcome, if_pos hrow]
      refine ⟨rfl, fun row => (hrows1 row).trans ⟨fun hr => ?_, ?_⟩⟩
      · exact (hwait.rows row hr.1).resolve_left hr.2
      · rintro rfl
        exact ⟨hrow, by simp⟩
    · simp only [hrow, decide_false, Bool.not_false, if_true]
      exact ⟨trivial, rfl, rfl, not_false⟩
  · rintro _ _ ⟨rfl, rfl, hrow⟩
    exact ⟨trivial, e, rows, h, by rw [ObserveOutcome, if_neg hrow]; exact ⟨rfl, rfl⟩⟩

/-- `ObserveRestoration` returns when it has unparked every record, and reports
    the records that are still parked otherwise. -/
theorem runs_observeRestoration (hw : w.registry.WellFormed) (hroutes : cfg.routesResolved = true)
    (hwait : ∀ pfx e, w.registry.lookup ⟨role, pfx⟩ = some e → ∃ d, Awaiting e d (w.kernel pfx) ∧
      (.route e.desired ∈ w.kernel pfx → w.platform.wins pfx e.desired d = true)) :
    (observeRestoration cfg role).Safe clean
      (fun _ w' => Each role ObserveOutcome w w' ∧
        ∀ pfx e, w'.registry.lookup ⟨role, pfx⟩ = some e → e.park = none)
      (fun _ w' => Each role ObserveOutcome w w' ∧
        ∃ pfx e, w'.registry.lookup ⟨role, pfx⟩ = some e ∧ e.park ≠ none) w := by
  simp only [observeRestoration, hroutes, Bool.not_true, Bool.false_eq_true, if_false]
  refine .step (runs_roleState fun w1 ha => ?_)
  rw [← ha.registry] at hw hwait
  rw [← ha.kernel] at hwait
  refine .step (runs_read ?_)
  refine .bind (runs_each (P := ObserveOutcome) hw fun e w2 hl hplat _ hat => ?_) ?_
  · obtain ⟨d, hd, hwins⟩ := hwait _ e hl
    exact runs_observeRestorationOne hat hd
      (by rw [hplat, ha.platform]; exact hwins)
  intro _ w2 h2
  refine .step (runs_read ?_)
  split_ifs with hany
  · obtain ⟨e, he, hp⟩ := List.any_eq_true.mp hany
    refine ⟨trivial, h2.of_agrees ha, e.pfx, e, h2.wellFormed.mem_snapshot_iff.mp he, ?_⟩
    intro hnone
    rw [hnone] at hp
    cases hp
  · refine ⟨trivial, h2.of_agrees ha, fun pfx e hl => ?_⟩
    have hpfx : e.pfx = pfx := h2.wellFormed.pfx_eq hl
    by_contra hp
    refine hany (List.any_eq_true.mpr ⟨e, h2.wellFormed.mem_snapshot_iff.mpr (hpfx ▸ hl), ?_⟩)
    exact Option.isSome_iff_ne_none.mpr hp

end Stages

-- === The whole recovery ===

def selectedSteps : List RecoveryStep :=
  [.freezeSelected, .park, .withdrawSelected, .restoreSelected, .observeRestore, .unfreezeSelected]

/-- What a step does to the selected routes of the role, with every family ready.
    The other steps work on the transport, the endpoint and the publication. -/
def selectedStep (cfg : Config) (role : String) : RecoveryStep → ManagerM Unit
  | .freezeSelected => (freeze role).bind fun _ => .ret ()
  | .park => parkRegistered cfg role
  | .withdrawSelected => withdrawSelected cfg role
  | .restoreSelected => restore cfg role true true
  | .observeRestore => observeRestoration cfg role
  | .unfreezeSelected => (unfreeze role).bind fun _ => .ret ()
  | _ => .ret ()

def managedRecovery (cfg : Config) (role : String) : ManagerM Unit :=
  Prog.forEach (selectedStep cfg role) selectedSteps

/-- A role before its recovery: its records are Pending, Applying or Active and
    have no park, exactly the rows of the Active ones are in the kernel, and the
    platform normalizes and ranks routes and parks as it promises. -/
structure Restorable (role : String) (runtime : RoleRuntime) (w : World) : Prop where
  wellFormed : w.registry.WellFormed
  role_ne : role ≠ ""
  recovering : ∀ pfx e, w.registry.lookup ⟨role, pfx⟩ = some e → Recovering e ∧ e.park = none
  rows : ∀ pfx e, w.registry.lookup ⟨role, pfx⟩ = some e → ∀ row, row ∈ w.kernel pfx ↔
    e.state = .active ∧ ∃ i, e.owned = some i ∧ row = .route i
  runtime_eq : w.runtime role = some runtime
  ifIndex_pos : 0 < runtime.toad.ifIndex
  parks : ParksNormalize w.platform
  routes : RoutesNormalize w.platform role runtime.toad.ifIndex
  wins : ∀ pfx i d,
    w.platform.normalizeSelectedRoute ⟨role, pfx, runtime.toad.ifIndex, .zero⟩ = .ok i →
    w.platform.normalizeManagedPark pfx = .ok d → w.platform.wins pfx i d = true

def OnInterface (e : SelectedRoute) (ifIndex : Int) : Prop :=
  e.state = .active ∧ e.desired.ifIndex = ifIndex

/-- The route is back: the record is Active on the current interface without a
    park, and its row is the only one of the prefix. -/
structure Restored (p : RoutePlatform) (role : String) (ifIndex : Int) (pfx : Prefix)
    (e : SelectedRoute) (rows : List SelectedKernelRow) : Prop where
  state : e.state = .active
  target : p.normalizeSelectedRoute ⟨role, pfx, ifIndex, .zero⟩ = .ok e.desired
  owned : e.owned = some e.desired
  park : e.park = none
  rows : ∀ row, row ∈ rows ↔ row = .route e.desired

/-- The recovery returns nil, the role is open again, every route is back and the
    rows of other prefixes are as before. -/
def RecoveryRestores (cfg : Config) (role : String) (ifIndex : Int) (w : World) : Prop :=
  let result := (managedRecovery cfg role).run handle w
  result.1 = .ok () ∧ (result.2.memory.roleState role).frozen = false ∧
    (∀ pfx e, w.registry.lookup ⟨role, pfx⟩ = some e →
      ∃ e', result.2.registry.lookup ⟨role, pfx⟩ = some e' ∧
        Restored w.platform role ifIndex pfx e' (result.2.kernel pfx)) ∧
    ∀ pfx, w.registry.lookup ⟨role, pfx⟩ = none → result.2.kernel pfx = w.kernel pfx

section Recovery

variable {cfg : Config} {role : String} {runtime : RoleRuntime} {w w' : World}
  {X : ManagerError → World → Prop}

def ParkedAlone (p : RoutePlatform) : Outcomes := fun e _ e' rows' =>
  ∃ d, p.normalizeManagedPark e.pfx = .ok d ∧ e' = { e with park := some (activePark d) } ∧
    ∀ row, row ∈ rows' ↔ row = .park d

theorem runs_park (h : Restorable role runtime w) (hroutes : cfg.routesResolved = true)
    (hfrozen : (w.memory.roleState role).frozen = true) :
    (parkRegistered cfg role).Safe clean (fun _ => Each role (ParkOutcome w.platform) w) X w := by
  refine runs_parkRegistered h.wellFormed hroutes hfrozen h.parks (fun pfx e hl row hrow => ?_)
    fun pfx e q hl _ hp => ?_
  · obtain ⟨_, i, ho, rfl⟩ := (h.rows pfx e hl row).mp hrow
    exact .inr ho
  · rw [(h.recovering pfx e hl).2] at hp
    cases hp

theorem runs_withdraw (h : Restorable role runtime w) (hroutes : cfg.routesResolved = true)
    (hfrozen : (w.memory.roleState role).frozen = true)
    (hpark : Each role (ParkOutcome w.platform) w w') :
    (withdrawSelected cfg role).Safe clean
    (fun _ => Each role (ParkedAlone w.platform) w) X w' := by
  have hlive : ∀ pfx e, w.registry.lookup ⟨role, pfx⟩ = some e → e.state ≠ .retiring := by
    intro pfx e hl
    rcases (h.recovering pfx e hl).1.state with hs | hs | hs <;> simp [hs]
  refine (runs_withdrawSelected hpark.wellFormed hroutes ((hpark.frozen role).trans hfrozen)
    fun pfx e' hl' => ?_).mono (fun _ w'' hwith => ?_) fun _ _ hx => hx
  · obtain ⟨e, hl, hpost⟩ := hpark.back hl'
    rw [ParkOutcome, if_neg (hlive pfx e hl)] at hpost
    obtain ⟨d, _, rfl, hrows⟩ := hpost
    exact ⟨hlive pfx e hl, d, rfl, (hrows _).mpr (.inl rfl)⟩
  refine (hpark.trans hwith).imp fun pfx e e'' hl => ?_
  rintro ⟨e', rows', hpost, rfl, hrows''⟩
  rw [ParkOutcome, if_neg (hlive pfx e hl)] at hpost
  obtain ⟨d, hd, rfl, hrows'⟩ := hpost
  refine ⟨d, hd, rfl, fun row => ?_⟩
  rw [hrows'', hrows']
  constructor
  · rintro ⟨rfl | ⟨hrow, _⟩, hkept⟩
    · rfl
    · -- the Owned row of an Active record is a candidate
      obtain ⟨_, i, ho, rfl⟩ := (h.rows pfx e hl row).mp hrow
      exact absurd rfl (hkept i (by simp [removalCandidates, ho]))
  · rintro rfl
    exact ⟨.inl rfl, by simp⟩

/-- Every record is behind its park, with its row on the current interface unless
    it counted as Active there. -/
def RestoredBehindPark (p : RoutePlatform) (role : String) (ifIndex : Int) : Outcomes :=
  fun e _ e' rows' => ∃ d, p.normalizeManagedPark e.pfx = .ok d ∧ e'.state = .active ∧
    e'.park = some (activePark d) ∧
    ((OnInterface e ifIndex ∧ ∀ row, row ∈ rows' ↔ row = .park d) ∨
      (¬ OnInterface e ifIndex ∧
        p.normalizeSelectedRoute ⟨role, e.pfx, ifIndex, .zero⟩ = .ok e'.desired ∧
        e'.owned = some e'.desired ∧
        ∀ row, row ∈ rows' ↔ row = .route e'.desired ∨ row = .park d))

theorem runs_restoreSelected (h : Restorable role runtime w) (hroutes : cfg.routesResolved = true)
    (hparked : Each role (ParkedAlone w.platform) w w') :
    (restore cfg role true true).Safe clean
      (fun _ => Each role (RestoredBehindPark w.platform role runtime.toad.ifIndex) w) X w' := by
  refine (runs_restore hparked.wellFormed h.role_ne hroutes
    ((congrFun hparked.runtime role).trans h.runtime_eq) h.ifIndex_pos
    (hparked.platform ▸ h.routes) fun pfx e' hl' => ?_).mono (fun _ w'' hres => ?_) fun _ _ hx => hx
  · obtain ⟨e, hl, d, _, rfl, hrows⟩ := hparked.back hl'
    have hr := (h.recovering pfx e hl).1
    exact ⟨⟨hr.state, hr.host⟩, d, rfl, hrows⟩
  refine (hparked.trans hres).imp fun pfx e e'' hl => ?_
  rintro ⟨e', rows', ⟨d, hd, rfl, hrows'⟩, hpost⟩
  rw [hparked.platform] at hpost
  unfold RestoreOutcome at hpost
  split_ifs at hpost with hskip
  · obtain ⟨rfl, hrows''⟩ := hpost
    exact ⟨d, hd, hskip.1, rfl, .inl ⟨hskip, by rw [hrows'']; exact hrows'⟩⟩
  obtain ⟨i, hi, hs, rfl, ho, hp, hrows''⟩ := hpost
  refine ⟨d, hd, hs, hp, .inr ⟨hskip, hi, ho, fun row => ?_⟩⟩
  rw [hrows'' row, hrows']
  constructor
  · rintro (rfl | ⟨rfl, _⟩)
    · exact .inl rfl
    · exact .inr rfl
  · rintro (rfl | rfl)
    · exact .inl rfl
    · exact .inr ⟨rfl, by simp⟩

/-- Every record that was not Active on the current interface is back, the others
    are parked. -/
def RecoverOutcome (p : RoutePlatform) (role : String) (ifIndex : Int) : Outcomes :=
  fun e _ e' rows' => (OnInterface e ifIndex → e'.park ≠ none) ∧
    (¬ OnInterface e ifIndex → Restored p role ifIndex e.pfx e' rows')

theorem runs_observe (h : Restorable role runtime w) (hroutes : cfg.routesResolved = true)
    (hres : Each role (RestoredBehindPark w.platform role runtime.toad.ifIndex) w w') :
    (observeRestoration cfg role).Safe clean
      (fun _ w'' => Each role (RecoverOutcome w.platform role runtime.toad.ifIndex) w w'' ∧
        ∀ pfx e, w''.registry.lookup ⟨role, pfx⟩ = some e → e.park = none)
      (fun _ _ => ∃ pfx e, w.registry.lookup ⟨role, pfx⟩ = some e ∧
        OnInterface e runtime.toad.ifIndex) w' := by
  have hpfx : ∀ pfx e, w.registry.lookup ⟨role, pfx⟩ = some e → e.pfx = pfx := fun pfx e hl =>
    h.wellFormed.pfx_eq hl
  have hrec : ∀ w'', Each role ObserveOutcome w' w'' →
      Each role (RecoverOutcome w.platform role runtime.toad.ifIndex) w w'' := by
    intro w'' hobs
    refine (hres.trans hobs).imp fun pfx e e'' hl => ?_
    rintro ⟨e', rows', ⟨d, _, hs, hp, hcase⟩, hpost⟩
    rcases hcase with ⟨hon, hrows⟩ | ⟨hoff, hi, ho, hrows⟩
    · rw [ObserveOutcome, if_neg (by simp [hrows])] at hpost
      refine ⟨fun _ => ?_, fun hoff => absurd hon hoff⟩
      rw [hpost.1, hp]
      simp
    · rw [ObserveOutcome, if_pos (by simp [hrows])] at hpost
      obtain ⟨rfl, hrows''⟩ := hpost
      exact ⟨fun hon => absurd hon hoff, fun _ => ⟨hs, hi, ho, rfl, hrows''⟩⟩
  refine (runs_observeRestoration hres.wellFormed hroutes fun pfx e' hl' => ?_).mono
    (fun _ w'' hobs => ⟨hrec w'' hobs.1, hobs.2⟩) fun _ w'' hobs => ?_
  · obtain ⟨e, hl, d, hd, hs, hp, hcase⟩ := hres.back hl'
    refine ⟨d, ⟨hs, hp, ?_, ?_⟩, ?_⟩
    · rcases hcase with ⟨_, hrows⟩ | ⟨_, _, _, hrows⟩ <;> simp [hrows]
    · intro row hrow
      rcases hcase with ⟨_, hrows⟩ | ⟨_, _, _, hrows⟩
      · exact .inl ((hrows row).mp hrow)
      · exact ((hrows row).mp hrow).symm
    intro hrow
    rcases hcase with ⟨_, hrows⟩ | ⟨_, hi, _, _⟩
    · cases (hrows _).mp hrow
    · rw [hres.platform, ← hpfx pfx e hl]
      exact h.wins e.pfx _ d hi hd
  · -- what is still parked was Active on the interface
    obtain ⟨hobs, pfx, e'', hl'', hp⟩ := hobs
    obtain ⟨e, hl, hout⟩ := (hrec w'' hobs).back hl''
    refine ⟨pfx, e, hl, ?_⟩
    by_contra hoff
    exact hp (hout.2 hoff).park

theorem restorable_setRole (h : Restorable role runtime w) (state : SelectedRoleState) :
    Restorable role runtime (w.withMemory (w.memory.setRole role state)) :=
  ⟨h.wellFormed, h.role_ne, h.recovering, h.rows, h.runtime_eq, h.ifIndex_pos, h.parks, h.routes,
    h.wins⟩

/-- How the recovery ends: open with everything restored or parked, or with a
    record that counted as Active on the interface. -/
theorem runs_managedRecovery (h : Restorable role runtime w)
    (hroutes : cfg.routesResolved = true) :
    (managedRecovery cfg role).Safe clean
      (fun _ w' => (w'.memory.roleState role).frozen = false ∧
        (∀ pfx e, w.registry.lookup ⟨role, pfx⟩ = some e →
          ∃ e', w'.registry.lookup ⟨role, pfx⟩ = some e' ∧ e'.park = none ∧
            RecoverOutcome w.platform role runtime.toad.ifIndex e (w.kernel pfx) e'
              (w'.kernel pfx)) ∧
        ∀ pfx, w.registry.lookup ⟨role, pfx⟩ = none → w'.kernel pfx = w.kernel pfx)
      (fun _ _ => ∃ pfx e, w.registry.lookup ⟨role, pfx⟩ = some e ∧
        OnInterface e runtime.toad.ifIndex) w := by
  refine .step (.step (runs_memory ⟨trivial, ?_⟩))
  have h1 := restorable_setRole h { w.memory.roleState role with frozen := true }
  have hfrozen : ((w.memory.setRole role { w.memory.roleState role with frozen := true }).roleState
      role).frozen = true := by simp
  refine .bind (runs_park h1 hroutes hfrozen) fun _ w2 h2 => ?_
  refine .bind (runs_withdraw h1 hroutes hfrozen h2) fun _ w3 h3 => ?_
  refine .bind (runs_restoreSelected h1 hroutes h3) fun _ w4 h4 => ?_
  refine .bind ((runs_observe h1 hroutes h4).mono (fun _ _ hq => hq) fun _ _ hx => hx)
    fun _ w5 h5 => ?_
  refine .step (.step (runs_memory ⟨trivial, trivial, ?_, ?_, ?_⟩))
  · simp [World.withMemory]
  · intro pfx e hl
    obtain ⟨e', hl', hout⟩ := h5.1.record pfx e hl
    exact ⟨e', hl', h5.2 pfx e' hl', hout⟩
  · exact h5.1.kernel

/-- A managed recovery without faults restores exactly the routes it withdrew if
    and only if no record is Active on the interface that the Toad has when the
    routes are restored. -/
theorem managedRecovery_restores_iff (h : Restorable role runtime w)
    (hroutes : cfg.routesResolved = true) :
    RecoveryRestores cfg role runtime.toad.ifIndex w ↔
      ∀ pfx e, w.registry.lookup ⟨role, pfx⟩ = some e → ¬ OnInterface e runtime.toad.ifIndex := by
  have hpfx : ∀ pfx e, w.registry.lookup ⟨role, pfx⟩ = some e → e.pfx = pfx := fun pfx e hl =>
    h.wellFormed.pfx_eq hl
  have hend := (runs_managedRecovery h hroutes).ofHandler
  constructor
  · rintro ⟨hok, _, hall, _⟩ pfx e hl hon
    rcases hend with ⟨_, _, _, hrec, _⟩ | ⟨e', he, _⟩
    · obtain ⟨e', _, hp, hout⟩ := hrec pfx e hl
      exact hout.1 hon hp
    · rw [hok] at he
      cases he
  · intro hoff
    rcases hend with ⟨_, hok, hfrozen, hrec, hkernel⟩ | ⟨_, _, pfx, e, hl, hon⟩
    · refine ⟨hok, hfrozen, fun pfx e hl => ?_, hkernel⟩
      obtain ⟨e', hl', _, hout⟩ := hrec pfx e hl
      exact ⟨e', hl', hpfx pfx e hl ▸ hout.2 (hoff pfx e hl)⟩
    · exact absurd hon (hoff pfx e hl)

end Recovery

theorem routesNormalize_samplePlatform {role : String} {ifIndex : Int} (h : 0 < ifIndex) :
    RoutesNormalize samplePlatform role ifIndex := by
  intro pfx hc
  refine ⟨sampleIdentity ifIndex, rfl, ?_, rfl⟩
  refine (bind_ok_iff _ _ _).mpr ⟨(), ?_, (bind_ok_iff _ _ _).mpr ⟨(), rfl,
    (bind_ok_iff _ _ _).mpr ⟨(), require_eq_ok.mpr (decide_eq_true h), rfl⟩⟩⟩
  simp [isValid_of_isCanonicalPrefix hc, hc]

/-- The sample role with its record Active on interface 7 and its Toad on the given
    one. -/
theorem restorable_sampleWorld {ifIndex : Int} (h : 0 < ifIndex) :
    Restorable "work" (sampleRuntime ifIndex)
      (sampleWorld (activeOps 7) [.route (sampleIdentity 7)] ifIndex) := by
  have hw := wellFormed_sampleWorld (activeOps 7) [.route (sampleIdentity 7)] ifIndex
  have hmem : ∀ pfx e, (runOps (activeOps 7) .empty).lookup ⟨"work", pfx⟩ = some e →
      e ∈ (runOps (activeOps 7) .empty).snapshot "work" ∧ e.pfx = pfx := by
    intro pfx e hl
    have hpfx : e.pfx = pfx := hw.pfx_eq hl
    exact ⟨hw.mem_snapshot_iff.mpr (hpfx ▸ hl), hpfx⟩
  have hall : ∀ e ∈ (runOps (activeOps 7) .empty).snapshot "work", e.state = .active ∧
      e.source = .dns ∧ e.park = none ∧ e.owned = some (sampleIdentity 7) ∧
      e.pfx = samplePrefix := by decide +kernel
  refine ⟨hw, by decide, fun pfx e hl => ?_, fun pfx e hl row => ?_, rfl, h,
    parksNormalize_samplePlatform, routesNormalize_samplePlatform h, fun pfx i d hi hd => ?_⟩
  · obtain ⟨hs, hsrc, hp, _, hpfx⟩ := hall e (hmem pfx e hl).1
    exact ⟨⟨.inr (.inr hs), fun _ => by rw [hpfx]; decide⟩, hp⟩
  · obtain ⟨hs, _, _, ho, hpfx⟩ := hall e (hmem pfx e hl).1
    obtain rfl : samplePrefix = pfx := hpfx.symm.trans (hmem pfx e hl).2
    simp [sampleWorld, hs, ho]
  · cases hi
    cases hd
    rfl

/-- The Toad came back on a new interface: the route is back. -/
theorem managedRecovery_restores_iff_moved :
    RecoveryRestores {} "work" 8 (sampleWorld (activeOps 7) [.route (sampleIdentity 7)] 8) := by
  refine (managedRecovery_restores_iff (restorable_sampleWorld (by decide)) rfl).mpr ?_
  intro pfx e hl hon
  have hw := wellFormed_sampleWorld (activeOps 7) [.route (sampleIdentity 7)] 8
  have hpfx : e.pfx = pfx := hw.pfx_eq hl
  have hne : ∀ e ∈ (runOps (activeOps 7) .empty).snapshot "work", e.desired.ifIndex ≠ 8 := by
    decide +kernel
  exact hne e (hw.mem_snapshot_iff.mpr (hpfx ▸ hl)) hon.2

/-- The Toad came back on the interface it had: the recovery reports that the
    routes are still parked, and the selected row is gone. -/
theorem unchanged_interface_stays_parked :
    let w := sampleWorld (activeOps 7) [.route (sampleIdentity 7)] 7
    Restorable "work" (sampleRuntime 7) w ∧
    ((managedRecovery {} "work").run handle w).1 = .error .routesStillParked ∧
    ((managedRecovery {} "work").run handle w).2.kernel samplePrefix = [.park samplePark] :=
  ⟨restorable_sampleWorld (by decide), by decide +kernel, by decide +kernel⟩

end Kikimora.Control

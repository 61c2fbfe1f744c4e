import Kikimora.Control.Tenure

/-!
# Fail-closed protection

A prefix is covered while the kernel holds a row that keeps its traffic from
escaping: the record's own selected row, or its park. No mutation that a managed
recovery issues uncovers a prefix, whatever fails and wherever the process
stops.
-/

namespace Kikimora.Control

open Net Routing Platform Kikimora.Core Lib

/-- A row that protects the prefix of a record. While a replacement is being
    applied the new target protects it too. -/
inductive Covers (record : SelectedRoute) : SelectedKernelRow → Prop
  | owned {i : SelectedRouteIdentity} (h : record.owned = some i) : Covers record (.route i)
  | applying (h : record.state = .applying) : Covers record (.route record.desired)
  | parkOwned {p : SelectedPark} {i : SelectedParkIdentity} (hp : record.park = some p)
      (h : p.owned = some i) : Covers record (.park i)
  | parkDesired {p : SelectedPark} (hp : record.park = some p) : Covers record (.park p.desired)

def Covered (record : SelectedRoute) (rows : List SelectedKernelRow) : Prop :=
  ∃ row ∈ rows, Covers record row

-- === Mutations ===

/-- Every single mutation of the list that is made while the prefix is covered
    leaves it covered. -/
def KeepsCovered (record : SelectedRoute) (pfx : Prefix) (ms : List KernelMutation) (k : Kernel) :
    Prop :=
  ∀ made m rest, ms = made ++ m :: rest → Covered record (applyAll made k pfx) →
    Covered record (applyAll (made ++ [m]) k pfx)

variable {record : SelectedRoute} {pfx : Prefix} {w : World} {role : String}
  {ms : List KernelMutation} {k : Kernel} {row : SelectedKernelRow}
  {deleted : List SelectedKernelRow} {w' : World} {cfg : Config}

theorem keepsCovered_nil (record : SelectedRoute) (pfx : Prefix) (k : Kernel) :
    KeepsCovered record pfx [] k := by
  intro made m rest h
  simp at h

theorem KeepsCovered.cons {m : KernelMutation}
    (hm : Covered record (k pfx) → Covered record (m.apply k pfx))
    (hms : KeepsCovered record pfx ms (m.apply k)) : KeepsCovered record pfx (m :: ms) k := by
  intro made m' rest h hc
  cases made with
  | nil =>
    obtain ⟨rfl, rfl⟩ := List.cons.inj h
    exact hm hc
  | cons m'' made =>
    obtain ⟨rfl, h'⟩ := List.cons.inj h
    exact hms made m' rest h' hc

/-- A covering row that no deletion of the list names keeps the prefix covered. -/
theorem keepsCovered_of_row (hc : Covers record row) (hne : row ∉ deleted) (hrow : row ∈ k pfx)
    (q : Prefix) : KeepsCovered record pfx (deleted.map (.delete q)) k := by
  induction deleted generalizing k with
  | nil => exact keepsCovered_nil record pfx k
  | cons r deleted ih =>
    rw [List.mem_cons, not_or] at hne
    have hrow' : row ∈ (KernelMutation.delete q r).apply k pfx :=
      mem_apply_delete.mpr ⟨hrow, fun h => hne.1 h.2⟩
    exact KeepsCovered.cons (fun _ => ⟨row, hrow', hc⟩) (ih hne.2 hrow')

theorem keepsCovered_of_add (hc : Covers record row) (hne : row ∉ deleted) (k : Kernel) :
    KeepsCovered record pfx (.add pfx row :: deleted.map (.delete pfx)) k :=
  KeepsCovered.cons (fun ⟨r, hr, hcr⟩ => ⟨r, mem_apply_add.mpr (.inl hr), hcr⟩)
    (keepsCovered_of_row hc hne (mem_apply_add.mpr (.inr ⟨rfl, rfl⟩)) pfx)

theorem keepsCovered_of_ne (h : ∀ m ∈ ms, m.pfx ≠ pfx) (k : Kernel) :
    KeepsCovered record pfx ms k := by
  induction ms generalizing k with
  | nil => exact keepsCovered_nil record pfx k
  | cons m ms ih =>
    rw [List.forall_mem_cons] at h
    exact KeepsCovered.cons (fun hc => by rwa [apply_of_ne h.1]) (ih h.2 _)

-- === Platform calls ===

/-- A park retirement that was under way when the operation started is resumed
    although the selected row has vanished in the meantime. -/
def VanishedRetirement (role : String) (pfx : Prefix) (record : SelectedRoute)
    (start : MemorySelectedRegistry) (rows : List SelectedKernelRow) ⦃β : Type⦄ :
    RouteCall β → Prop
  | .removeManagedPark role' pfx' _ =>
    role' = role ∧ pfx' = pfx ∧
      (∃ e p, start.lookup ⟨role, pfx⟩ = some e ∧ e.park = some p ∧ p.state = .retiring) ∧
      ∀ i, record.owned = some i → .route i ∉ rows
  | _ => False

def Guarded (role : String) ⦃β : Type⦄ (c : RouteCall β) (w : World)
    (start : MemorySelectedRegistry) : Prop :=
  ∀ pfx record, w.registry.lookup ⟨role, pfx⟩ = some record → record.state ≠ .retiring →
    KeepsCovered record pfx (c.plan w.platform w.kernel).2 w.kernel ∨
      VanishedRetirement role pfx record start (w.kernel pfx) c

section Calls

variable {role : String} {w : World} {start : MemorySelectedRegistry} {β : Type} {pfx : Prefix}
  {record e : SelectedRoute} {park : SelectedPark} {c : RouteCall β} {row : SelectedKernelRow}
  {deleted : List SelectedKernelRow}

theorem guarded_of_reads (h : (c.plan w.platform w.kernel).2 = []) : Guarded role c w start := by
  intro pfx record _ _
  rw [h]
  exact .inl (keepsCovered_nil record pfx w.kernel)

/-- A call that writes one prefix is settled by the record of that prefix. -/
theorem guarded_of_record (hl : w.registry.lookup ⟨role, pfx⟩ = some record)
    (ht : ∀ m ∈ (c.plan w.platform w.kernel).2, m.pfx = pfx)
    (h : KeepsCovered record pfx (c.plan w.platform w.kernel).2 w.kernel ∨
      VanishedRetirement role pfx record start (w.kernel pfx) c) : Guarded role c w start := by
  intro q r hr _
  by_cases hq : q = pfx
  · subst hq
    rw [hl] at hr
    cases hr
    exact h
  · exact .inl (keepsCovered_of_ne (fun m hm => by rw [ht m hm]; exact Ne.symm hq) w.kernel)

theorem guarded_of_kept (hl : w.registry.lookup ⟨role, pfx⟩ = some e) (hc : Covers e row)
    (hne : row ∉ deleted) (hrow : row ∈ w.kernel pfx)
    (hms : (c.plan w.platform w.kernel).2 = deleted.map (.delete pfx)) :
    Guarded role c w start := by
  refine guarded_of_record hl (fun m hm => ?_) (.inl ?_)
  · rw [hms] at hm
    obtain ⟨r, _, rfl⟩ := List.mem_map.mp hm
    rfl
  · rw [hms]
    exact keepsCovered_of_row hc hne hrow pfx

theorem guarded_of_created (hl : w.registry.lookup ⟨role, pfx⟩ = some e) (hc : Covers e row)
    (hne : row ∉ deleted)
    (hms : (c.plan w.platform w.kernel).2 = .add pfx row :: deleted.map (.delete pfx)) :
    Guarded role c w start := by
  refine guarded_of_record hl (fun m hm => ?_) (.inl ?_)
  · rw [hms] at hm
    rcases List.mem_cons.mp hm with rfl | hm
    · rfl
    · obtain ⟨r, _, rfl⟩ := List.mem_map.mp hm
      rfl
  · rw [hms]
    exact keepsCovered_of_add hc hne w.kernel

theorem guarded_reconcileManagedPark (hl : w.registry.lookup ⟨role, pfx⟩ = some e)
    (hp : record.park = e.park) : Guarded role (.reconcileManagedPark role pfx record) w start := by
  rcases reconcileManagedPark_cases w.kernel pfx record with ⟨_, h⟩ | ⟨park, hpark, _, _, hok⟩
  · exact guarded_of_reads (congrArg Prod.snd h)
  have h : (reconcileManagedPark w.kernel pfx record).2 = parkMutations w.kernel pfx park :=
    congrArg Prod.snd hok
  have hcov : Covers e (.park park.desired) := .parkDesired (hp ▸ hpark)
  let stale := (park.owned.toList.filter fun o => o ≠ park.desired && .park o ∈ w.kernel pfx).map
    SelectedKernelRow.park
  have hne : .park park.desired ∉ stale := by
    simp only [stale, List.mem_map, List.mem_filter, not_exists, not_and, Bool.and_eq_true,
      decide_eq_true_eq]
    rintro o ⟨_, hne, _⟩ ho
    exact hne (SelectedKernelRow.park.inj ho)
  by_cases hrow : .park park.desired ∈ w.kernel pfx
  · exact guarded_of_kept hl hcov hne hrow
      (h.trans (by simp [parkMutations, hrow, stale, List.map_map, Function.comp_def]))
  · exact guarded_of_created hl hcov hne
      (h.trans (by simp [parkMutations, hrow, stale, List.map_map, Function.comp_def]))

theorem guarded_reconcileSelectedRoute {desired : SelectedRouteDesired}
    (hl : w.registry.lookup ⟨role, record.pfx⟩ = some record) (hs : record.state = .applying)
    (hd : desired.pfx = record.pfx) :
    Guarded role (.reconcileSelectedRoute desired record) w start := by
  rcases reconcileSelectedRoute_cases w.kernel desired record with ⟨_, h⟩ | ⟨action, _, hok⟩
  · exact guarded_of_reads (congrArg Prod.snd h)
  have h : (reconcileSelectedRoute w.kernel desired record).2 =
      reconcileMutations record.pfx record action := hd ▸ congrArg Prod.snd hok
  have hcov : Covers record (.route record.desired) := .applying hs
  cases action with
  | none => exact guarded_of_reads h
  | add => exact guarded_of_created hl hcov (List.not_mem_nil) h
  | replace =>
    let stale := (record.owned.toList.filter (· ≠ record.desired)).map SelectedKernelRow.route
    have hne : .route record.desired ∉ stale := by
      simp only [stale, List.mem_map, List.mem_filter, not_exists, not_and, decide_eq_true_eq]
      rintro o ⟨_, hne⟩ ho
      exact hne (SelectedKernelRow.route.inj ho)
    exact guarded_of_created hl hcov hne
      (h.trans (by simp [reconcileMutations, stale, List.map_map, Function.comp_def]))

theorem guarded_removeSelectedRoute {i : SelectedParkIdentity}
    (hl : w.registry.lookup ⟨role, record.pfx⟩ = some record) (hp : record.park = some park)
    (ho : park.owned = some i) (hrow : .park i ∈ w.kernel record.pfx) :
    Guarded role (.removeSelectedRoute record) w start := by
  obtain ⟨ids, h⟩ := removeSelectedRoute_writes w.kernel record
  exact guarded_of_kept hl (.parkOwned hp ho) (by simp) hrow h

theorem guarded_unpark {i : SelectedRouteIdentity} (hl : w.registry.lookup ⟨role, pfx⟩ = some e)
    (ho : e.owned = some i) (hrow : .route i ∈ w.kernel pfx) :
    Guarded role (.removeManagedPark role pfx park) w start := by
  obtain ⟨ids, h⟩ := removeManagedPark_writes w.kernel pfx park
  exact guarded_of_kept hl (.owned ho) (by simp) hrow h

/-- The resumption of a retirement: behind the selected row, or without it. -/
theorem guarded_resume {park0 : SelectedPark} {e0 : SelectedRoute}
    (hl : w.registry.lookup ⟨role, pfx⟩ = some e) (hstart : start.lookup ⟨role, pfx⟩ = some e0)
    (hp : e0.park = some park0) (hs : park0.state = .retiring) :
    Guarded role (.removeManagedPark role pfx park) w start := by
  by_cases h : ∃ i, e.owned = some i ∧ .route i ∈ w.kernel pfx
  · obtain ⟨i, ho, hrow⟩ := h
    exact guarded_unpark hl ho hrow
  obtain ⟨ids, hms⟩ := removeManagedPark_writes w.kernel pfx park
  refine guarded_of_record hl (fun m hm => ?_)
    (.inr ⟨rfl, rfl, ⟨e0, park0, hstart, hp, hs⟩, fun i ho hrow => h ⟨i, ho, hrow⟩⟩)
  rw [RouteCall.plan, hms, List.map_map] at hm
  obtain ⟨r, _, rfl⟩ := List.mem_map.mp hm
  rfl

end Calls

-- === Operations ===

def startHistory : History MemorySelectedRegistry where
  wrote _ start := start
  called _ _ _ _ _ start := start

abbrev coverage (role : String) (I : World → MemorySelectedRegistry → Prop) :
    Setting Effect (World × MemorySelectedRegistry) :=
  faulty startHistory (Guarded role) I

/-- A transaction on one prefix leaves the other records alone. -/
structure Frame (role : String) (pfx : Prefix) (base start : MemorySelectedRegistry) (w : World)
    (start' : MemorySelectedRegistry) : Prop where
  start_eq : start' = start
  wellFormed : w.registry.WellFormed
  elsewhere : ∀ k, k ≠ ⟨role, pfx⟩ → w.registry.lookup k = base.lookup k

def Settled (start : MemorySelectedRegistry) (w : World) (start' : MemorySelectedRegistry) : Prop :=
  start' = start ∧ w.registry.WellFormed

section Programs

variable {cfg : Config} {role : String} {pfx : Prefix} {base start : MemorySelectedRegistry}
  {w : World} {α β : Type} {I : World → MemorySelectedRegistry → Prop} {e record : SelectedRoute}
  {Q : Unit → World × MemorySelectedRegistry → Prop} {park : SelectedPark} {xs : List SelectedRoute}
  {w' : World} {c : RouteCall β} {x : SelectedRoute} {i : SelectedParkIdentity}
  {v4Ready v6Ready : Bool}

theorem Frame.of_registry (h : Frame role pfx base start w start) (hr : w'.registry = w.registry) :
    Frame role pfx base start w' start :=
  ⟨rfl, by rw [hr]; exact h.wellFormed, by rw [hr]; exact h.elsewhere⟩

theorem Frame.set (h : Frame role pfx base start w start)
    (hw : (w.registry.set ⟨role, pfx⟩ e).WellFormed) :
    Frame role pfx base start (w.withRegistry (w.registry.set ⟨role, pfx⟩ e)) start :=
  ⟨rfl, hw, fun k hk => (MemorySelectedRegistry.lookup_set_of_ne _ e hk).trans (h.elsewhere k hk)⟩

theorem Frame.same {r : MemorySelectedRegistry} (h : Frame role pfx base start w start)
    (hs : r.SameContent w.registry) : Frame role pfx base start (w.withRegistry r) start :=
  ⟨rfl, h.wellFormed.congr hs, fun k hk => (hs k).trans (h.elsewhere k hk)⟩

theorem covered_record (t : RecordTransition) (h : Frame role pfx base start w start)
    (hQ : ∀ entry edited, w.registry.lookup ⟨role, pfx⟩ = some entry → t.Edits entry edited →
      let w' := w.withRegistry (w.registry.set ⟨role, pfx⟩ edited)
      Frame role pfx base start w' start → Q () (w', start)) :
    (registry fun r => t.apply r role pfx).Keeps (coverage role (Frame role pfx base start)) Q
      (w, start) := by
  refine keeps_record t h (fun r hs => h.same hs) ?_
  intro entry edited ha hl hedit
  have h' := h.set (h.wellFormed.edited ha hl hedit)
  exact ⟨h', hQ entry edited hl hedit h'⟩

theorem covered_written (hI : ∀ w', w'.registry = w.registry → I w' start)
    (hQ : ∀ w', w'.registry = w.registry → w'.kernel = w.kernel → Q () (w', start)) :
    (checkpoint cfg role).Keeps (coverage role I) Q (w, start) := by
  refine .step (keeps_memory (hI _ rfl) (hI _ rfl) ?_)
  exact keeps_writeCheckpoint (hI _ rfl) (fun _ => hQ _ rfl rfl)
    fun _ => ⟨hI _ rfl, hQ _ rfl rfl⟩

theorem covered_checkpoint (h : Frame role pfx base start w start)
    (hQ : ∀ w', w'.registry = w.registry → w'.kernel = w.kernel →
      Frame role pfx base start w' start → Q () (w', start)) :
    (checkpoint cfg role).Keeps (coverage role (Frame role pfx base start)) Q (w, start) :=
  covered_written (fun _ hr => h.of_registry hr) fun w' hr hk => hQ w' hr hk (h.of_registry hr)

theorem covered_routes {Q : β → World × MemorySelectedRegistry → Prop}
    (hI : ∀ k, I (w.withKernel k) start) (hG : Guarded role c w start)
    (hQ : ∀ b, (c.plan w.platform w.kernel).1 = .ok b →
      Q b (w.withKernel (applyAll (c.plan w.platform w.kernel).2 w.kernel), start)) :
    (routes c).Keeps (coverage role I) Q (w, start) :=
  keeps_routes (hI _) hG (fun b hb => ⟨hI _, hQ b hb⟩) fun _ _ => hI _

theorem covered_reads {Q : β → World × MemorySelectedRegistry → Prop} (hI : I w start)
    (hc : (c.plan w.platform w.kernel).2 = [])
    (hQ : ∀ b, (c.plan w.platform w.kernel).1 = .ok b → Q b (w, start)) :
    (routes c).Keeps (coverage role I) Q (w, start) := by
  refine keeps_routes hI (guarded_of_reads hc) (fun b hb => ?_) fun n e => ?_
  · rw [hc]
    exact ⟨hI, hQ b hb⟩
  · rw [hc, List.take_nil]
    exact hI

-- === Transactions ===

/-- The selected row is there, or the park has no row to delete, or its retirement
    was under way at the start. -/
def MayUnpark (role : String) (pfx : Prefix) (e : SelectedRoute) (k : Kernel)
    (start : MemorySelectedRegistry) : Prop :=
  (∃ i, e.owned = some i ∧ .route i ∈ k pfx) ∨
  (∃ p, e.park = some p ∧ p.owned = some p.desired ∧ .park p.desired ∉ k pfx) ∨
  ∃ e₀ p, start.lookup ⟨role, pfx⟩ = some e₀ ∧ e₀.park = some p ∧ p.state = .retiring

theorem guarded_removeManagedPark (hl : w.registry.lookup ⟨role, pfx⟩ = some e)
    (hp : e.park = some park) (hs : park.state = .retiring)
    (h : MayUnpark role pfx e w.kernel start) :
    Guarded role (.removeManagedPark role pfx park) w start := by
  rcases h with ⟨i, ho, hrow⟩ | ⟨p, hp', ho, hrow⟩ | ⟨e0, p, hstart, hp', hs'⟩
  · exact guarded_unpark hl ho hrow
  · cases hp.symm.trans hp'
    refine guarded_of_reads ?_
    simp [RouteCall.plan, removeManagedPark, parkRemovalCandidates, hs, ho, hrow]
  · exact guarded_resume hl hstart hp' hs'

def coverageTenure (cfg : Config) (role : String) (start : MemorySelectedRegistry) :
    Tenure startHistory (Guarded role) cfg role where
  Inv := Settled start
  At pfx base := Frame role pfx base.registry start
  Live _ _ _ _ := False
  Ahead _ _ _ _ := True
  Unparks := MayUnpark role
  May _ := True
  onPark _ := trivial
  wellFormed h := h.2
  start _ h := ⟨h.1, h.2, fun _ _ => rfl⟩
  done h := ⟨h.start_eq, h.wellFormed⟩
  elsewhere h hk := h.elsewhere _ hk
  memory h hr := by
    obtain rfl := h.start_eq
    exact h.of_registry hr
  record t _ h _ hQ := by
    obtain rfl := h.inv.start_eq
    refine covered_record t h.inv fun entry edited hl hedit h' => ?_
    cases h.lookup.symm.trans hl
    exact hQ edited _ hedit ⟨h', MemorySelectedRegistry.lookup_set_self ..⟩ id
  checkpoint h hQ := by
    obtain rfl := h.inv.start_eq
    exact covered_checkpoint h.inv fun w' hr hk h' =>
      hQ w' _ ⟨h', hr ▸ h.lookup⟩ (fun _ _ => trivial) (hk ▸ id)
  reads hc h hQ := by
    obtain rfl := h.inv.start_eq
    exact covered_reads h.inv (hc.plan _ _) fun b hb => hQ b _ _ hb h rfl (fun _ => id) id
  reconcilePark h _ _ _ hQ := by
    obtain rfl := h.inv.start_eq
    exact covered_routes (fun _ => h.inv.of_registry rfl)
      (guarded_reconcileManagedPark h.lookup rfl)
      fun result _ => hQ result _ _ ⟨h.inv.of_registry rfl, h.lookup⟩ fun _ hi => hi.elim
  removePark h hp hs hu hQ := by
    obtain rfl := h.inv.start_eq
    exact covered_routes (fun _ => h.inv.of_registry rfl)
      (guarded_removeManagedPark h.lookup hp hs hu)
      fun _ _ => hQ _ _ ⟨h.inv.of_registry rfl, h.lookup⟩ fun _ => id
  reconcileRoute _ h hs hpfx _ hQ := by
    obtain rfl := h.inv.start_eq
    obtain rfl := h.inv.wellFormed.pfx_eq h.lookup
    exact covered_routes (fun _ => h.inv.of_registry rfl)
      (guarded_reconcileSelectedRoute h.lookup hs hpfx)
      fun result _ => hQ result _ _ ⟨h.inv.of_registry rfl, h.lookup⟩ fun _ hi => hi.elim
  retiring hedit h := by
    cases hedit with
    | markParkRetiring hp _ =>
      refine h.imp_right (Or.imp_left ?_)
      rintro ⟨p, hp', ho, hrow⟩
      cases hp.symm.trans hp'
      exact ⟨_, rfl, ho, hrow⟩
  proven hp hpo ho hrow := hrow.elim (fun hrow => .inl ⟨_, ho, hrow⟩)
    fun hrow => .inr (.inl ⟨_, hp, hpo, hrow⟩)

def KeepsSettled (role : String) (start : MemorySelectedRegistry) {α : Type} (p : ManagerM α)
    (w : World) : Prop :=
  p.Keeps (coverage role (Settled start)) (fun _ _ => True) (w, start)

theorem covered_roleState {Q : SelectedRoleState → World × MemorySelectedRegistry → Prop}
    (h : w.registry.WellFormed)
    (hQ : ∀ state w', w'.registry = w.registry → Q state (w', start)) :
    (roleState role).Keeps (coverage role (Settled start)) Q (w, start) :=
  keeps_memory ⟨rfl, h⟩ ⟨rfl, h⟩ (hQ _ _ rfl)

def AtStart (role : String) (start : MemorySelectedRegistry) (e : SelectedRoute) : Prop :=
  start.lookup ⟨role, e.pfx⟩ = some e

theorem AtStart.mayUnpark (h : Settled start w s) (he : AtStart role start e)
    (hp : e.park = some park) (hs : park.state = .retiring) :
    MayUnpark role e.pfx e w.kernel s :=
  .inr (.inr ⟨e, park, h.1 ▸ he, hp, hs⟩)

theorem parkRegistered_covered (h : w.registry.WellFormed) :
    KeepsSettled role w.registry (parkRegistered cfg role) w :=
  Tenure.parkRegistered (T := coverageTenure cfg role w.registry) (R := AtStart role w.registry)
    (fun _ _ _ hi he _ => he.mayUnpark hi) ⟨rfl, h⟩ ⟨rfl, h⟩ fun _ => id

theorem observeRestoration_covered (h : w.registry.WellFormed) :
    KeepsSettled role w.registry (observeRestoration cfg role) w :=
  Tenure.observeRestoration (T := coverageTenure cfg role w.registry)
    (R := AtStart role w.registry) (fun _ _ _ hi he _ => he.mayUnpark hi) ⟨rfl, h⟩ ⟨rfl, h⟩
    fun _ => id

-- === Withdrawal ===

/-- The record is the registered one and its park is in the kernel. -/
structure ProtectedRecord.Holds (role : String) (w : World) (item : ProtectedRecord) : Prop where
  lookup : w.registry.lookup ⟨role, item.record.pfx⟩ = some item.record
  owned : ∃ p, item.record.park = some p ∧ p.owned = some item.park
  row : .park item.park ∈ w.kernel item.record.pfx

theorem provenPark_eq_some (h : provenPark e = some i) :
    ∃ p, e.park = some p ∧ p.owned = some i := by
  obtain ⟨p, hp, h⟩ := Option.bind_eq_some_iff.mp h
  split_ifs at h with hc
  cases h
  simp only [Bool.and_eq_true, decide_eq_true_eq] at hc
  exact ⟨p, hp, hc.2⟩

theorem withdrawalPlan_covered (h : Settled start w start) {entries : List SelectedRoute}
    (he : ∀ e ∈ entries, w.registry.lookup ⟨role, e.pfx⟩ = some e) :
    (withdrawalPlan role entries).Keeps (coverage role (Settled start))
      (fun plan s => s = (w, start) ∧ ∀ item ∈ plan, item.Holds role w) (w, start) := by
  induction entries with
  | nil => exact .ret h ⟨rfl, fun item hi => absurd hi List.not_mem_nil⟩
  | cons entry entries ih =>
    rw [List.forall_mem_cons] at he
    unfold withdrawalPlan
    split_ifs
    · exact ih he.2
    cases hp : provenPark entry with
    | none => exact .fail h
    | some park =>
      refine .step (covered_reads h rfl fun present hpresent => ?_)
      split_ifs with hb
      · exact .fail h
      refine .bind (ih he.2) ?_
      rintro plan s ⟨rfl, hplan⟩
      refine .ret h ⟨rfl, List.forall_mem_cons.mpr ⟨⟨he.1, provenPark_eq_some hp, ?_⟩,
        hplan⟩⟩
      cases hpresent
      simpa [observeManagedPark] using hb

theorem park_mem_removeSelectedRoute {q : Prefix} (h : .park i ∈ k q) :
    .park i ∈ applyAll (removeSelectedRoute k record).2 k q := by
  obtain ⟨ids, h'⟩ := removeSelectedRoute_writes k record
  rw [h', mem_applyAll_delete]
  exact ⟨h, by simp⟩

theorem withdrawSelected_covered (hw : w.registry.WellFormed) :
    KeepsSettled role w.registry (withdrawSelected cfg role) w := by
  refine .step (covered_roleState hw fun state w1 hr => ?_)
  rw [← hr] at hw ⊢
  split_ifs
  · exact .fail ⟨rfl, hw⟩
  · exact .fail ⟨rfl, hw⟩
  refine .step (keeps_read ⟨rfl, hw⟩ ?_)
  refine .bind
    (withdrawalPlan_covered ⟨rfl, hw⟩ fun e he => hw.mem_snapshot_iff.mp he) ?_
  rintro plan s ⟨rfl, hplan⟩
  -- the parks stay while the selected rows go one by one
  refine .bind (.forEach
    (fun xs s => Settled w1.registry s.1 s.2 ∧ ∀ item ∈ xs, item.Holds role s.1)
    (fun s hs => hs.1) ?_ plan ⟨⟨rfl, hw⟩, hplan⟩) ?_
  · rintro item items ⟨w', start'⟩ ⟨⟨rfl, hw'⟩, hs⟩
    rw [List.forall_mem_cons] at hs
    obtain ⟨⟨hl, ⟨p, hp, ho⟩, hrow⟩, hrest⟩ := hs
    refine covered_routes (fun _ => ⟨rfl, hw'⟩) (guarded_removeSelectedRoute hl hp ho hrow)
      fun _ _ => ⟨⟨rfl, hw'⟩, fun item hi => ?_⟩
    exact ⟨(hrest item hi).lookup, (hrest item hi).owned,
      park_mem_removeSelectedRoute (hrest item hi).row⟩
  · rintro _ ⟨w', start'⟩ ⟨hs, _⟩
    refine (Prog.Keeps.forEach (fun _ s => Settled w1.registry s.1 s.2) (fun s hs => hs) ?_ plan
      hs).mono fun _ _ _ => trivial
    rintro item items ⟨w'', start''⟩ ⟨rfl, hw''⟩
    refine .step (covered_reads ⟨rfl, hw''⟩ rfl fun present _ => ?_)
    split_ifs
    · exact .fail ⟨rfl, hw''⟩
    · exact .ret ⟨rfl, hw''⟩ ⟨rfl, hw''⟩

-- === Restoration ===

theorem restoreOne_covered {runtime : RoleRuntime} {base : World}
    (h : Frame role e.pfx base.registry start w start) :
    (coverageTenure cfg role start).Keeps e.pfx base
      (restoreOne cfg role runtime v4Ready v6Ready e) w start := by
  have hrest (w') (h' : Frame role e.pfx base.registry start w' start) :=
    (coverageTenure cfg role start).reconciled (fun _ => trivial) h' fun _ _ _ => trivial
  unfold restoreOne
  split_ifs
  · exact .ret h trivial
  refine .step (covered_reads h rfl fun identity _ => ?_)
  have h1 : Frame role e.pfx base.registry start (w.touched role) start := h.of_registry rfl
  refine .step (keeps_memory h h1 ?_)
  refine .step (keeps_reserve h1 (fun _ _ _ => hrest _ h1) fun hv => ?_)
  have h2 := h1.set (h1.wellFormed.reserved hv)
  exact ⟨h2, hrest _ h2⟩

theorem restore_covered (hw : w.registry.WellFormed) :
    KeepsSettled role w.registry (restore cfg role v4Ready v6Ready) w := by
  unfold restore
  split_ifs
  · exact .fail ⟨rfl, hw⟩
  refine .step (keeps_roleRuntime ⟨rfl, hw⟩ ?_)
  cases w.runtime role with
  | none => exact .fail ⟨rfl, hw⟩
  | some runtime =>
    refine .step (covered_roleState hw fun state w1 hr => ?_)
    rw [← hr] at hw ⊢
    let T := coverageTenure cfg role w1.registry
    have h : T.Inv w1 w1.registry := ⟨rfl, hw⟩
    split_ifs
    · exact .fail h
    refine .step (keeps_read h ?_)
    refine .bind (Tenure.forEach (T.stable_const fun _ => True) (fun x w' l' hx _ => ?_)
      (T.loop h (List.Sublist.refl _) fun _ _ _ => trivial)) ?_
    · obtain rfl := hx.inv.start_eq
      exact restoreOne_covered hx.inv
    · rintro _ ⟨w', start'⟩ ⟨rfl, hw'⟩
      exact covered_written (fun _ hr' => ⟨rfl, by rw [hr']; exact hw'⟩) fun _ _ _ => trivial

end Programs

-- === Runs ===

/-- The operations of a managed recovery that mutate routes. -/
inductive RecoveryOperation
  | parkRegistered
  | withdrawSelected
  | restore (v4Ready v6Ready : Bool)
  | observeRestoration
  deriving DecidableEq, Repr

def RecoveryOperation.program (cfg : Config) (role : String) : RecoveryOperation → ManagerM Unit
  | .parkRegistered => Control.parkRegistered cfg role
  | .withdrawSelected => Control.withdrawSelected cfg role
  | .restore v4Ready v6Ready => Control.restore cfg role v4Ready v6Ready
  | .observeRestoration => Control.observeRestoration cfg role

def SelectedRowsVanish (k k' : Kernel) : Prop :=
  ∀ pfx row, (row ∈ k' pfx → row ∈ k pfx) ∧ (row ∈ k pfx → row ∉ k' pfx → ∃ i, row = .route i)

/-- The worlds a managed recovery can meet: any operations, each of which may
    fail or be cut off anywhere, restarts from the last checkpoint, and
    interfaces that vanish between operations. -/
inductive ManagedRun (cfg : Config) (role : String) : World → Prop
  | start {w : World} (h : w.registry.WellFormed) : ManagedRun cfg role w
  | operation {w w' : World} {op : RecoveryOperation} {trace : List (Event Effect World)}
      {o : Outcome ManagerError Unit} (h : ManagedRun cfg role w) (ho : o ≠ .crashed)
      (he : Exec FaultStep (op.program cfg role) w trace o w') : ManagedRun cfg role w'
  | crash {w w' w'' : World} {op : RecoveryOperation} {trace : List (Event Effect World)}
      (h : ManagedRun cfg role w)
      (he : Exec FaultStep (op.program cfg role) w trace .crashed w')
      (hr : restart cfg role w' = .ok w'') : ManagedRun cfg role w''
  | vanish {w : World} {k : Kernel} (h : ManagedRun cfg role w)
      (hk : SelectedRowsVanish w.kernel k) : ManagedRun cfg role (w.withKernel k)
  | environment {w : World} {platform : RoutePlatform} {runtime : String → Option RoleRuntime}
      (h : ManagedRun cfg role w) :
      ManagedRun cfg role { w with platform := platform, runtime := runtime }

/-- What is demanded of one event of an operation that started with the registry
    `start`. -/
def GuardedEvent (role : String) (start : MemorySelectedRegistry) : Event Effect World → Prop
  | ⟨.routes c, w, _, _⟩ => Guarded role c w start
  | _ => True

theorem startHistory_notes {β : Type} {c : Effect β} {b : β} (h : FaultStep c w b w')
    (start : MemorySelectedRegistry) : startHistory.Notes c w b w' start start := by
  cases c with
  | writeCheckpoint role c =>
    rcases h with ⟨_, rfl⟩ | ⟨e, rfl, rfl | rfl⟩
    · exact .inr ⟨rfl, rfl⟩
    · exact .inl ⟨⟨e, rfl⟩, rfl, rfl⟩
    · exact .inr ⟨rfl, rfl⟩
  | _ => rfl

theorem coverage_sound {start : MemorySelectedRegistry} {I : World → MemorySelectedRegistry → Prop}
    {α : Type} {p : ManagerM α} {Q : α → World × MemorySelectedRegistry → Prop}
    {trace : List (Event Effect World)} {o : Outcome ManagerError α}
    (h : p.Keeps (coverage role I) Q (w, start)) (he : Exec FaultStep p w trace o w') :
    (∀ ev ∈ trace, GuardedEvent role start ev) ∧ I w' start ∧
      ∀ a, o = .returned a → Q a (w', start) := by
  induction he with
  | ret a s =>
    refine ⟨fun _ hev => absurd hev List.not_mem_nil, h.1, fun a' ha => ?_⟩
    cases ha
    exact h.2
  | fail e s => exact ⟨fun _ hev => absurd hev List.not_mem_nil, h.1, fun _ ha => nomatch ha⟩
  | crash p s =>
    exact ⟨fun _ hev => absurd hev List.not_mem_nil, Prog.Safe.crash h, fun _ ha => nomatch ha⟩
  | @call β c k w1 w2 w3 b trace o hstep hk ih =>
    obtain ⟨hg, hrest⟩ := h.2 b (w2, start) ⟨hstep, startHistory_notes hstep start⟩
    obtain ⟨hall, hI⟩ := ih hrest
    refine ⟨List.forall_mem_cons.mpr ⟨?_, hall⟩, hI⟩
    cases c with
    | routes c => exact hg
    | memory f | roleRuntime r | notify n | writeCheckpoint r c => trivial

theorem RecoveryOperation.covered (op : RecoveryOperation) (h : w.registry.WellFormed) :
    KeepsSettled role w.registry (op.program cfg role) w := by
  cases op with
  | parkRegistered => exact parkRegistered_covered h
  | withdrawSelected => exact withdrawSelected_covered h
  | restore v4Ready v6Ready => exact restore_covered h
  | observeRestoration => exact observeRestoration_covered h

theorem ManagedRun.wellFormed (h : ManagedRun cfg role w) : w.registry.WellFormed := by
  induction h with
  | start h => exact h
  | @operation _ _ op _ _ _ _ he ih => exact (coverage_sound (op.covered ih) he).2.1.2
  | crash _ _ hr _ => exact wellFormed_restart hr
  | vanish _ _ ih => exact ih
  | environment _ ih => exact ih

/-- No mutation of a managed recovery uncovers the prefix of a record that is not
    retiring, in any run. A retirement that is resumed after its selected row
    vanished is left open. -/
theorem ManagedRun.guarded {cfg : Config} {role : String} {w w' : World}
    (h : ManagedRun cfg role w) {op : RecoveryOperation} {trace : List (Event Effect World)}
    {o : Outcome ManagerError Unit} (he : Exec FaultStep (op.program cfg role) w trace o w')
    {ev : Event Effect World} (hev : ev ∈ trace) : GuardedEvent role w.registry ev :=
  (coverage_sound (op.covered h.wellFormed) he).1 ev hev

def issuesMutation : Event Effect World → Bool
  | ⟨.routes c, w, _, _⟩ => !(c.plan w.platform w.kernel).2.isEmpty
  | _ => false

/-- Parking an Active record on the interface it is on. -/
theorem ManagedRun.guarded_parked :
    let w := sampleWorld (activeOps 7) [.route (sampleIdentity 7)] 7
    ∃ ev, issuesMutation ev = true ∧ GuardedEvent "work" w.registry ev := by
  intro w
  have hrun : ManagedRun {} "work" w := .start (wellFormed_sampleWorld _ _ _)
  have hexec :=
    Prog.exec_run faultStep_handle (RecoveryOperation.parkRegistered.program {} "work") w
  obtain ⟨ev, hev, hissue⟩ := List.any_eq_true.mp (by decide +kernel :
    ((RecoveryOperation.parkRegistered.program {} "work").events handle w).any
      issuesMutation = true)
  exact ⟨ev, hissue, hrun.guarded hexec hev⟩

/-- Covered by the proven row or a park alone, without the target that is being
    applied. -/
def coveredByProof (record : SelectedRoute) (rows : List SelectedKernelRow) : Bool :=
  record.owned.any (fun i => .route i ∈ rows) ||
    record.park.any fun p => .park p.desired ∈ rows || p.owned.any fun i => .park i ∈ rows

def losesProof (role : String) (pfx : Prefix) : Event Effect World → Bool
  | ⟨.routes c, w, _, _⟩ =>
    let ms := (c.plan w.platform w.kernel).2
    (w.registry.lookup ⟨role, pfx⟩).any fun record => record.state ≠ .retiring &&
      (List.range ms.length).any fun n =>
        coveredByProof record (applyAll (ms.take n) w.kernel pfx) &&
          !coveredByProof record (applyAll (ms.take (n + 1)) w.kernel pfx)
  | _ => false

/-- Restoring an Active record onto a new interface: the stale row goes when the
    new one is there, before the registry has taken it as Owned. -/
theorem restore_replaces_proof :
    let w := sampleWorld (activeOps 7) [.route (sampleIdentity 7)] 8
    ManagedRun {} "work" w ∧ ∃ trace o w',
      Exec FaultStep ((RecoveryOperation.restore true true).program {} "work") w trace o w' ∧
      ∃ ev ∈ trace, losesProof "work" samplePrefix ev = true := by
  intro w
  refine ⟨.start (wellFormed_sampleWorld _ _ _), _, _, _, Prog.exec_run faultStep_handle _ w, ?_⟩
  exact List.any_eq_true.mp (by decide +kernel)

end Kikimora.Control

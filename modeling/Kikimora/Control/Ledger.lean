import Kikimora.Control.Tenure

/-!
# The ownership ledger

A history of what the manager may have in the kernel: the rows that a written
checkpoint or an issued call has authorized and that no answer has accounted for
since, and the rows that a call has created. The ledger is kept when every
authorized row is named by the registry and by the last checkpoint.
-/

namespace Kikimora.Control

open Net Routing Platform Lib

def diskRecord (w : World) (role : String) (pfx : Prefix) : Option SelectedRoute :=
  (w.disk role).bind fun c => (c.entries.getD []).find? fun entry => entry.pfx = pfx

variable {β : Type} {row : SelectedKernelRow} {w : World} {c : RouteCall β} {p : RoutePlatform}
  {k : Kernel} {q : Prefix}

theorem diskRecord_of_disk {w' : World} (h : w'.disk = w.disk) (role : String) (pfx : Prefix) :
    diskRecord w' role pfx = diskRecord w role pfx := by
  unfold diskRecord
  rw [h]

theorem diskRecord_checkpointOf {role platform : String} {r : MemorySelectedRegistry}
    {generation : UInt64} (hd : w.disk role = some (checkpointOf r role platform generation))
    (hw : r.WellFormed) (pfx : Prefix) : diskRecord w role pfx = r.lookup ⟨role, pfx⟩ := by
  rw [← registryEntryOf_eq hw]
  unfold diskRecord
  rw [hd]
  rfl

-- === What a call creates and settles ===

def issued ⦃β : Type⦄ : RouteCall β → Prefix → SelectedKernelRow → Prop
  | .reconcileSelectedRoute desired record, pfx, row =>
    pfx = desired.pfx ∧ row = .route record.desired
  | .reconcileManagedPark _ pfx' record, pfx, row =>
    pfx = pfx' ∧ ∃ p, record.park = some p ∧ row = .park p.desired
  | _, _, _ => False

/-- The answer proves the row gone: it was removed, or another identity was
    verified in its place. -/
def settled ⦃β : Type⦄ : RouteCall β → Except String β → Prefix → SelectedKernelRow → Prop
  | .reconcileSelectedRoute desired _, .ok result, pfx, row =>
    pfx = desired.pfx ∧ ∃ i, row = .route i ∧ i ≠ result.verified
  | .removeSelectedRoute record, .ok _, pfx, row =>
    pfx = record.pfx ∧ ∃ i ∈ removalCandidates record, row = .route i
  | .reconcileManagedPark _ pfx' _, .ok result, pfx, row =>
    pfx = pfx' ∧ ∃ i, row = .park i ∧ i ≠ result.verified
  | .removeManagedPark _ pfx' park, .ok _, pfx, row =>
    pfx = pfx' ∧ ∃ ids, parkRemovalCandidates pfx' park = .ok ids ∧ ∃ i ∈ ids, row = .park i
  | _, _, _, _ => False

theorem not_settled_error {e : String} {pfx : Prefix} : ¬ settled c (.error e) pfx row := by
  cases c <;> exact id

theorem issued_of_add (h : .add q row ∈ (c.plan p k).2) : issued c q row := by
  cases c with
  | reconcileSelectedRoute desired record =>
    rcases reconcileSelectedRoute_cases k desired record with ⟨_, hc⟩ | ⟨action, _, hc⟩
    · rw [RouteCall.plan, hc] at h
      cases h
    · rw [RouteCall.plan, hc] at h
      exact add_mem_reconcileMutations h
  | reconcileManagedPark role pfx record =>
    rcases reconcileManagedPark_cases k pfx record with ⟨_, hc⟩ | ⟨park, hp, _, _, hc⟩
    · rw [RouteCall.plan, hc] at h
      cases h
    · rw [RouteCall.plan, hc] at h
      obtain ⟨hq, hrow⟩ := add_mem_parkMutations h
      exact ⟨hq, park, hp, hrow⟩
  | removeSelectedRoute record =>
    obtain ⟨ids, hids⟩ := removeSelectedRoute_writes k record
    rw [RouteCall.plan, hids] at h
    simp at h
  | removeManagedPark role pfx park =>
    obtain ⟨ids, hids⟩ := removeManagedPark_writes k pfx park
    rw [RouteCall.plan, hids] at h
    simp at h
  | _ => cases h

theorem not_mem_of_settled {b : β} (hb : (c.plan p k).1 = .ok b) (h : settled c (.ok b) q row) :
    row ∉ applyAll (c.plan p k).2 k q := by
  cases c with
  | reconcileSelectedRoute desired record =>
    obtain ⟨rfl, i, rfl, hne⟩ := h
    rcases reconcileSelectedRoute_cases k desired record with ⟨_, hc⟩ | ⟨action, hp, hc⟩
    · rw [RouteCall.plan, hc] at hb
      cases hb
    rw [RouteCall.plan, hc] at hb ⊢
    cases hb
    rw [mem_reconcileMutations hp]
    rintro (hi | ⟨_, hi⟩)
    · exact hne (SelectedKernelRow.route.inj hi)
    · exact hi i rfl
  | removeSelectedRoute record =>
    rw [RouteCall.plan, mem_removeSelectedRoute hb]
    exact fun hrow => hrow.2 h
  | reconcileManagedPark role pfx record =>
    obtain ⟨rfl, i, rfl, hne⟩ := h
    rcases reconcileManagedPark_cases k q record with ⟨_, hc⟩ | ⟨park, hp, hs, hrows, hc⟩
    · rw [RouteCall.plan, hc] at hb
      cases hb
    rw [RouteCall.plan, hc] at hb ⊢
    cases hb
    rw [mem_parkMutations hp hs hrows]
    rintro (hi | ⟨_, hi⟩)
    · exact hne (SelectedKernelRow.park.inj hi)
    · exact hi i rfl
  | removeManagedPark role pfx park =>
    obtain ⟨rfl, ids, hc, hrow⟩ := h
    rw [RouteCall.plan, mem_removeManagedPark hc]
    exact fun hmem => hmem.2 ⟨rfl, hrow⟩
  | _ => exact h.elim

theorem Reads.not_issued (h : Reads c) (row : SelectedKernelRow) : ¬ issued c q row := by
  cases c <;> first | exact id | cases h

-- === The ledger ===

/-- The rows that have been authorized and not been settled since, and the rows
    in the kernel that a call has created. -/
structure Ledger where
  authorized : Prefix → SelectedKernelRow → Prop
  created : Prefix → SelectedKernelRow → Prop

/-- The history of one role: a checkpoint authorizes the targets of its Applying
    transactions, and so does a call that may create a row. -/
def ledgerOf (role : String) : History Ledger where
  wrote w l := { l with
    authorized := fun pfx row =>
      l.authorized pfx row ∨ ∃ e, diskRecord w role pfx = some e ∧ e.Authorizes row }
  called _ c w b w' l :=
    { authorized := fun pfx row => (l.authorized pfx row ∨ issued c pfx row) ∧ ¬ settled c b pfx row
      created := fun pfx row => row ∈ w'.kernel pfx ∧ (l.created pfx row ∨ row ∉ w.kernel pfx) }

def WrittenAhead (role : String) ⦃β : Type⦄ (c : RouteCall β) (w : World) (_ : Ledger) : Prop :=
  ∀ pfx row, issued c pfx row → ∃ e, diskRecord w role pfx = some e ∧ e.Authorizes row

abbrev ledgered (role : String) (I : World → Ledger → Prop) : Setting Effect (World × Ledger) :=
  faulty (ledgerOf role) (WrittenAhead role) I

/-- The registry and the last checkpoint both name every authorized row, and every
    created row is authorized. -/
structure Ledgered (cfg : Config) (role : String) (w : World) (l : Ledger) : Prop where
  wellFormed : w.registry.WellFormed
  stored : ∀ c, w.disk role = some c →
    ∃ r generation, c = checkpointOf r role cfg.platform generation ∧ r.WellFormed
  memory : ∀ pfx row, l.authorized pfx row →
    ∃ e, w.registry.lookup ⟨role, pfx⟩ = some e ∧ e.NamesRow row
  disk : ∀ pfx row, l.authorized pfx row → ∃ e, diskRecord w role pfx = some e ∧ e.NamesRow row
  created : ∀ pfx row, l.created pfx row → l.authorized pfx row

/-- A transaction on `pfx` keeps the ledger. The other records are those of
    `base`, in memory, and on disk as they were or as they are in memory. -/
structure LedgeredAt (cfg : Config) (role : String) (pfx : Prefix) (base w : World) (l : Ledger) :
    Prop extends Ledgered cfg role w l where
  platform : w.platform = base.platform
  elsewhere : ∀ k, k ≠ ⟨role, pfx⟩ → w.registry.lookup k = base.registry.lookup k
  diskElsewhere : ∀ q, q ≠ pfx → diskRecord w role q = diskRecord base role q ∨
    diskRecord w role q = base.registry.lookup ⟨role, q⟩

/-- A transaction of a role with a state directory, with the record of its prefix. -/
structure Holding (cfg : Config) (role : String) (pfx : Prefix) (base : World) (e : SelectedRoute)
    (w : World) (l : Ledger) : Prop extends LedgeredAt cfg role pfx base w l where
  dir : cfg.stateDir role = true
  lookup : w.registry.lookup ⟨role, pfx⟩ = some e

abbrev transacting (cfg : Config) (role : String) (pfx : Prefix) (base : World) :
    Setting Effect (World × Ledger) :=
  ledgered role (LedgeredAt cfg role pfx base)

section Rules

variable {cfg : Config} {role : String} {pfx : Prefix} {base w : World} {l : Ledger}
  {e : SelectedRoute} {β : Type} {Q : Unit → World × Ledger → Prop} {c : RouteCall β} {w' : World}
  {r : MemorySelectedRegistry} {generation : UInt64}

theorem Ledgered.of_eq (h : Ledgered cfg role w l) (hr : w'.registry = w.registry)
    (hd : w'.disk = w.disk) : Ledgered cfg role w' l  where
  wellFormed := hr ▸ h.wellFormed
  stored := hd ▸ h.stored
  memory := hr ▸ h.memory
  disk q row hrow := diskRecord_of_disk hd role q ▸ h.disk q row hrow
  created := h.created

theorem LedgeredAt.of_eq (h : LedgeredAt cfg role pfx base w l) (hr : w'.registry = w.registry)
    (hd : w'.disk = w.disk) (hp : w'.platform = w.platform) :
    LedgeredAt cfg role pfx base w' l  where
  toLedgered := h.toLedgered.of_eq hr hd
  platform := hp.trans h.platform
  elsewhere := hr ▸ h.elsewhere
  diskElsewhere q hq := diskRecord_of_disk hd role q ▸ h.diskElsewhere q hq

theorem Ledgered.start (h : Ledgered cfg role w l) (pfx : Prefix) :
    LedgeredAt cfg role pfx w w l :=
  ⟨h, rfl, fun _ _ => rfl, fun _ _ => .inl rfl⟩

/-- The record of the prefix is replaced or dropped, and what replaces it names
    every authorized row. -/
theorem LedgeredAt.withRegistry (h : LedgeredAt cfg role pfx base w l) (hw : r.WellFormed)
    (helse : ∀ k, k ≠ ⟨role, pfx⟩ → r.lookup k = w.registry.lookup k)
    (hnames : ∀ row, l.authorized pfx row → ∃ e, r.lookup ⟨role, pfx⟩ = some e ∧ e.NamesRow row) :
    LedgeredAt cfg role pfx base (w.withRegistry r) l  where
  wellFormed := hw
  stored := h.stored
  memory q row hrow := by
    by_cases hq : q = pfx
    · subst hq
      exact hnames row hrow
    have hk : (⟨role, q⟩ : SelectedRouteKey) ≠ ⟨role, pfx⟩ :=
      fun hk => hq (congrArg SelectedRouteKey.pfx hk)
    rw [World.registry_withRegistry, helse _ hk]
    exact h.memory q row hrow
  disk := h.disk
  created := h.created
  platform := h.platform
  elsewhere k hk := (helse k hk).trans (h.elsewhere k hk)
  diskElsewhere := h.diskElsewhere

theorem LedgeredAt.same (h : LedgeredAt cfg role pfx base w l) (hs : r.SameContent w.registry) :
    LedgeredAt cfg role pfx base (w.withRegistry r) l :=
  h.withRegistry (h.wellFormed.congr hs) (fun k _ => hs k) fun row hrow => by
    rw [hs]
    exact h.memory pfx row hrow

theorem Holding.names (h : Holding cfg role pfx base e w l) (hrow : l.authorized pfx row) :
    e.NamesRow row := by
  obtain ⟨e', hl', hn⟩ := h.memory pfx row hrow
  cases h.lookup.symm.trans hl'
  exact hn

theorem ledger_record (t : RecordTransition) (h : Holding cfg role pfx base e w l)
    (hkeep : ∀ e', t.Edits e e' → ∀ row, l.authorized pfx row → e.NamesRow row → e'.NamesRow row)
    (hQ : ∀ e' w', t.Edits e e' → Holding cfg role pfx base e' w' l → Q () (w', l)) :
    (registry fun r => t.apply r role pfx).Keeps (transacting cfg role pfx base) Q (w, l) := by
  refine keeps_record t h.1 (fun r hs => h.same hs) fun entry edited ha hl hedit => ?_
  cases h.lookup.symm.trans hl
  have hself := w.registry.lookup_set_self ⟨role, pfx⟩ edited
  have h' := h.withRegistry (h.wellFormed.edited ha hl hedit)
    (fun k hk => MemorySelectedRegistry.lookup_set_of_ne _ edited hk)
    fun row hrow => ⟨edited, hself, hkeep edited hedit row hrow (h.names hrow)⟩
  exact ⟨h', hQ edited _ hedit ⟨h', h.dir, hself⟩⟩

theorem ledger_reserve {a : Reservation} (hdir : cfg.stateDir role = true)
    (h : LedgeredAt cfg role pfx base w l) (hkey : a.key = ⟨role, pfx⟩)
    (hkeep : ∀ e, w.registry.lookup ⟨role, pfx⟩ = some e → e.TargetUnproven → a.desired = e.desired)
    (hsame : ∀ e, Holding cfg role pfx base e w l → a.matches e = true → Q () (w, l))
    (hQ : let next := a.next (w.registry.lookup ⟨role, pfx⟩)
      let w' := w.withRegistry (w.registry.set ⟨role, pfx⟩ next)
      Holding cfg role pfx base next w' l → Q () (w', l)) :
    (registry (·.reserve a)).Keeps (transacting cfg role pfx base) Q (w, l) := by
  refine keeps_reserve h (fun e hl => hsame e ⟨h, hdir, hkey ▸ hl⟩) fun hv => ?_
  rw [hkey]
  have hself := w.registry.lookup_set_self ⟨role, pfx⟩ (a.next (w.registry.lookup ⟨role, pfx⟩))
  have hw := h.wellFormed.reserved hv
  rw [hkey] at hw
  have h' := h.withRegistry hw (fun k hk => MemorySelectedRegistry.lookup_set_of_ne _ _ hk)
    fun row hrow => by
      refine ⟨_, hself, ?_⟩
      obtain ⟨e, hl, hn⟩ := h.memory pfx row hrow
      rw [hl]
      cases row with
      | route i => exact Reservation.next_names (hkeep e hl) hn
      | park i | foreign text => exact hn
  exact ⟨h', hQ ⟨h', hdir, hself⟩⟩

theorem ledger_erase (h : LedgeredAt cfg role pfx base w l) (hnone : ∀ row, ¬ l.authorized pfx row)
    (hQ : ∀ w', LedgeredAt cfg role pfx base w' l → Q () (w', l)) :
    (registry fun r => (.ok (), r.remove role pfx)).Keeps (transacting cfg role pfx base) Q
      (w, l) := by
  have h' : LedgeredAt cfg role pfx base (w.withRegistry (w.registry.remove role pfx)) l :=
    h.withRegistry (wellFormed_apply h.wellFormed (.remove role pfx))
      (fun k hk => by rw [MemorySelectedRegistry.remove, MemorySelectedRegistry.lookup_erase,
        if_neg hk])
      fun row hrow => absurd hrow (hnone row)
  exact keeps_registry h h' fun _ => hQ _ h'

-- === Checkpoints ===

theorem Ledgered.written (h : Ledgered cfg role w l) (generation : UInt64) :
    let w' := w.written role (checkpointOf w.registry role cfg.platform generation)
    Ledgered cfg role w' ((ledgerOf role).wrote w' l) := by
  intro w'
  have hdisk : ∀ pfx, diskRecord w' role pfx = w.registry.lookup ⟨role, pfx⟩ :=
    diskRecord_checkpointOf (w.disk_written_self role _) h.wellFormed
  have hnames : ∀ pfx row, ((ledgerOf role).wrote w' l).authorized pfx row →
      ∃ e, w.registry.lookup ⟨role, pfx⟩ = some e ∧ e.NamesRow row := by
    rintro pfx row (hrow | ⟨e, he, ha⟩)
    · exact h.memory pfx row hrow
    · exact ⟨e, hdisk pfx ▸ he, ha.namesRow⟩
  refine ⟨h.wellFormed, fun c hc => ?_, hnames, fun pfx row hrow => ?_, fun pfx row hrow =>
    .inl (h.created pfx row hrow)⟩
  · rw [World.disk_written_self] at hc
    cases hc
    exact ⟨_, _, rfl, h.wellFormed⟩
  · rw [hdisk]
    exact hnames pfx row hrow

/-- The checkpoint of a transaction; it may come after any write to the disk has
    failed, and then the last one still names every authorized row. -/
theorem ledger_writeCheckpoint (hdir : cfg.stateDir role = true)
    (h : LedgeredAt cfg role pfx base w l)
    (hQ : ∀ w' l', LedgeredAt cfg role pfx base w' l' → w'.registry = w.registry →
      diskRecord w' role pfx = w.registry.lookup ⟨role, pfx⟩ →
      (∀ row, l'.authorized pfx row → l.authorized pfx row ∨
        ∃ e, w.registry.lookup ⟨role, pfx⟩ = some e ∧ e.Authorizes row) → Q () (w', l')) :
    (writeCheckpoint cfg role generation).Keeps (transacting cfg role pfx base) Q (w, l) := by
  refine keeps_writeCheckpoint h (fun hd => by rw [hdir] at hd; cases hd) fun _ => ?_
  have hdisk := diskRecord_checkpointOf
    (w.disk_written_self role (checkpointOf w.registry role cfg.platform generation)) h.wellFormed
  have h' := (⟨h.toLedgered.written generation, h.platform, h.elsewhere, fun q hq => .inr ?_⟩ :
    LedgeredAt cfg role pfx base _ _)
  · refine ⟨h', hQ _ _ h' rfl (hdisk pfx) fun row hrow => hrow.imp_right ?_⟩
    rintro ⟨e, he, ha⟩
    exact ⟨e, hdisk pfx ▸ he, ha⟩
  · rw [hdisk]
    exact h.elsewhere _ fun hk => hq (congrArg SelectedRouteKey.pfx hk)

theorem ledger_checkpoint (h : Holding cfg role pfx base e w l)
    (hQ : ∀ w' l', Holding cfg role pfx base e w' l' → diskRecord w' role pfx = some e →
      (∀ row, l'.authorized pfx row → l.authorized pfx row ∨ e.Authorizes row) → Q () (w', l')) :
    (checkpoint cfg role).Keeps (transacting cfg role pfx base) Q (w, l) := by
  refine .step (keeps_memory h.1 (h.1.of_eq rfl rfl rfl) (ledger_writeCheckpoint h.dir
    (h.1.of_eq rfl rfl rfl) fun w' l' h' hr hd hnew => hQ w' l' ⟨h', h.dir, hr ▸ h.lookup⟩
      (hd.trans h.lookup) fun row hrow => (hnew row hrow).imp_right ?_))
  rintro ⟨e', hl', ha⟩
  cases h.lookup.symm.trans hl'
  exact ha

theorem writeCheckpoint_ledgered (h : Ledgered cfg role w l) :
    (writeCheckpoint cfg role generation).Keeps (ledgered role (Ledgered cfg role))
      (fun _ s => Ledgered cfg role s.1 s.2) (w, l) :=
  keeps_writeCheckpoint h (fun _ => h) fun _ => ⟨h.written _, h.written _⟩

-- === Platform calls ===

/-- The ledger across a call: what it may create is named, and what its answer
    settles is gone. -/
theorem Ledgered.called {b : Except String β} (h : Ledgered cfg role w l)
    (hmem : ∀ q row, issued c q row → ∃ e, w.registry.lookup ⟨role, q⟩ = some e ∧ e.NamesRow row)
    (hdisk : ∀ q row, issued c q row → ∃ e, diskRecord w role q = some e ∧ e.NamesRow row)
    (hadd : ∀ q row, row ∈ k q → row ∈ w.kernel q ∨ issued c q row)
    (hgone : ∀ q row, settled c b q row → row ∉ k q) :
    Ledgered cfg role (w.withKernel k) ((ledgerOf role).called c w b (w.withKernel k) l)  where
  wellFormed := h.wellFormed
  stored := h.stored
  memory q row hrow := hrow.1.elim (h.memory q row) (hmem q row)
  disk q row hrow := hrow.1.elim (h.disk q row) (hdisk q row)
  created q row hrow := by
    refine ⟨?_, fun hs => hgone q row hs hrow.1⟩
    rcases hrow.2 with hc | hnew
    · exact .inl (h.created q row hc)
    · exact .inr ((hadd q row hrow.1).resolve_left hnew)

/-- A platform call that is written ahead, for any condition that the ledger
    implies after a change of the kernel. -/
theorem keeps_calls {I : World → Ledger → Prop} {Q : β → World × Ledger → Prop}
    (h : Ledgered cfg role w l) (hI : I w l)
    (hat : ∀ k l', Ledgered cfg role (w.withKernel k) l' → I (w.withKernel k) l')
    (hmem : ∀ q row, issued c q row → ∃ e, w.registry.lookup ⟨role, q⟩ = some e ∧ e.NamesRow row)
    (hahead : WrittenAhead role c w l)
    (hQ : ∀ b k, (c.plan w.platform w.kernel).1 = .ok b →
      k = applyAll (c.plan w.platform w.kernel).2 w.kernel →
      let l' := (ledgerOf role).called c w (.ok b) (w.withKernel k) l
      I (w.withKernel k) l' → Q b (w.withKernel k, l')) :
    (routes c).Keeps (ledgered role I) Q (w, l) := by
  have hdisk : ∀ q row, issued c q row → ∃ e, diskRecord w role q = some e ∧ e.NamesRow row :=
    fun q row hi => (hahead q row hi).imp fun _ he => ⟨he.1, he.2.namesRow⟩
  refine keeps_routes hI hahead (fun b hb => ?_) fun n e => hat _ _ ?_
  · have h' := hat _ _ (h.called (b := .ok b) hmem hdisk
      (fun q row hrow => (mem_or_add_of_mem_applyAll hrow).imp_right issued_of_add)
      fun q row => not_mem_of_settled hb)
    exact ⟨h', hQ b _ hb rfl h'⟩
  · refine h.called hmem hdisk (fun q row hrow => ?_) fun q row hs => absurd hs not_settled_error
    exact (mem_or_add_of_mem_applyAll hrow).imp_right fun hadd =>
      issued_of_add (List.mem_of_mem_take hadd)

theorem ledger_routes {Q : β → World × Ledger → Prop} (h : LedgeredAt cfg role pfx base w l)
    (hmem : ∀ q row, issued c q row → ∃ e, w.registry.lookup ⟨role, q⟩ = some e ∧ e.NamesRow row)
    (hahead : WrittenAhead role c w l)
    (hQ : ∀ b k, (c.plan w.platform w.kernel).1 = .ok b →
      k = applyAll (c.plan w.platform w.kernel).2 w.kernel →
      let l' := (ledgerOf role).called c w (.ok b) (w.withKernel k) l
      LedgeredAt cfg role pfx base (w.withKernel k) l' → Q b (w.withKernel k, l')) :
    (routes c).Keeps (transacting cfg role pfx base) Q (w, l) :=
  keeps_calls h.toLedgered h (fun _ _ h' => ⟨h', h.platform, h.elsewhere, h.diskElsewhere⟩) hmem
    hahead hQ

theorem routes_ledgered (h : Ledgered cfg role w l) (hc : ∀ q row, ¬ issued c q row) :
    (routes c).Keeps (ledgered role (Ledgered cfg role)) (fun _ s => Ledgered cfg role s.1 s.2)
      (w, l) :=
  keeps_calls h h (fun _ _ h' => h') (fun q row hi => absurd hi (hc q row))
    (fun q row hi => absurd hi (hc q row)) fun _ _ _ _ h' => h'

theorem ledger_quiet {Q : β → World × Ledger → Prop} (h : LedgeredAt cfg role pfx base w l)
    (hc : ∀ q row, ¬ issued c q row)
    (hQ : ∀ b w' l', (c.plan w.platform w.kernel).1 = .ok b → LedgeredAt cfg role pfx base w' l' →
      w'.registry = w.registry → w'.disk = w.disk →
      w'.kernel = applyAll (c.plan w.platform w.kernel).2 w.kernel →
      (∀ row, l'.authorized pfx row → l.authorized pfx row ∧ ¬ settled c (.ok b) pfx row) →
      Q b (w', l')) : (routes c).Keeps (transacting cfg role pfx base) Q (w, l) :=
  ledger_routes h (fun q row hi => absurd hi (hc q row)) (fun q row hi => absurd hi (hc q row))
    fun b _ hb hk h' => hQ b _ _ hb h' rfl rfl hk fun row hrow =>
      ⟨hrow.1.resolve_right (hc pfx row), hrow.2⟩

variable (h : Holding cfg role pfx base e w l)

include h

theorem ledger_reads {Q : β → World × Ledger → Prop} (hc : ∀ q row, ¬ issued c q row)
    (hQ : ∀ b w' l', Holding cfg role pfx base e w' l' →
      (∀ row, l'.authorized pfx row → l.authorized pfx row ∧ ¬ settled c (.ok b) pfx row) →
      Q b (w', l')) : (routes c).Keeps (transacting cfg role pfx base) Q (w, l) :=
  ledger_quiet h.1 hc fun b w' l' _ h' hr _ _ hkept => hQ b w' l' ⟨h', h.dir, hr ▸ h.lookup⟩ hkept

theorem ledger_reconcileSelectedRoute {d : SelectedRoute} {desired : SelectedRouteDesired}
    {Q : SelectedReconcileResult → World × Ledger → Prop}
    (hs : e.state = .applying) (hpfx : desired.pfx = pfx) (hd : diskRecord w role pfx = some d)
    (ha : d.Authorizes (.route e.desired))
    (hQ : ∀ result w' l', Holding cfg role pfx base e w' l' →
      (∀ i, l'.authorized pfx (.route i) → i = result.verified) → Q result (w', l')) :
    (routes (.reconcileSelectedRoute desired e)).Keeps (transacting cfg role pfx base) Q
      (w, l) := by
  refine ledger_routes h.1 ?_ ?_ fun result k _ _ h' => hQ result _ _ ⟨h', h.dir, h.lookup⟩
    fun i hi => ?_
  · rintro q row ⟨rfl, rfl⟩
    exact ⟨e, hpfx ▸ h.lookup, .inr (.inl ⟨rfl, hs⟩)⟩
  · rintro q row ⟨rfl, rfl⟩
    exact ⟨d, hpfx ▸ hd, ha⟩
  · by_contra hne
    exact hi.2 ⟨hpfx.symm, i, rfl, hne⟩

theorem ledger_reconcileManagedPark {p : SelectedPark} {d : SelectedRoute}
    {Q : SelectedParkReconcileResult → World × Ledger → Prop}
    (hp : e.park = some p) (hs : p.state = .applying) (hd : diskRecord w role pfx = some d)
    (ha : d.Authorizes (.park p.desired))
    (hQ : ∀ result w' l', Holding cfg role pfx base e w' l' →
      (∀ i, l'.authorized pfx (.park i) → i = result.verified) → Q result (w', l')) :
    (routes (.reconcileManagedPark role pfx e)).Keeps (transacting cfg role pfx base) Q (w, l) := by
  refine ledger_routes h.1 ?_ ?_ fun result k _ _ h' => hQ result _ _ ⟨h', h.dir, h.lookup⟩
    fun i hi => ?_
  · rintro q row ⟨rfl, p', hp', rfl⟩
    cases hp.symm.trans hp'
    exact ⟨e, h.lookup, p, hp, .inr (.inl ⟨rfl, hs⟩)⟩
  · rintro q row ⟨rfl, p', hp', rfl⟩
    cases hp.symm.trans hp'
    exact ⟨d, hd, ha⟩
  · by_contra hne
    exact hi.2 ⟨rfl, i, rfl, hne⟩

end Rules

end Kikimora.Control

import Kikimora.Routing.Checkpoint

/-!
# The registry invariant

Registry operations as data, the invariant that every run of them keeps, and
the round trip of a role's records through a checkpoint.
-/

namespace Kikimora.Routing

open Net
open SelectedRoute

def RecordTransition.apply (t : RecordTransition) (r : MemorySelectedRegistry) (role : String)
    (pfx : Prefix) : RegistryResult :=
  match t with
  | .markApplying => r.markApplying role pfx
  | .markActive observed => r.markActive role pfx observed
  | .markRetiring => r.markRetiring role pfx
  | .beginRepair => r.beginRepair role pfx
  | .reservePark desired forcePending => r.reservePark role pfx desired forcePending
  | .markParkApplying => r.markParkApplying role pfx
  | .markParkActive observed => r.markParkActive role pfx observed
  | .markParkRetiring => r.markParkRetiring role pfx
  | .clearPark => r.clearPark role pfx

/-- The mutating operations of the registry. -/
inductive RegistryOp
  | reserve (a : Reservation)
  | record (role : String) (pfx : Prefix) (t : RecordTransition)
  | restoreRole (checkpoint : SelectedRoutesCheckpoint)
  | remove (role : String) (pfx : Prefix)
  | removeRole (role : String)

def RegistryOp.apply : RegistryOp → MemorySelectedRegistry → RegistryResult
  | .reserve a, r => r.reserve a
  | .record role pfx t, r => t.apply r role pfx
  | .restoreRole checkpoint, r => r.restoreRole checkpoint
  | .remove role pfx, r => (.ok (), r.remove role pfx)
  | .removeRole role, r => (.ok (), r.removeRole role)

def runOps (ops : List RegistryOp) (r : MemorySelectedRegistry) : MemorySelectedRegistry :=
  ops.foldl (fun r op => (op.apply r).2) r

def RecordTransition.Admissible (pfx : Prefix) : RecordTransition → Prop
  | .reservePark desired _ => desired.validate pfx = .ok ()
  | _ => True

namespace MemorySelectedRegistry

def WellFormed (r : MemorySelectedRegistry) : Prop :=
  ∀ k e, r.lookup k = some e → e.key = k ∧ e.WellFormed

theorem WellFormed.pfx_eq {r : MemorySelectedRegistry} {role : String} {pfx : Prefix}
    {e : SelectedRoute} (h : r.WellFormed) (hl : r.lookup ⟨role, pfx⟩ = some e) : e.pfx = pfx :=
  congrArg SelectedRouteKey.pfx (h _ _ hl).1

theorem wellFormed_empty : empty.WellFormed := by
  intro k e h
  simp at h

theorem WellFormed.congr {r r' : MemorySelectedRegistry} (h : r.WellFormed)
    (hs : SameContent r' r) : r'.WellFormed :=
  fun k e he => h k e (hs k ▸ he)

theorem WellFormed.set {r : MemorySelectedRegistry} (h : r.WellFormed) {k : SelectedRouteKey}
    {e : SelectedRoute} (hk : e.key = k) (he : e.WellFormed) : (r.set k e).WellFormed := by
  intro k' e' h'
  rw [lookup_set] at h'
  split at h'
  · next hkk =>
    cases h'
    exact ⟨hkk ▸ hk, he⟩
  · exact h k' e' h'

end MemorySelectedRegistry

open MemorySelectedRegistry

-- === What each operation does ===

variable {t : RecordTransition} {r : MemorySelectedRegistry} {role zone : String}
  {e e' : SelectedRoute} {a : Reservation}

/-- The outcomes of a record operation: it fails and the content is as before,
    or it edits one registered record. -/
theorem RecordTransition.apply_spec (t : RecordTransition) (r : MemorySelectedRegistry)
    (role : String) (pfx : Prefix) :
    (∃ e, (t.apply r role pfx).1 = .error e ∧ SameContent (t.apply r role pfx).2 r) ∨
    (∃ entry edited, isCanonicalPrefix pfx = true ∧ t.Admissible pfx ∧
      r.lookup ⟨role, pfx⟩ = some entry ∧ t.Edits entry edited ∧
      t.apply r role pfx = (.ok (), r.set ⟨role, pfx⟩ edited)) := by
  -- only `ReservePark` looks at its argument before it goes to `transition`
  have direct : (∃ e, t.apply r role pfx = (.error e, r)) ∨
      t.Admissible pfx ∧ t.apply r role pfx = r.transition role pfx t.mutate := by
    cases t with
    | reservePark desired forcePending =>
      cases hv : desired.validate pfx with
      | error e =>
        exact .inl ⟨"reserve park: " ++ e, by simp [apply, MemorySelectedRegistry.reservePark, hv]⟩
      | ok u => exact .inr ⟨hv, by simp [apply, MemorySelectedRegistry.reservePark, hv]⟩
    | markApplying | markActive | markRetiring | beginRepair | markParkApplying | markParkActive
    | markParkRetiring | clearPark => exact .inr ⟨trivial, rfl⟩
  rcases direct with ⟨e, he⟩ | ⟨ha, heq⟩
  · rw [he]
    exact .inl ⟨e, rfl, .refl r⟩
  rw [heq]
  rcases r.transition_spec role pfx t.atomic with he | ⟨entry, edited, hc, hl, hm, hr⟩
  · exact .inl he
  · exact .inr ⟨entry, edited, hc, ha, hl, edits_of_mutate hm, hr⟩

theorem RecordTransition.apply_of_mutate {pfx : Prefix} (hc : isCanonicalPrefix pfx = true)
    (ha : t.Admissible pfx) (hl : r.lookup ⟨role, pfx⟩ = some e) (hm : t.mutate e = (.ok (), e')) :
    t.apply r role pfx = (.ok (), r.set ⟨role, pfx⟩ e') := by
  cases t with
  | reservePark desired forcePending =>
    have hv : desired.validate pfx = .ok () := ha
    simp only [apply, MemorySelectedRegistry.reservePark, hv]
    exact transition_ok hc hl hm
  | _ => exact transition_ok hc hl hm

/-- The outcomes of `Reserve`: rejected, an identical re-reserve, or a write of
    the requested record. -/
theorem reserve_spec (r : MemorySelectedRegistry) (a : Reservation) :
    (∃ e, r.reserve a = (.error e, r)) ∨
    (a.role ≠ "" ∧ a.desired.validate a.pfx = .ok () ∧
      ((∃ e, r.lookup a.key = some e ∧ a.matches e = true ∧ r.reserve a = (.ok (), r)) ∨
        r.reserve a = (.ok (), r.set a.key (a.next (r.lookup a.key))))) := by
  unfold reserve
  split_ifs with hrole
  · exact .inl ⟨_, rfl⟩
  cases hv : a.desired.validate a.pfx with
  | error e => exact .inl ⟨_, rfl⟩
  | ok u =>
    refine .inr ⟨hrole, rfl, ?_⟩
    cases hl : r.lookup a.key with
    | none => exact .inr (by simp)
    | some e =>
      by_cases hm : a.matches e = true
      · exact .inl ⟨e, rfl, hm, by simp [hm]⟩
      · exact .inr (by simp [hm])

theorem RegistryOp.apply_of_error {op : RegistryOp} {e : String} (h : (op.apply r).1 = .error e) :
    SameContent (op.apply r).2 r := by
  cases op with
  | reserve a =>
    rcases reserve_spec r a with ⟨e', he⟩ | ⟨_, _, ⟨_, _, _, he⟩ | he⟩
    · simp only [apply, he]
      exact SameContent.refl r
    all_goals
      simp only [apply, he] at h
      cases h
  | record role pfx t =>
    rcases t.apply_spec r role pfx with ⟨_, _, hs⟩ | ⟨_, _, _, _, _, _, he⟩
    · exact hs
    · simp only [apply, he] at h
      cases h
  | restoreRole c =>
    rcases r.restoreRole_spec c with ⟨e', he⟩ | ⟨_, _, he⟩
    · simp only [apply, he]
      exact SameContent.refl r
    · simp only [apply, he] at h
      cases h
  | remove role pfx | removeRole role => cases h

-- === The record invariant ===

theorem reservedPark_wellFormed {pfx : Prefix} {park : Option SelectedPark}
    {desired : SelectedParkIdentity} {forcePending : Bool}
    (hd : desired.validate pfx = .ok ()) (hp : ∀ p, park = some p → p.WellFormed pfx) :
    (reservedPark park desired forcePending).WellFormed pfx := by
  cases park with
  | none => exact ⟨by simp [reservedPark], hd, by simp [reservedPark], by simp [reservedPark]⟩
  | some p =>
    simp only [reservedPark]
    split_ifs
    · exact hp p rfl
    · exact ⟨by simp, hd, by simp, by simp⟩
    · exact hp p rfl

theorem RecordTransition.Edits.frame (h : t.Edits e e') :
    e'.role = e.role ∧ e'.zone = e.zone ∧ e'.pfx = e.pfx ∧ e'.source = e.source ∧
      e'.toadGeneration = e.toadGeneration ∧ e'.routeGeneration = e.routeGeneration ∧
      e'.iface = e.iface ∧ e'.desired = e.desired := by
  cases h <;> simp

theorem RecordTransition.Edits.wellFormed (h : t.Edits e e') (ha : t.Admissible e.pfx)
    (he : e.WellFormed) : e'.WellFormed := by
  obtain ⟨hk, hd, ho, hr, hp⟩ := he
  cases h with
  | markApplyingAgain h | clearNoPark h => exact ⟨hk, hd, ho, hr, hp⟩
  | markApplying h => exact ⟨by simp, hd, by simp, fun h' => by simp [h] at hr; simp_all, hp⟩
  | markActive h =>
    refine ⟨by simp, hd, fun _ => rfl, fun h' => ?_, hp⟩
    have := hr h'
    rcases h with h | h <;> simp [h] at this
  | markRetiring h | beginRepair h => exact ⟨by simp, hd, by simp, by simp, hp⟩
  | reservePark desired forcePending =>
    refine ⟨hk, hd, ho, hr, fun p h => ?_⟩
    cases h
    exact reservedPark_wellFormed ha hp
  | markParkApplying hpark h =>
    refine ⟨hk, hd, ho, hr, fun p h' => ?_⟩
    cases h'
    obtain ⟨_, hpd, _, hpr⟩ := hp _ hpark
    exact ⟨by simp, hpd, by simp, fun h' => by have := hpr h'; simp [h] at this⟩
  | markParkActive hpark h =>
    refine ⟨hk, hd, ho, hr, fun p h' => ?_⟩
    cases h'
    obtain ⟨_, hpd, _, hpr⟩ := hp _ hpark
    refine ⟨by simp, hpd, fun _ => rfl, fun h' => ?_⟩
    have := hpr h'
    rcases h with h | h <;> simp [h] at this
  | markParkRetiring hpark h =>
    refine ⟨hk, hd, ho, hr, fun p h' => ?_⟩
    cases h'
    obtain ⟨_, hpd, _, _⟩ := hp _ hpark
    exact ⟨by simp, hpd, by simp, by simp⟩
  | clearPark hpark h => exact ⟨hk, hd, ho, hr, by simp⟩

theorem Reservation.key_next (a : Reservation) (existing : Option SelectedRoute) :
    (a.next existing).key = a.key := by
  cases existing <;> rfl

theorem Reservation.next_wellFormed {existing : Option SelectedRoute}
    (hd : a.desired.validate a.pfx = .ok ())
    (he : ∀ e, existing = some e → e.key = a.key ∧ e.WellFormed) :
    (a.next existing).WellFormed := by
  cases existing with
  | none => exact ⟨by simp [next], hd, by simp [next], by simp [next], by simp [next]⟩
  | some e =>
    obtain ⟨hkey, hk, _, ho, hr, hp⟩ := he e rfl
    have hpfx : e.pfx = a.pfx := congrArg SelectedRouteKey.pfx hkey
    refine ⟨?_, hd, ?_, ?_, fun p h => ?_⟩
    · intro text
      simp only [next]
      split_ifs
      · simp
      · exact hk text
    · simp only [next]
      intro h
      split_ifs at h with hc
      · -- still active, so the target did not change
        rw [ho h]
        simpa [h] using hc
    · simp only [next]
      intro h
      have := hr h
      simp [this]
    · have : (a.next (some e)).pfx = e.pfx := hpfx.symm
      rw [this]
      exact hp p h

theorem MemorySelectedRegistry.WellFormed.edited (h : r.WellFormed) {pfx : Prefix}
    {entry edited : SelectedRoute} (ha : t.Admissible pfx) (hl : r.lookup ⟨role, pfx⟩ = some entry)
    (he : t.Edits entry edited) : (r.set ⟨role, pfx⟩ edited).WellFormed := by
  obtain ⟨hkey, hw⟩ := h _ _ hl
  have hpfx : entry.pfx = pfx := congrArg SelectedRouteKey.pfx hkey
  refine h.set ?_ (he.wellFormed (hpfx ▸ ha) hw)
  rw [← hkey, key, key, he.frame.1, he.frame.2.2.1]

theorem MemorySelectedRegistry.WellFormed.reserved (h : r.WellFormed)
    (hv : a.desired.validate a.pfx = .ok ()) : (r.set a.key (a.next (r.lookup a.key))).WellFormed :=
  h.set (a.key_next _) (a.next_wellFormed hv fun e hl => h a.key e hl)

theorem wellFormed_apply (h : r.WellFormed) (op : RegistryOp) : (op.apply r).2.WellFormed := by
  cases op with
  | reserve a =>
    rcases reserve_spec r a with ⟨e, he⟩ | ⟨_, hv, ⟨_, _, _, he⟩ | he⟩
    · simpa only [RegistryOp.apply, he] using h
    · simpa only [RegistryOp.apply, he] using h
    · simp only [RegistryOp.apply, he]
      exact h.reserved hv
  | record role pfx t =>
    rcases t.apply_spec r role pfx with ⟨_, _, hs⟩ | ⟨entry, edited, _, ha, hl, hedit, he⟩
    · exact h.congr hs
    · simp only [RegistryOp.apply, he]
      exact h.edited ha hl hedit
  | restoreRole c =>
    rcases r.restoreRole_spec c with ⟨e, he⟩ | ⟨hw, _, he⟩
    · simpa only [RegistryOp.apply, he] using h
    simp only [RegistryOp.apply, he]
    intro k e hl
    rcases lookup_setAll_cases hl with ⟨hm, hk⟩ | hr
    · exact ⟨hk, hw e hm⟩
    · exact h k e hr
  | remove role pfx =>
    intro k e hl
    simp only [RegistryOp.apply, remove, lookup_erase] at hl
    split at hl
    · cases hl
    · exact h k e hl
  | removeRole role =>
    intro k e hl
    simp only [RegistryOp.apply, lookup_removeRole] at hl
    split at hl
    · cases hl
    · exact h k e hl

theorem wellFormed_run (ops : List RegistryOp) (h : r.WellFormed) : (runOps ops r).WellFormed := by
  induction ops generalizing r with
  | nil => exact h
  | cons op ops ih => exact ih (wellFormed_apply h op)

-- === The checkpoint round trip ===

def MemorySelectedRegistry.Persistable (role zone : String) (r : MemorySelectedRegistry) : Prop :=
  ∀ k e, r.lookup k = some e → e.role = role → e.Persistable role zone

/-- A `Reserve` as admission makes it: one role and zone, real generations, a
    known source, and a host prefix for a DNS intent. -/
structure Reservation.Admitted (role zone : String) (a : Reservation) : Prop where
  role_eq : a.role = role
  zone_eq : zone = "" ∨ a.zone = zone
  dns_host : a.source = .dns → isHostPrefix a.pfx = true
  source_known : ∀ text, a.source ≠ .other text
  toadGeneration_ne : a.toadGeneration ≠ 0
  routeGeneration_ne : a.routeGeneration ≠ 0

def RegistryOp.Admitted (role zone : String) : RegistryOp → Prop
  | .reserve a => a.Admitted role zone
  | .restoreRole c => ∃ role', validateSelectedRoutesCheckpoint c role' zone = .ok ()
  | _ => True

theorem Reservation.persistable_next (h : a.Admitted role zone) (existing : Option SelectedRoute) :
    (a.next existing).Persistable role zone := by
  obtain ⟨h1, h2, h3, h4, h5, h6⟩ := h
  cases existing <;> exact ⟨h1, h2, h3, h4, h5, h6⟩

theorem SelectedRoute.Persistable.of_edits (h : e.Persistable role zone) (hedit : t.Edits e e') :
    e'.Persistable role zone := by
  obtain ⟨hrole, hzone, hpfx, hsource, htg, hrg, _, _⟩ := hedit.frame
  obtain ⟨h1, h2, h3, h4, h5, h6⟩ := h
  exact ⟨hrole ▸ h1, hzone ▸ h2, by rw [hsource, hpfx]; exact h3, hsource ▸ h4, htg ▸ h5,
    hrg ▸ h6⟩

theorem persistable_set (h : r.Persistable role zone) {k : SelectedRouteKey}
    (he : e.role = role → e.Persistable role zone) : (r.set k e).Persistable role zone := by
  intro k' e' hl hrole
  rw [lookup_set] at hl
  split at hl
  · cases hl
    exact he hrole
  · exact h k' e' hl hrole

theorem persistable_apply (h : r.Persistable role zone) {op : RegistryOp}
    (hop : op.Admitted role zone) : (op.apply r).2.Persistable role zone := by
  cases op with
  | reserve a =>
    rcases reserve_spec r a with ⟨e, he⟩ | ⟨_, _, ⟨_, _, _, he⟩ | he⟩
    · simpa only [RegistryOp.apply, he] using h
    · simpa only [RegistryOp.apply, he] using h
    · simp only [RegistryOp.apply, he]
      exact persistable_set h fun _ => a.persistable_next hop _
  | record role' pfx t =>
    rcases t.apply_spec r role' pfx with ⟨_, _, hs⟩ | ⟨entry, edited, _, _, hl, hedit, he⟩
    · exact fun k e hl => h k e (hs k ▸ hl)
    · simp only [RegistryOp.apply, he]
      exact persistable_set h fun hrole =>
        (h _ _ hl (hedit.frame.1 ▸ hrole)).of_edits hedit
  | restoreRole c =>
    obtain ⟨role', hv⟩ := hop
    obtain ⟨_, _, _, entries, hentries, hall, _⟩ :=
      validateSelectedRoutesCheckpoint_eq_ok_iff.mp hv
    rcases r.restoreRole_spec c with ⟨e, he⟩ | ⟨_, _, he⟩
    · simpa only [RegistryOp.apply, he] using h
    simp only [RegistryOp.apply, he, hentries, Option.getD_some]
    intro k e hl hrole
    rcases lookup_setAll_cases hl with ⟨hm, _⟩ | hr
    · have hp := (hall e hm).2
      have : role' = role := hp.role_eq.symm.trans hrole
      exact this ▸ hp
    · exact h k e hr hrole
  | remove role' pfx =>
    intro k e hl
    simp only [RegistryOp.apply, remove, lookup_erase] at hl
    split at hl
    · cases hl
    · exact h k e hl
  | removeRole role' =>
    intro k e hl
    simp only [RegistryOp.apply, lookup_removeRole] at hl
    split at hl
    · cases hl
    · exact h k e hl

theorem persistable_run (ops : List RegistryOp) (hops : ∀ op ∈ ops, op.Admitted role zone)
    (h : r.Persistable role zone) : (runOps ops r).Persistable role zone := by
  induction ops generalizing r with
  | nil => exact h
  | cons op ops ih =>
    rw [List.forall_mem_cons] at hops
    exact ih hops.2 (persistable_apply h hops.1)

namespace MemorySelectedRegistry

variable {r : MemorySelectedRegistry}

theorem WellFormed.mem_snapshot_iff (h : r.WellFormed) :
    e ∈ r.snapshot role ↔ r.lookup ⟨role, e.pfx⟩ = some e := by
  rw [mem_snapshot]
  constructor
  · rintro ⟨⟨k, hk⟩, hrole⟩
    have := (h k e hk).1
    rwa [← this, key, hrole] at hk
  · intro hl
    exact ⟨⟨_, hl⟩, congrArg SelectedRouteKey.role (h _ _ hl).1⟩

theorem WellFormed.nodup_keys_snapshot (h : r.WellFormed) (role : String) :
    ((r.snapshot role).map key).Nodup := by
  have hvalues : ((r.entries.entries.map Sigma.snd).map key) = r.entries.keys := by
    rw [List.map_map, AList.keys, List.keys]
    refine List.map_congr_left fun s hs => ?_
    exact (h s.1 s.2 (AList.mem_lookup_iff.mpr hs)).1
  have hall : ((r.entries.entries.map Sigma.snd).map key).Nodup :=
    hvalues ▸ r.entries.keys_nodup
  rw [snapshot, snapshotLocked, ((List.perm_insertionSort _ _).map _).nodup_iff]
  exact hall.sublist (List.filter_sublist.map _)

theorem WellFormed.nodup_pfx_snapshot (h : r.WellFormed) (role : String) :
    ((r.snapshot role).map pfx).Nodup := by
  refine List.Nodup.map_on (fun x hx y hy hxy => ?_) (h.nodup_keys_snapshot role).of_map
  have hx := h.mem_snapshot_iff.mp hx
  have hy := h.mem_snapshot_iff.mp hy
  rw [hxy, hy] at hx
  exact (Option.some.inj hx).symm

theorem entries_setAll_empty {entries : List SelectedRoute}
    (hn : (entries.map key).Nodup) :
    (empty.setAll entries).entries.entries = entries.map fun e => ⟨e.key, e⟩ := by
  induction entries with
  | nil => rfl
  | cons x entries ih =>
    rw [List.map_cons, List.nodup_cons] at hn
    have hfresh : x.key ∉ (empty.setAll entries).entries := by
      rw [← AList.lookup_eq_none]
      exact lookup_setAll_of_notMem empty hn.1
    rw [List.map_cons, ← ih hn.2]
    exact AList.entries_insert_of_notMem hfresh

/-- Copying a snapshot into the empty map and taking the snapshot again gives
    the same list, in the same order. -/
theorem WellFormed.snapshot_setAll (h : r.WellFormed) (role : String) :
    (empty.setAll (r.snapshot role)).snapshot role = r.snapshot role := by
  have hmap : (List.map (fun e : SelectedRoute => (⟨e.key, e⟩ : Sigma fun _ => SelectedRoute))
      (r.snapshot role)).map Sigma.snd = r.snapshot role := by
    rw [List.map_map]
    exact List.map_id _
  have hkeep : (r.snapshot role).filter (fun e => decide (e.role = role)) = r.snapshot role := by
    refine List.filter_eq_self.mpr fun e he => ?_
    simpa using ((mem_snapshot r role e).mp he).2
  rw [snapshot, snapshotLocked, entries_setAll_empty (h.nodup_keys_snapshot role), hmap, hkeep]
  exact (r.pairwise_snapshotLocked _).insertionSort_eq

end MemorySelectedRegistry

def checkpointOf (r : MemorySelectedRegistry) (role platform : String)
    (routeGeneration : UInt64) : SelectedRoutesCheckpoint :=
  { schema := selectedRoutesCheckpointSchema, role := role, routeGeneration := routeGeneration,
    entries := some (r.snapshot role), platform := platform }

theorem validate_checkpointOf {platform : String} (h : r.WellFormed) (hp : r.Persistable role zone)
    (hplat : platform = checkpointPlatformLinux ∨ platform = checkpointPlatformWindows)
    (routeGeneration : UInt64) :
    validateSelectedRoutesCheckpoint (checkpointOf r role platform routeGeneration) role zone =
      .ok () := by
  refine validateSelectedRoutesCheckpoint_eq_ok_iff.mpr
    ⟨rfl, rfl, hplat, _, rfl, fun e he => ?_, h.nodup_pfx_snapshot role⟩
  have hl := h.mem_snapshot_iff.mp he
  exact ⟨(h _ _ hl).2, hp _ _ hl (congrArg SelectedRouteKey.role (h _ _ hl).1)⟩

/-- Restoring a role's snapshot gives back exactly the records of the role. -/
theorem lookup_setAll_snapshot (h : r.WellFormed) (role : String) (k : SelectedRouteKey) :
    (empty.setAll (r.snapshot role)).lookup k = if k.role = role then r.lookup k else none := by
  by_cases hm : k ∈ (r.snapshot role).map key
  · obtain ⟨e, he, rfl⟩ := List.mem_map.mp hm
    have hl := h.mem_snapshot_iff.mp he
    have hkey := (h _ _ hl).1
    have hrole : e.key.role = role := congrArg SelectedRouteKey.role hkey
    rw [lookup_setAll_of_mem empty (h.nodup_keys_snapshot role) he, if_pos hrole, hkey, hl]
  · rw [lookup_setAll_of_notMem empty hm, lookup_empty]
    split
    · next hrole =>
      cases hl : r.lookup k with
      | none => rfl
      | some e =>
        have hkey := (h _ _ hl).1
        refine absurd (List.mem_map.mpr ⟨e, ?_, hkey⟩) hm
        rw [mem_snapshot]
        exact ⟨⟨k, hl⟩, hrole ▸ congrArg SelectedRouteKey.role hkey⟩
    · rfl

/-- A checkpoint accepted for some zone is accepted without a zone to match, as
    a reader that does not know the zone checks it. -/
theorem validate_without_zone {c : SelectedRoutesCheckpoint}
    (h : validateSelectedRoutesCheckpoint c role zone = .ok ()) :
    validateSelectedRoutesCheckpoint c role "" = .ok () := by
  obtain ⟨hs, hr, hp, entries, he, hall, hn⟩ := validateSelectedRoutesCheckpoint_eq_ok_iff.mp h
  refine validateSelectedRoutesCheckpoint_eq_ok_iff.mpr
    ⟨hs, hr, hp, entries, he, fun e hm => ⟨(hall e hm).1, ?_⟩, hn⟩
  obtain ⟨h1, _, h3, h4, h5, h6⟩ := (hall e hm).2
  exact ⟨h1, .inl rfl, h3, h4, h5, h6⟩

/-- The representation invariant of the registry, the atomicity of its
    operations and the checkpoint round trip, after every sequence of operations
    from the empty registry. -/
theorem registry_invariant_and_round_trip (ops : List RegistryOp)
    (hrestore : ∀ c, RegistryOp.restoreRole c ∈ ops →
      ∃ role zone, validateSelectedRoutesCheckpoint c role zone = .ok ()) :
    (∀ k e, (runOps ops empty).lookup k = some e →
      isCanonicalPrefix e.pfx = true ∧ e.key = k ∧ e.desired.validate e.pfx = .ok () ∧
      (e.state = .active → e.owned = some e.desired) ∧
      (e.retireDesired = true → e.state = .retiring) ∧
      ∀ p, e.park = some p →
        (p.state = .active → p.owned = some p.desired) ∧
        (p.retireDesired = true → p.state = .retiring)) ∧
    (∀ (op : RegistryOp) (message : String),
      (op.apply (runOps ops empty)).1 = .error message →
      SameContent (op.apply (runOps ops empty)).2 (runOps ops empty)) ∧
    (∀ (role zone platform : String) (routeGeneration : UInt64), role ≠ "" →
      platform = checkpointPlatformLinux ∨ platform = checkpointPlatformWindows →
      (∀ a, RegistryOp.reserve a ∈ ops → a.role = role ∧ a.zone = zone ∧
        a.toadGeneration ≠ 0 ∧ a.routeGeneration ≠ 0 ∧
        (a.source = .static ∨ a.source = .dns ∧ isHostPrefix a.pfx = true)) →
      let checkpoint := checkpointOf (runOps ops empty) role platform routeGeneration
      let restored := empty.restoreRole checkpoint
      validateSelectedRoutesCheckpoint checkpoint role "" = .ok () ∧
      ((∀ c, RegistryOp.restoreRole c ∈ ops →
          ∃ role', validateSelectedRoutesCheckpoint c role' zone = .ok ()) →
        validateSelectedRoutesCheckpoint checkpoint role zone = .ok ()) ∧
      restored.1 = .ok () ∧
      (∀ k, restored.2.lookup k = if k.role = role then (runOps ops empty).lookup k else none) ∧
      restored.2.snapshot role = (runOps ops empty).snapshot role) := by
  have hw : (runOps ops empty).WellFormed := wellFormed_run ops wellFormed_empty
  refine ⟨fun k e hl => ?_, fun op message h => RegistryOp.apply_of_error h, ?_⟩
  · obtain ⟨hkey, he⟩ := hw k e hl
    exact ⟨he.canonical, hkey, he.desired_valid, he.owned_of_active,
      he.retiring_of_retireDesired, fun p hp =>
        ⟨(he.park p hp).owned_of_active, (he.park p hp).retiring_of_retireDesired⟩⟩
  intro role zone platform routeGeneration hrole hplat hreserve checkpoint restored
  -- the same induction serves a reader that knows the zone and one that does not
  have hpersist : ∀ zone', (zone' = "" ∨ zone' = zone) →
      (∀ c, RegistryOp.restoreRole c ∈ ops →
        ∃ role', validateSelectedRoutesCheckpoint c role' zone' = .ok ()) →
      validateSelectedRoutesCheckpoint checkpoint role zone' = .ok () := by
    intro zone' hzone' hres
    refine validate_checkpointOf hw (persistable_run ops ?_ ?_) hplat routeGeneration
    · intro op hop
      cases op with
      | reserve a =>
        obtain ⟨hr, hz, htg, hrg, hsource⟩ := hreserve a hop
        refine ⟨hr, hzone'.imp_right fun h => hz.trans h.symm, fun hdns => ?_, fun text => ?_,
          htg, hrg⟩
        · rcases hsource with h | ⟨_, h⟩
          · rw [h] at hdns
            cases hdns
          · exact h
        · rcases hsource with h | ⟨h, _⟩ <;> simp [h]
      | restoreRole c => exact hres c hop
      | record _ _ _ | remove _ _ | removeRole _ => trivial
    · intro k e hl
      simp at hl
  have hvalid : validateSelectedRoutesCheckpoint checkpoint role "" = .ok () :=
    hpersist "" (.inl rfl) fun c hc =>
      let ⟨role', _, h⟩ := hrestore c hc
      ⟨role', validate_without_zone h⟩
  have hres : restored = (.ok (), empty.setAll ((runOps ops empty).snapshot role)) :=
    empty.restoreRole_of_validate hrole hvalid
  rw [hres]
  exact ⟨hvalid, hpersist zone (.inr rfl), rfl, lookup_setAll_snapshot hw role,
    hw.snapshot_setAll role⟩

def sampleIdentity (ifIndex : Int) : SelectedRouteIdentity :=
  { table := 254, ifIndex := ifIndex, nextHop := "", protocol := 4, metric := 0, scope := 253,
    interfaceLuid := 0 }

def samplePark : SelectedParkIdentity :=
  { kind := .unreachable, table := 254, ifIndex := 0, nextHop := "", protocol := 4,
    metric := managedParkMetric, scope := 0, interfaceLuid := 0 }

def samplePrefix : Prefix := ⟨.v4 0x0a000001#32, 32⟩

def sampleReservation (ifIndex : Int) : Reservation :=
  { role := "work", zone := "corp", pfx := samplePrefix, source := .dns, toadGeneration := 1,
    routeGeneration := 1, iface := "tun0", desired := sampleIdentity ifIndex }

theorem registry_invariant_and_round_trip_parked :
    let ops : List RegistryOp :=
      [.restoreRole (checkpointOf empty "work" "linux" 1),
        .reserve (sampleReservation 7), .record "work" samplePrefix .markApplying,
        .record "work" samplePrefix (.markActive (sampleIdentity 7)),
        .record "work" samplePrefix (.reservePark samplePark false)]
    (runOps ops empty).lookup ⟨"work", samplePrefix⟩ ≠ none ∧
    validateSelectedRoutesCheckpoint (checkpointOf (runOps ops empty) "work" "linux" 1) "work"
      "corp" = .ok () := by
  intro ops
  refine ⟨by decide, ?_⟩
  have hrestore : ∀ c, RegistryOp.restoreRole c ∈ ops →
      ∃ role, validateSelectedRoutesCheckpoint c role "corp" = .ok () := by
    intro c hc
    simp only [ops, List.mem_cons, RegistryOp.restoreRole.injEq, reduceCtorEq, List.not_mem_nil,
      or_false] at hc
    exact ⟨"work", hc ▸ by decide⟩
  have h := registry_invariant_and_round_trip ops fun c hc =>
    let ⟨role, h⟩ := hrestore c hc
    ⟨role, "corp", h⟩
  refine (h.2.2 "work" "corp" "linux" 1 (by decide) (.inl rfl) ?_).2.1 hrestore
  intro a ha
  simp only [ops, List.mem_cons, RegistryOp.reserve.injEq, reduceCtorEq, List.not_mem_nil,
    or_false, false_or] at ha
  subst ha
  exact ⟨rfl, rfl, by decide, by decide, .inr ⟨rfl, by decide⟩⟩

end Kikimora.Routing

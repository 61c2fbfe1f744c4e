import Kikimora.Routing.Registry

/-!
# Selected-route checkpoints

The schema-2 persistence record, its validator, and `RestoreRole`, which checks
the entries once more with rules of its own.
-/

namespace Kikimora.Routing

open Net

def selectedRoutesCheckpointSchema : Int := 2

def checkpointPlatformLinux : String := "linux"

def checkpointPlatformWindows : String := "windows"

/-- The schema-2 persistence record. A missing or null `entries` array decodes
    to `none`, which is different from an empty one. -/
structure SelectedRoutesCheckpoint where
  schema : Int
  role : String
  routeGeneration : UInt64
  entries : Option (List SelectedRoute)
  activationId : String := ""
  modeGeneration : UInt64 := 0
  platform : String
  deriving DecidableEq, Repr

def replaceError (message : String) : Except String Unit → Except String Unit
  | .error _ => .error message
  | .ok () => .ok ()

variable {u : Unit} {label role zone : String} {e : SelectedRoute} {pfx : Prefix} {i : Nat}
  {x : Except String Unit} {entries : List SelectedRoute}

@[simp] theorem replaceError_eq_ok {message : String} :
    replaceError message x = .ok u ↔ x = .ok () := by
  cases x <;> simp [replaceError]

def validateParkTransaction (park : SelectedPark) (pfx : Prefix) : Except String Unit := do
  replaceError "invalid desired park identity" (park.desired.validate pfx)
  match park.state with
  | .pending => require (!park.retireDesired) "park pending must not carry retire_desired"
  | .applying => require (!park.retireDesired) "park applying must not carry retire_desired"
  | .active =>
    require (park.owned = some park.desired) "park active requires owned == desired"
    require (!park.retireDesired) "park active must not carry retire_desired"
  | .retiring => .ok ()
  | .other text => .error ("unknown park state " ++ quoted text)

def wrapError (label : String) : Except String Unit → Except String Unit
  | .error e => .error (label ++ e)
  | .ok () => .ok ()

@[simp] theorem wrapError_eq_ok : wrapError label x = .ok u ↔ x = .ok () := by
  cases x <;> simp [wrapError]

def requireKnownState (label : String) : SelectedRouteState → Except String Unit
  | .other text => .error (label ++ quoted text)
  | _ => .ok ()

def requirePark (label : String) (pfx : Prefix) : Option SelectedPark → Except String Unit
  | some park => wrapError label (validateParkTransaction park pfx)
  | none => .ok ()

def requireSource (i : Nat) (pfx : Prefix) : SelectedRouteSource → Except String Unit
  | .dns => require (isHostPrefix pfx) ("dns entry " ++ toString i ++ " must be a host prefix")
  | .static => .ok ()
  | .other text =>
    .error ("entry " ++ toString i ++ " has an unknown source " ++ quoted text)

/-- The checks of `ValidateSelectedRoutesCheckpoint` on the entry at index `i`,
    the search for duplicates apart. -/
def validateEntry (expectedRole expectedZone : String) (i : Nat) (entry : SelectedRoute) :
    Except String Unit := do
  let at_ := "entry " ++ toString i
  require (entry.role = expectedRole)
    (at_ ++ " role " ++ quoted entry.role ++ " does not match the checkpoint role")
  require (expectedZone = "" || entry.zone = expectedZone)
    (at_ ++ " zone " ++ quoted entry.zone ++ " does not match the configured zone " ++
      quoted expectedZone)
  require (isCanonicalPrefix entry.pfx)
    (at_ ++ " prefix " ++ quoted entry.pfx.toString ++ " is not canonical")
  requireSource i entry.pfx entry.source
  requireKnownState (at_ ++ " has an unknown state ") entry.state
  require (entry.toadGeneration ≠ 0) (at_ ++ " must carry a real toad generation")
  require (entry.routeGeneration ≠ 0) (at_ ++ " must carry a route generation")
  wrapError (at_ ++ " desired identity: ") (entry.desired.validate entry.pfx)
  require (entry.state ≠ .active || entry.owned = some entry.desired)
    ("active entry " ++ toString i ++ " requires owned == desired")
  require (entry.state = .retiring || !entry.retireDesired)
    (at_ ++ " retire_desired must be false for state " ++ quoted entry.state.text)
  requirePark (at_ ++ " park transaction: ") entry.pfx entry.park

def validateEntries (expectedRole expectedZone : String) :
    Nat → List Prefix → List SelectedRoute → Except String Unit
  | _, _, [] => .ok ()
  | i, seen, entry :: entries => do
    validateEntry expectedRole expectedZone i entry
    require (entry.pfx ∉ seen) ("duplicate prefix " ++ entry.pfx.toString)
    validateEntries expectedRole expectedZone (i + 1) (entry.pfx :: seen) entries

def validateSelectedRoutesCheckpoint (c : SelectedRoutesCheckpoint)
    (expectedRole expectedZone : String) : Except String Unit := do
  require (c.schema = selectedRoutesCheckpointSchema)
    ("selected-routes checkpoint schema " ++ toString c.schema ++ " is not supported")
  require (c.role = expectedRole)
    ("checkpoint role " ++ quoted c.role ++ " does not match expected " ++ quoted expectedRole)
  require (c.platform = checkpointPlatformLinux || c.platform = checkpointPlatformWindows)
    ("checkpoint platform " ++ quoted c.platform ++ " is not supported")
  match c.entries with
  | none => .error "checkpoint entries must be present"
  | some entries => validateEntries expectedRole expectedZone 0 [] entries

-- === Restoring ===

def restoreEntryCheck (entry : SelectedRoute) : Except String Unit := do
  requireKnownState "restore: unknown selected state " entry.state
  replaceError ("restore: entry " ++ entry.pfx.toString ++ " has an invalid desired identity")
    (entry.desired.validate entry.pfx)
  require (entry.state ≠ .active || entry.owned = some entry.desired)
    ("restore: active entry " ++ entry.pfx.toString ++ " requires owned == desired")
  require (entry.state = .retiring || !entry.retireDesired)
    ("restore: retire_desired must be false for state " ++ quoted entry.state.text)
  requirePark ("restore: entry " ++ entry.pfx.toString ++ " park transaction: ") entry.pfx
    entry.park

def restoreCheck : List SelectedRouteKey → List SelectedRoute → Except String Unit
  | _, [] => .ok ()
  | seen, entry :: entries => do
    require (entry.key ∉ seen) ("restore: duplicate prefix " ++ entry.pfx.toString)
    restoreEntryCheck entry
    restoreCheck (entry.key :: seen) entries

def MemorySelectedRegistry.setAll (r : MemorySelectedRegistry) (entries : List SelectedRoute) :
    MemorySelectedRegistry :=
  entries.foldr (fun e r => r.set e.key e) r

def MemorySelectedRegistry.restoreRole (r : MemorySelectedRegistry)
    (checkpoint : SelectedRoutesCheckpoint) : RegistryResult :=
  if checkpoint.role = "" then (.error "restore: checkpoint role is required", r)
  else match restoreCheck [] (checkpoint.entries.getD []) with
    | .error e => (.error e, r)
    | .ok () => (.ok (), r.setAll (checkpoint.entries.getD []))

-- === What the validators accept ===

/-- The park machine's invariant. -/
structure SelectedPark.WellFormed (pfx : Prefix) (park : SelectedPark) : Prop where
  known : ∀ text, park.state ≠ .other text
  desired_valid : park.desired.validate pfx = .ok ()
  owned_of_active : park.state = .active → park.owned = some park.desired
  retiring_of_retireDesired : park.retireDesired = true → park.state = .retiring

/-- The invariant of a stored record. -/
structure SelectedRoute.WellFormed (e : SelectedRoute) : Prop where
  known : ∀ text, e.state ≠ .other text
  desired_valid : e.desired.validate e.pfx = .ok ()
  owned_of_active : e.state = .active → e.owned = some e.desired
  retiring_of_retireDesired : e.retireDesired = true → e.state = .retiring
  park : ∀ p, e.park = some p → p.WellFormed e.pfx

theorem SelectedRoute.WellFormed.canonical (h : e.WellFormed) : isCanonicalPrefix e.pfx = true :=
  SelectedRouteIdentity.isCanonicalPrefix_of_validate h.desired_valid

/-- What only the checkpoint validator asks of an entry. -/
structure SelectedRoute.Persistable (role zone : String) (e : SelectedRoute) : Prop where
  role_eq : e.role = role
  zone_eq : zone = "" ∨ e.zone = zone
  dns_host : e.source = .dns → isHostPrefix e.pfx = true
  source_known : ∀ text, e.source ≠ .other text
  toadGeneration_ne : e.toadGeneration ≠ 0
  routeGeneration_ne : e.routeGeneration ≠ 0

theorem validateParkTransaction_eq_ok_iff {park : SelectedPark} :
    validateParkTransaction park pfx = .ok u ↔ park.WellFormed pfx := by
  obtain ⟨state, desired, owned, retireDesired⟩ := park
  simp only [validateParkTransaction, bind_ok_iff, replaceError_eq_ok, exists_const]
  constructor
  · rintro ⟨hd, h⟩
    cases state with
    | other text => cases h
    | active =>
      simp only [bind_ok_iff, require_eq_ok] at h
      obtain ⟨_, ho, hr⟩ := h
      exact ⟨by simp, hd, fun _ => by simpa using ho, fun h => by simp_all⟩
    | pending | applying =>
      exact ⟨by simp, hd, by simp, fun h => by simp_all⟩
    | retiring => exact ⟨by simp, hd, by simp, by simp⟩
  · rintro ⟨hk, hd, ho, hr⟩
    refine ⟨hd, ?_⟩
    cases state with
    | other text => exact absurd rfl (hk text)
    | active =>
      simp only [bind_ok_iff, require_eq_ok]
      simp_all
    | pending | applying => simp_all
    | retiring => rfl

@[simp] theorem requirePark_eq_ok {park : Option SelectedPark} :
    requirePark label pfx park = .ok u ↔ ∀ p, park = some p → p.WellFormed pfx := by
  cases park with
  | none => simp [requirePark]
  | some p => simp [requirePark, validateParkTransaction_eq_ok_iff]

@[simp] theorem requireKnownState_eq_ok {state : SelectedRouteState} :
    requireKnownState label state = .ok u ↔ ∀ text, state ≠ .other text := by
  cases state <;> simp [requireKnownState]

@[simp] theorem requireSource_eq_ok {source : SelectedRouteSource} :
    requireSource i pfx source = .ok u ↔
      (source = .dns → isHostPrefix pfx = true) ∧ ∀ text, source ≠ .other text := by
  cases source <;> simp [requireSource]

theorem restoreEntryCheck_eq_ok_iff : restoreEntryCheck e = .ok u ↔ e.WellFormed := by
  simp only [restoreEntryCheck, bind_ok_iff, requireKnownState_eq_ok, replaceError_eq_ok,
    require_eq_ok, requirePark_eq_ok, exists_const]
  constructor
  · rintro ⟨hk, hd, ho, hr, hp⟩
    exact ⟨hk, hd, fun h => by simpa [h] using ho, fun h => by simpa [h] using hr, hp⟩
  rintro ⟨hk, hd, ho, hr, hp⟩
  refine ⟨hk, hd, ?_, ?_, hp⟩
  · by_cases h : e.state = .active
    · simp [ho h]
    · simp [h]
  · by_cases h : e.retireDesired = true
    · simp [hr h]
    · simp [h]

theorem validateEntry_eq_ok_iff :
    validateEntry role zone i e = .ok u ↔ e.WellFormed ∧ e.Persistable role zone := by
  simp only [validateEntry, bind_ok_iff, requireKnownState_eq_ok, requireSource_eq_ok,
    require_eq_ok, wrapError_eq_ok, requirePark_eq_ok, exists_const]
  constructor
  · rintro ⟨hrole, hzone, _, ⟨hhost, hsource⟩, hk, htg, hrg, hd, ho, hr, hp⟩
    refine ⟨⟨hk, hd, fun h => by simpa [h] using ho, fun h => by simpa [h] using hr, hp⟩, ?_⟩
    exact ⟨by simpa using hrole, by simpa using hzone, hhost, hsource, by simpa using htg,
      by simpa using hrg⟩
  rintro ⟨h, ⟨hrole, hzone, hhost, hsource, htg, hrg⟩⟩
  refine ⟨by simpa using hrole, by simpa using hzone, h.canonical, ⟨hhost, hsource⟩, h.known,
    by simpa using htg, by simpa using hrg, h.desired_valid, ?_, ?_, h.park⟩
  · by_cases ha : e.state = .active
    · simp [h.owned_of_active ha]
    · simp [ha]
  · by_cases ha : e.retireDesired = true
    · simp [h.retiring_of_retireDesired ha]
    · simp [ha]

theorem validateEntries_eq_ok_iff {seen : List Prefix} :
    validateEntries role zone i seen entries = .ok () ↔
      (∀ e ∈ entries, e.WellFormed ∧ e.Persistable role zone ∧ e.pfx ∉ seen) ∧
      (entries.map SelectedRoute.pfx).Nodup := by
  induction entries generalizing i seen with
  | nil => simp [validateEntries]
  | cons e entries ih =>
    rw [List.forall_mem_cons]
    simp only [validateEntries, bind_ok_iff, validateEntry_eq_ok_iff, require_eq_ok, ih,
      exists_const, decide_eq_true_eq, List.map_cons, List.nodup_cons, List.mem_map,
      List.mem_cons, not_or, not_exists, not_and]
    constructor
    · rintro ⟨⟨hw, hp⟩, hs, hall, hn⟩
      exact ⟨⟨⟨hw, hp, hs⟩, fun x hx => ⟨(hall x hx).1, (hall x hx).2.1, (hall x hx).2.2.2⟩⟩,
        fun x hx => (hall x hx).2.2.1, hn⟩
    · rintro ⟨⟨⟨hw, hp, hs⟩, hall⟩, hne, hn⟩
      exact ⟨⟨hw, hp⟩, hs,
        fun x hx => ⟨(hall x hx).1, (hall x hx).2.1, hne x hx, (hall x hx).2.2⟩, hn⟩

/-- An accepted checkpoint: the header is as expected, every entry keeps the
    record invariant and can be persisted for the role, and no prefix occurs
    twice. -/
theorem validateSelectedRoutesCheckpoint_eq_ok_iff {c : SelectedRoutesCheckpoint} :
    validateSelectedRoutesCheckpoint c role zone = .ok () ↔
      c.schema = selectedRoutesCheckpointSchema ∧ c.role = role ∧
      (c.platform = checkpointPlatformLinux ∨ c.platform = checkpointPlatformWindows) ∧
      ∃ entries, c.entries = some entries ∧
        (∀ e ∈ entries, e.WellFormed ∧ e.Persistable role zone) ∧
        (entries.map SelectedRoute.pfx).Nodup := by
  simp only [validateSelectedRoutesCheckpoint, bind_ok_iff, require_eq_ok, exists_const,
    decide_eq_true_eq, Bool.or_eq_true]
  cases c.entries with
  | none => simp
  | some entries => simp [validateEntries_eq_ok_iff]

theorem restoreCheck_eq_ok_iff {seen : List SelectedRouteKey} : restoreCheck seen entries = .ok () ↔
      (∀ e ∈ entries, e.WellFormed ∧ e.key ∉ seen) ∧
      (entries.map SelectedRoute.key).Nodup := by
  induction entries generalizing seen with
  | nil => simp [restoreCheck]
  | cons e entries ih =>
    rw [List.forall_mem_cons]
    simp only [restoreCheck, bind_ok_iff, restoreEntryCheck_eq_ok_iff, require_eq_ok, ih,
      exists_const, decide_eq_true_eq, List.map_cons, List.nodup_cons, List.mem_map,
      List.mem_cons, not_or, not_exists, not_and]
    constructor
    · rintro ⟨hs, hw, hall, hn⟩
      exact ⟨⟨⟨hw, hs⟩, fun x hx => ⟨(hall x hx).1, (hall x hx).2.2⟩⟩,
        fun x hx => (hall x hx).2.1, hn⟩
    · rintro ⟨⟨⟨hw, hs⟩, hall⟩, hne, hn⟩
      exact ⟨hs, hw, fun x hx => ⟨(hall x hx).1, hne x hx, (hall x hx).2⟩, hn⟩

namespace MemorySelectedRegistry

variable {entries : List SelectedRoute} {k : SelectedRouteKey}

theorem lookup_setAll_of_mem (r : MemorySelectedRegistry)
    (hn : (entries.map SelectedRoute.key).Nodup) (he : e ∈ entries) :
    (r.setAll entries).lookup e.key = some e := by
  induction entries with
  | nil => cases he
  | cons x entries ih =>
    rw [List.map_cons, List.nodup_cons] at hn
    rw [setAll, List.foldr_cons, lookup_set]
    rcases List.mem_cons.mp he with rfl | he
    · simp
    have hne : e.key ≠ x.key := by
      intro h
      exact hn.1 (h ▸ List.mem_map_of_mem he)
    rw [if_neg hne]
    exact ih hn.2 he

theorem lookup_setAll_of_notMem (r : MemorySelectedRegistry)
    (hk : k ∉ entries.map SelectedRoute.key) : (r.setAll entries).lookup k = r.lookup k := by
  induction entries with
  | nil => rfl
  | cons x entries ih =>
    rw [List.map_cons, List.mem_cons, not_or] at hk
    rw [setAll, List.foldr_cons, lookup_set, if_neg hk.1]
    exact ih hk.2

/-- A record found after copying entries into the map is one of them or was
    there before. -/
theorem lookup_setAll_cases {r : MemorySelectedRegistry}
    (h : (r.setAll entries).lookup k = some e) :
    (e ∈ entries ∧ e.key = k) ∨ r.lookup k = some e := by
  induction entries with
  | nil => exact .inr h
  | cons x entries ih =>
    rw [setAll, List.foldr_cons, lookup_set] at h
    split at h
    · next hk =>
      cases h
      exact .inl ⟨List.mem_cons_self, hk.symm⟩
    · rcases ih h with ⟨hm, hk⟩ | hr
      · exact .inl ⟨List.mem_cons_of_mem x hm, hk⟩
      · exact .inr hr

/-- A restore fails and changes nothing, or every entry kept the record
    invariant and all of them are in the map. -/
theorem restoreRole_spec (r : MemorySelectedRegistry) (c : SelectedRoutesCheckpoint) :
    (∃ e, r.restoreRole c = (.error e, r)) ∨
    ((∀ e ∈ c.entries.getD [], e.WellFormed) ∧
      ((c.entries.getD []).map SelectedRoute.key).Nodup ∧
      r.restoreRole c = (.ok (), r.setAll (c.entries.getD []))) := by
  unfold restoreRole
  split_ifs with hrole
  · exact .inl ⟨_, rfl⟩
  cases hc : restoreCheck [] (c.entries.getD []) with
  | error e => exact .inl ⟨e, rfl⟩
  | ok u =>
    obtain ⟨hw, hn⟩ := restoreCheck_eq_ok_iff.mp hc
    exact .inr ⟨fun e he => (hw e he).1, hn, rfl⟩

theorem restoreRole_of_validate (r : MemorySelectedRegistry) {c : SelectedRoutesCheckpoint}
    (hrole : role ≠ "") (h : validateSelectedRoutesCheckpoint c role zone = .ok ()) :
    r.restoreRole c = (.ok (), r.setAll (c.entries.getD [])) := by
  obtain ⟨_, rfl, _, entries, he, hall, hn⟩ :=
    validateSelectedRoutesCheckpoint_eq_ok_iff.mp h
  -- one role, so distinct prefixes are distinct keys
  have hkeys : (entries.map SelectedRoute.key).Nodup := by
    refine List.Nodup.of_map SelectedRouteKey.pfx ?_
    rwa [List.map_map]
  have hc : restoreCheck [] entries = .ok () :=
    restoreCheck_eq_ok_iff.mpr ⟨fun e he => ⟨(hall e he).1, by simp⟩, hkeys⟩
  simp [restoreRole, hrole, he, hc]

end MemorySelectedRegistry

end Kikimora.Routing

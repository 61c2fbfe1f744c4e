import Kikimora.Routing.Identity
import Mathlib.Data.List.AList
import Mathlib.Data.List.Sort

/-!
# The in-memory selected-route registry

`MemorySelectedRegistry` with its two transaction machines, operation by
operation. Each operation returns its error, if any, together with the registry
it leaves behind, so that a failing operation can be asked what it changed.
-/

namespace Kikimora.Routing

open Net

structure SelectedRouteKey where
  role : String
  pfx : Prefix
  deriving DecidableEq, Repr

def SelectedRoute.key (e : SelectedRoute) : SelectedRouteKey := ⟨e.role, e.pfx⟩

structure MemorySelectedRegistry where
  entries : AList fun _ : SelectedRouteKey => SelectedRoute

/-- `entry := r.entries[key]` copies the record but not its park object, so what
    a mutation wrote through the shared park pointer is visible in the registry
    even when the mutation then fails. -/
def sharePark (stored edited : SelectedRoute) : SelectedRoute :=
  match stored.park, edited.park with
  | some _, some p => { stored with park := some p }
  | _, _ => stored

/-- The mutation a transition runs on its copy of the record: the error and the
    copy as edited so far. -/
abbrev Mutation := SelectedRoute → Except String Unit × SelectedRoute

def Mutation.Atomic (mutate : Mutation) : Prop :=
  ∀ entry e, (mutate entry).1 = .error e → (mutate entry).2 = entry

@[simp] theorem sharePark_self (e : SelectedRoute) : sharePark e e = e := by
  cases e with
  | mk role zone pfx source tg rg iface desired owned state retireDesired park =>
    cases park <;> rfl

abbrev RegistryResult := Except String Unit × MemorySelectedRegistry

namespace MemorySelectedRegistry

def empty : MemorySelectedRegistry := ⟨∅⟩

def lookup (r : MemorySelectedRegistry) (k : SelectedRouteKey) : Option SelectedRoute :=
  r.entries.lookup k

def set (r : MemorySelectedRegistry) (k : SelectedRouteKey) (e : SelectedRoute) :
    MemorySelectedRegistry :=
  ⟨r.entries.insert k e⟩

def erase (r : MemorySelectedRegistry) (k : SelectedRouteKey) : MemorySelectedRegistry :=
  ⟨r.entries.erase k⟩

variable {mutate : Mutation}

@[simp] theorem lookup_empty (k : SelectedRouteKey) : empty.lookup k = none := rfl

variable (r : MemorySelectedRegistry)

include r

theorem lookup_set (k k' : SelectedRouteKey) (e : SelectedRoute) : (r.set k e).lookup k' = if k' = k
    then some e else r.lookup k' := by
  by_cases h : k' = k
  · subst h
    simp [set, lookup]
  · simp [set, lookup, h]

@[simp] theorem lookup_set_self (k : SelectedRouteKey) (e : SelectedRoute) : (r.set k e).lookup k =
    some e := by
  simp [lookup_set]

theorem lookup_set_of_ne {k k' : SelectedRouteKey} (e : SelectedRoute) (h : k' ≠ k) :
    (r.set k e).lookup k' = r.lookup k' := by
  simp [lookup_set, h]

theorem lookup_erase (k k' : SelectedRouteKey) : (r.erase k).lookup k' = if k' = k then none else
    r.lookup k' := by
  by_cases h : k' = k
  · subst h
    simp [erase, lookup]
  · simp [erase, lookup, h]

omit r

/-- Two registries with the same content. The order in which an association
    list keeps its pairs is not part of a Go map. -/
def SameContent (r r' : MemorySelectedRegistry) : Prop := ∀ k, r.lookup k = r'.lookup k

theorem SameContent.refl (r : MemorySelectedRegistry) : SameContent r r := fun _ => rfl

-- === Transitions ===

def transition (r : MemorySelectedRegistry) (role : String) (pfx : Prefix)
    (mutate : Mutation) : RegistryResult :=
  if !(pfx.isValid && isCanonicalPrefix pfx) then
    (.error ("selected route transition: prefix " ++ quoted pfx.toString ++
      " is not canonical"), r)
  else match r.lookup ⟨role, pfx⟩ with
    | none =>
      (.error ("selected route " ++ role ++ "/" ++ pfx.toString ++ " is not registered"), r)
    | some entry =>
      match mutate entry with
      | (.error e, edited) => (.error e, r.set ⟨role, pfx⟩ (sharePark entry edited))
      | (.ok (), edited) => (.ok (), r.set ⟨role, pfx⟩ edited)

theorem transition_ok {r : MemorySelectedRegistry} {role : String} {pfx : Prefix}
    {entry edited : SelectedRoute} (hc : isCanonicalPrefix pfx = true)
    (hl : r.lookup ⟨role, pfx⟩ = some entry) (hm : mutate entry = (.ok (), edited)) :
    r.transition role pfx mutate = (.ok (), r.set ⟨role, pfx⟩ edited) := by
  simp [transition, hc, isValid_of_isCanonicalPrefix hc, hl, hm]

theorem transition_error {r : MemorySelectedRegistry} {role : String} {pfx : Prefix}
    {entry edited : SelectedRoute} {e : String} (hc : isCanonicalPrefix pfx = true)
    (hl : r.lookup ⟨role, pfx⟩ = some entry) (hm : mutate entry = (.error e, edited)) :
    r.transition role pfx mutate = (.error e, r.set ⟨role, pfx⟩ (sharePark entry edited)) := by
  simp [transition, hc, isValid_of_isCanonicalPrefix hc, hl, hm]

/-- The two outcomes of a transition: it fails and the content is as before, or
    one registered record has been replaced by its edited copy. -/
theorem transition_spec (r : MemorySelectedRegistry) (role : String) (pfx : Prefix)
    (ha : mutate.Atomic) : (∃ e, (r.transition role pfx mutate).1 = .error e ∧
      SameContent (r.transition role pfx mutate).2 r) ∨
    (∃ entry edited, isCanonicalPrefix pfx = true ∧ r.lookup ⟨role, pfx⟩ = some entry ∧
      mutate entry = (.ok (), edited) ∧
      r.transition role pfx mutate = (.ok (), r.set ⟨role, pfx⟩ edited)) := by
  by_cases hc : isCanonicalPrefix pfx = true
  · cases hl : r.lookup ⟨role, pfx⟩ with
    | none =>
      refine .inl ⟨"selected route " ++ role ++ "/" ++ pfx.toString ++ " is not registered", ?_⟩
      simp [transition, hc, isValid_of_isCanonicalPrefix hc, hl, SameContent]
    | some entry =>
      rcases hm : mutate entry with ⟨res, edited⟩
      cases res with
      | ok u => exact .inr ⟨entry, edited, hc, rfl, hm, transition_ok hc hl hm⟩
      | error e =>
        have hedited : edited = entry := by
          have := ha entry e (by rw [hm])
          rwa [hm] at this
        subst hedited
        rw [transition_error hc hl hm]
        refine .inl ⟨e, rfl, fun k => ?_⟩
        rw [sharePark_self, lookup_set]
        split
        · next h => rw [h, hl]
        · rfl
  · refine .inl ⟨"selected route transition: prefix " ++ quoted pfx.toString ++
      " is not canonical", ?_⟩
    simp [transition, hc, SameContent]

end MemorySelectedRegistry

-- === The two transaction machines ===

/-- The arguments of `Reserve` that it compares with the stored record. -/
structure Reservation where
  role : String
  zone : String
  pfx : Prefix
  source : SelectedRouteSource
  toadGeneration : UInt64
  routeGeneration : UInt64
  iface : String
  desired : SelectedRouteIdentity
  deriving DecidableEq, Repr

def Reservation.next (a : Reservation) (existing : Option SelectedRoute) : SelectedRoute :=
  match existing with
  | none =>
    { role := a.role, zone := a.zone, pfx := a.pfx, source := a.source,
      toadGeneration := a.toadGeneration, routeGeneration := a.routeGeneration,
      iface := a.iface, desired := a.desired, state := .pending }
  | some e =>
    { e with
      role := a.role, zone := a.zone, pfx := a.pfx, source := a.source,
      toadGeneration := a.toadGeneration, routeGeneration := a.routeGeneration,
      iface := a.iface, desired := a.desired,
      -- a changed target demotes Active; the old Owned stays as the
      -- replacement candidate
      state := if e.state = .active && e.desired ≠ a.desired then .pending else e.state }

def Reservation.matches (a : Reservation) (e : SelectedRoute) : Bool :=
  e.desired = a.desired && e.zone = a.zone && e.source = a.source && e.iface = a.iface &&
    e.toadGeneration = a.toadGeneration && e.routeGeneration = a.routeGeneration

def Reservation.key (a : Reservation) : SelectedRouteKey := ⟨a.role, a.pfx⟩

def reservedPark (park : Option SelectedPark) (desired : SelectedParkIdentity)
    (forcePending : Bool) : SelectedPark :=
  match park with
  | none => { state := .pending, desired := desired }
  | some p =>
    if p.desired = desired && !forcePending && p.state = .active then p
    else if p.desired ≠ desired || forcePending then
      { p with state := .pending, retireDesired := false, desired := desired }
    else p

/-- The transitions of the selected-route machine and of the park machine. -/
inductive RecordTransition
  | markApplying
  | markActive (observed : SelectedRouteIdentity)
  | markRetiring
  | beginRepair
  | reservePark (desired : SelectedParkIdentity) (forcePending : Bool)
  | markParkApplying
  | markParkActive (observed : SelectedParkIdentity)
  | markParkRetiring
  | clearPark
  deriving DecidableEq, Repr

def RecordTransition.mutate : RecordTransition → Mutation
  | .markApplying, entry =>
    match entry.state with
    | .pending => (.ok (), { entry with state := .applying })
    | .applying => (.ok (), entry)
    | s =>
      (.error ("MarkApplying requires state pending or applying, got " ++ quoted s.text), entry)
  | .markActive observed, entry =>
    if entry.state ≠ .applying ∧ entry.state ≠ .active then
      (.error ("MarkActive requires state applying or active, got " ++ quoted entry.state.text),
        entry)
    else if observed ≠ entry.desired then
      (.error "MarkActive observed identity does not equal the desired identity", entry)
    else (.ok (), { entry with owned := some observed, state := .active })
  | .markRetiring, entry =>
    match entry.state with
    | .pending | .applying | .active =>
      -- an authorized interrupted syscall may have created the desired row
      (.ok (), { entry with retireDesired := entry.state = .applying, state := .retiring })
    | s => (.error ("MarkRetiring is illegal from state " ++ quoted s.text), entry)
  | .beginRepair, entry =>
    if entry.state ≠ .active then
      (.error ("BeginRepair requires state active, got " ++ quoted entry.state.text), entry)
    else (.ok (), { entry with state := .pending, retireDesired := false })
  | .reservePark desired forcePending, entry =>
    (.ok (), { entry with park := some (reservedPark entry.park desired forcePending) })
  | .markParkApplying, entry =>
    match entry.park with
    | none => (.error "MarkParkApplying without a park transaction", entry)
    | some p =>
      if p.state ≠ .pending then
        (.error ("MarkParkApplying requires park state pending, got " ++ quoted p.state.text),
          entry)
      else (.ok (), { entry with park := some { p with state := .applying } })
  | .markParkActive observed, entry =>
    match entry.park with
    | none => (.error "MarkParkActive without a park transaction", entry)
    | some p =>
      if p.state ≠ .applying ∧ p.state ≠ .active then
        (.error ("MarkParkActive requires park state applying or active, got " ++
          quoted p.state.text), entry)
      else if observed ≠ p.desired then
        (.error "MarkParkActive observed identity does not equal the desired park identity", entry)
      else (.ok (), { entry with park := some { p with owned := some observed, state := .active } })
  | .markParkRetiring, entry =>
    match entry.park with
    | none => (.error "MarkParkRetiring without a park transaction", entry)
    | some p =>
      match p.state with
      | .applying | .active =>
        let retired := { p with retireDesired := p.state = .applying, state := .retiring }
        (.ok (), { entry with park := some retired })
      | s => (.error ("MarkParkRetiring is illegal from park state " ++ quoted s.text), entry)
  | .clearPark, entry =>
    match entry.park with
    | none => (.ok (), entry)
    | some p =>
      match p.state with
      | .pending | .retiring => (.ok (), { entry with park := none })
      | s => (.error ("ClearPark is illegal from park state " ++ quoted s.text), entry)

/-- What the accepted transitions do to a record, one constructor for each way a
    transition can succeed. -/
inductive RecordTransition.Edits : RecordTransition → SelectedRoute → SelectedRoute → Prop
  | markApplying {e} (h : e.state = .pending) :
      Edits .markApplying e { e with state := .applying }
  | markApplyingAgain {e} (h : e.state = .applying) : Edits .markApplying e e
  | markActive {e} (h : e.state = .applying ∨ e.state = .active) :
      Edits (.markActive e.desired) e { e with owned := some e.desired, state := .active }
  | markRetiring {e} (h : e.state = .pending ∨ e.state = .applying ∨ e.state = .active) :
      Edits .markRetiring e
        { e with retireDesired := e.state = .applying, state := .retiring }
  | beginRepair {e} (h : e.state = .active) :
      Edits .beginRepair e { e with state := .pending, retireDesired := false }
  | reservePark {e} (desired : SelectedParkIdentity) (forcePending : Bool) :
      Edits (.reservePark desired forcePending) e
        { e with park := some (reservedPark e.park desired forcePending) }
  | markParkApplying {e p} (hp : e.park = some p) (h : p.state = .pending) :
      Edits .markParkApplying e { e with park := some { p with state := .applying } }
  | markParkActive {e p} (hp : e.park = some p) (h : p.state = .applying ∨ p.state = .active) :
      Edits (.markParkActive p.desired) e
        { e with park := some { p with owned := some p.desired, state := .active } }
  | markParkRetiring {e p} (hp : e.park = some p)
      (h : p.state = .applying ∨ p.state = .active) :
      Edits .markParkRetiring e
        { e with park := some { p with retireDesired := p.state = .applying, state := .retiring } }
  | clearNoPark {e} (hp : e.park = none) : Edits .clearPark e e
  | clearPark {e p} (hp : e.park = some p) (h : p.state = .pending ∨ p.state = .retiring) :
      Edits .clearPark e { e with park := none }

theorem RecordTransition.edits_of_mutate {t : RecordTransition} {e e' : SelectedRoute}
    (h : t.mutate e = (.ok (), e')) : t.Edits e e' := by
  cases t with
  | markApplying =>
    simp only [mutate] at h
    split at h <;> cases h
    · exact .markApplying ‹_›
    · exact .markApplyingAgain ‹_›
  | markActive observed =>
    simp only [mutate] at h
    split_ifs at h with h1 h2
    · cases h
    · cases h
    · obtain rfl : observed = e.desired := not_not.mp h2
      cases h
      exact .markActive (by tauto)
  | markRetiring =>
    simp only [mutate] at h
    split at h <;> cases h
    all_goals exact .markRetiring (by tauto)
  | beginRepair =>
    simp only [mutate] at h
    split_ifs at h with h1
    · cases h
    · cases h
      exact .beginRepair (not_not.mp h1)
  | reservePark desired forcePending =>
    cases h
    exact .reservePark desired forcePending
  | markParkApplying =>
    simp only [mutate] at h
    split at h
    · cases h
    split_ifs at h with h1
    · cases h
    · cases h
      exact .markParkApplying ‹_› (not_not.mp h1)
  | markParkActive observed =>
    simp only [mutate] at h
    split at h
    · cases h
    next p hp =>
    split_ifs at h with h1 h2
    · cases h
    · cases h
    · obtain rfl : observed = p.desired := not_not.mp h2
      cases h
      exact .markParkActive hp (by tauto)
  | markParkRetiring =>
    simp only [mutate] at h
    split at h
    · cases h
    · split at h <;> cases h
      all_goals exact .markParkRetiring ‹_› (by tauto)
  | clearPark =>
    simp only [mutate] at h
    split at h
    · cases h
      exact .clearNoPark ‹_›
    · split at h <;> cases h
      all_goals exact .clearPark ‹_› (by tauto)

theorem RecordTransition.atomic (t : RecordTransition) : Mutation.Atomic t.mutate := by
  intro entry e h
  cases t with
  | reservePark => cases h
  | markApplying | markRetiring =>
    simp only [mutate] at h ⊢
    split <;> simp_all
  | markActive | beginRepair =>
    simp only [mutate] at h ⊢
    split_ifs <;> simp_all
  | markParkApplying | markParkActive =>
    simp only [mutate] at h ⊢
    split
    · rfl
    · split_ifs <;> simp_all
  | markParkRetiring | clearPark =>
    simp only [mutate] at h ⊢
    split
    · rfl
    · split <;> simp_all

namespace MemorySelectedRegistry

def reserve (r : MemorySelectedRegistry) (a : Reservation) : RegistryResult :=
  if a.role = "" then (.error "selected route reserve: role is required", r)
  else match a.desired.validate a.pfx with
    | .error e => (.error ("selected route reserve: " ++ e), r)
    | .ok () =>
      let existing := r.lookup a.key
      if existing.any a.matches then (.ok (), r)
      else (.ok (), r.set a.key (a.next existing))

def markApplying (r : MemorySelectedRegistry) (role : String) (pfx : Prefix) : RegistryResult :=
  r.transition role pfx (RecordTransition.mutate .markApplying)

def markActive (r : MemorySelectedRegistry) (role : String) (pfx : Prefix)
    (observed : SelectedRouteIdentity) : RegistryResult :=
  r.transition role pfx (RecordTransition.mutate (.markActive observed))

def markRetiring (r : MemorySelectedRegistry) (role : String) (pfx : Prefix) : RegistryResult :=
  r.transition role pfx (RecordTransition.mutate .markRetiring)

def beginRepair (r : MemorySelectedRegistry) (role : String) (pfx : Prefix) : RegistryResult :=
  r.transition role pfx (RecordTransition.mutate .beginRepair)

def reservePark (r : MemorySelectedRegistry) (role : String) (pfx : Prefix)
    (desired : SelectedParkIdentity) (forcePending : Bool) : RegistryResult :=
  match desired.validate pfx with
  | .error e => (.error ("reserve park: " ++ e), r)
  | .ok () => r.transition role pfx (RecordTransition.mutate (.reservePark desired forcePending))

def markParkApplying (r : MemorySelectedRegistry) (role : String) (pfx : Prefix) :
    RegistryResult :=
  r.transition role pfx (RecordTransition.mutate .markParkApplying)

def markParkActive (r : MemorySelectedRegistry) (role : String) (pfx : Prefix)
    (observed : SelectedParkIdentity) : RegistryResult :=
  r.transition role pfx (RecordTransition.mutate (.markParkActive observed))

def markParkRetiring (r : MemorySelectedRegistry) (role : String) (pfx : Prefix) :
    RegistryResult :=
  r.transition role pfx (RecordTransition.mutate .markParkRetiring)

def clearPark (r : MemorySelectedRegistry) (role : String) (pfx : Prefix) : RegistryResult :=
  r.transition role pfx (RecordTransition.mutate .clearPark)

-- === Removal and snapshots ===

def remove (r : MemorySelectedRegistry) (role : String) (pfx : Prefix) :
    MemorySelectedRegistry :=
  r.erase ⟨role, pfx⟩

def removeRole (r : MemorySelectedRegistry) (role : String) : MemorySelectedRegistry :=
  (r.entries.keys.filter (·.role = role)).foldl erase r

theorem lookup_foldl_erase (ks : List SelectedRouteKey) (r : MemorySelectedRegistry)
    (k : SelectedRouteKey) :
    (ks.foldl erase r).lookup k = if k ∈ ks then none else r.lookup k := by
  induction ks generalizing r with
  | nil => simp
  | cons k' ks ih =>
    rw [List.foldl_cons, ih, lookup_erase]
    by_cases h1 : k = k' <;> by_cases h2 : k ∈ ks <;> simp [h1, h2]

theorem lookup_removeRole (r : MemorySelectedRegistry) (role : String) (k : SelectedRouteKey) :
    (r.removeRole role).lookup k = if k.role = role then none else r.lookup k := by
  rw [removeRole, lookup_foldl_erase]
  by_cases hr : k.role = role
  · by_cases hk : k ∈ r.entries.keys
    · simp [hr, hk]
    · have hn : r.lookup k = none := AList.lookup_eq_none.mpr hk
      simp [hr, hn]
  · simp [hr]

/-- Lexicographic order of texts. Go compares bytes, which for UTF-8 is the
    order of code points. -/
def textLe : List Char → List Char → Bool
  | [], _ => true
  | _ :: _, [] => false
  | a :: as, b :: bs => a.toNat < b.toNat || (a = b && textLe as bs)

def snapshotLe (a b : SelectedRoute) : Bool :=
  if a.pfx.toString ≠ b.pfx.toString then textLe a.pfx.toString.toList b.pfx.toString.toList
  else textLe a.role.toList b.role.toList

theorem toNat_ne_of_ne {a b : Char} (h : a ≠ b) : a.toNat ≠ b.toNat := by
  intro h'
  exact h (Char.toNat_inj.mp h')

theorem textLe_total (as bs : List Char) : textLe as bs = true ∨ textLe bs as = true := by
  induction as generalizing bs with
  | nil => exact .inl rfl
  | cons a as ih =>
    cases bs with
    | nil => exact .inr rfl
    | cons b bs =>
      by_cases h : a = b
      · subst h
        simpa [textLe] using ih bs
      have := toNat_ne_of_ne h
      simp only [textLe, h, Ne.symm h, decide_false, Bool.false_and, Bool.or_false,
        decide_eq_true_eq]
      omega

theorem textLe_trans {as bs cs : List Char} (h1 : textLe as bs = true)
    (h2 : textLe bs cs = true) : textLe as cs = true := by
  induction as generalizing bs cs with
  | nil => rfl
  | cons a as ih =>
    cases bs with
    | nil => cases h1
    | cons b bs =>
      cases cs with
      | nil => cases h2
      | cons c cs =>
        simp only [textLe, Bool.or_eq_true, Bool.and_eq_true, decide_eq_true_eq] at h1 h2 ⊢
        rcases h1 with h1 | ⟨rfl, h1⟩ <;> rcases h2 with h2 | ⟨rfl, h2⟩
        · exact .inl (lt_trans h1 h2)
        · exact .inl h1
        · exact .inl h2
        · exact .inr ⟨rfl, ih h1 h2⟩

theorem textLe_antisymm {as bs : List Char} (h1 : textLe as bs = true)
    (h2 : textLe bs as = true) : as = bs := by
  induction as generalizing bs with
  | nil =>
    cases bs with
    | nil => rfl
    | cons b bs => cases h2
  | cons a as ih =>
    cases bs with
    | nil => cases h1
    | cons b bs =>
      simp only [textLe, Bool.or_eq_true, Bool.and_eq_true, decide_eq_true_eq] at h1 h2
      rcases h1 with h1 | ⟨rfl, h1⟩
      · rcases h2 with h2 | ⟨rfl, _⟩ <;> omega
      · rw [ih h1 (by simpa using h2)]

instance : Std.Total fun a b : SelectedRoute => snapshotLe a b = true where
  total a b := by
    unfold snapshotLe
    by_cases h : a.pfx.toString = b.pfx.toString
    · simpa [h] using textLe_total a.role.toList b.role.toList
    · simpa [h, Ne.symm h] using textLe_total a.pfx.toString.toList b.pfx.toString.toList

instance : IsTrans SelectedRoute fun a b => snapshotLe a b = true where
  trans a b c h1 h2 := by
    unfold snapshotLe at h1 h2 ⊢
    by_cases hab : a.pfx.toString = b.pfx.toString <;>
      by_cases hbc : b.pfx.toString = c.pfx.toString
    · simp only [hab, hbc, ne_eq, not_true_eq_false, if_false] at h1 h2 ⊢
      exact textLe_trans h1 h2
    · simpa [hab, hbc] using h2
    · simpa [hab, ← hbc] using h1
    simp only [hab, hbc, ne_eq, not_false_eq_true, if_true] at h1 h2
    by_cases hac : a.pfx.toString = c.pfx.toString
    · -- the texts of `a` and `c` agree, so `b` lies between equal texts
      rw [← hac] at h2
      exact absurd (String.toList_inj.mp (textLe_antisymm h1 h2)) hab
    · simpa [hac] using textLe_trans h1 h2

def snapshotLocked (r : MemorySelectedRegistry) (keep : SelectedRoute → Bool) :
    List SelectedRoute :=
  ((r.entries.entries.map Sigma.snd).filter keep).insertionSort fun a b => snapshotLe a b = true

def snapshot (r : MemorySelectedRegistry) (role : String) : List SelectedRoute :=
  r.snapshotLocked fun entry => entry.role = role

variable (r : MemorySelectedRegistry)

include r

theorem mem_values (e : SelectedRoute) :
    e ∈ r.entries.entries.map Sigma.snd ↔ ∃ k, r.lookup k = some e := by
  simp only [List.mem_map, lookup]
  constructor
  · rintro ⟨⟨k, v⟩, hm, rfl⟩
    exact ⟨k, AList.mem_lookup_iff.mpr hm⟩
  · rintro ⟨k, hk⟩
    exact ⟨⟨k, e⟩, AList.mem_lookup_iff.mp hk, rfl⟩

theorem mem_snapshotLocked (keep : SelectedRoute → Bool) (e : SelectedRoute) : e ∈ r.snapshotLocked
    keep ↔ (∃ k, r.lookup k = some e) ∧ keep e = true := by
  rw [snapshotLocked, List.mem_insertionSort, List.mem_filter, mem_values]

theorem pairwise_snapshotLocked (keep : SelectedRoute → Bool) : (r.snapshotLocked keep).Pairwise fun
    a b => snapshotLe a b = true :=
  List.pairwise_insertionSort _ _

theorem mem_snapshot (role : String) (e : SelectedRoute) : e ∈ r.snapshot role ↔
    (∃ k, r.lookup k = some e) ∧ e.role = role := by
  rw [snapshot, mem_snapshotLocked, decide_eq_true_eq]

end MemorySelectedRegistry

end Kikimora.Routing

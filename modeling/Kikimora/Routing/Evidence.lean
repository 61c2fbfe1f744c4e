import Kikimora.Routing.RegistryInvariant

/-!
# Ownership evidence

A history of the registry: the identities that an authorized mutation may have
put into the kernel, next to the registry itself. A record names such an
identity while its evidence is enough for a later removal to find the row.
-/

namespace Kikimora.Routing

open Net MemorySelectedRegistry

def SelectedRoute.Names (e : SelectedRoute) (x : SelectedRouteIdentity) : Prop :=
  e.owned = some x ∨ (e.desired = x ∧ e.state = .applying) ∨
    (e.desired = x ∧ e.state = .retiring ∧ e.retireDesired = true)

def SelectedPark.Names (p : SelectedPark) (x : SelectedParkIdentity) : Prop :=
  p.owned = some x ∨ (p.desired = x ∧ p.state = .applying) ∨
    (p.desired = x ∧ p.state = .retiring ∧ p.retireDesired = true)

def SelectedRoute.NamesPark (e : SelectedRoute) (x : SelectedParkIdentity) : Prop :=
  ∃ p, e.park = some p ∧ p.Names x

instance (e : SelectedRoute) (x : SelectedRouteIdentity) : Decidable (e.Names x) :=
  inferInstanceAs (Decidable (_ ∨ _ ∨ _))

instance (p : SelectedPark) (x : SelectedParkIdentity) : Decidable (p.Names x) :=
  inferInstanceAs (Decidable (_ ∨ _ ∨ _))

instance (e : SelectedRoute) (x : SelectedParkIdentity) : Decidable (e.NamesPark x) :=
  decidable_of_iff (e.park.any (fun p => decide (p.Names x)) = true) <| by
    cases h : e.park <;> simp [SelectedRoute.NamesPark, h]

/-- The identities that may be in the kernel for one key. -/
structure Installed where
  routes : List SelectedRouteIdentity := []
  parks : List SelectedParkIdentity := []

/-- What an accepted transition of the record `e` adds to the history or proves
    gone: authorizing a mutation adds its target, a read-back of one identity
    drops every other, and a park cleared out of its retirement is gone. -/
def RecordTransition.install (e : SelectedRoute) (i : Installed) : RecordTransition → Installed
  | .markApplying => { i with routes := e.desired :: i.routes }
  | .markActive observed => { i with routes := i.routes.filter (· = observed) }
  | .markParkApplying =>
    match e.park with
    | some p => { i with parks := p.desired :: i.parks }
    | none => i
  | .markParkActive observed => { i with parks := i.parks.filter (· = observed) }
  | .clearPark =>
    if e.park.map SelectedPark.state = some .retiring then { i with parks := [] } else i
  | _ => i

def RegistryOp.install (op : RegistryOp) (r : MemorySelectedRegistry) (k : SelectedRouteKey)
    (i : Installed) : Installed :=
  match op with
  | .record role pfx t =>
    if k = ⟨role, pfx⟩ then (r.lookup k).elim i fun e => t.install e i else i
  | .remove role pfx => if k = ⟨role, pfx⟩ then {} else i
  | .removeRole role => if k.role = role then {} else i
  | .reserve _ => i
  | .restoreRole _ => i

/-- The registry with its history. -/
structure Tracked where
  registry : MemorySelectedRegistry
  installed : SelectedRouteKey → Installed

def Tracked.start : Tracked := ⟨empty, fun _ => {}⟩

def Tracked.step (s : Tracked) (op : RegistryOp) : Tracked :=
  { registry := (op.apply s.registry).2
    installed := fun k =>
      match (op.apply s.registry).1 with
      | .ok () => op.install s.registry k (s.installed k)
      | .error _ => s.installed k }

/-- Runs without restores. -/
inductive TrackedRun : Tracked → Prop
  | start : TrackedRun .start
  | step {s op} (h : TrackedRun s) (hop : ∀ c, op ≠ .restoreRole c) : TrackedRun (s.step op)

/-- The evidence of every live record accounts for all that may be installed
    under its key. -/
def Tracked.Accounted (s : Tracked) : Prop :=
  ∀ k e, s.registry.lookup k = some e →
    (∀ x ∈ (s.installed k).routes, e.Names x) ∧ (∀ x ∈ (s.installed k).parks, e.NamesPark x)

/-- The target of the route transaction may be in the kernel and is not the
    verified row. -/
def SelectedRoute.TargetUnproven (e : SelectedRoute) : Prop :=
  (e.state = .applying ∨ e.state = .retiring ∧ e.retireDesired = true) ∧
    e.owned ≠ some e.desired

def SelectedPark.TargetUnproven (p : SelectedPark) : Prop :=
  (p.state = .applying ∨ p.state = .retiring ∧ p.retireDesired = true) ∧
    p.owned ≠ some p.desired

/-- The operations that keep the evidence: no reservation changes an unproven
    target, none sends an unproven park target back to pending, and no pending
    park is cleared while it still owns a row. -/
def RegistryOp.KeepsEvidence (op : RegistryOp) (r : MemorySelectedRegistry) : Prop :=
  match op with
  | .reserve a => ∀ e, r.lookup a.key = some e → e.TargetUnproven → a.desired = e.desired
  | .record role pfx (.reservePark desired forcePending) =>
    ∀ e p, r.lookup ⟨role, pfx⟩ = some e → e.park = some p → p.TargetUnproven →
      desired = p.desired ∧ forcePending = false
  | .record role pfx .clearPark =>
    ∀ e p, r.lookup ⟨role, pfx⟩ = some e → e.park = some p → p.state = .pending → p.owned = none
  | _ => True

/-- Runs whose operations all keep the evidence. -/
inductive KeptRun : Tracked → Prop
  | start : KeptRun .start
  | step {s op} (h : KeptRun s) (hop : ∀ c, op ≠ .restoreRole c)
      (hkeeps : op.KeepsEvidence s.registry) : KeptRun (s.step op)

-- === One record ===

def SelectedRoute.Accounts (e : SelectedRoute) (i : Installed) : Prop :=
  (∀ x ∈ i.routes, e.Names x) ∧ (∀ x ∈ i.parks, e.NamesPark x)

variable {e e' : SelectedRoute} {x : SelectedRouteIdentity} {p : SelectedPark}
  {t : RecordTransition} {i : Installed} {s : Tracked}

theorem SelectedRoute.Names.owned (h : e.Names x) (h1 : e.state ≠ .applying)
    (h2 : e.state ≠ .retiring) : e.owned = some x := by
  rcases h with h | ⟨_, h⟩ | ⟨_, h, _⟩
  · exact h
  · exact absurd h h1
  · exact absurd h h2

theorem SelectedPark.Names.owned {x : SelectedParkIdentity} (h : p.Names x)
    (h1 : p.state ≠ .applying) (h2 : p.state ≠ .retiring) : p.owned = some x := by
  rcases h with h | ⟨_, h⟩ | ⟨_, h, _⟩
  · exact h
  · exact absurd h h1
  · exact absurd h h2

theorem SelectedRoute.Names.owned_of_proven (h : e.Names x) (hp : ¬ e.TargetUnproven) :
    e.owned = some x := by
  rcases h with h | ⟨rfl, h⟩ | ⟨rfl, h⟩
  · exact h
  · by_contra hne
    exact hp ⟨.inl h, hne⟩
  · by_contra hne
    exact hp ⟨.inr h, hne⟩

theorem SelectedPark.Names.owned_of_proven {x : SelectedParkIdentity} (h : p.Names x)
    (hp : ¬ p.TargetUnproven) : p.owned = some x := by
  rcases h with h | ⟨rfl, h⟩ | ⟨rfl, h⟩
  · exact h
  · by_contra hne
    exact hp ⟨.inl h, hne⟩
  · by_contra hne
    exact hp ⟨.inr h, hne⟩

/-- The record that a reservation writes still names what the old one named. -/
theorem Reservation.next_names {a : Reservation} (hkeep : e.TargetUnproven → a.desired = e.desired)
    (h : e.Names x) : (a.next (some e)).Names x := by
  by_cases hu : e.TargetUnproven
  · have hd := hkeep hu
    have hstate : (a.next (some e)).state = e.state := by
      simp [next, hd]
    have hdesired : (a.next (some e)).desired = e.desired := hd
    unfold SelectedRoute.Names
    rw [hstate, hdesired]
    exact h
  · exact .inl (h.owned_of_proven hu)

theorem reservedPark_names {desired : SelectedParkIdentity} {forcePending : Bool}
    (hkeep : p.TargetUnproven → desired = p.desired ∧ forcePending = false)
    {x : SelectedParkIdentity} (h : p.Names x) :
    (reservedPark (some p) desired forcePending).Names x := by
  by_cases hu : p.TargetUnproven
  · obtain ⟨rfl, rfl⟩ := hkeep hu
    simpa [reservedPark] using h
  have howned : (reservedPark (some p) desired forcePending).owned = p.owned := by
    simp only [reservedPark]
    split_ifs <;> rfl
  exact .inl (howned.trans (h.owned_of_proven hu))

theorem RecordTransition.Edits.names (hedit : t.Edits e e') (hn : e.Names x)
    (hobserved : ∀ observed, t = .markActive observed → x = observed) : e'.Names x := by
  cases hedit with
  | markApplying hs | beginRepair hs => exact .inl (hn.owned (by simp [hs]) (by simp [hs]))
  | markActive hs => exact .inl (hobserved _ rfl ▸ rfl)
  | markRetiring hs =>
    rcases hn with hx | ⟨hx, ha⟩ | ⟨_, hr, _⟩
    · exact .inl hx
    · exact .inr (.inr ⟨hx, rfl, by simpa using ha⟩)
    · simp [hr] at hs
  | markApplyingAgain _ | reservePark _ _ | markParkApplying _ _ | markParkActive _ _
  | markParkRetiring _ _ | clearNoPark _ | clearPark _ _ => exact hn

/-- An accepted transition still names a park row, unless it verifies another,
    forgets an unproven target or drops the park. -/
theorem RecordTransition.Edits.namesPark {x : SelectedParkIdentity} (hedit : t.Edits e e')
    (hn : e.NamesPark x) (hobserved : ∀ observed, t = .markParkActive observed → x = observed)
    (hreserve : ∀ desired forcePending, t = .reservePark desired forcePending →
      ∀ p, e.park = some p → p.TargetUnproven → desired = p.desired ∧ forcePending = false)
    (hclear : t ≠ .clearPark) : e'.NamesPark x := by
  obtain ⟨q, hq, hx⟩ := hn
  cases hedit with
  | reservePark desired forcePending =>
    exact ⟨_, rfl, hq ▸ reservedPark_names (hreserve _ _ rfl q hq) hx⟩
  | markParkApplying hp hs =>
    cases hp.symm.trans hq
    exact ⟨_, rfl, .inl (hx.owned (by simp [hs]) (by simp [hs]))⟩
  | markParkActive hp hs => exact ⟨_, rfl, .inl (hobserved _ rfl ▸ rfl)⟩
  | markParkRetiring hp hs =>
    cases hp.symm.trans hq
    refine ⟨_, rfl, ?_⟩
    rcases hx with hx | ⟨hx, ha⟩ | ⟨_, hr, _⟩
    · exact .inl hx
    · exact .inr (.inr ⟨hx, rfl, by simpa using ha⟩)
    · simp [hr] at hs
  | clearNoPark _ | clearPark _ _ => exact absurd rfl hclear
  | markApplying _ | markApplyingAgain _ | markActive _ | markRetiring _ | beginRepair _ =>
    exact ⟨q, hq, hx⟩

/-- What a transition leaves in the history of the routes: the target it
    authorizes, and what it does not prove gone. -/
theorem RecordTransition.mem_install_routes (h : x ∈ (t.install e i).routes) :
    (t = .markApplying ∧ x = e.desired) ∨
      (x ∈ i.routes ∧ ∀ observed, t = .markActive observed → x = observed) := by
  cases t with
  | markApplying => simpa [install] using h
  | markActive observed => simpa [install] using h
  | markParkApplying => cases hp : e.park <;> simp_all [install]
  | clearPark =>
    refine .inr ⟨?_, by simp⟩
    simp only [install] at h
    split_ifs at h
    · exact h
    · exact h
  | _ => exact .inr ⟨h, by simp⟩

theorem RecordTransition.mem_install_parks {x : SelectedParkIdentity}
    (h : x ∈ (t.install e i).parks) :
    (t = .markParkApplying ∧ ∃ p, e.park = some p ∧ x = p.desired) ∨
      (x ∈ i.parks ∧ (∀ observed, t = .markParkActive observed → x = observed) ∧
        (t = .clearPark → e.park.map SelectedPark.state ≠ some .retiring)) := by
  cases t with
  | markParkApplying => cases hp : e.park <;> simp_all [install]
  | markParkActive observed => simpa [install] using h
  | clearPark =>
    simp only [install] at h
    split_ifs at h with hs
    · cases h
    · exact .inr ⟨h, by simp, fun _ => hs⟩
  | _ => exact .inr ⟨h, by simp, by simp⟩

theorem RecordTransition.Edits.accounts (hedit : t.Edits e e') (h : e.Accounts i)
    (hreserve : ∀ desired forcePending, t = .reservePark desired forcePending →
      ∀ p, e.park = some p → p.TargetUnproven → desired = p.desired ∧ forcePending = false)
    (hclear : t = .clearPark → ∀ p, e.park = some p → p.state = .pending → p.owned = none) :
    e'.Accounts (t.install e i) := by
  refine ⟨fun x hx => ?_, fun x hx => ?_⟩
  · rcases mem_install_routes hx with ⟨rfl, rfl⟩ | ⟨hx, hobserved⟩
    · cases hedit with
      | markApplying _ => exact .inr (.inl ⟨rfl, rfl⟩)
      | markApplyingAgain hs => exact .inr (.inl ⟨rfl, hs⟩)
    · exact hedit.names (h.1 x hx) hobserved
  · rcases mem_install_parks hx with ⟨rfl, p, hp, rfl⟩ | ⟨hi, hobserved, hkept⟩
    · cases hedit with
      | markParkApplying hp' _ =>
        cases hp.symm.trans hp'
        exact ⟨_, rfl, .inr (.inl ⟨rfl, rfl⟩)⟩
    by_cases ht : t = .clearPark
    · -- only a park that owns nothing is cleared outside of a retirement
      subst ht
      obtain ⟨q, hq, hn⟩ := h.2 x hi
      cases hedit with
      | clearNoPark hp => simp [hp] at hq
      | clearPark hp hs =>
        cases hp.symm.trans hq
        have hs' := hs.resolve_right fun hr => hkept rfl (by simp [hp, hr])
        have ho := hn.owned (by simp [hs']) (by simp [hs'])
        rw [hclear rfl _ hp hs'] at ho
        cases ho
    · exact hedit.namesPark (h.2 x hi) hobserved hreserve ht

-- === Whole runs ===

/-- The induction hypothesis of a run: live records account for their history,
    and a key without a record has none. -/
structure Tracked.Inv (s : Tracked) : Prop where
  accounts : ∀ k e, s.registry.lookup k = some e → e.Accounts (s.installed k)
  routes_none : ∀ k, s.registry.lookup k = none → (s.installed k).routes = []
  parks_none : ∀ k, s.registry.lookup k = none → (s.installed k).parks = []

theorem Tracked.inv_start : Tracked.start.Inv :=
  ⟨fun _ _ h => (nomatch h), fun _ _ => rfl, fun _ _ => rfl⟩

theorem Tracked.Inv.of_lookup_eq {s' : Tracked} (h : s.Inv)
    (heq : ∀ k, (s'.registry.lookup k = s.registry.lookup k ∧ s'.installed k = s.installed k) ∨
      (∃ e', s'.registry.lookup k = some e' ∧ e'.Accounts (s'.installed k)) ∨
      (s'.registry.lookup k = none ∧ s'.installed k = {})) : s'.Inv := by
  refine ⟨fun k e hl => ?_, fun k hl => ?_, fun k hl => ?_⟩
  · rcases heq k with ⟨h1, h2⟩ | ⟨e', h1, h2⟩ | ⟨h1, _⟩
    · exact h2 ▸ h.accounts k e (h1 ▸ hl)
    · cases h1.symm.trans hl
      exact h2
    · rw [h1] at hl
      cases hl
  · rcases heq k with ⟨h1, h2⟩ | ⟨e', h1, _⟩ | ⟨_, h2⟩
    · exact h2 ▸ h.routes_none k (h1 ▸ hl)
    · rw [h1] at hl
      cases hl
    · rw [h2]
  · rcases heq k with ⟨h1, h2⟩ | ⟨e', h1, _⟩ | ⟨_, h2⟩
    · exact h2 ▸ h.parks_none k (h1 ▸ hl)
    · rw [h1] at hl
      cases hl
    · rw [h2]

theorem Tracked.Inv.step_of_error (h : s.Inv) {op : RegistryOp} {message : String}
    (he : (op.apply s.registry).1 = .error message) : (s.step op).Inv := by
  refine h.of_lookup_eq fun k => .inl ⟨RegistryOp.apply_of_error he k, ?_⟩
  simp [step, he]

theorem Tracked.Inv.step_reserve (h : s.Inv) {a : Reservation}
    (hkeeps : (RegistryOp.reserve a).KeepsEvidence s.registry) : (s.step (.reserve a)).Inv := by
  rcases reserve_spec s.registry a with ⟨message, he⟩ | ⟨_, _, ⟨_, _, _, he⟩ | he⟩
  · have herr : ((RegistryOp.reserve a).apply s.registry).1 = .error message := by
      simp [RegistryOp.apply, he]
    exact h.step_of_error herr
  · refine h.of_lookup_eq fun k => .inl ?_
    simp [step, RegistryOp.apply, RegistryOp.install, he]
  refine h.of_lookup_eq fun k => ?_
  have hinst : (s.step (.reserve a)).installed k = s.installed k := by
    simp [step, RegistryOp.apply, RegistryOp.install, he]
  have hreg : (s.step (.reserve a)).registry =
      s.registry.set a.key (a.next (s.registry.lookup a.key)) := by
    simp [step, RegistryOp.apply, he]
  by_cases hk : k = a.key
  · subst hk
    refine .inr (.inl ⟨_, by rw [hreg, lookup_set_self], ?_⟩)
    rw [hinst]
    cases hl : s.registry.lookup a.key with
    | none =>
      refine ⟨fun x hx => ?_, fun x hx => ?_⟩
      · rw [h.routes_none _ hl] at hx
        cases hx
      · rw [h.parks_none _ hl] at hx
        cases hx
    | some e =>
      obtain ⟨hroutes, hparks⟩ := h.accounts _ _ hl
      exact ⟨fun x hx => Reservation.next_names (hkeeps e hl) (hroutes x hx), hparks⟩
  · exact .inl ⟨by rw [hreg, lookup_set_of_ne _ _ hk], hinst⟩

theorem Tracked.Inv.step_record (h : s.Inv) {role : String} {pfx : Prefix}
    (hkeeps : (RegistryOp.record role pfx t).KeepsEvidence s.registry) :
    (s.step (.record role pfx t)).Inv := by
  rcases t.apply_spec s.registry role pfx with
    ⟨message, he, _⟩ | ⟨entry, edited, _, _, hl, hedit, he⟩
  · exact h.step_of_error he
  refine h.of_lookup_eq fun k => ?_
  have hreg : (s.step (.record role pfx t)).registry = s.registry.set ⟨role, pfx⟩ edited := by
    simp [step, RegistryOp.apply, he]
  by_cases hk : k = ⟨role, pfx⟩
  · subst hk
    refine .inr (.inl ⟨_, by rw [hreg, lookup_set_self], ?_⟩)
    have hinst : (s.step (.record role pfx t)).installed ⟨role, pfx⟩ =
        t.install entry (s.installed ⟨role, pfx⟩) := by
      simp [step, RegistryOp.apply, RegistryOp.install, he, hl]
    rw [hinst]
    refine hedit.accounts (h.accounts _ _ hl) ?_ ?_
    · rintro desired forcePending rfl p hp
      exact hkeeps entry p hl hp
    · rintro rfl p hp
      exact hkeeps entry p hl hp
  · refine .inl ⟨by rw [hreg, lookup_set_of_ne _ _ hk], ?_⟩
    simp [step, RegistryOp.apply, RegistryOp.install, he, hk]

theorem Tracked.Inv.step (h : s.Inv) {op : RegistryOp} (hop : ∀ c, op ≠ .restoreRole c)
    (hkeeps : op.KeepsEvidence s.registry) : (s.step op).Inv := by
  cases op with
  | reserve a => exact h.step_reserve hkeeps
  | record role pfx t => exact h.step_record hkeeps
  | restoreRole c => exact absurd rfl (hop c)
  | remove role pfx =>
    refine h.of_lookup_eq fun k => ?_
    by_cases hk : k = ⟨role, pfx⟩
    · refine .inr (.inr ?_)
      simp [Tracked.step, RegistryOp.apply, RegistryOp.install, remove, lookup_erase, hk]
    · refine .inl ?_
      simp [Tracked.step, RegistryOp.apply, RegistryOp.install, remove, lookup_erase, hk]
  | removeRole role =>
    refine h.of_lookup_eq fun k => ?_
    by_cases hk : k.role = role
    · refine .inr (.inr ?_)
      simp [Tracked.step, RegistryOp.apply, RegistryOp.install, lookup_removeRole, hk]
    · refine .inl ?_
      simp [Tracked.step, RegistryOp.apply, RegistryOp.install, lookup_removeRole, hk]

theorem KeptRun.inv (h : KeptRun s) : s.Inv := by
  induction h with
  | start => exact Tracked.inv_start
  | step _ hop hkeeps ih => exact ih.step hop hkeeps

/-- In every run whose operations keep the evidence, every state accounts for
    all that may be installed under its live records. -/
theorem KeptRun.names_installed {s : Tracked} (h : KeptRun s) : s.Accounted :=
  fun k e hl => h.inv.accounts k e hl

/-- Re-reserving the target of an authorized mutation keeps the evidence. -/
theorem KeptRun.names_installed_reserved_again :
    ∃ s : Tracked, KeptRun s ∧
      (s.installed ⟨"work", samplePrefix⟩).routes = [sampleIdentity 7] ∧ s.Accounted := by
  have h1 : KeptRun (Tracked.start.step (.reserve (sampleReservation 7))) :=
    .step .start (by simp) (fun _ he => (nomatch he))
  have h2 := @KeptRun.step _ (.record "work" samplePrefix .markApplying) h1 (by simp) trivial
  have h3 := @KeptRun.step _ (.reserve (sampleReservation 7)) h2 (by simp) (by
    intro e he _
    cases he
    rfl)
  exact ⟨_, h3, rfl, KeptRun.names_installed h3⟩

theorem TrackedRun.foldl (h : TrackedRun s) (ops : List RegistryOp)
    (hops : ∀ op ∈ ops, ∀ c, op ≠ .restoreRole c) : TrackedRun (ops.foldl Tracked.step s) := by
  induction ops generalizing s with
  | nil => exact h
  | cons op ops ih =>
    rw [List.forall_mem_cons] at hops
    exact ih (h.step hops.1) hops.2

/-- Three runs that lose evidence: a reservation retargets an authorized
    mutation, a forced park reservation sends an authorized park back to
    pending, and a pending park that still owns its row is cleared. -/
theorem evidence_lost :
    (∃ s e x, TrackedRun s ∧ s.registry.lookup ⟨"work", samplePrefix⟩ = some e ∧
      x ∈ (s.installed ⟨"work", samplePrefix⟩).routes ∧ ¬ e.Names x) ∧
    (∃ s e x, TrackedRun s ∧ s.registry.lookup ⟨"work", samplePrefix⟩ = some e ∧
      x ∈ (s.installed ⟨"work", samplePrefix⟩).parks ∧
      e.park = some { state := .pending, desired := samplePark } ∧ ¬ e.NamesPark x) ∧
    (∃ s e x, TrackedRun s ∧ s.registry.lookup ⟨"work", samplePrefix⟩ = some e ∧
      x ∈ (s.installed ⟨"work", samplePrefix⟩).parks ∧ e.park = none) := by
  let reserved : RegistryOp := .reserve (sampleReservation 7)
  let parkOps : List RegistryOp :=
    [reserved, .record "work" samplePrefix (.reservePark samplePark false),
      .record "work" samplePrefix .markParkApplying]
  refine ⟨?_, ?_, ?_⟩
  · let ops : List RegistryOp :=
      [reserved, .record "work" samplePrefix .markApplying, .reserve (sampleReservation 8)]
    exact ⟨ops.foldl Tracked.step .start, _, sampleIdentity 7,
      TrackedRun.start.foldl ops (by simp [ops, reserved]), rfl, by decide, by decide⟩
  · let ops := parkOps ++ [.record "work" samplePrefix (.reservePark samplePark true)]
    exact ⟨ops.foldl Tracked.step .start, _, samplePark,
      TrackedRun.start.foldl ops (by simp [ops, parkOps, reserved]), rfl, by decide, by decide,
      by decide⟩
  let ops := parkOps ++
    [.record "work" samplePrefix (.markParkActive samplePark),
      .record "work" samplePrefix (.reservePark samplePark true),
      .record "work" samplePrefix .clearPark]
  exact ⟨ops.foldl Tracked.step .start, _, samplePark,
    TrackedRun.start.foldl ops (by simp [ops, parkOps, reserved]), rfl, by decide, by decide⟩

end Kikimora.Routing

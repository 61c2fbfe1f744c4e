import Kikimora.Routing.RegistryInvariant

/-!
# Active records and their generations

`MarkActive` proves what a record wants. A `Reserve` that changes the target of an Active
record demotes it. One that changes only a generation leaves it Active, so that its proof
is one of earlier generations. Histories are listed newest first.
-/

namespace Kikimora.Routing

open MemorySelectedRegistry

def registryAfter (history : List RegistryOp) : MemorySelectedRegistry :=
  history.foldr (fun op r => (op.apply r).2) .empty

/-- A `Reserve` that succeeds and changes the target or a generation. Without a record it
    changes all of them. -/
def RegistryOp.Retargets (k : SelectedRouteKey) (r : MemorySelectedRegistry) : RegistryOp → Prop
  | .reserve a => a.key = k ∧ (r.reserve a).1 = .ok () ∧ ∀ e, r.lookup k = some e →
      ¬ (e.desired = a.desired ∧ e.toadGeneration = a.toadGeneration ∧
        e.routeGeneration = a.routeGeneration)
  | _ => False

/-- A `MarkActive` that observes the target of the record and succeeds. -/
def RegistryOp.Proves (k : SelectedRouteKey) (r : MemorySelectedRegistry) : RegistryOp → Prop
  | .record role pfx (.markActive observed) => ⟨role, pfx⟩ = k ∧
      (∃ e, r.lookup k = some e ∧ observed = e.desired) ∧
      (r.markActive role pfx observed).1 = .ok ()
  | _ => False

/-- A `MarkActive` has succeeded since the last `Reserve` that changed the record. -/
def Proven (k : SelectedRouteKey) : List RegistryOp → Prop
  | [] => False
  | op :: earlier => op.Proves k (registryAfter earlier) ∨
      ¬ op.Retargets k (registryAfter earlier) ∧ Proven k earlier

def ActiveProven (history : List RegistryOp) : Prop :=
  ∀ k e, (registryAfter history).lookup k = some e → e.state = .active → Proven k history

/-- A `Reserve` that changes an Active record demotes it and keeps its Owned. -/
def RegistryOp.Demotes (op : RegistryOp) (r : MemorySelectedRegistry) : Prop :=
  ∀ k e, op.Retargets k r → r.lookup k = some e → e.state = .active →
    ∃ e', (op.apply r).2.lookup k = some e' ∧ e'.state = .pending ∧ e'.owned = e.owned

/-- A `Reserve` of an Active record that keeps its target keeps its generations. -/
def RegistryOp.Careful (r : MemorySelectedRegistry) : RegistryOp → Prop
  | .reserve a => a.role ≠ "" → ∀ e, r.lookup a.key = some e → e.state = .active →
      e.desired = a.desired →
      e.toadGeneration = a.toadGeneration ∧ e.routeGeneration = a.routeGeneration
  | _ => True

section Step

variable {r : MemorySelectedRegistry} {op : RegistryOp} {k : SelectedRouteKey}
  {e e' : SelectedRoute} {a : Reservation}

/-- A change of an Active record is written, and only another target demotes it. -/
theorem reserve_retargets (h : (RegistryOp.reserve a).Retargets k r) (hl : r.lookup k = some e)
    (ha : e.state = .active) : ∃ e', (r.reserve a).2.lookup k = some e' ∧ e'.owned = e.owned ∧
      e'.state = if e.desired = a.desired then .active else .pending := by
  obtain ⟨rfl, hok, hchanged⟩ := h
  rcases reserve_spec r a with ⟨_, he⟩ | ⟨_, _, ⟨x, hx, hm, _⟩ | hset⟩
  · rw [he] at hok
    cases hok
  · simp only [Reservation.matches, Bool.and_eq_true, decide_eq_true_eq] at hm
    exact absurd ⟨hm.1.1.1.1.1, hm.1.2, hm.2⟩ (hchanged x hx)
  · rw [hset, hl]
    refine ⟨_, lookup_set_self .., rfl, ?_⟩
    by_cases hd : e.desired = a.desired <;> simp [Reservation.next, ha, hd]

/-- Only a `MarkActive` makes a record Active. -/
theorem active_before (hop : ∀ c, op ≠ .restoreRole c) (hl : (op.apply r).2.lookup k = some e')
    (ha : e'.state = .active) :
    op.Proves k r ∨ ∃ e, r.lookup k = some e ∧ e.state = .active := by
  have hsame (h : r.lookup k = some e') : ∃ e, r.lookup k = some e ∧ e.state = .active :=
    ⟨e', h, ha⟩
  cases op with
  | restoreRole c => exact absurd rfl (hop c)
  | remove role pfx =>
    simp only [RegistryOp.apply, remove, lookup_erase] at hl
    split_ifs at hl
    exact .inr (hsame hl)
  | removeRole role =>
    simp only [RegistryOp.apply, lookup_removeRole] at hl
    split_ifs at hl
    exact .inr (hsame hl)
  | reserve a =>
    refine .inr ?_
    rcases reserve_spec r a with ⟨_, he⟩ | ⟨_, _, ⟨_, _, _, he⟩ | he⟩ <;>
      simp only [RegistryOp.apply, he] at hl
    · exact hsame hl
    · exact hsame hl
    rw [lookup_set] at hl
    split_ifs at hl with hk
    · subst hk
      cases hl
      cases hx : r.lookup a.key with
      | none => simp [hx, Reservation.next] at ha
      | some x =>
        simp only [hx, Reservation.next] at ha
        split_ifs at ha
        exact ⟨x, rfl, ha⟩
    · exact hsame hl
  | record role pfx t =>
    rcases t.apply_spec r role pfx with ⟨_, _, hs⟩ | ⟨x, x', _, _, hx, hedits, heq⟩
    · exact .inr (hsame (hs k ▸ hl))
    simp only [RegistryOp.apply, heq, lookup_set] at hl
    split_ifs at hl with hk
    · subst hk
      cases hl
      cases hedits with
      | markActive _ => exact .inl ⟨rfl, ⟨x, hx, rfl⟩, congrArg Prod.fst heq⟩
      | markApplying _ | markRetiring _ | beginRepair _ => cases ha
      | _ => exact .inr ⟨_, hx, ha⟩
    · exact .inr (hsame hl)

theorem RegistryOp.Careful.demotes (h : op.Careful r) : op.Demotes r := by
  intro k e hr hl ha
  cases op with
  | reserve a =>
    obtain ⟨e', hl', howned, hstate⟩ := reserve_retargets hr hl ha
    refine ⟨e', hl', ?_, howned⟩
    rw [hstate, if_neg fun hd => ?_]
    obtain ⟨rfl, hok, hchanged⟩ := hr
    refine hchanged e hl ⟨hd, h (fun hrole => ?_) e hl ha hd⟩
    rw [MemorySelectedRegistry.reserve, if_pos hrole] at hok
    cases hok
  | _ => exact hr.elim

/-- A careless `Reserve` changes an Active record that stays Active. -/
theorem RegistryOp.exists_of_not_careful (hw : r.WellFormed) (h : ¬ op.Careful r) :
    ∃ k e e', op.Retargets k r ∧ r.lookup k = some e ∧ e.state = .active ∧
      (op.apply r).2.lookup k = some e' ∧ e'.state = .active ∧ ¬ op.Proves k r := by
  cases op with
  | reserve a =>
    simp only [RegistryOp.Careful, not_forall] at h
    obtain ⟨hrole, e, hl, ha, hd, hchanged⟩ := h
    have hvalid : a.desired.validate a.pfx = .ok () := by
      have hpfx : e.pfx = a.pfx := hw.pfx_eq hl
      rw [← hd, ← hpfx]
      exact (hw _ _ hl).2.desired_valid
    have hr : (RegistryOp.reserve a).Retargets a.key r := by
      refine ⟨rfl, ?_, fun x hx hsame => hchanged ?_⟩
      · rcases reserve_spec r a with ⟨m, he⟩ | ⟨_, _, ⟨_, _, _, he⟩ | he⟩
        · simp only [MemorySelectedRegistry.reserve, hrole, if_false, hvalid] at he
          split_ifs at he <;> cases he
        · rw [he]
        · rw [he]
      · rw [hl] at hx
        cases hx
        exact hsame.2
    obtain ⟨e', hl', _, hstate⟩ := reserve_retargets hr hl ha
    exact ⟨a.key, e, e', hr, hl, ha, hl', hstate.trans (if_pos hd), id⟩
  | _ => exact absurd trivial h

end Step

theorem wellFormed_registryAfter (history : List RegistryOp) :
    (registryAfter history).WellFormed := by
  induction history with
  | nil => exact wellFormed_empty
  | cons op earlier ih => exact wellFormed_apply ih op

/-- One careful operation. -/
theorem ActiveProven.cons {op : RegistryOp} {earlier : List RegistryOp} (h : ActiveProven earlier)
    (hop : ∀ c, op ≠ .restoreRole c) (hc : op.Careful (registryAfter earlier)) :
    ActiveProven (op :: earlier) := by
  intro k e' hl ha
  rcases active_before hop hl ha with hproves | ⟨e, he, hactive⟩
  · exact .inl hproves
  refine .inr ⟨fun hr => ?_, h k e he hactive⟩
  obtain ⟨x, hx, hpending, _⟩ := hc.demotes k e hr he hactive
  rw [show (registryAfter (op :: earlier)).lookup k = _ from hx] at hl
  cases hl
  rw [hpending] at ha
  cases ha

/-- Active records are proven at their generations throughout a history, and every
    `Reserve` that changes one demotes it, exactly if no `Reserve` changes only a
    generation of an Active record. -/
theorem active_proven_iff (history : List RegistryOp) (hrestore : ∀ c, .restoreRole c ∉ history) :
    ((∀ earlier, earlier <:+ history → ActiveProven earlier) ↔
      ∀ op earlier, op :: earlier <:+ history → op.Careful (registryAfter earlier)) ∧
    ((∀ op earlier, op :: earlier <:+ history → op.Demotes (registryAfter earlier)) ↔
      ∀ op earlier, op :: earlier <:+ history → op.Careful (registryAfter earlier)) := by
  refine ⟨⟨fun h op earlier hs => ?_, fun h earlier hs => ?_⟩, fun h op earlier hs => ?_,
    fun h op earlier hs => (h op earlier hs).demotes⟩
  · by_contra hc
    obtain ⟨k, e, e', hr, _, _, hl', ha', hproves⟩ :=
      RegistryOp.exists_of_not_careful (wellFormed_registryAfter earlier) hc
    rcases h _ hs k e' hl' ha' with hp | ⟨hn, _⟩
    · exact hproves hp
    · exact hn hr
  · induction earlier with
    | nil => exact fun k e hl => nomatch hl
    | cons op earlier ih =>
      refine (ih ((List.suffix_cons op earlier).trans hs)).cons (fun c heq => ?_) (h op earlier hs)
      exact hrestore c (hs.subset (heq ▸ List.mem_cons_self))
  · by_contra hc
    obtain ⟨k, e, e', hr, hl, ha, hl', ha', _⟩ :=
      RegistryOp.exists_of_not_careful (wellFormed_registryAfter earlier) hc
    obtain ⟨x, hx, hpending, _⟩ := h op earlier hs k e hr hl ha
    rw [hl'] at hx
    cases hx
    rw [hpending] at ha'
    cases ha'

/-- The sample record is reserved and proven on interface 7. -/
def provenHistory : List RegistryOp :=
  [.record "work" samplePrefix (.markActive (sampleIdentity 7)),
    .record "work" samplePrefix .markApplying, .reserve (sampleReservation 7)]

theorem active_proven_iff_sample : ActiveProven provenHistory := by
  refine (active_proven_iff provenHistory (by simp [provenHistory])).1.mpr ?_ _ List.suffix_rfl
  intro op earlier hs
  simp only [provenHistory, List.suffix_cons_iff, List.cons.injEq, List.suffix_nil,
    reduceCtorEq, or_false] at hs
  rcases hs with ⟨rfl, -⟩ | ⟨rfl, -⟩ | ⟨rfl, rfl⟩
  · trivial
  · trivial
  · exact fun _ _ hl => nomatch hl

/-- The record is then reserved again, unchanged but for its route generation. -/
def regeneratedHistory : List RegistryOp :=
  .reserve { sampleReservation 7 with routeGeneration := 2 } :: provenHistory

/-- A new route generation leaves the record Active, with a proof of the old one. -/
theorem regeneration_keeps_active :
    (∃ e, (registryAfter regeneratedHistory).lookup ⟨"work", samplePrefix⟩ = some e ∧
      e.state = .active ∧ e.routeGeneration = 2) ∧
    ¬ Proven ⟨"work", samplePrefix⟩ regeneratedHistory := by
  refine ⟨⟨_, rfl, by decide +kernel, by decide +kernel⟩, ?_⟩
  rintro (hproves | ⟨hn, _⟩)
  · exact hproves
  refine hn ⟨rfl, by decide +kernel, fun e he hsame => ?_⟩
  have hgeneration : ((registryAfter provenHistory).lookup ⟨"work", samplePrefix⟩).map
      (·.routeGeneration) = some 1 := by decide +kernel
  rw [he, Option.map_some, hsame.2.2] at hgeneration
  exact absurd hgeneration (by decide)

end Kikimora.Routing

import Kikimora.Control.FaultFree
import Kikimora.Control.WriteAhead

/-!
# Retiring a record

What `retireRecordLocked` leaves of a record, whatever fails on the way: the
record is gone with exactly the rows it names, or every row it names and that is
still there is still named.
-/

namespace Kikimora.Control

open Net Routing Platform Lib

/-- The record is gone from the registry and from the checkpoint, and of the rows
    of its prefix exactly those that it named. -/
structure Retired (cfg : Config) (role : String) (pfx : Prefix) (e : SelectedRoute)
    (w w' : World) : Prop where
  registry : w'.registry.lookup ⟨role, pfx⟩ = none
  disk : cfg.stateDir role = true → diskRecord w' role pfx = none
  rows : ∀ row, row ∈ w'.kernel pfx ↔ row ∈ w.kernel pfx ∧ ¬ e.NamesRow row

/-- Every row that the record named and that is still there is named by what is
    registered. -/
def StillNamed (role : String) (pfx : Prefix) (e : SelectedRoute) (w' : World) : Prop :=
  ∀ row ∈ w'.kernel pfx, e.NamesRow row →
    ∃ e', w'.registry.lookup ⟨role, pfx⟩ = some e' ∧ e'.NamesRow row

def RetirementAccounted (cfg : Config) (role : String) (pfx : Prefix) (e : SelectedRoute)
    (w : World) : Prop :=
  ∀ trace o w', Exec FaultStep (retireRecordLocked cfg role pfx) w trace o w' →
    (o = .returned () → Retired cfg role pfx e w w') ∧
      ∀ err, o = .failed err → StillNamed role pfx e w'

def PendingParkInstalled (pfx : Prefix) (e : SelectedRoute) (w : World) : Prop :=
  ∃ p i, e.park = some p ∧ p.state = .pending ∧ p.owned = some i ∧ .park i ∈ w.kernel pfx

/-- A retirement of `e` that started in `w₀` has come to `w`. -/
structure RetiringFrom (role : String) (pfx : Prefix) (e : SelectedRoute) (w₀ w : World) :
    Prop where
  wellFormed : w.registry.WellFormed
  kept : ∀ row ∈ w₀.kernel pfx, ¬ e.NamesRow row → row ∈ w.kernel pfx
  shrinks : ∀ row ∈ w.kernel pfx, row ∈ w₀.kernel pfx
  named : StillNamed role pfx e w

def SameNames (e e' : SelectedRoute) : Prop := ∀ row, e'.NamesRow row ↔ e.NamesRow row

section

variable {e e' : SelectedRoute} {p : SelectedPark} {pfx : Prefix}

theorem mem_removalCandidates_iff {i : SelectedRouteIdentity} :
    i ∈ removalCandidates e ↔ e.Names i := by
  refine ⟨fun h => ?_, mem_removalCandidates_of_names⟩
  simp only [removalCandidates, List.mem_append, Option.mem_toList] at h
  rcases h with h | h
  · exact Or.inl h
  split_ifs at h with hs
  · rw [List.mem_singleton.mp h]
    simp only [Bool.and_eq_true, Bool.or_eq_true, decide_eq_true_eq] at hs
    rcases hs.1 with hs | hs
    · exact Or.inr (Or.inl ⟨rfl, hs⟩)
    · exact Or.inr (Or.inr ⟨rfl, hs⟩)
  · cases h

theorem parkRemovalCandidates_eq (hs : p.state = .retiring) (pfx : Prefix) :
    ∃ ids, parkRemovalCandidates pfx p = .ok ids ∧ ∀ i, i ∈ ids ↔ p.Names i := by
  obtain ⟨ids, hids, hall⟩ := mem_parkRemovalCandidates_of_names hs pfx
  refine ⟨ids, hids, fun i => ⟨fun hi => ?_, hall i⟩⟩
  simp only [parkRemovalCandidates, hs, Except.ok.injEq] at hids
  subst hids
  rcases List.mem_append.mp hi with hi | hi
  · exact Or.inl (Option.mem_toList.mp hi)
  split_ifs at hi with hr ho
  · cases hi
  · exact Or.inr (Or.inr ⟨(List.mem_singleton.mp hi).symm, hs, hr⟩)
  · cases hi

theorem SameNames.refl (e : SelectedRoute) : SameNames e e := fun _ => Iff.rfl

theorem SameNames.trans {e'' : SelectedRoute} (h : SameNames e e') (h' : SameNames e' e'') :
    SameNames e e'' := fun row => (h' row).trans (h row)

theorem sameNames_markRetiring (h : RecordTransition.markRetiring.Edits e e') : SameNames e e' := by
  intro row
  refine ⟨?_, h.namesRow trivial⟩
  cases h with
  | markRetiring hs =>
    cases row with
    | route i =>
      rintro (ho | ⟨_, hs'⟩ | ⟨hd, _, hr⟩)
      · exact Or.inl ho
      · cases hs'
      · exact Or.inr (Or.inl ⟨hd, of_decide_eq_true hr⟩)
    | park i | foreign text => exact id

theorem sameNames_markParkRetiring (h : RecordTransition.markParkRetiring.Edits e e') :
    SameNames e e' := by
  intro row
  refine ⟨?_, h.namesRow trivial⟩
  cases h with
  | markParkRetiring hp hs =>
    cases row with
    | route i | foreign text => exact id
    | park i =>
      rintro ⟨q, hq, hn⟩
      cases hq
      refine ⟨_, hp, ?_⟩
      rcases hn with ho | ⟨_, hs'⟩ | ⟨hd, _, hr⟩
      · exact Or.inl ho
      · cases hs'
      · exact Or.inr (Or.inl ⟨hd, of_decide_eq_true hr⟩)

end

-- === Under faults ===

section

variable {cfg : Config} {role : String} {pfx : Prefix} {e r : SelectedRoute} {w₀ w : World}
  {β : Type} {Q : Unit → World × Unit → Prop}

theorem RetiringFrom.of_eq {w' : World} (h : RetiringFrom role pfx e w₀ w)
    (hr : w'.registry = w.registry) (hk : w'.kernel = w.kernel) :
    RetiringFrom role pfx e w₀ w' := by
  refine ⟨hr ▸ h.wellFormed, hk ▸ h.kept, hk ▸ h.shrinks, ?_⟩
  intro row hrow
  rw [hr]
  exact h.named row (hk ▸ hrow)

theorem retiring_record (t : RecordTransition) (h : RetiringFrom role pfx e w₀ w)
    (hl : w.registry.lookup ⟨role, pfx⟩ = some r)
    (hkeep : ∀ r', t.Edits r r' → ∀ row ∈ w.kernel pfx, e.NamesRow row → r'.NamesRow row)
    (hQ : ∀ r' w', t.Edits r r' → RetiringFrom role pfx e w₀ w' →
      w'.registry.lookup ⟨role, pfx⟩ = some r' → w'.kernel = w.kernel → Q () (w', ())) :
    (registry fun r => t.apply r role pfx).Keeps (upholding (RetiringFrom role pfx e w₀)) Q
      (w, ()) := by
  refine keeps_record t h (fun reg hs => ?_) ?_
  · refine ⟨h.wellFormed.congr hs, h.kept, h.shrinks, ?_⟩
    intro row hrow hn
    obtain ⟨e', hl', hn'⟩ := h.named row hrow hn
    exact ⟨e', (hs _).trans hl', hn'⟩
  intro entry edited ha hl' hedit
  cases hl.symm.trans hl'
  have hself := MemorySelectedRegistry.lookup_set_self w.registry ⟨role, pfx⟩ edited
  have h' : RetiringFrom role pfx e w₀
      (w.withRegistry (w.registry.set ⟨role, pfx⟩ edited)) :=
    ⟨h.wellFormed.edited ha hl hedit, h.kept, h.shrinks,
      fun row hrow hn => ⟨edited, hself, hkeep edited hedit row hrow hn⟩⟩
  exact ⟨h', hQ edited _ hedit h' hself rfl⟩

variable (h : RetiringFrom role pfx e w₀ w)

include h

theorem retiring_checkpoint
    (hQ : ∀ w', RetiringFrom role pfx e w₀ w' → w'.registry = w.registry →
      w'.kernel = w.kernel → (cfg.stateDir role = true → ∃ generation,
        w'.disk role = some (checkpointOf w.registry role cfg.platform generation)) →
      Q () (w', ())) :
    (checkpoint cfg role).Keeps (upholding (RetiringFrom role pfx e w₀)) Q (w, ()) := by
  have h1 : RetiringFrom role pfx e w₀
      (w.touched role) := h.of_eq rfl rfl
  refine .step (keeps_memory h h1 ?_)
  refine keeps_writeCheckpoint h1 (fun hno => ?_) fun _ => ?_
  · refine hQ _ h1 rfl rfl fun hdir => ?_
    rw [hdir] at hno
    cases hno
  have h2 : RetiringFrom role pfx e w₀
      ((w.touched role).written role
        (checkpointOf w.registry role cfg.platform (w.memory.roleState role).routeGeneration)) :=
    h1.of_eq rfl rfl
  exact ⟨h2, hQ _ h2 rfl rfl fun _ => ⟨_, World.disk_written_self ..⟩⟩

theorem retiring_removes {c : RouteCall β} {Q : β → World × Unit → Prop}
    (hdel : ∀ m ∈ (c.plan w.platform w.kernel).2, m.Deletes pfx e.NamesRow)
    (hQ : ∀ b, (c.plan w.platform w.kernel).1 = .ok b →
      let w' := w.withKernel (applyAll (c.plan w.platform w.kernel).2 w.kernel)
      RetiringFrom role pfx e w₀ w' → Q b (w', ())) :
    (routes c).Keeps (upholding (RetiringFrom role pfx e w₀)) Q (w, ()) := by
  have hpart : ∀ ms, (∀ m ∈ ms, m ∈ (c.plan w.platform w.kernel).2) →
      RetiringFrom role pfx e w₀ (w.withKernel (applyAll ms w.kernel)) := by
    intro ms hms
    have hdel' : ∀ m ∈ ms, m.Deletes pfx e.NamesRow := fun m hm => hdel m (hms m hm)
    refine ⟨h.wellFormed, ?_, ?_, ?_⟩
    · intro row hrow hn
      exact mem_applyAll_deletes_of_mem hdel' (h.kept row hrow hn) fun hand => hn hand.2
    · intro row hrow
      exact h.shrinks row (mem_of_mem_applyAll_deletes hdel' hrow)
    · intro row hrow hn
      exact h.named row (mem_of_mem_applyAll_deletes hdel' hrow) hn
  refine keeps_routes h trivial (fun b hb => ?_) fun n err => ?_
  · exact ⟨hpart _ fun _ hm => hm, hQ b hb (hpart _ fun _ hm => hm)⟩
  · exact hpart _ fun _ hm => List.mem_of_mem_take hm

variable (hl : w.registry.lookup ⟨role, pfx⟩ = some r)

include hl

theorem retiring_removeSelectedRoute (hsame : SameNames e r)
    (hQ : ∀ w', RetiringFrom role pfx e w₀ w' → w'.registry = w.registry →
      (∀ i, .route i ∈ w'.kernel pfx → ¬ e.Names i) → Q () (w', ())) :
    (routes (.removeSelectedRoute r)).Keeps (upholding (RetiringFrom role pfx e w₀)) Q (w, ()) := by
  obtain rfl : r.pfx = pfx := h.wellFormed.pfx_eq hl
  refine retiring_removes h (fun m hm => ?_) fun _ hb h' => hQ _ h' rfl ?_
  · obtain ⟨_, ⟨i, hi, rfl⟩, rfl⟩ := deletes_removeSelectedRoute hm
    exact ⟨_, (hsame (.route i)).mp (mem_removalCandidates_iff.mp hi), rfl⟩
  · intro i hi hn
    have hgone := ((mem_removeSelectedRoute hb).mp hi).2
    exact hgone ⟨rfl, i, mem_removalCandidates_iff.mpr ((hsame (.route i)).mpr hn), rfl⟩

theorem retiring_resumePark {p : SelectedPark} (hsame : SameNames e r) (hp : r.park = some p)
    (hs : p.state = .retiring) (hroutes : ∀ i, .route i ∈ w.kernel pfx → ¬ e.Names i)
    (hQ : ∀ w', RetiringFrom role pfx e w₀ w' → (∀ row ∈ w'.kernel pfx, ¬ e.NamesRow row) →
      Q () (w', ())) :
    (resumeParkRetirementLocked cfg role pfx).Keeps (upholding (RetiringFrom role pfx e w₀)) Q
      (w, ()) := by
  refine .step (keeps_read h ?_)
  rw [registryEntryOf_eq h.wellFormed, hl]
  simp only [Option.bind_some, hp]
  obtain ⟨ids, hids, hall⟩ := parkRemovalCandidates_eq hs pfx
  have hnames : ∀ i, i ∈ ids ↔ e.NamesPark i := by
    intro i
    rw [hall]
    refine Iff.trans ⟨fun hn => ⟨p, hp, hn⟩, ?_⟩ (hsame (.park i))
    rintro ⟨q, hq, hn⟩
    cases hp.symm.trans hq
    exact hn
  refine .step (retiring_removes h (fun m hm => ?_) fun _ _ h1 => ?_)
  · obtain ⟨_, ⟨i, hi, rfl⟩, rfl⟩ := deletes_removeManagedPark hids hm
    exact ⟨.park i, (hnames i).mp hi, rfl⟩
  -- nothing that the record names is left, so that the park may be dropped
  have hgone : ∀ row ∈ applyAll (removeManagedPark w.kernel pfx p).2 w.kernel pfx,
      ¬ e.NamesRow row := by
    intro row hrow hn
    obtain ⟨hold, hkept⟩ := (mem_removeManagedPark hids).mp hrow
    cases row with
    | route i => exact hroutes i hold hn
    | park i => exact hkept ⟨rfl, i, (hnames i).mpr hn, rfl⟩
    | foreign text => exact hn
  refine .step (retiring_record .clearPark h1 hl (fun _ _ row hrow hn =>
    absurd hn (hgone row hrow)) fun r2 w2 _ h2 hl2 hk2 => ?_)
  exact retiring_checkpoint h2 fun w3 h3 _ hk3 _ => hQ w3 h3 (by rw [hk3, hk2]; exact hgone)

/-- The park switch of a retirement, when no Pending park has its row installed. -/
theorem retiring_retirePark (hsame : SameNames e r)
    (hpending : ¬ PendingParkInstalled pfx r w₀)
    (hroutes : ∀ i, .route i ∈ w.kernel pfx → ¬ e.Names i)
    (hQ : ∀ w', RetiringFrom role pfx e w₀ w' → (∀ row ∈ w'.kernel pfx, ¬ e.NamesRow row) →
      Q () (w', ())) :
    (retirePark cfg role pfx r).Keeps (upholding (RetiringFrom role pfx e w₀)) Q (w, ()) := by
  -- without a park row that is named, nothing named is left
  have hdone : (∀ i, .park i ∈ w.kernel pfx → ¬ r.NamesPark i) →
      ∀ row ∈ w.kernel pfx, ¬ e.NamesRow row := by
    intro hparks row hrow hn
    cases row with
    | route i => exact hroutes i hrow hn
    | park i => exact hparks i hrow ((hsame (.park i)).mpr hn)
    | foreign text => exact hn
  have hmark : ∀ p, r.park = some p → p.state = .applying ∨ p.state = .active →
      ((registry (·.markParkRetiring role pfx)).bind fun _ => (checkpoint cfg role).bind fun _ =>
        resumeParkRetirementLocked cfg role pfx).Keeps (upholding (RetiringFrom role pfx e w₀)) Q
        (w, ()) := by
    intro p hp hs
    refine .step (retiring_record .markParkRetiring h hl (fun r' hedit row _ hn =>
      (sameNames_markParkRetiring hedit row).mpr ((hsame row).mpr hn))
        fun r1 w1 hedit h1 hl1 hk1 => ?_)
    refine .step (retiring_checkpoint h1 fun w2 h2 hr2 hk2 _ => ?_)
    have hsame1 := hsame.trans (sameNames_markParkRetiring hedit)
    cases hedit with
    | markParkRetiring hp' hs' =>
      exact retiring_resumePark h2 (hr2 ▸ hl1) hsame1 rfl rfl (by rw [hk2, hk1]; exact hroutes) hQ
  unfold retirePark
  cases hp : r.park with
  | none =>
    refine .ret h (hQ w h (hdone ?_))
    rintro i _ ⟨q, hq, _⟩
    rw [hp] at hq
    cases hq
  | some p =>
    simp only [Option.map_some]
    cases hs : p.state with
    | pending =>
      have hnone : ∀ row ∈ w.kernel pfx, ¬ e.NamesRow row := by
        refine hdone ?_
        rintro i hi ⟨q, hq, hn⟩
        cases hp.symm.trans hq
        exact hpending ⟨p, i, hp, hs, hn.owned (by simp [hs]) (by simp [hs]), h.shrinks _ hi⟩
      refine .step (retiring_record .clearPark h hl (fun _ _ row hrow hn =>
        absurd hn (hnone row hrow)) fun r1 w1 _ h1 _ hk1 => ?_)
      exact retiring_checkpoint h1 fun w2 h2 _ hk2 _ => hQ w2 h2 (by rw [hk2, hk1]; exact hnone)
    | applying => exact hmark p hp (Or.inl hs)
    | active => exact hmark p hp (Or.inr hs)
    | retiring => exact retiring_resumePark h hl hsame hp hs hroutes hQ
    | other text => exact absurd hs (((h.wellFormed _ _ hl).2.park p hp).known text)

theorem retiring_rest (hsame : SameNames e r)
    (hpending : ¬ PendingParkInstalled pfx r w₀) :
    (finishRetirement cfg role pfx r).Keeps (upholding (RetiringFrom role pfx e w₀))
      (fun _ s => Retired cfg role pfx e w₀ s.1) (w, ()) := by
  refine .step (retiring_removeSelectedRoute h hl hsame fun w1 h1 hr1 hroutes => ?_)
  refine .step (retiring_retirePark h1 (hr1 ▸ hl) hsame hpending hroutes
    fun w2 h2 hnone => ?_)
  have hlookup : ∀ k, (w2.registry.remove role pfx).lookup k =
      if k = ⟨role, pfx⟩ then none else w2.registry.lookup k := w2.registry.lookup_erase ⟨role, pfx⟩
  have h3 : RetiringFrom role pfx e w₀ (w2.withRegistry (w2.registry.remove role pfx)) := by
    refine ⟨?_, h2.kept, h2.shrinks, fun row hrow hn => absurd hn (hnone row hrow)⟩
    intro k e' he'
    rw [World.registry_withRegistry, hlookup] at he'
    split_ifs at he'
    exact h2.wellFormed k e' he'
  refine .step (keeps_registry h2 h3 fun _ => ?_)
  refine .step (retiring_checkpoint h3 fun w4 h4 hr4 hk4 hd4 => ?_)
  have hgone : w4.registry.lookup ⟨role, pfx⟩ = none := by
    rw [hr4, World.registry_withRegistry, hlookup, if_pos rfl]
  refine keeps_memory h4 (h4.of_eq rfl rfl) ⟨hgone, fun hdir => ?_, fun row => ?_⟩
  · obtain ⟨generation, hd⟩ := hd4 hdir
    refine (diskRecord_checkpointOf hd h3.wellFormed pfx).trans ?_
    rw [← hr4]
    exact hgone
  have hnone4 : ∀ row ∈ w4.kernel pfx, ¬ e.NamesRow row := by
    rw [show w4.kernel = w2.kernel from hk4]
    exact hnone
  exact ⟨fun hrow => ⟨h4.shrinks row hrow, hnone4 row hrow⟩,
    fun hrow => h4.kept row hrow.1 hrow.2⟩

omit hl

omit h

theorem retireRecordLocked_keeps (hw : w.registry.WellFormed)
    (hroutes : cfg.routesResolved = true) (hl : w.registry.lookup ⟨role, pfx⟩ = some e)
    (hpending : ¬ PendingParkInstalled pfx e w) :
    (retireRecordLocked cfg role pfx).Keeps (upholding (RetiringFrom role pfx e w))
      (fun _ s => Retired cfg role pfx e w s.1) (w, ()) := by
  have h : RetiringFrom role pfx e w w :=
    ⟨hw, fun _ hrow _ => hrow, fun _ hrow => hrow, fun _ _ hn => ⟨e, hl, hn⟩⟩
  unfold retireRecordLocked
  simp only [hroutes, Bool.not_true, Bool.false_eq_true, if_false]
  refine .step (keeps_read h ?_)
  rw [registryEntryOf_eq hw, hl]
  refine .step ?_
  unfold beginRetirement
  split_ifs with hs
  · exact .ret h (retiring_rest h hl (.refl e) hpending)
  refine .step (retiring_record .markRetiring h hl (fun r' hedit row _ hn =>
    (sameNames_markRetiring hedit row).mpr hn) fun r1 w1 hedit h1 hl1 _ => ?_)
  refine .step (retiring_checkpoint h1 fun w2 h2 hr2 _ _ => ?_)
  have hl2 : w2.registry.lookup ⟨role, pfx⟩ = some r1 := hr2 ▸ hl1
  refine .step (keeps_read h2 ?_)
  rw [registryEntryOf_eq h2.wellFormed, hl2]
  refine .ret h2 (retiring_rest h2 hl2 (sameNames_markRetiring hedit) ?_)
  cases hedit with
  | markRetiring _ => exact hpending

end

-- === The forgotten park ===

section

variable {cfg : Config} {role : String} {pfx : Prefix} {e : SelectedRoute} {w : World}

/-- Without faults, the retirement of a record with a Pending park succeeds and
    leaves the park rows alone. -/
theorem runs_retireRecordLocked_pending {p : SelectedPark} {i : SelectedParkIdentity}
    (hw : w.registry.WellFormed) (hroutes : cfg.routesResolved = true)
    (hl : w.registry.lookup ⟨role, pfx⟩ = some e) (hp : e.park = some p)
    (hs : p.state = .pending) (hi : .park i ∈ w.kernel pfx) :
    (retireRecordLocked cfg role pfx).Safe clean (fun _ w' => .park i ∈ w'.kernel pfx)
      (fun _ _ => False) w := by
  have hrest : ∀ r w1, At role pfx w r (w.kernel pfx) w1 → r.park = some p → r.state = .retiring →
      (finishRetirement cfg role pfx r).Safe clean
        (fun _ w' => .park i ∈ w'.kernel pfx) (fun _ _ => False) w1 := by
    intro r w1 h1 hpark hret
    have hpfx := h1.pfx_eq
    have hok : (removeSelectedRoute w1.kernel r).1 = .ok () :=
      removeSelectedRoute_ok w1.kernel h1.wellFormed.canonical (by simp [hret])
    refine .step (runs_writes h1 hok ?_ fun w2 h2 => ?_)
    · intro m hm
      obtain ⟨_, _, rfl⟩ := deletes_removeSelectedRoute hm
      exact hpfx
    have hi2 : .park i ∈ w2.kernel pfx := by
      rw [h2.rows]
      refine (mem_removeSelectedRoute hok).mpr ⟨h1.rows ▸ hi, ?_⟩
      rintro ⟨_, _, _, hne⟩
      cases hne
    simp only [retirePark, hpark, Option.map_some, hs]
    refine .step (.step (runs_record .clearPark (f := { r with park := none }) h2
      trivial (by simp only [RecordTransition.mutate, hpark, hs]) fun w3 h3 => ?_))
    refine runs_checkpoint fun w4 h4 => ?_
    refine .step (.step (runs_memory ⟨trivial, ?_⟩))
    refine .step (runs_checkpoint fun w5 h5 => runs_memory ?_)
    have hk : w5.kernel = w4.kernel := h5.kernel
    show SelectedKernelRow.park i ∈ w5.kernel pfx
    rw [hk, h4.kernel, h3.rows, ← h2.rows]
    exact hi2
  have h := At.start hw hl
  unfold retireRecordLocked
  simp only [hroutes, Bool.not_true, Bool.false_eq_true, if_false]
  refine .step (runs_registryEntry h ?_)
  refine .step ?_
  unfold beginRetirement
  split_ifs with hstate
  · exact ⟨trivial, hrest e w h hp hstate⟩
  have hmark : RecordTransition.markRetiring.mutate e =
      (.ok (), { e with retireDesired := e.state = .applying, state := .retiring }) := by
    cases hst : e.state with
    | pending | applying | active => simp [RecordTransition.mutate, hst]
    | retiring => exact absurd hst hstate
    | other text => exact absurd hst (h.wellFormed.known text)
  refine .step (runs_record .markRetiring h trivial hmark fun w1 h1 => ?_)
  refine .step (runs_checkpoint fun w2 h2 => ?_)
  have h2' := h1.agrees h2
  exact runs_registryEntryDeref h2' (hrest _ w2 h2' hp rfl)

/-- A retirement accounts for what the record names, in every execution, exactly
    when the record has no Pending park whose proven row is installed. -/
theorem retireRecordLocked_accounts_iff (hw : w.registry.WellFormed)
    (hroutes : cfg.routesResolved = true) (hl : w.registry.lookup ⟨role, pfx⟩ = some e) :
    RetirementAccounted cfg role pfx e w ↔ ¬ PendingParkInstalled pfx e w := by
  constructor
  · rintro haccounted ⟨p, i, hp, hs, ho, hi⟩
    have hrun := runs_retireRecordLocked_pending hw hroutes hl hp hs hi
    rcases hrun.ofHandler with ⟨⟨⟩, hok, hrow⟩ | ⟨_, _, hfalse⟩
    · have he := Prog.exec_run faultStep_handle (retireRecordLocked cfg role pfx) w
      rw [hok] at he
      have hretired := (haccounted _ _ _ he).1 rfl
      exact ((hretired.rows _).mp hrow).2 ⟨p, hp, Or.inl ho⟩
    · exact hfalse
  · intro hpending trace o w' he
    obtain ⟨hI, hQ⟩ := upholding_sound (retireRecordLocked_keeps hw hroutes hl hpending) he
    exact ⟨fun ho => hQ () ho, fun _ _ => hI.named⟩

end

def parkedWorld : World :=
  sampleWorld (parkedOps [.markParkApplying, .markParkActive samplePark])
    [.route (sampleIdentity 7), .park samplePark] 7

theorem retireRecordLocked_accounts_iff_parked :
    ∃ e, parkedWorld.registry.lookup ⟨"work", samplePrefix⟩ = some e ∧
      e.NamesRow (.park samplePark) ∧ RetirementAccounted {} "work" samplePrefix e parkedWorld := by
  refine ⟨_, rfl, ⟨_, rfl, by decide⟩, ?_⟩
  refine (retireRecordLocked_accounts_iff (wellFormed_sampleWorld _ _ _) rfl rfl).mpr ?_
  rintro ⟨p, i, hp, hs, -⟩
  cases hp
  cases hs

def reparkedWorld : World :=
  sampleWorld (parkedOps [.markParkApplying, .markParkActive samplePark,
    .reservePark samplePark true]) [.route (sampleIdentity 7), .park samplePark] 7

/-- The retirement returns nil and the park row stays, with no record left. -/
theorem pending_park_is_forgotten :
    ∃ e, reparkedWorld.registry.WellFormed ∧
      reparkedWorld.registry.lookup ⟨"work", samplePrefix⟩ = some e ∧
      ¬ RetirementAccounted {} "work" samplePrefix e reparkedWorld := by
  refine ⟨_, wellFormed_sampleWorld _ _ _, rfl, fun haccounted => ?_⟩
  have he :=
    Prog.exec_run faultStep_handle (retireRecordLocked {} "work" samplePrefix) reparkedWorld
  have hok : ((retireRecordLocked {} "work" samplePrefix).run handle reparkedWorld).1.isOk = true ∧
      .park samplePark ∈
        ((retireRecordLocked {} "work" samplePrefix).run handle reparkedWorld).2.kernel
          samplePrefix := by
    decide +kernel
  obtain ⟨hisOk, hrow⟩ := hok
  cases hres : ((retireRecordLocked {} "work" samplePrefix).run handle reparkedWorld).1 with
  | error err =>
    rw [hres] at hisOk
    cases hisOk
  | ok u =>
    have hretired := (haccounted _ _ _ he).1 rfl
    exact ((hretired.rows _).mp hrow).2 ⟨_, rfl, by decide⟩

end Kikimora.Control

import Kikimora.Control.Reconciler

/-!
# The reconciler beside recovery and quarantine

What the background reconciler may do to the selected rows of a role, and when
it keeps to it. The audit asks neither whether a recovery has frozen the role,
nor whether it is quarantined, nor whether the product holds it ready; an
invalidation asks the first two before it has the lock.
-/

namespace Kikimora.Control

open Net Routing Platform Lib

def Closed (role : String) (w : World) : Prop :=
  let state := w.memory.roleState role
  state.integrityQuarantined = true ∨ (state.frozen = true ∧ state.restorePending = false)

instance (role : String) (w : World) : Decidable (Closed role w) :=
  inferInstanceAs (Decidable (_ ∨ _))

/-- The role is desired, its validation is healthy, and the family of the prefix
    is ready. -/
def ReadyFor (role : String) (pfx : Prefix) (w : World) : Prop :=
  ((w.runtime role).any fun runtime => runtime.desired && runtime.validation.healthy &&
    familyReady runtime.validation.families pfx) = true

instance (role : String) (pfx : Prefix) (w : World) : Decidable (ReadyFor role pfx w) :=
  inferInstanceAs (Decidable (_ = _))

def KernelMutation.Selected : KernelMutation → Prop
  | .add _ (.route _) => True
  | .delete _ (.route _) => True
  | _ => False

def Mints (role : String) {β : Type} (f : Memory → β × Memory) (m : Memory) : Prop :=
  ∃ pfx token, ((f m).2.roleState role).verification pfx = some token ∧
    (m.roleState role).verification pfx ≠ some token

/-- A closed role gets no token and no write to its selected rows but the exact
    removal of a Retiring record, and a selected row is created for a ready role
    only. -/
def Restrained (t : Transaction) : Event Effect World → Prop
  | ⟨.routes c, w, _, _⟩ =>
    (Closed t.role w → ∀ m ∈ (c.plan w.platform w.kernel).2, KernelMutation.Selected m →
      ∃ e, t.record w = some e ∧ e.state = .retiring ∧ m ∈ (removeSelectedRoute w.kernel e).2) ∧
    (∀ q i, .add q (.route i) ∈ (c.plan w.platform w.kernel).2 → ReadyFor t.role t.pfx w)
  | ⟨.memory f, w, _, _⟩ => Closed t.role w → ¬ Mints t.role f w.memory
  | _ => True

def Open (t : Transaction) (w : World) : Prop :=
  ¬ Closed t.role w ∧ ReadyFor t.role t.pfx w

instance (t : Transaction) (w : World) : Decidable (Open t w) :=
  inferInstanceAs (Decidable (_ ∧ _))

/-- The transaction leaves the selected rows of the record alone, or only
    completes its retirement. -/
def Spares (t : Transaction) (w : World) (e : SelectedRoute) : Prop :=
  e.state = .retiring ∨
    match t with
    | .visit role _ _ =>
      e.park.isSome = true ∨ (w.memory.roleState role).restorePending = true
    | .invalidation _ _ flags =>
      flags.quarantined = true ∨ (flags.frozen = true ∧ flags.restorePending = false) ∨
        (flags.restorePending = true ∧ e.park.isSome = true)

/-- While a transaction holds the lock an open and ready role stays so. -/
structure KeptOpen (t : Transaction) (w w' : World) : Prop extends Locked t w w' where
  stays : Open t w → Open t w'

/-- Every transaction meets an open and ready role that stays so, or a record
    that it spares. -/
def openHanded : Rely where
  Admits t w := Open t w ∨ ∀ e, t.record w = some e → Spares t w e
  Beside := KeptOpen

-- === Effects that are restrained wherever they happen ===

def Effect.Tidy ⦃β : Type⦄ : Effect β → Prop
  | .memory f => ∀ m role, ¬ Mints role f m
  | .routes c => ∀ p k, ∀ m ∈ (c.plan p k).2, ¬ KernelMutation.Selected m
  | _ => True

abbrev Tidy {α : Type} (p : ManagerM α) : Prop := p.Calls Effect.Tidy

section Tidy

variable {α β : Type} {cfg : Config} {role : String} {pfx : Prefix} {t : Transaction}

theorem Effect.Tidy.restrains ⦃β : Type⦄ {c : Effect β} (h : c.Tidy) (w : World) (b : β)
    (w' : World) : Restrained t ⟨c, w, b, w'⟩ := by
  cases c with
  | memory f => exact fun _ => h w.memory t.role
  | routes c =>
    refine ⟨fun _ m hm hs => absurd hs (h _ _ m hm), fun q i hm => ?_⟩
    exact absurd trivial (h _ _ _ hm)
  | _ => trivial

/-- A tidy program is restrained from anywhere. -/
theorem Tidy.restrains {R : Rely} {p : ManagerM α} (h : Tidy p) (w : World) :
    p.Upholds (R.setting t (Restrained t)) (fun _ => True) w :=
  Prog.Calls.safe (J := fun _ => True) h (fun _ _ => trivial)
    (fun _ _ _ _ _ hc _ _ => ⟨hc.restrains _ _ _, trivial⟩) trivial

theorem not_mints_of_eq {f : Memory → β × Memory} {m : Memory}
    (h : ((f m).2.roleState role).verification = (m.roleState role).verification) :
    ¬ Mints role f m := by
  rintro ⟨p, token, hnew, hold⟩
  exact hold (h ▸ hnew)

theorem read_tidy (f : Memory → β) : Tidy (memory fun m => (f m, m)) :=
  .perform fun _ _ => not_mints_of_eq rfl

theorem touch_tidy (f : Memory → β) :
    Tidy (memory fun m => (f m, m.setRole role (m.roleState role))) :=
  .perform fun m id => not_mints_of_eq (congrArg _ (m.roleState_setRole_self role id))

theorem registry_tidy (op : MemorySelectedRegistry → RegistryResult) : Tidy (registry op) :=
  .bind (.perform fun _ _ => not_mints_of_eq rfl) fun _ => .ofExcept _

theorem checkpoint_tidy : Tidy (checkpoint cfg role) := by
  refine .bind (touch_tidy _) fun generation => ?_
  unfold writeCheckpoint
  split
  · exact .ret _
  · exact .bind (read_tidy _) fun _ => .bind (.perform trivial) fun _ => .ofExcept _

theorem removeManagedPark_tidy (park : SelectedPark) :
    Tidy (routes (.removeManagedPark role pfx park)) := by
  refine .bind (.perform fun p k m hm => ?_) fun _ => .ofExcept _
  obtain ⟨ids, hids⟩ := removeManagedPark_writes k pfx park
  rw [RouteCall.plan, hids] at hm
  obtain ⟨_, hrow, rfl⟩ := List.mem_map.mp hm
  obtain ⟨_, _, rfl⟩ := List.mem_map.mp hrow
  exact id

theorem clearVerificationForPrefix_tidy : Tidy (clearVerificationForPrefix pfx) := by
  refine .perform fun m id => ?_
  rintro ⟨p, token, hnew, hold⟩
  refine hold ?_
  simp only [Memory.clearVerificationForPrefix, Memory.keepVerification, Memory.roleState] at hnew ⊢
  cases hr : m.roles id with
  | none =>
    rw [hr] at hnew
    cases hnew
  | some state =>
    rw [hr] at hnew
    exact (Option.filter_eq_some_iff.mp hnew).1

theorem notify_tidy (notice : Notice) : Tidy (notify notice) := .perform trivial

theorem failSelectedRouteIntegrity_tidy (text : String) :
    Tidy (failSelectedRouteIntegrity role text) := by
  refine .bind (.perform fun m id => ?_) fun _ => notify_tidy _
  rintro ⟨p, token, hnew, hold⟩
  by_cases h : id = role
  · subst h
    rw [Memory.roleState_setRole] at hnew
    cases hnew
  · exact hold (m.roleState_setRole_of_ne h _ ▸ hnew)

theorem resumeParkRetirementLocked_tidy : Tidy (resumeParkRetirementLocked cfg role pfx) := by
  refine .bind (read_tidy _) fun record => ?_
  cases record.bind SelectedRoute.park with
  | none => exact .ret _
  | some park =>
    exact .bind (removeManagedPark_tidy park) fun _ => .bind (registry_tidy _) fun _ =>
      checkpoint_tidy

theorem retirePark_tidy (record : SelectedRoute) : Tidy (retirePark cfg role pfx record) := by
  unfold retirePark
  split
  · exact .bind (registry_tidy _) fun _ => checkpoint_tidy
  · exact .bind (registry_tidy _) fun _ => .bind checkpoint_tidy fun _ =>
      resumeParkRetirementLocked_tidy
  · exact .bind (registry_tidy _) fun _ => .bind checkpoint_tidy fun _ =>
      resumeParkRetirementLocked_tidy
  · exact resumeParkRetirementLocked_tidy
  · exact .ret _
  · exact .ret _

/-- The audit only looks at a parked record, and at one whose rows the planner
    refuses. -/
theorem auditRecord_tidy {e : SelectedRoute} {rows : List SelectedKernelRow}
    (h : e.park.isSome = true ∨ ∃ message, planSelectedRoute rows (some e) = .error message) :
    Tidy (auditRecord cfg role e rows) := by
  refine .bind (touch_tidy _) fun state => ?_
  by_cases hpark : e.park.isSome = true
  · rw [if_pos hpark]
    split
    · exact notify_tidy _
    · exact .ret _
  rw [if_neg hpark]
  split
  · exact notify_tidy _
  obtain ⟨message, hplan⟩ := h.resolve_left hpark
  rw [hplan]
  exact .bind (failSelectedRouteIntegrity_tidy _) fun _ => .fail _

end Tidy

-- === Transactions of an open and ready role ===

section

variable {α : Type} {cfg : Config} {t : Transaction} {w w' : World}

theorem closed_iff_of_admission {role : String} (h : w'.admission role = w.admission role) :
    Closed role w' ↔ Closed role w := by
  change ((w'.admission role).integrityQuarantined = true ∨
    ((w'.admission role).frozen = true ∧ (w'.admission role).restorePending = false)) ↔ _
  rw [h]
  rfl

theorem Open.of_eq (h : Open t w) (ha : w'.admission t.role = w.admission t.role)
    (hr : w'.runtime = w.runtime) : Open t w' := by
  refine ⟨fun hc => h.1 ((closed_iff_of_admission ha).mp hc), ?_⟩
  unfold ReadyFor
  rw [hr]
  exact h.2

/-- Whatever is done for an open and ready role is restrained. -/
theorem Open.restrains ⦃β : Type⦄ {c : Effect β} (h : Open t w) (b : β) (w' : World) :
    Restrained t ⟨c, w, b, w'⟩ := by
  cases c with
  | memory f => exact fun hc => absurd hc h.1
  | routes c => exact ⟨fun hc => absurd hc h.1, fun _ _ _ => h.2⟩
  | _ => trivial

/-- A quiet program is restrained for an open and ready role, and leaves it so. -/
theorem Quiet.restrains {p : ManagerM α} (hp : Quiet p) (h : Open t w) :
    p.Upholds (openHanded.setting t (Restrained t)) (Open t) w := by
  refine Prog.Calls.safe hp (fun _ _ => trivial) (fun _ c s b s' hc hs hstep => ?_) h
  obtain ⟨s1, hfault, _, hbeside, _⟩ := hstep
  exact ⟨hs.restrains b s', hbeside.stays (hs.of_eq (hc.admission_eq hfault _) hfault.runtime_eq)⟩

theorem Quiet.restrains' {p : ManagerM α} (hp : Quiet p) (h : Open t w) :
    p.Upholds (openHanded.setting t (Restrained t)) (fun _ => True) w :=
  (hp.restrains h).mono (fun _ _ _ => trivial) fun _ _ _ => trivial

theorem auditRecord_restrained (role : String) (entry : SelectedRoute)
    (rows : List SelectedKernelRow) (h : Open t w) :
    (auditRecord cfg role entry rows).Upholds (openHanded.setting t (Restrained t))
      (fun _ => True) w := by
  cases hplan : planSelectedRoute rows (some entry) with
  | ok action => exact (auditRecord_quiet cfg role (.inr ⟨action, hplan⟩)).restrains' h
  | error message =>
    -- the quarantine closes the role, and nothing follows it
    exact (auditRecord_tidy (.inr ⟨message, hplan⟩)).restrains w

theorem program_restrained_open (h : Open t w) :
    (t.program cfg).Upholds (openHanded.setting t (Restrained t)) (fun _ => True) w := by
  cases t with
  | visit role entry rows =>
    refine .bind (((read_quiet _).restrains h).mono (fun _ _ h => h)
      fun _ _ _ => trivial) fun current w' h' => ?_
    cases current with
    | none => exact ⟨trivial, trivial⟩
    | some current =>
      dsimp only
      split_ifs
      · exact ⟨trivial, trivial⟩
      · exact auditRecord_restrained role current rows h'
  | invalidation role pfx flags => exact (prefixInvalidation_quiet cfg role pfx flags).restrains' h

end

-- === Transactions that spare their record ===

section

variable {β : Type} {cfg : Config} {t : Transaction} {w : World} {e : SelectedRoute}

theorem safe_read {f : Memory → β} {Q : β → World → Prop} {X : ManagerError → World → Prop}
    (hQ : ∀ w', KeptOpen t w w' → Q (f w.memory) w') :
    (memory fun m => (f m, m)).Safe (openHanded.setting t (Restrained t)) Q X w :=
  Rely.safe_memory (fun _ _ _ => not_mints_of_eq rfl) hQ

theorem removeSelectedRoute_restrained (he : t.record w = some e) (hs : e.state = .retiring) :
    (routes (.removeSelectedRoute e)).Upholds (openHanded.setting t (Restrained t))
      (fun _ => True) w := by
  refine .bind (.perform (Q := fun _ _ => True) trivial fun b w' _ =>
    ⟨⟨fun _ m hm _ => ⟨e, he, hs, hm⟩, fun q i hm => ?_⟩, trivial, trivial⟩) fun b w' _ =>
      .ofExcept trivial (fun _ _ => trivial) fun _ _ => trivial
  obtain ⟨_, _, heq⟩ := deletes_removeSelectedRoute hm
  cases heq

theorem retireRecordLocked_restrained (he : t.record w = some e) (hs : e.state = .retiring) :
    (retireRecordLocked cfg t.role t.pfx).Upholds (openHanded.setting t (Restrained t))
      (fun _ => True) w := by
  unfold retireRecordLocked
  split_ifs
  · exact ⟨trivial, trivial⟩
  refine .bind (safe_read (Q := fun b w' => b = some e ∧ t.record w' = some e)
    fun w' hw' => ⟨he, hw'.record.trans he⟩) ?_
  rintro _ w' ⟨rfl, he'⟩
  simp only [beginRetirement, hs, if_true, Prog.bind_eq, Prog.ret_bind]
  refine .bind (removeSelectedRoute_restrained he' hs) fun _ w'' _ => ?_
  exact Tidy.restrains (.bind (retirePark_tidy e) fun _ => .bind (registry_tidy _) fun _ =>
    .bind checkpoint_tidy fun _ => clearVerificationForPrefix_tidy) w''

theorem auditRecord_restrained_pending {role : String} {rows : List SelectedKernelRow}
    (h : (w.memory.roleState role).restorePending = true) :
    (auditRecord cfg role e rows).Upholds (openHanded.setting t (Restrained t))
      (fun _ => True) w := by
  refine .bind (Rely.safe_memory (Q := fun state _ => state = w.memory.roleState role)
    (fun _ _ _ => not_mints_of_eq (congrArg _ (w.memory.roleState_setRole_self role t.role)))
    fun _ _ => rfl) ?_
  rintro _ w' rfl
  split
  · exact (notify_tidy _).restrains w'
  · exact (notify_tidy _).restrains w'

theorem program_restrained_spares (h : ∀ e, t.record w = some e → Spares t w e) :
    (t.program cfg).Upholds (openHanded.setting t (Restrained t)) (fun _ => True) w := by
  cases t with
  | visit role entry rows =>
    refine .bind (safe_read (Q := fun b w' =>
      b = Transaction.record (.visit role entry rows) w ∧
        KeptOpen (.visit role entry rows) w w') fun w' hw' => ⟨rfl, hw'⟩) ?_
    rintro b w' ⟨rfl, hw'⟩
    cases hrec : Transaction.record (.visit role entry rows) w with
    | none => exact ⟨trivial, trivial⟩
    | some e =>
      dsimp only
      split_ifs
      · exact ⟨trivial, trivial⟩
      rcases h e hrec with h | h | h
      · exact (auditRecord_tidy (.inr (planSelectedRoute_retiring _ rows h))).restrains w'
      · exact (auditRecord_tidy (.inl h)).restrains w'
      · exact auditRecord_restrained_pending (hw'.restorePending h)
  | invalidation role pfx flags =>
    refine .bind (safe_read (Q := fun b w' =>
      b = Transaction.record (.invalidation role pfx flags) w ∧
        KeptOpen (.invalidation role pfx flags) w w') fun w' hw' => ⟨rfl, hw'⟩) ?_
    rintro b w' ⟨rfl, hw'⟩
    cases hrec : Transaction.record (.invalidation role pfx flags) w with
    | none => exact ⟨trivial, trivial⟩
    | some e =>
      dsimp only
      split_ifs with hpark hclosed
      · exact (notify_tidy _).restrains w'
      · exact ⟨trivial, trivial⟩
      have hret : e.state = .retiring := by
        rcases h e hrec with h | h | ⟨hf, hr⟩ | ⟨hr, hp⟩
        · exact h
        · exact absurd (by simp [h]) hclosed
        · exact absurd (by simp [hf, hr]) hclosed
        · exact absurd (by simp [hr, hp]) hpark
      rw [hret]
      exact retireRecordLocked_restrained (t := .invalidation role pfx flags)
        (hw'.record.trans hrec) hret

end

-- === Runs ===

/-- In a run whose transactions meet open and ready roles, or records they spare,
    the reconciler never competes with a recovery or a quarantine, and creates
    selected rows for ready roles only. -/
theorem ReconcilerRun.restrained {cfg : Config} {s : Background}
    {log : List (Transaction × Event Effect World)} (h : ReconcilerRun cfg openHanded s log) :
    ∀ step ∈ log, Restrained step.1 step.2 :=
  h.guarantees fun t w _ ha => by
    rcases ha with ha | ha
    · exact program_restrained_open ha
    · exact program_restrained_spares ha

theorem KeptOpen.refl (t : Transaction) (w : World) : KeptOpen t w w := ⟨.refl t w, id⟩

def servingWorld (ready : Bool) : World :=
  { openWorld (activeOps 7) [] 7 with
    runtime := fun _ => some { sampleRuntime 7 with
      validation := { healthy := ready, families := { ipv4 := { ready := ready } } } } }

/-- The repair of a missing row of an open and ready role. -/
theorem ReconcilerRun.restrained_repair :
    let t : Transaction := .visit "work" (activeRecord 7) []
    let log := ((t.program {}).events handle (servingWorld true)).map (t, ·)
    ReconcilerRun {} openHanded
      { Background.auditing (servingWorld true) "work" with
        world := ((t.program {}).run handle (servingWorld true)).2 } log ∧
      ∀ step ∈ log, Restrained step.1 step.2 := by
  intro t log
  have hadmit : openHanded.Admits t (servingWorld true) := .inl (by decide +kernel)
  have hlisted :
      ("work", activeRecord 7) ∈ (Background.auditing (servingWorld true) "work").listed := by
    decide +kernel
  have hrun : ReconcilerRun {} openHanded _ _ :=
    (ReconcilerRun.start_auditing (servingWorld true) "work" trivial).alone (.visit hlisted) hadmit
      KeptOpen.refl fun _ _ => trivial
  exact ⟨hrun, hrun.restrained⟩

/-- The effect creates a selected row for a closed role, or for one that is not
    ready. -/
def oversteps (t : Transaction) : Event Effect World → Bool
  | ⟨.routes c, w, _, _⟩ =>
    ((c.plan w.platform w.kernel).2.any fun
      | .add _ (.route _) => true
      | _ => false) && (Closed t.role w || !ReadyFor t.role t.pfx w)
  | _ => false

theorem not_restrained_of_oversteps {t : Transaction} {ev : Event Effect World}
    (h : oversteps t ev = true) : ¬ Restrained t ev := by
  obtain ⟨c, w, answer, after⟩ := ev
  cases c with
  | routes c =>
    intro hr
    obtain ⟨hadd, hbad⟩ := (Bool.and_eq_true _ _).mp h
    obtain ⟨m, hm, hrow⟩ := List.any_eq_true.mp hadd
    split at hrow
    · next q i =>
      rcases (Bool.or_eq_true _ _).mp hbad with hc | hu
      · obtain ⟨e, _, _, hmem⟩ := hr.1 (of_decide_eq_true hc) _ hm trivial
        obtain ⟨_, _, heq⟩ := deletes_removeSelectedRoute hmem
        cases heq
      · have hready := hr.2 q i hm
        simp [hready] at hu
    · cases hrow
  | _ => cases h

/-- The audit re-creates the missing row of a role that a recovery has frozen, and
    the row of an open role that the product does not hold ready. -/
theorem audit_competes :
    (∃ s log, ReconcilerRun {} undisturbed s log ∧ ∃ step ∈ log,
      Closed "work" step.2.before ∧ ¬ Restrained step.1 step.2) ∧
    (∃ s log, ReconcilerRun {} undisturbed s log ∧ ∃ step ∈ log,
      ¬ ReadyFor "work" samplePrefix step.2.before ∧ ¬ Restrained step.1 step.2) := by
  have hrun (w : World) (hl : ("work", activeRecord 7) ∈ (Background.auditing w "work").listed)
      (P : World → Bool)
      (hbad : (((Transaction.visit "work" (activeRecord 7) (w.kernel samplePrefix)).program
        {}).events handle w).any (fun ev => P ev.before &&
          oversteps (.visit "work" (activeRecord 7) (w.kernel samplePrefix)) ev) = true) :
      ∃ s log, ReconcilerRun {} undisturbed s log ∧ ∃ step ∈ log,
        P step.2.before = true ∧ ¬ Restrained step.1 step.2 := by
    obtain ⟨ev, hev, hP⟩ := List.any_eq_true.mp hbad
    obtain ⟨hP, hover⟩ := (Bool.and_eq_true _ _).mp hP
    exact ⟨_, _, (ReconcilerRun.start_auditing w "work" trivial).alone (.visit hl) trivial
      (fun _ _ => rfl) (fun _ _ => trivial), (_, ev),
      List.mem_append_right _ (List.mem_map.mpr ⟨ev, hev, rfl⟩), hP,
      not_restrained_of_oversteps hover⟩
  refine ⟨?_, ?_⟩
  · obtain ⟨s, log, h, step, hs, hP, hbad⟩ := hrun (sampleWorld (activeOps 7) [] 7)
      (by decide +kernel) (fun w => Closed "work" w) (by decide +kernel)
    exact ⟨s, log, h, step, hs, of_decide_eq_true hP, hbad⟩
  · obtain ⟨s, log, h, step, hs, hP, hbad⟩ := hrun (servingWorld false)
      (by decide +kernel) (fun w => !ReadyFor "work" samplePrefix w) (by decide +kernel)
    exact ⟨s, log, h, step, hs, by simpa using hP, hbad⟩

end Kikimora.Control

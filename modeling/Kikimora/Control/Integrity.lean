import Kikimora.Control.Ledger
import Kikimora.Control.Reconciler

/-!
# False quarantines

The audit quarantines a role when the planner refuses the rows of a record. It
asks the planner about rows that were read before the record was, and it asks it
about records whose retirement is under way. Neither says that a foreign row is
there.
-/

namespace Kikimora.Control

open Net Routing Lib

/-- Nobody else writes the registered prefixes: every row is one that the record
    authorizes, and no row is there twice. -/
structure Accounted (w : World) : Prop where
  registry : w.registry.WellFormed
  named : ∀ role pfx e, w.registry.lookup ⟨role, pfx⟩ = some e →
    ∀ row ∈ w.kernel pfx, e.NamesRow row
  nodup : ∀ pfx, (w.kernel pfx).Nodup

def Quarantines : Event Effect World → Prop
  | ⟨.memory f, w, _, _⟩ => ∃ role, (w.memory.roleState role).integrityQuarantined = false ∧
      ((f w.memory).2.roleState role).integrityQuarantined = true
  | ⟨.notify (.diagnostic _ _), _, _, _⟩ => True
  | _ => False

/-- The rows are accounted for at every instant, and only the apply lock orders
    the operations. -/
def accountedRows : Rely where
  Instant := Accounted
  Beside := Locked

/-- Moreover a visit meets a record that the planner is not asked about, or one
    that is not retiring together with the rows that are there now. -/
def currentRows : Rely where
  Instant := Accounted
  Admits
    | .visit role entry rows, w => ∀ e, registryEntryOf w.registry role entry.pfx = some e →
      e.park.isSome = true ∨ (w.memory.roleState role).restorePending = true ∨
        (e.state ≠ .retiring ∧ rows = w.kernel entry.pfx)
    | .invalidation _ _ _, _ => True
  Beside := Locked

section

variable {w : World} {role : String} {pfx : Prefix} {e : SelectedRoute}

/-- The planner accepts the rows that are there for a record that is not retiring. -/
theorem Accounted.plan (h : Accounted w) (he : w.registry.lookup ⟨role, pfx⟩ = some e)
    (hs : e.state ≠ .retiring) :
    planSelectedRoute (w.kernel pfx) (some e) = .ok (plannedAction e (w.kernel pfx)) := by
  refine planSelectedRoute_eq_ok_iff.mpr ⟨hs, fun row hrow => ?_, ?_, fun howned hrow => ?_, rfl⟩
  · exact (h.named role pfx e he row hrow).authorizedBy (h.registry _ _ he).2
  · exact List.nodup_iff_count_le_one.mp (h.nodup pfx) _
  -- without an Owned proof only an Applying record names its target
  rcases h.named role pfx e he _ hrow with hn | ⟨_, ha⟩ | ⟨_, hr, _⟩
  · rw [howned] at hn
    cases hn
  · exact ha
  · exact absurd hr hs

end

-- === Visits ===

section

variable {α : Type} {cfg : Config} {R : Rely} {t : Transaction} {w : World}

/-- A quiet effect quarantines nobody. -/
theorem Effect.Quiet.quarantines_none ⦃β : Type⦄ {c : Effect β} (h : c.Quiet) (w : World) (b : β)
    (w' : World) : ¬ Quarantines ⟨c, w, b, w'⟩ := by
  cases c with
  | memory f =>
    rintro ⟨role, hbefore, hafter⟩
    have heq : ((f w.memory).2.roleState role).integrityQuarantined =
        (w.memory.roleState role).integrityQuarantined :=
      congrArg (fun state => state.integrityQuarantined) (h w.memory role)
    rw [heq, hbefore] at hafter
    cases hafter
  | notify notice =>
    cases notice with
    | requestRecovery role reason => exact id
    | diagnostic role text => exact h.elim
  | _ => exact id

/-- A program that is quiet quarantines nobody, whoever acts beside it. -/
theorem Quiet.quarantines_none {p : ManagerM α} (h : Quiet p) (w : World) :
    p.Upholds (R.setting t fun ev => ¬ Quarantines ev) (fun _ => True) w :=
  Prog.Calls.safe (J := fun _ => True) h (fun _ _ => trivial)
    (fun _ _ _ _ _ hc _ _ => ⟨hc.quarantines_none _ _ _, trivial⟩) trivial

/-- The audit of a record that the planner is not asked about, or accepts. -/
theorem auditRecord_not_quarantines {role : String} {e : SelectedRoute}
    {rows : List SelectedKernelRow}
    (h : e.park.isSome = true ∨ (w.memory.roleState role).restorePending = true ∨
      ∃ action, planSelectedRoute rows (some e) = .ok action) :
    (auditRecord cfg role e rows).Upholds (R.setting t fun ev => ¬ Quarantines ev)
      (fun _ => True) w := by
  rcases h with h | h | h
  · exact (auditRecord_quiet cfg role (.inl h)).quarantines_none w
  · refine .bind (Rely.safe_memory (Q := fun state _ => state = w.memory.roleState role)
      (Effect.Quiet.quarantines_none (show Quiet (roleState role) from roleState_quiet).1 w)
      fun _ _ => rfl) ?_
    rintro _ w' rfl
    split
    · exact (requestRecovery_quiet _).quarantines_none w'
    · exact (requestRecovery_quiet _).quarantines_none w'
  · exact (auditRecord_quiet cfg role (.inr h)).quarantines_none w

theorem program_not_quarantines (hw : Accounted w) (ha : currentRows.Admits t w) :
    (t.program cfg).Upholds (currentRows.setting t fun ev => ¬ Quarantines ev)
      (fun _ => True) w := by
  cases t with
  | invalidation role pfx flags =>
    exact (prefixInvalidation_quiet cfg role pfx flags).quarantines_none w
  | visit role entry rows =>
    refine .bind (Rely.safe_memory (Q := fun current w' =>
      current = registryEntryOf w.registry role entry.pfx ∧ Locked (.visit role entry rows) w w')
      (Effect.Quiet.quarantines_none
        (read_quiet fun m => registryEntryOf m.registry role entry.pfx).1 w)
      fun w' hw' => ⟨rfl, hw'⟩) ?_
    rintro current w' ⟨rfl, hlocked⟩
    cases hrec : registryEntryOf w.registry role entry.pfx with
    | none => exact ⟨trivial, trivial⟩
    | some e =>
      dsimp only
      split
      · exact ⟨trivial, trivial⟩
      refine auditRecord_not_quarantines ?_
      rcases ha e hrec with h | h | ⟨hs, hrows⟩
      · exact .inl h
      · exact .inr (.inl (hlocked.restorePending h))
      · subst hrows
        rw [registryEntryOf_eq hw.registry] at hrec
        exact .inr (.inr ⟨_, hw.plan hrec hs⟩)

end

/-- In a run whose visits meet records that are not retiring together with the
    rows that are there, no role is quarantined while every row is accounted
    for. -/
theorem ReconcilerRun.not_quarantines {cfg : Config} {s : Background}
    {log : List (Transaction × Event Effect World)} (h : ReconcilerRun cfg currentRows s log) :
    ∀ step ∈ log, ¬ Quarantines step.2 :=
  h.guarantees (G := fun _ ev => ¬ Quarantines ev) fun _ _ hw ha => program_not_quarantines hw ha

-- === Refused rows ===

def Effect.Still ⦃β : Type⦄ : Effect β → Prop
  | .memory f => ∀ m, (f m).2.registry = m.registry
  | .roleRuntime _ => True
  | .notify _ => True
  | _ => False

theorem Effect.Still.handle_eq ⦃β : Type⦄ {c : Effect β} (h : c.Still) (w : World) :
    (handle c w).2.registry = w.registry ∧ (handle c w).2.kernel = w.kernel := by
  cases c with
  | memory f => exact ⟨h w.memory, rfl⟩
  | roleRuntime role | notify notice => exact ⟨rfl, rfl⟩
  | writeCheckpoint role c | routes c => exact h.elim

section

variable {cfg : Config} {role : String} {e : SelectedRoute} {rows : List SelectedKernelRow}
  {message : String}

theorem auditRecord_still (cfg : Config) (role : String) (hpark : e.park = none)
    (hplan : planSelectedRoute rows (some e) = .error message) :
    (auditRecord cfg role e rows).Calls Effect.Still := by
  refine .bind (.perform fun _ => rfl) fun state => ?_
  rw [hpark, hplan]
  simp only [Option.isSome_none, Bool.false_eq_true, if_false]
  split
  · exact .perform trivial
  · exact .bind (.bind (.perform fun _ => rfl) fun _ => .perform trivial) fun _ => .fail _

theorem auditRecord_quarantines (cfg : Config) {w : World} (hpark : e.park = none)
    (hrp : (w.memory.roleState role).restorePending = false)
    (hplan : planSelectedRoute rows (some e) = .error message) :
    ∃ ev ∈ (auditRecord cfg role e rows).events handle w, Quarantines ev := by
  simp only [auditRecord, roleState, memory, Prog.perform, Prog.bind_eq, Prog.call_bind,
    Prog.ret_bind, Prog.events, handle, hrp, hpark, hplan, Option.isSome_none, Bool.false_eq_true,
    if_false, failSelectedRouteIntegrity, modifyRole, notify, failText]
  exact ⟨_, List.mem_cons_of_mem _ (List.mem_cons_of_mem _ List.mem_cons_self), trivial⟩

theorem ReconcilerRun.quarantined (role : String) {R : Rely} {s : Background}
    {log : List (Transaction × Event Effect World)} (h : ReconcilerRun cfg R s log)
    (hl : (role, e) ∈ s.listed) (hrec : registryEntryOf s.world.registry role e.pfx = some e)
    (hpark : e.park = none) (hrp : (s.world.memory.roleState role).restorePending = false)
    (hplan : planSelectedRoute (s.rows e.pfx) (some e) = .error message)
    (hadmits : R.Admits (.visit role e (s.rows e.pfx)) s.world) (hrefl : ∀ t w, R.Beside t w w)
    (hinst : ∀ w, w.registry = s.world.registry → w.kernel = s.world.kernel → R.Instant w) :
    ∃ s' log' ev, ReconcilerRun cfg R s' log' ∧ (.visit role e (s.rows e.pfx), ev) ∈ log' ∧
      Quarantines ev := by
  have hstart : R.Instant s.world := hinst _ rfl rfl
  obtain ⟨ev, hev, hq⟩ := auditRecord_quarantines cfg hpark hrp hplan
  have haudit : Exec (R.Step (.visit role e (s.rows e.pfx)))
      (auditRecord cfg role e (s.rows e.pfx)) s.world _ _ _ :=
    Prog.Calls.exec_run (J := fun w => w.registry = s.world.registry ∧ w.kernel = s.world.kernel)
      (auditRecord_still cfg role hpark hplan)
      (fun _ c w hc hw => by
        obtain ⟨hr, hk⟩ := hc.handle_eq w
        have hinst' := hinst _ (hr.trans hw.1) (hk.trans hw.2)
        exact ⟨⟨_, faultStep_handle c w, hinst', hrefl _ _, hinst'⟩, hr.trans hw.1,
          hk.trans hw.2⟩)
      ⟨rfl, rfl⟩
  have hvisit : Exec (R.Step (.visit role e (s.rows e.pfx)))
      (auditEntry cfg role e (s.rows e.pfx)) s.world
      (⟨.memory fun m => (registryEntryOf m.registry role e.pfx, m), s.world, some e, s.world⟩ ::
        (auditRecord cfg role e (s.rows e.pfx)).events handle s.world)
      (Prog.Outcome.of ((auditRecord cfg role e (s.rows e.pfx)).run handle s.world).1)
      ((auditRecord cfg role e (s.rows e.pfx)).run handle s.world).2 := by
    refine .call ⟨s.world, .inl ⟨hrec.symm, rfl⟩, hstart, hrefl _ _, hstart⟩ ?_
    simpa using haudit
  exact ⟨_, _, ev, h.transact (.visit hl) hadmits hvisit,
    List.mem_append_right _ (List.mem_map.mpr ⟨ev, List.mem_cons_of_mem _ hev, rfl⟩), hq⟩

end

-- === Samples ===

section

variable {ops : List RegistryOp} {rows : List SelectedKernelRow} {e : SelectedRoute}

theorem Accounted.congr {w w' : World} (h : Accounted w) (hr : w'.registry = w.registry)
    (hk : w'.kernel = w.kernel) : Accounted w' :=
  ⟨hr ▸ h.registry, hr ▸ hk ▸ h.named, hk ▸ h.nodup⟩

theorem accounted_openWorld (ifIndex : Int)
    (hkeys : (runOps ops .empty).entries.keys = [⟨"work", samplePrefix⟩])
    (he : (runOps ops .empty).lookup ⟨"work", samplePrefix⟩ = some e)
    (hrows : ∀ row ∈ rows, e.NamesRow row) (hn : rows.Nodup) :
    Accounted (openWorld ops rows ifIndex) where
  registry := wellFormed_run ops MemorySelectedRegistry.wellFormed_empty
  named role pfx e' he' row hrow := by
    have hmem : (⟨role, pfx⟩ : SelectedRouteKey) ∈ (runOps ops .empty).entries.keys :=
      AList.lookup_isSome.mp (Option.isSome_of_eq_some he')
    rw [hkeys, List.mem_singleton] at hmem
    cases hmem
    cases he.symm.trans he'
    exact hrows row (by simpa [openWorld, sampleWorld] using hrow)
  nodup pfx := by
    unfold openWorld sampleWorld
    dsimp only
    split
    · exact hn
    · exact List.nodup_nil

def exactWorld (ifIndex : Int) : World :=
  openWorld (activeOps ifIndex) [.route (sampleIdentity ifIndex)] 8

theorem accounted_exact_seven : Accounted (exactWorld 7) :=
  accounted_openWorld (e := activeRecord 7) 8 (by decide +kernel) (by decide +kernel)
    (fun _ hrow => by rw [List.mem_singleton.mp hrow]; exact .inl rfl) (by decide)

theorem accounted_exact_eight : Accounted (exactWorld 8) :=
  accounted_openWorld (e := activeRecord 8) 8 (by decide +kernel) (by decide +kernel)
    (fun _ hrow => by rw [List.mem_singleton.mp hrow]; exact .inl rfl) (by decide)

/-- The visit of a record whose exact row is there mints a token and nothing else. -/
theorem ReconcilerRun.not_quarantines_exact :
    let t : Transaction := .visit "work" (activeRecord 7) [.route (sampleIdentity 7)]
    let log := ((t.program {}).events handle (exactWorld 7)).map (t, ·)
    (∃ s, ReconcilerRun {} currentRows s log) ∧ log.length = 3 ∧
      ∀ step ∈ log, ¬ Quarantines step.2 := by
  intro t log
  have hrec : registryEntryOf (exactWorld 7).registry "work" samplePrefix =
      some (activeRecord 7) := by
    decide +kernel
  have hevents : ∀ ev ∈ (t.program {}).events handle (exactWorld 7), Accounted ev.after := by
    have hexact : exactRow (activeRecord 7) [.route (sampleIdentity 7)] = true := by decide
    have hplan : planSelectedRoute [.route (sampleIdentity 7)] (some (activeRecord 7)) =
        .ok .none := by
      decide
    simp only [t, Transaction.program, auditEntry, registryEntry, memory, Prog.perform,
      Prog.call_bind, Prog.ret_bind, Prog.events, handle, List.forall_mem_cons]
    refine ⟨accounted_exact_seven.congr rfl rfl, ?_⟩
    rw [show registryEntryOf (exactWorld 7).memory.registry "work" (activeRecord 7).pfx =
      some (activeRecord 7) from hrec]
    simp only [show (exactWorld 7).withMemory (exactWorld 7).memory = exactWorld 7 from rfl, ne_eq,
      not_true_eq_false, or_self, if_false, auditRecord, roleState, memory, Prog.perform,
      Prog.bind_eq, Prog.call_bind, Prog.ret_bind, Prog.events, handle, hplan, hexact, if_true,
      show (activeRecord 7).park.isSome = false from rfl, Bool.false_eq_true,
      show ((exactWorld 7).memory.roleState "work").restorePending = false from rfl,
      show (activeRecord 7).state = .active from rfl, mintVerificationToken, List.forall_mem_cons]
    exact ⟨accounted_exact_seven.congr rfl rfl, accounted_exact_seven.congr rfl rfl,
      fun _ h => absurd h List.not_mem_nil⟩
  have hadmits : currentRows.Admits t (exactWorld 7) := by
    intro e he
    cases hrec.symm.trans he
    exact .inr (.inr ⟨by decide, by decide +kernel⟩)
  have hrun : ReconcilerRun {} currentRows _ ([] ++ _) :=
    (ReconcilerRun.start_auditing (exactWorld 7) "work" accounted_exact_seven).alone
      (show Background.Offers _ t from .visit (by decide +kernel)) hadmits Locked.refl hevents
  exact ⟨⟨_, hrun⟩, by decide +kernel, hrun.not_quarantines⟩

def retiringWorld : World :=
  openWorld (activeOps 7 ++ [.record "work" samplePrefix .markRetiring])
    [.route (sampleIdentity 7)] 7

def movedWorld : World :=
  ((applySelectedRouteCanonical {} "work" ⟨"corp", samplePrefix, .dns, 8, "tun0", 1, 1⟩
    false).run handle (exactWorld 7)).2

/-- With every row accounted for at every instant, the audit quarantines a role
    because of a record that is being retired, and because of rows that it read
    before an Ensure moved the record and its row. -/
theorem audit_quarantines_accounted :
    (∃ s log entry rows ev, ReconcilerRun {} accountedRows s log ∧
      (.visit "work" entry rows, ev) ∈ log ∧ entry.state = .retiring ∧ Quarantines ev) ∧
    (movedWorld.registry.snapshot "work" = (exactWorld 8).registry.snapshot "work" ∧
      movedWorld.kernel samplePrefix = (exactWorld 8).kernel samplePrefix ∧
      ∃ s log ev, ReconcilerRun {} accountedRows s log ∧
        (.visit "work" (activeRecord 8) ((exactWorld 7).kernel samplePrefix), ev) ∈ log ∧
        Quarantines ev) := by
  refine ⟨?_, by decide +kernel, by decide +kernel, ?_⟩
  · let entry : SelectedRoute := { activeRecord 7 with state := .retiring }
    have hinst : Accounted retiringWorld :=
      accounted_openWorld (e := entry) 7 (by decide +kernel) (by decide +kernel)
        (fun _ hrow => by rw [List.mem_singleton.mp hrow]; exact .inl rfl) (by decide)
    obtain ⟨message, hplan⟩ := planSelectedRoute_retiring entry
      (retiringWorld.kernel samplePrefix) rfl
    obtain ⟨s, log, ev, hrun, hmem, hq⟩ :=
      (show ReconcilerRun {} accountedRows (.auditing retiringWorld "work") [] from
        .start_auditing retiringWorld "work" hinst).quarantined "work" (e := entry)
        (by decide +kernel) (by decide +kernel) rfl (by decide +kernel) hplan trivial Locked.refl
        fun _ hr hk => hinst.congr hr hk
    exact ⟨s, log, entry, _, ev, hrun, hmem, rfl, hq⟩
  · obtain ⟨message, hplan⟩ :=
      planSelectedRoute_unauthorized (activeRecord 8) (.route (sampleIdentity 7))
        (show _ ∈ (exactWorld 7).kernel samplePrefix by decide +kernel) (by decide)
    have hstart : ReconcilerRun {} accountedRows _ [] :=
      .start (exactWorld 7) accounted_exact_seven
    exact ((hstart.snapshot.other (exactWorld 8) accounted_exact_eight).list
        "work").quarantined "work" (e := activeRecord 8) (by decide +kernel) (by decide +kernel) rfl
        (by decide +kernel) hplan trivial Locked.refl
        fun _ hr hk => accounted_exact_eight.congr hr hk

end

end Kikimora.Control

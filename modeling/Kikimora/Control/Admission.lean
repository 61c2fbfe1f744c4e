import Kikimora.Control.Discipline

/-!
# What the transactions leave alone

The transactions write records, checkpoints, rows and tokens. They never open,
freeze or quarantine a role, and they never move its route generation: only the
few operations that are made for it do.
-/

namespace Kikimora.Control

open Net Routing Platform Lib

def SelectedRoleState.admission (state : SelectedRoleState) : SelectedRoleState :=
  { state with verification := fun _ => none }

theorem SelectedRoleState.restorePending_of_admission {s s' : SelectedRoleState}
    (h : s'.admission = s.admission) : s'.restorePending = s.restorePending := by
  have := congrArg SelectedRoleState.restorePending h
  exact this

def World.admission (w : World) (role : String) : SelectedRoleState :=
  (w.memory.roleState role).admission

def Effect.Quiet ⦃β : Type⦄ : Effect β → Prop
  | .memory f => ∀ m role, ((f m).2.roleState role).admission = (m.roleState role).admission
  | .notify (.diagnostic _ _) => False
  | _ => True

abbrev Quiet {α : Type} (p : ManagerM α) : Prop := p.Calls Effect.Quiet

theorem Effect.Quiet.admission_eq ⦃β : Type⦄ {c : Effect β} (hc : c.Quiet) {w w' : World} {b : β}
    (h : FaultStep c w b w') (role : String) : w'.admission role = w.admission role := by
  cases c with
  | memory f =>
    obtain ⟨_, rfl⟩ | h := h
    · exact hc w.memory role
    · exact h.elim
  | roleRuntime id | notify notice =>
    obtain ⟨_, rfl⟩ | h := h
    · rfl
    · exact h.elim
  | writeCheckpoint id c =>
    obtain ⟨_, rfl⟩ | ⟨_, _, rfl | rfl⟩ := h <;> rfl
  | routes c =>
    obtain ⟨_, rfl⟩ | ⟨_, _, _, rfl⟩ := h <;> rfl

/-- A quiet program leaves the admission of every role alone, also when it fails
    or is cut off. -/
theorem Quiet.admission_eq {α : Type} {p : ManagerM α} (h : Quiet p) {w w' : World}
    {trace : List (Event Effect World)} {o : Outcome ManagerError α}
    (he : Exec FaultStep p w trace o w') (role : String) : w'.admission role = w.admission role :=
  Prog.Calls.exec (J := fun s => s.admission role = w.admission role) h
    (fun _ _ _ _ _ hc hJ hb => (hc.admission_eq hb role).trans hJ) he rfl

-- === Primitives ===

section

variable {β : Type} {cfg : Config} {role : String} {pfx : Prefix}

@[simp] theorem Memory.roleState_setRole_self (m : Memory) (role id : String) :
    (m.setRole role (m.roleState role)).roleState id = m.roleState id := by
  unfold Memory.roleState Memory.setRole
  by_cases h : id = role
  · simp [h]
  · simp [h]

theorem Memory.roleState_setRole_of_ne (m : Memory) {id : String} (h : id ≠ role)
    (state : SelectedRoleState) : (m.setRole role state).roleState id = m.roleState id := by
  simp [Memory.roleState, Memory.setRole, h]

theorem Memory.admission_mintToken (m : Memory) (role : String) (entry : SelectedRoute)
    (id : String) :
    ((m.mintToken role entry).roleState id).admission = (m.roleState id).admission := by
  unfold Memory.mintToken
  cases hr : m.roles role with
  | none => rfl
  | some state =>
    by_cases h : id = role
    · subst h
      simp [Memory.roleState, hr, Memory.setRole, SelectedRoleState.admission]
    · exact congrArg _ (m.roleState_setRole_of_ne h _)

theorem Memory.admission_keepVerification (m : Memory)
    (keep : Prefix → SelectedVerification → Bool) (id : String) :
    ((m.keepVerification keep).roleState id).admission = (m.roleState id).admission := by
  simp only [Memory.keepVerification, Memory.roleState]
  cases m.roles id <;> rfl

theorem read_quiet (f : Memory → β) : Quiet (memory fun m => (f m, m)) :=
  .perform fun _ _ => rfl

theorem touch_quiet (f : Memory → β) :
    Quiet (memory fun m => (f m, m.setRole role (m.roleState role))) :=
  .perform fun m id => congrArg _ (m.roleState_setRole_self role id)

theorem roleState_quiet : Quiet (roleState role) := touch_quiet _

theorem registry_quiet (op : MemorySelectedRegistry → RegistryResult) : Quiet (registry op) :=
  .bind (.perform fun _ _ => rfl) fun _ => .ofExcept _

theorem routes_quiet (c : RouteCall β) : Quiet (routes c) :=
  .bind (.perform trivial) fun _ => .ofExcept _

theorem requestRecovery_quiet (reason : String) : Quiet (notify (.requestRecovery role reason)) :=
  .perform trivial

theorem writeCheckpoint_quiet (generation : UInt64) :
    Quiet (writeCheckpoint cfg role generation) := by
  unfold writeCheckpoint
  split
  · exact .ret _
  · exact .bind (read_quiet _) fun _ => .bind (.perform trivial) fun _ => .ofExcept _

theorem mintVerificationToken_quiet (entry : SelectedRoute) :
    Quiet (mintVerificationToken role entry) :=
  .perform fun m id => m.admission_mintToken role entry id

theorem clearVerificationForPrefix_quiet : Quiet (clearVerificationForPrefix pfx) :=
  .perform fun m id => m.admission_keepVerification _ id

end

-- === Transactions ===

def quietly : Discipline :=
  .ofSetting ⟨fun _ _ _ _ _ => True, fun ev => ev.call.Quiet, fun _ => True⟩ none fun _ _ => True

section Transactions

variable {α : Type} {known known' : Option SelectedRouteKey} {p : ManagerM α} {Q : α → Prop}

theorem Quiet.followed (h : Quiet p) (hQ : ∀ a, Q a) : quietly.Follows known p known' Q :=
  Discipline.follows_ofSetting.mpr ((h.safe (J := fun _ => True) (fun _ _ => trivial)
    (fun _ _ _ _ _ hc _ _ => ⟨hc, trivial⟩) trivial).mono (fun a _ _ => hQ a) fun _ _ h => h)

theorem Quiet.of_follows (h : quietly.Follows known p known' Q) : Quiet p := by
  replace h := Discipline.follows_ofSetting.mp h
  induction p with
  | ret a | fail e => trivial
  | call c k ih =>
    -- every effect has an answer
    let answer := (handle c (sampleWorld [] [] 0)).1
    exact ⟨(h.2 answer () trivial).1, fun b => ih b (h.2 b () trivial).2⟩

theorem lawful_quietly : quietly.Lawful where
  crash _ := trivial
  weaken _ := trivial
  raised _ := trivial
  read f := (read_quiet f).followed fun _ => trivial
  touch f := (touch_quiet f).followed fun _ => trivial
  generation _ := (touch_quiet _).followed fun _ => trivial
  runtime _ := Quiet.followed (.perform trivial) fun _ => trivial
  record _ _ := (registry_quiet _).followed fun _ => trivial
  remove _ := (registry_quiet _).followed fun _ => trivial
  reserve _ _ := (registry_quiet _).followed fun _ => trivial
  routes _ := (routes_quiet _).followed fun _ => trivial
  write _ := (writeCheckpoint_quiet _).followed fun _ => trivial
  mint entry _ := (mintVerificationToken_quiet entry).followed fun _ => trivial
  clear _ := clearVerificationForPrefix_quiet.followed fun _ => trivial
  recovery _ reason := (requestRecovery_quiet reason).followed fun _ => trivial
  entry _ _ := (read_quiet _).followed fun _ _ _ => nofun
  deref _ _ := Quiet.followed (.bind (read_quiet _) fun
    | some _ => .ret _
    | none => .fail _) fun _ => nofun

variable (cfg : Config) (role : String) (pfx : Prefix)

theorem ensure_quiet (authority : RouteAuthority) (intent : LeshyRouteIntent) :
    Quiet (ensure cfg authority intent) :=
  .of_follows ((lawful_quietly).ensure rfl)

theorem forget_quiet (authority : RouteAuthority) (intent : LeshyRouteIntent) :
    Quiet (forget cfg authority intent) :=
  .of_follows ((lawful_quietly).forget rfl)

theorem flushZone_quiet (authority : RouteAuthority) (zone : String) :
    Quiet (flushZone cfg authority zone) :=
  .of_follows ((lawful_quietly).flushZone rfl)

theorem restore_quiet (v4Ready v6Ready : Bool) : Quiet (restore cfg role v4Ready v6Ready) :=
  .of_follows ((lawful_quietly).restore rfl)

theorem parkRegistered_quiet : Quiet (parkRegistered cfg role) :=
  .of_follows ((lawful_quietly).parkRegistered rfl)

theorem withdrawSelected_quiet : Quiet (withdrawSelected cfg role) :=
  .of_follows ((lawful_quietly).withdrawSelected rfl)

theorem observeRestoration_quiet : Quiet (observeRestoration cfg role) :=
  .of_follows ((lawful_quietly).observeRestoration rfl fun _ => trivial)

theorem prefixInvalidation_quiet (flags : RoleFlags) :
    Quiet (prefixInvalidation cfg role pfx flags) :=
  .of_follows ((lawful_quietly).prefixInvalidation (.of_scope rfl))

/-- The audit of a record is quiet unless the planner is asked and refuses. -/
theorem auditRecord_quiet {entry : SelectedRoute} {rows : List SelectedKernelRow}
    (h : entry.park.isSome = true ∨ ∃ action, planSelectedRoute rows (some entry) = .ok action) :
    Quiet (auditRecord cfg role entry rows) := by
  refine .of_follows ((lawful_quietly).auditRecord (.of_scope rfl) fun hpark e he => ?_)
  obtain ⟨action, hplan⟩ := h.resolve_left (by simp [hpark])
  rw [hplan] at he
  cases he

end Transactions

end Kikimora.Control

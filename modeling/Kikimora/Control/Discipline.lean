import Kikimora.Control.Ensure
import Kikimora.Control.Observer
import Kikimora.Control.Parking
import Kikimora.Platform.Contract

/-!
# Following the programs of the manager

What the transactions do is told in several ways: what they leave alone, what they
can reach, which generation they write, how they fail. Each is a discipline: a
setting, with what is known between two steps. A discipline whose rules hold for the
primitives is followed by every transaction.
-/

namespace Kikimora.Control

open Net Routing Platform Kikimora.Core Lib

abbrev Any {α : Type} (_ : α) : Prop := True

-- === Calls on one prefix ===

/-- The call looks at the rows of one prefix and writes no others. -/
structure RouteCall.Local (pfx : Prefix) {β : Type} (c : RouteCall β) : Prop where
  plan : ∀ p k k', k' pfx = k pfx → c.plan p k' = c.plan p k
  writes : ∀ p k, ∀ m ∈ (c.plan p k).2, KernelMutation.pfx m = pfx

/-- The call names the prefix, or no row. -/
def RouteCall.On {β : Type} (pfx : Prefix) : RouteCall β → Prop
  | .preflightSelectedRoute q _ _ | .preflightManagedPark q _ _ | .reconcileManagedPark _ q _
  | .observeManagedPark q _ | .removeManagedPark _ q _ => q = pfx
  | .reconcileSelectedRoute desired _ => desired.pfx = pfx
  | .removeSelectedRoute record => record.pfx = pfx
  | .snapshotSelectedRoutes => False
  | _ => True

theorem RouteCall.On.isLocal {β : Type} {pfx : Prefix} {c : RouteCall β} (h : RouteCall.On pfx c) :
    RouteCall.Local pfx c := by
  cases c with
  | normalizeSelectedRoute | normalizeManagedPark | selectedWinsOverPark =>
    exact ⟨fun _ _ _ _ => rfl, fun _ _ _ hm => nomatch hm⟩
  | snapshotSelectedRoutes => exact h.elim
  | preflightSelectedRoute q _ record =>
    obtain rfl : q = pfx := h
    exact ⟨fun _ k k' hk => by simp only [RouteCall.plan, preflightSelectedRoute, hk],
      fun _ _ _ hm => nomatch hm⟩
  | preflightManagedPark q _ record =>
    obtain rfl : q = pfx := h
    exact ⟨fun _ k k' hk => by simp only [RouteCall.plan, preflightManagedPark, hk],
      fun _ _ _ hm => nomatch hm⟩
  | observeManagedPark q _ =>
    obtain rfl : q = pfx := h
    exact ⟨fun _ k k' hk => by simp only [RouteCall.plan, observeManagedPark, hk],
      fun _ _ _ hm => nomatch hm⟩
  | reconcileSelectedRoute desired record =>
    obtain rfl : desired.pfx = pfx := h
    refine ⟨fun _ k k' hk => by simp only [RouteCall.plan, reconcileSelectedRoute, hk],
      fun _ k m hm => ?_⟩
    rcases reconcileSelectedRoute_cases k desired record with ⟨_, hc⟩ | ⟨action, _, hc⟩
    · rw [RouteCall.plan, hc] at hm
      cases hm
    · rw [RouteCall.plan, hc] at hm
      exact pfx_of_mem_reconcileMutations hm
  | removeSelectedRoute record =>
    obtain rfl : record.pfx = pfx := h
    refine ⟨fun _ k k' hk => by simp only [RouteCall.plan, removeSelectedRoute, hk],
      fun _ k m hm => ?_⟩
    obtain ⟨_, _, rfl⟩ := deletes_removeSelectedRoute hm
    rfl
  | reconcileManagedPark _ q record =>
    obtain rfl : q = pfx := h
    refine ⟨fun _ k k' hk => by simp only [RouteCall.plan, reconcileManagedPark, parkMutations, hk],
      fun _ k m hm => ?_⟩
    rcases reconcileManagedPark_cases k q record with ⟨_, hc⟩ | ⟨park, _, _, _, hc⟩
    · rw [RouteCall.plan, hc] at hm
      cases hm
    · rw [RouteCall.plan, hc] at hm
      exact pfx_of_mem_parkMutations hm
  | removeManagedPark _ q park =>
    obtain rfl : q = pfx := h
    refine ⟨fun _ k k' hk => by simp only [RouteCall.plan, removeManagedPark, hk],
      fun _ k m hm => ?_⟩
    obtain ⟨ids, hids⟩ := removeManagedPark_writes k q park
    rw [RouteCall.plan, hids] at hm
    obtain ⟨_, _, rfl⟩ := List.mem_map.mp hm
    rfl

-- === Disciplines ===

/-- What is told of the programs: in a setting, of the states between two steps (`At`, with
    the key of a record that is registered there), of a generation that was read and of the
    errors. With a scope it is told of the programs of that record only. -/
structure Discipline where
  State : Type
  setting : Setting Effect State
  scope : Option SelectedRouteKey
  At : Option SelectedRouteKey → State → Prop
  Gen : String → UInt64 → Prop
  Raised : ManagerError → Prop

namespace Discipline

variable {α β γ : Type} {D : Discipline} {known known' known'' : Option SelectedRouteKey}

def Within (D : Discipline) (role : String) (pfx : Prefix) : Prop := ∀ k ∈ D.scope, k = ⟨role, pfx⟩

def Entry (D : Discipline) (pfx : Prefix) (e : SelectedRoute) : Prop :=
  ∀ k ∈ D.scope, k.pfx = pfx → e.pfx = pfx

/-- The program is followed: where `known` is registered, it does what the setting demands,
    returns a value with `Q` where `known'` is registered, and raises such errors only. -/
def Follows (D : Discipline) (known : Option SelectedRouteKey) (p : ManagerM α)
    (known' : Option SelectedRouteKey) (Q : α → Prop) : Prop :=
  ∀ s, D.At known s → p.Safe D.setting (fun a s' => D.At known' s' ∧ Q a)
    (fun e s' => D.At none s' ∧ D.Raised e) s

variable {p : ManagerM α} {Q : α → Prop} {role : String} {pfx : Prefix}

theorem Follows.bind {f : α → ManagerM β} {Q' : β → Prop} (h : D.Follows known p known' Q)
    (hf : ∀ a, Q a → D.Follows known' (f a) known'' Q') : D.Follows known (p.bind f) known'' Q' :=
  fun s hs => .bind (h s hs) fun a s' ha => hf a ha.2 s' ha.1

theorem Follows.tryCatch {handler : ManagerError → ManagerM α} (h : D.Follows known p known' Q)
    (hh : ∀ e, D.Raised e → D.Follows none (handler e) known' Q) :
    D.Follows known (p.tryCatch handler) known' Q :=
  fun s hs => .tryCatch (h s hs) fun e s' he => hh e he.2 s' he.1

/-- A request reports the generation that it has read, and such an error only. -/
def Reports (D : Discipline) (answer : LeshyRouteResult × Option ManagerError) : Prop :=
  (answer.1.generation ≠ 0 → D.Gen answer.1.role answer.1.generation) ∧
    ∀ e, answer.2 = some e → D.Raised e

/-- The rules of a discipline. -/
structure Lawful (D : Discipline) : Prop where
  crash : ∀ {known s}, D.At known s → D.setting.Crash s
  weaken : ∀ {known s}, D.At known s → D.At none s
  raised : ∀ {e}, e ≠ .nilRecord → D.Raised e
  read : ∀ {β : Type} {known} (f : Memory → β), D.Follows known (memory fun m => (f m, m)) known Any
  touch : ∀ {β : Type} {known role} (f : Memory → β),
    D.Follows known (memory fun m => (f m, m.setRole role (m.roleState role))) known Any
  generation : ∀ {known} role, D.Follows known (routeGenerationLocked role) known (D.Gen role)
  runtime : ∀ {known} role, D.Follows known (roleRuntime role) known Any
  /-- a transition that succeeds has found its record -/
  record : ∀ {known role pfx} (t : RecordTransition), D.Within role pfx →
    D.Follows known (registry fun r => t.apply r role pfx) (some ⟨role, pfx⟩) Any
  remove : ∀ {known role pfx}, D.Within role pfx →
    D.Follows known (registry fun r => (.ok (), r.remove role pfx)) none Any
  reserve : ∀ {known} (q : Reservation), D.Within q.role q.pfx →
    D.Follows known (registry (·.reserve q)) none Any
  routes : ∀ {β : Type} {known} {c : RouteCall β}, (∀ k ∈ D.scope, RouteCall.Local k.pfx c) →
    D.Follows known (routes c) known Any
  write : ∀ {known cfg role generation}, D.Gen role generation →
    D.Follows known (writeCheckpoint cfg role generation) known Any
  mint : ∀ {known role} (entry : SelectedRoute), D.Within role entry.pfx →
    D.Follows known (mintVerificationToken role entry) known Any
  clear : ∀ {known} pfx, D.Follows known (clearVerificationForPrefix pfx) known Any
  recovery : ∀ {known} role reason,
    D.Follows known (notify (.requestRecovery role reason)) known Any
  entry : ∀ {known} role pfx, D.Follows known (registryEntry role pfx) known
    fun r => ∀ e, r = some e → D.Entry pfx e
  deref : ∀ role pfx, D.Follows (some ⟨role, pfx⟩) (registryEntryDeref role pfx)
    (some ⟨role, pfx⟩) (D.Entry pfx)

theorem Within.entry {e : SelectedRoute} (h : D.Within role pfx) (he : D.Entry pfx e) :
    D.Within role e.pfx := by
  intro k hk
  have hkey := h k hk
  rw [he k hk (by rw [hkey]), hkey]

theorem Within.of_scope (h : D.scope = none) : D.Within role pfx := by
  intro k hk
  rw [h] at hk
  cases hk

theorem Within.calls {c : RouteCall β} (h : D.Within role pfx) (hc : RouteCall.On pfx c) :
    ∀ k ∈ D.scope, RouteCall.Local k.pfx c := by
  intro k hk
  rw [h k hk]
  exact hc.isLocal

namespace Lawful

section

variable {Q : α → Prop} (hD : D.Lawful)

include hD

theorem ret {a : α} (h : Q a) : D.Follows known (.ret a) none Q :=
  fun _ hs => ⟨hD.crash hs, hD.weaken hs, h⟩

theorem fails {e : ManagerError} (h : D.Raised e) :
    D.Follows known (.fail e : ManagerM α) known' Q :=
  fun _ hs => ⟨hD.crash hs, hD.weaken hs, h⟩

theorem fail {e : ManagerError} (h : e ≠ .nilRecord) :
    D.Follows known (.fail e : ManagerM α) known' Q :=
  hD.fails (hD.raised h)

theorem ofExcept (x : Except ManagerError α) (h : ∀ e, D.Raised e) :
    D.Follows known (.ofExcept x) none Any := by
  cases x with
  | ok a => exact hD.ret trivial
  | error e => exact hD.fails (h e)

theorem last {p : ManagerM α} (h : D.Follows known p known' Q) : D.Follows known p none Q :=
  fun s hs => .mono (h s hs) (fun _ _ h => ⟨hD.weaken h.1, h.2⟩) fun _ _ h => h

theorem forEach {body : γ → ManagerM Unit} (h : ∀ x, D.Follows none (body x) none Any)
    (xs : List γ) : D.Follows known (Prog.forEach body xs) none Any :=
  fun _ hs => (Prog.Safe.forEach (fun _ => D.At none) (fun _ hs => hD.crash hs)
    (fun x _ s hs => (h x s hs).mono (fun _ _ h => h.1) fun _ _ h => h) xs (hD.weaken hs)).mono
    (fun _ _ h => ⟨h, trivial⟩) fun _ _ h => h

/-- What is caught is an error that may be raised. -/
theorem caught {p : ManagerM Unit} (h : D.Follows none p none Any) :
    D.Follows known ((p.bind fun _ => .ret none).tryCatch fun e => .ret (some e)) none
      fun err => ∀ e, err = some e → D.Raised e := by
  refine .tryCatch (.bind (fun s hs => h s (hD.weaken hs)) fun _ _ => hD.ret nofun) fun e he => ?_
  refine hD.ret fun e' h' => ?_
  obtain rfl := Option.some.inj h'
  exact he

end

section Transactions

variable {cfg : Config} {role : String} {pfx : Prefix} {record : SelectedRoute} (hD : D.Lawful)

include hD

theorem roleState : D.Follows known (Control.roleState role) known Any := hD.touch _

theorem checkpoint : D.Follows known (Control.checkpoint cfg role) known Any :=
  .bind (hD.generation role) fun _ h => hD.write h

theorem driveTransaction (hin : D.Within role record.pfx) :
    D.Follows known (driveTransaction cfg role record) none Any := by
  unfold Control.driveTransaction
  split
  · exact hD.fail nofun
  refine .bind (hD.routes (hin.calls rfl))
    fun result _ => ?_
  split
  · exact hD.fail nofun
  · exact .bind (hD.record (.markActive result.verified) hin) fun _ _ =>
      .bind hD.checkpoint fun _ _ => .bind (hD.mint record hin) fun _ _ => hD.ret trivial

variable (hin : D.Within role pfx)

include hin

theorem reconcilePending : D.Follows known (reconcilePending cfg role pfx record) none Any := by
  refine .bind (.tryCatch (hD.routes (hin.calls rfl)) fun e he => ?_)
    fun _ _ => .bind (hD.record .markApplying hin) fun _ _ => .bind hD.checkpoint fun _ _ =>
    .bind (hD.deref role pfx) fun record hrecord => hD.driveTransaction (hin.entry hrecord)
  split
  · exact hD.fail nofun
  · exact hD.fails he

theorem reconcileRecordLocked : D.Follows known (reconcileRecordLocked cfg role pfx) none Any := by
  unfold Control.reconcileRecordLocked
  split
  · exact hD.fail nofun
  refine .bind (hD.entry role pfx) fun
    | none, _ => hD.fail nofun
    | some record, hrecord => ?_
  dsimp only
  cases record.state with
  | active =>
    exact .bind (hD.record .beginRepair hin) fun _ _ => .bind hD.checkpoint fun _ _ =>
      .bind (hD.deref role pfx) fun _ _ => hD.reconcilePending hin
  | pending => exact hD.reconcilePending hin
  | applying => exact hD.driveTransaction (hin.entry (hrecord record rfl))
  | retiring | other text => exact hD.fail nofun

theorem reconciled : D.Follows known
    ((Control.reconcileRecordLocked cfg role pfx).bind fun _ => (.ret () : ManagerM Unit)) none Any
    :=
  .bind (hD.reconcileRecordLocked hin) fun _ _ => hD.ret trivial

theorem beginRetirement (hrecord : D.Entry pfx record) : D.Follows known
    (beginRetirement cfg role pfx record) none (D.Entry pfx) := by
  unfold Control.beginRetirement
  split
  · exact hD.ret hrecord
  · exact .bind (hD.record .markRetiring hin) fun _ _ => .bind hD.checkpoint fun _ _ =>
      hD.last (hD.deref role pfx)

theorem resumeParkRetirement {park : SelectedPark} : D.Follows known
    (resumeParkRetirement cfg role pfx park) none Any :=
  .bind (hD.routes (hin.calls rfl)) fun _ _ =>
    .bind (hD.record .clearPark hin) fun _ _ => hD.last hD.checkpoint

theorem resumeParkRetirementLocked : D.Follows known (resumeParkRetirementLocked cfg role pfx) none
    Any := by
  refine .bind (hD.read _) fun record _ => ?_
  cases record.bind SelectedRoute.park with
  | none => exact hD.ret trivial
  | some park => exact hD.resumeParkRetirement hin

theorem retirePark : D.Follows known (retirePark cfg role pfx record) none Any := by
  have hmark : D.Follows known ((registry (·.markParkRetiring role pfx)).bind fun _ =>
      (Control.checkpoint cfg role).bind fun _ =>
      Control.resumeParkRetirementLocked cfg role pfx) none Any :=
    .bind (hD.record .markParkRetiring hin) fun _ _ => .bind hD.checkpoint fun _ _ =>
      hD.resumeParkRetirementLocked hin
  unfold Control.retirePark
  split
  · exact .bind (hD.record .clearPark hin) fun _ _ => hD.last hD.checkpoint
  · exact hmark
  · exact hmark
  · exact hD.resumeParkRetirementLocked hin
  · exact hD.ret trivial
  · exact hD.ret trivial

theorem retireRecordLocked : D.Follows known (retireRecordLocked cfg role pfx) none Any := by
  unfold Control.retireRecordLocked
  split
  · exact hD.fail nofun
  refine .bind (hD.entry role pfx) fun
    | none, _ => hD.ret trivial
    | some record, hrecord => ?_
  refine .bind (hD.beginRetirement hin (hrecord record rfl)) fun record hrecord => ?_
  exact .bind (hD.routes ((hin.entry hrecord).calls rfl)) fun _ _ =>
    .bind (hD.retirePark hin) fun _ _ => .bind (hD.remove hin) fun _ _ =>
    .bind hD.checkpoint fun _ _ => hD.clear pfx

omit hin

/-- The audit of a record, where what it does when the planner refuses the record is followed. -/
theorem auditRecord {entry : SelectedRoute} {rows : List SelectedKernelRow}
    (hin : D.Within role entry.pfx)
    (hrefused : entry.park.isSome = false → ∀ e, planSelectedRoute rows (some entry) = .error e →
      ∀ text, D.Follows none (failSelectedRouteIntegrity role text) none Any) :
    D.Follows none (auditRecord cfg role entry rows) none Any := by
  refine .bind hD.roleState fun state _ => ?_
  split
  · split
    · exact hD.recovery _ _
    · exact hD.ret trivial
  next hpark =>
  split
  · exact hD.recovery _ _
  split
  · next e he =>
    exact .bind (hrefused (Bool.eq_false_iff.mpr hpark) e he _) fun _ _ => hD.fail nofun
  cases entry.state with
  | retiring => exact hD.retireRecordLocked hin
  | active =>
    dsimp only
    split
    · exact hD.mint entry hin
    · exact .bind (hD.record .beginRepair hin) fun _ _ => .bind hD.checkpoint fun _ _ =>
        hD.reconciled hin
  | applying | pending => exact hD.reconciled hin
  | other text => exact hD.ret trivial

theorem prefixInvalidation {flags : RoleFlags} (hin : D.Within role pfx) :
    D.Follows none (prefixInvalidation cfg role pfx flags) none Any := by
  refine .bind (hD.entry role pfx) fun
    | none, _ => hD.ret trivial
    | some record, _ => ?_
  dsimp only
  split
  · exact hD.recovery _ _
  split
  · exact hD.ret trivial
  cases record.state with
  | retiring => exact hD.retireRecordLocked hin
  | pending | applying | active => exact hD.reconciled hin
  | other text => exact hD.ret trivial

end Transactions

-- === Requests ===

section

variable {cfg : Config} {role : String} {authority : RouteAuthority} {intent : LeshyRouteIntent}
  (hD : D.Lawful) (hscope : D.scope = none)

include hD hscope

theorem anyRoutes (c : RouteCall β) : D.Follows known (Control.routes c) known Any := by
  refine hD.routes fun k hk => ?_
  rw [hscope] at hk
  cases hk

theorem retireAll (entries : List SelectedRoute) {firstErr : Option ManagerError}
    (hf : ∀ e, firstErr = some e → D.Raised e) :
    D.Follows none (flushZoneLocked.retireAll cfg role entries firstErr) none
      fun err => ∀ e, err = some e → D.Raised e := by
  induction entries generalizing firstErr with
  | nil => exact hD.ret hf
  | cons entry entries ih =>
    refine .bind (hD.caught (hD.retireRecordLocked (.of_scope hscope))) fun err he => ih ?_
    cases firstErr with
    | none => exact he
    | some e => exact hf

theorem flushZoneLocked {zone : String} {generation : UInt64} (hg : D.Gen role generation) :
    D.Follows known (flushZoneLocked cfg role zone generation) none Any := by
  refine .bind (hD.last (hD.read _)) fun entries _ =>
    .bind (hD.retireAll hscope _ nofun) fun firstErr hfirst =>
    .bind (hD.caught (hD.write hg)) fun err herr => ?_
  cases hor : firstErr.or err with
  | none => exact hD.ret trivial
  | some e =>
    refine hD.fails ?_
    cases firstErr with
    | none => exact herr e hor
    | some e' => exact hfirst e hor

theorem applySelectedRouteCanonical {a : EnsureRequest} {fastPathAllowed : Bool}
    (hg : D.Gen role a.generation) :
    D.Follows known (applySelectedRouteCanonical cfg role a fastPathAllowed) none Any := by
  unfold Control.applySelectedRouteCanonical
  split
  · exact hD.fail nofun
  refine .bind (hD.anyRoutes hscope _) fun identity _ => .bind (hD.touch _) fun fast _ => ?_
  split
  · exact hD.ret trivial
  refine .bind (hD.reserve _ (.of_scope hscope)) fun _ _ =>
    .bind (.tryCatch (hD.write hg) fun _ _ => hD.fail nofun) fun _ _ =>
    .bind (.tryCatch (hD.reconcileRecordLocked (.of_scope hscope)) fun e he => ?_)
      fun _ _ => hD.ret trivial
  split
  · exact hD.fail nofun
  · exact hD.fails he

theorem ensureAdmitted {pfx : Prefix} {runtime : RoleRuntime} {result : LeshyRouteResult}
    (hresult : result.role = role) :
    D.Follows known (ensureAdmitted cfg authority role intent pfx runtime result) none
      D.Reports := by
  subst hresult
  refine .bind (hD.generation _) fun generation hg => ?_
  refine .tryCatch (.bind (hD.applySelectedRouteCanonical hscope hg) fun _ _ =>
    hD.ret ⟨fun _ => hg, nofun⟩) fun e he => hD.ret ⟨fun _ => hg, fun e' h => ?_⟩
  obtain rfl := Option.some.inj h
  exact he

theorem ensure : D.Follows none (ensure cfg authority intent) none D.Reports := by
  have deny : ∀ {known result reason}, result.generation = 0 →
      D.Follows known (.ret (result, some (.denied result.role intent.zone result.pfx reason)))
        none D.Reports := by
    intro known result reason hzero
    refine hD.ret ⟨fun h => absurd hzero h, fun e he => ?_⟩
    obtain rfl := Option.some.inj he
    exact hD.raised (by simp)
  unfold Control.ensure
  split
  · split
    · exact deny rfl
    split
    · exact deny rfl
    refine .bind hD.roleState fun state _ => ?_
    split
    · exact deny rfl
    refine .bind (hD.runtime _) fun
      | none, _ => deny rfl
      | some runtime, _ => ?_
    dsimp only
    split
    · exact deny rfl
    refine .bind (hD.read _) fun full _ => ?_
    split
    · exact deny rfl
    · exact hD.ensureAdmitted hscope rfl
  · exact deny rfl

theorem forget : D.Follows none (forget cfg authority intent) none Any := by
  unfold Control.forget
  split
  · exact hD.fail nofun
  · split
    · exact .bind hD.roleState fun _ _ => hD.retireRecordLocked (.of_scope hscope)
    · exact hD.fail nofun

theorem flushZone {zone : String} : D.Follows none (flushZone cfg authority zone) none Any := by
  unfold Control.flushZone
  split
  · exact .bind (hD.generation _) fun _ hg => hD.flushZoneLocked hscope hg
  · exact hD.fail nofun

theorem restore {v4Ready v6Ready : Bool} :
    D.Follows none (restore cfg role v4Ready v6Ready) none Any := by
  unfold Control.restore
  split
  · exact hD.fail nofun
  refine .bind (hD.runtime _) fun
    | none, _ => hD.fail nofun
    | some runtime, _ => ?_
  refine .bind hD.roleState fun _ _ => ?_
  split
  · exact hD.fail nofun
  refine .bind (hD.read _) fun entries _ => .bind (hD.forEach (fun entry => ?_) entries)
    fun _ _ => hD.checkpoint
  unfold restoreOne
  split
  · exact hD.ret trivial
  · exact .bind (hD.anyRoutes hscope _) fun _ _ => .bind (hD.generation _) fun _ _ =>
      .bind (hD.reserve _ (.of_scope hscope)) fun _ _ =>
      hD.reconciled (.of_scope hscope)

end

-- === Parks ===

section

variable {cfg : Config} {role : String} {pfx : Prefix} {record : SelectedRoute}
  {parkDesired : SelectedParkIdentity} (hD : D.Lawful)

include hD

variable {entry : SelectedRoute}

theorem applyParkTransaction (hin : D.Within role pfx) :
    D.Follows known (applyParkTransaction cfg role pfx parkDesired record) none Any := by
  refine .bind (hD.record .markParkApplying hin) fun _ _ => .bind hD.checkpoint fun _ _ =>
    .bind (hD.read _) fun latest _ =>
    .bind (hD.routes (hin.calls rfl)) fun result _ => ?_
  split
  · exact hD.fail nofun
  · exact .bind (hD.record (.markParkActive result.verified) hin) fun _ _ => hD.last hD.checkpoint

theorem preflightAndApplyPark (hin : D.Within role pfx) :
    D.Follows known (preflightAndApplyPark cfg role pfx parkDesired record) none Any :=
  .bind (hD.routes (hin.calls rfl)) fun _ _ =>
    hD.applyParkTransaction hin

theorem runParkTransaction {preflight : Bool} (hin : D.Within role pfx) :
    D.Follows known (runParkTransaction cfg role pfx parkDesired preflight) none Any := by
  have happly : D.Follows (some ⟨role, pfx⟩) ((registryEntryDeref role pfx).bind fun latest =>
      Control.applyParkTransaction cfg role pfx parkDesired latest) none Any :=
    .bind (hD.deref role pfx) fun _ _ => hD.applyParkTransaction hin
  refine .bind (hD.record (.reservePark parkDesired false) hin) fun _ _ =>
    .bind hD.checkpoint fun _ _ => .bind (hD.deref role pfx) fun record _ => ?_
  cases preflight with
  | true =>
    exact .bind (hD.routes (hin.calls rfl)) fun _ _ => happly
  | false => exact happly

theorem reserveParkAgain (hin : D.Within role pfx) :
    D.Follows known ((reserveParkAgain cfg role pfx parkDesired).bind fun current =>
      Control.preflightAndApplyPark cfg role pfx parkDesired current) none Any :=
  .bind (.bind (hD.record (.reservePark parkDesired true) hin) fun _ _ =>
    .bind hD.checkpoint fun _ _ => hD.deref role pfx) fun _ _ => hD.preflightAndApplyPark hin

theorem parkOne (hin : D.Within role entry.pfx) :
    D.Follows known (parkOne cfg role entry) none Any := by
  refine .bind (hD.routes (hin.calls trivial))
    fun parkDesired _ => ?_
  cases entry.park with
  | none => exact hD.runParkTransaction hin
  | some park =>
    dsimp only
    cases park.state with
    | pending =>
      dsimp only
      split
      · exact hD.preflightAndApplyPark hin
      · exact hD.reserveParkAgain hin
    | applying => exact hD.applyParkTransaction hin
    | active =>
      have hproven : D.Follows known (parkOne.parkProven entry.pfx parkDesired park) none Any := by
        unfold parkOne.parkProven
        split
        · split
          · exact hD.last (hD.routes (hin.calls rfl))
          · exact hD.ret trivial
        · exact hD.ret trivial
      refine .bind hproven fun proven _ => ?_
      split
      · exact hD.ret trivial
      · exact hD.reserveParkAgain hin
    | retiring =>
      exact .bind (hD.resumeParkRetirement hin) fun _ _ => hD.runParkTransaction hin
    | other text => exact hD.runParkTransaction hin

variable (hscope : D.scope = none)

include hscope

theorem parkRegistered : D.Follows none (parkRegistered cfg role) none Any := by
  refine .bind hD.roleState fun state _ => ?_
  split
  · exact hD.fail nofun
  split
  · exact hD.fail nofun
  refine .bind (hD.read _) fun entries _ => hD.forEach (fun entry => ?_) entries
  split
  · exact hD.ret trivial
  · exact hD.parkOne (.of_scope hscope)

theorem withdrawalPlan (entries : List SelectedRoute) :
    D.Follows none (withdrawalPlan role entries) none Any := by
  induction entries with
  | nil => exact hD.ret trivial
  | cons entry entries ih =>
    unfold Control.withdrawalPlan
    split
    · exact ih
    split
    · exact hD.fail nofun
    refine .bind (hD.anyRoutes hscope _) fun present _ => ?_
    split
    · exact hD.fail nofun
    · exact .bind ih fun _ _ => hD.ret trivial

theorem withdrawSelected : D.Follows none (withdrawSelected cfg role) none Any := by
  refine .bind hD.roleState fun state _ => ?_
  split
  · exact hD.fail nofun
  split
  · exact hD.fail nofun
  refine .bind (hD.read _) fun entries _ => .bind (hD.withdrawalPlan hscope entries) fun plan _ =>
    .bind (hD.forEach (fun _ => hD.anyRoutes hscope _) plan) fun _ _ =>
    hD.forEach (fun item => ?_) plan
  refine .bind (hD.anyRoutes hscope _) fun present _ => ?_
  split
  · exact hD.fail nofun
  · exact hD.ret trivial

variable (hraised : ∀ e, D.Raised e)

include hraised

theorem unpark {owned : SelectedParkIdentity} :
    D.Follows none (unpark cfg role entry owned) none Any := by
  refine .bind (hD.record .markParkRetiring (.of_scope hscope)) fun _ _ =>
    .bind hD.checkpoint fun _ _ => .bind (hD.last (hD.read _)) fun record _ => ?_
  cases record.park with
  | none => exact hD.fails (hraised _)
  | some park =>
    exact .bind (hD.anyRoutes hscope _) fun _ _ => .bind (hD.anyRoutes hscope _) fun _ _ =>
      .bind (hD.ofExcept _ hraised) fun _ _ =>
      .bind (hD.record .clearPark (.of_scope hscope)) fun _ _ => hD.last hD.checkpoint

theorem proveRestored {park : SelectedParkIdentity} :
    D.Follows none (proveRestored entry park) none Any := by
  refine .bind (hD.anyRoutes hscope _) fun rows _ => .bind (hD.ofExcept _ hraised) fun _ _ => ?_
  split
  · exact hD.fail nofun
  refine .bind (hD.anyRoutes hscope _) fun wins _ => ?_
  split
  · exact hD.fail nofun
  · exact hD.ret trivial

theorem retireProvenPark {park : SelectedPark} :
    D.Follows none (retireProvenPark cfg role entry park) none Any := by
  unfold Control.retireProvenPark
  split
  · exact hD.fail nofun
  split
  · exact hD.fail nofun
  refine .bind (hD.anyRoutes hscope _) fun present _ => ?_
  cases present with
  | true =>
    exact .bind (hD.proveRestored hscope hraised) fun _ _ => hD.unpark hscope hraised
  | false => exact hD.unpark hscope hraised

theorem observeRestoration : D.Follows none (observeRestoration cfg role) none Any := by
  unfold Control.observeRestoration
  split
  · exact hD.fail nofun
  refine .bind hD.roleState fun _ _ => .bind (hD.read _) fun entries _ =>
    .bind (hD.forEach (fun entry => ?_) entries) fun _ _ => .bind (hD.read _) fun entries _ => ?_
  · unfold observeRestorationOne
    split
    · exact hD.ret trivial
    next park hp =>
    cases park.state with
    | pending | applying => exact hD.fail nofun
    | active =>
      refine .tryCatch (hD.retireProvenPark hscope hraised) fun e he => ?_
      split
      · exact hD.ret trivial
      · exact hD.fails he
    | retiring => exact hD.resumeParkRetirement (.of_scope hscope)
    | other text => exact hD.ret trivial
  · split
    · exact hD.fail nofun
    · exact hD.ret trivial

end

end Lawful

-- === Settings without a state ===

/-- The discipline of a setting that looks at the calls only. -/
def ofSetting (S : Setting Effect Unit) (scope : Option SelectedRouteKey)
    (Gen : String → UInt64 → Prop) : Discipline where
  State := Unit
  setting := S
  scope := scope
  At _ _ := True
  Gen := Gen
  Raised _ := True

theorem follows_ofSetting {S : Setting Effect Unit} {scope : Option SelectedRouteKey}
    {Gen : String → UInt64 → Prop} : (ofSetting S scope Gen).Follows known p known' Q ↔
      p.Safe S (fun a _ => Q a) (fun _ _ => True) () :=
  ⟨fun h => (h () trivial).mono (fun _ _ h => h.2) fun _ _ _ => trivial,
    fun h _ _ => h.mono (fun _ _ h => ⟨trivial, h⟩) fun _ _ _ => ⟨trivial, trivial⟩⟩

end Discipline

end Kikimora.Control

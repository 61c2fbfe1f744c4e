import Kikimora.Control.Api

/-!
# A request does not end the process

What a request may end in, for every state of the manager and every answer of the
services: a response that is OK exactly when it reports no error. A request that
is rejected for its version, its authentication or a missing payload leaves the
state as it was, with two exceptions among the methods of the selected routes.
-/

namespace Kikimora.Control

open Net Routing Platform Kikimora.Core Lib

-- === Nil records ===

def unwatched : Setting Effect World where
  Step := FaultStep
  Guarantee _ := True
  Crash w := w.registry.WellFormed

def Raised (e : ManagerError) (w : World) : Prop := e ≠ .nilRecord ∧ w.registry.WellFormed

/-- From a registry with `J` the program fails only with such errors, and leaves a registry
    with `Q`. -/
def Sound {α : Type} (J : MemorySelectedRegistry → Prop) (p : ManagerM α)
    (Q : α → MemorySelectedRegistry → Prop) : Prop :=
  ∀ w, J w.registry → p.Safe unwatched (fun a w => Q a w.registry) Raised w

abbrev WF (r : MemorySelectedRegistry) : Prop := r.WellFormed

def Registered (role : String) (pfx : Prefix) (r : MemorySelectedRegistry) : Prop :=
  r.WellFormed ∧ (r.lookup ⟨role, pfx⟩).isSome = true

/-- What is known of the registry, with the key of a registered record. -/
def Knows : Option SelectedRouteKey → MemorySelectedRegistry → Prop
  | none, r => WF r
  | some k, r => Registered k.role k.pfx r

namespace Sound

variable {α β : Type} {J J' : MemorySelectedRegistry → Prop} {role : String} {pfx : Prefix}
  {cfg : Config} {known : Option SelectedRouteKey} {Q : α → MemorySelectedRegistry → Prop}

theorem bind {p : ManagerM α} {f : α → ManagerM β} {Q' : β → MemorySelectedRegistry → Prop}
    (h : Sound J p Q) (hf : ∀ a, Sound (Q a) (f a) Q') : Sound J (p.bind f) Q' :=
  fun w hw => .bind (h w hw) fun a w' hw' => hf a w' hw'

theorem ret {a : α} (hJ : ∀ r, J r → WF r) (h : ∀ r, J r → Q a r) : Sound J (.ret a) Q :=
  fun _ hw => ⟨hJ _ hw, h _ hw⟩

theorem fail {e : ManagerError} (hJ : ∀ r, J r → WF r) (he : e ≠ .nilRecord) :
    Sound J (.fail e : ManagerM α) Q :=
  fun _ hw => ⟨hJ _ hw, he, hJ _ hw⟩

theorem knows_wf (r : MemorySelectedRegistry) (h : Knows known r) : WF r := by
  cases known with
  | none => exact h
  | some k => exact h.1

section

variable (hJ : ∀ r, J r → WF r)

include hJ

/-- A call that leaves the registry alone. -/
theorem call {c : Effect β} (hc : ∀ w b w', FaultStep c w b w' → w'.registry = w.registry) :
    Sound J (Prog.perform c) fun _ => J := by
  intro w hw
  refine .perform (hJ _ hw) fun b w' hstep => ⟨trivial, ?_⟩
  have hw' : J w'.registry := by rwa [hc w b w' hstep]
  exact ⟨hJ _ hw', hw'⟩

theorem ofExcept {x : Except String α} :
    Sound J (Prog.ofExcept (x.mapError .text)) fun _ => J := by
  cases x with
  | ok a => exact ret hJ fun _ h => h
  | error e => exact fail hJ (by simp)

theorem memory {f : Memory → β × Memory} (hf : ∀ m, (f m).2.registry = m.registry) :
    Sound J (memory f) fun _ => J := by
  refine call hJ fun w b w' hstep => ?_
  obtain ⟨_, rfl⟩ | h := hstep
  · exact hf w.memory
  · exact h.elim

theorem routes {c : RouteCall β} : Sound J (routes c) fun _ => J := by
  refine bind (call hJ fun w b w' hstep => ?_) fun x => ofExcept hJ
  obtain ⟨_, rfl⟩ | ⟨_, _, _, rfl⟩ := hstep <;> rfl

theorem writeCheckpoint {generation : UInt64} :
    Sound J (writeCheckpoint cfg role generation) fun _ => J := by
  unfold Control.writeCheckpoint
  split
  · exact ret hJ fun _ h => h
  · refine bind (memory hJ fun _ => rfl) fun c =>
      bind (call hJ fun w b w' hstep => ?_) fun x => ofExcept hJ
    obtain ⟨_, rfl⟩ | ⟨_, _, rfl | rfl⟩ := hstep <;> rfl

/-- A registry operation that gives `J'` when it does not fail. -/
theorem registry (op : RegistryOp) (hok : ∀ r, J r → (op.apply r).1 = .ok () → J' (op.apply r).2) :
    Sound J (registry op.apply) fun _ => J' := by
  refine bind (Q := fun x r => WF r ∧ (x = .ok () → J' r)) (fun w hw => ?_) fun x => ?_
  · refine .perform (hJ _ hw) fun b w' hstep => ⟨trivial, ?_⟩
    obtain ⟨rfl, rfl⟩ | h := hstep
    · have hwf := wellFormed_apply (hJ _ hw) op
      exact ⟨hwf, hwf, fun hb => hok _ hw hb⟩
    · exact h.elim
  · cases x with
    | ok u => exact ret (fun _ h => h.1) fun _ h => h.2 rfl
    | error e => exact fail (fun _ h => h.1) (by simp)

theorem op (op : RegistryOp) : Sound J (Control.registry op.apply) fun _ => WF :=
  registry hJ op fun _ h _ => wellFormed_apply (hJ _ h) op

/-- A transition that does not fail has found its record. -/
theorem record (t : RecordTransition) :
    Sound J (Control.registry fun r => t.apply r role pfx) fun _ => Registered role pfx := by
  refine registry hJ (.record role pfx t) fun r h hok => ⟨wellFormed_apply (hJ r h) _, ?_⟩
  rcases t.apply_spec r role pfx with ⟨_, he, _⟩ | ⟨_, e', _, _, _, _, he⟩
  · simp only [RegistryOp.apply, he] at hok
    cases hok
  · simp only [RegistryOp.apply, he, MemorySelectedRegistry.lookup_set_self]
    rfl

end

theorem registryEntryDeref :
    Sound (Registered role pfx) (registryEntryDeref role pfx) fun _ => Registered role pfx := by
  refine bind (Q := fun record r => Registered role pfx r ∧ record.isSome = true) (fun w hw => ?_)
    fun record => ?_
  · refine .perform hw.1 fun b w' hstep => ⟨trivial, ?_⟩
    obtain ⟨rfl, rfl⟩ | h := hstep
    · refine ⟨hw.1, hw, ?_⟩
      rw [show (Control.handle _ w).1 = registryEntryOf w.registry role pfx from rfl,
        registryEntryOf_eq hw.1]
      exact hw.2
    · exact h.elim
  · cases record with
    | none => exact fun w hw => by cases hw.2
    | some record => exact ret (fun _ h => h.1.1) fun _ h => h.1

end Sound

section Operations

variable {α : Type} {cfg : Config} {role : String} {authority : RouteAuthority}
  {intent : LeshyRouteIntent} {known known' : Option SelectedRouteKey} {p : ManagerM α}
  {Q : α → Prop}

def soundly : Discipline where
  State := World
  setting := unwatched
  scope := none
  At known w := Knows known w.registry
  Gen _ _ := True
  Raised e := e ≠ .nilRecord

theorem Sound.followed (h : Sound (Knows known) p fun _ => Knows known') (hQ : ∀ a, Q a) :
    soundly.Follows known p known' Q :=
  fun w hw => (h w hw).mono (fun a _ ha => ⟨ha, hQ a⟩) fun _ _ he => ⟨he.2, he.1⟩

theorem Sound.of_follows (h : soundly.Follows none p none Q) :
    Sound WF p fun a r => WF r ∧ Q a :=
  fun w hw => (h w hw).mono (fun _ _ h => h) fun _ _ h => ⟨h.2, h.1⟩

theorem lawful_soundly : soundly.Lawful where
  crash h := Sound.knows_wf _ h
  weaken h := Sound.knows_wf _ h
  raised h := h
  read _ := (Sound.memory Sound.knows_wf fun _ => rfl).followed fun _ => trivial
  touch _ := (Sound.memory Sound.knows_wf fun _ => rfl).followed fun _ => trivial
  generation _ := (Sound.memory Sound.knows_wf fun _ => rfl).followed fun _ => trivial
  runtime _ := (Sound.call Sound.knows_wf fun _ _ _ h => by
    obtain ⟨_, rfl⟩ | h := h
    · rfl
    · exact h.elim).followed fun _ => trivial
  record t _ := Sound.followed (Sound.record Sound.knows_wf t) fun _ => trivial
  remove _ := Sound.followed (Sound.op Sound.knows_wf (.remove _ _)) fun _ => trivial
  reserve q _ := Sound.followed (Sound.op Sound.knows_wf (.reserve q)) fun _ => trivial
  routes _ := (Sound.routes Sound.knows_wf).followed fun _ => trivial
  write _ := (Sound.writeCheckpoint Sound.knows_wf).followed fun _ => trivial
  mint entry _ := (Sound.memory Sound.knows_wf fun m => m.registry_mintToken _ entry).followed
    fun _ => trivial
  clear _ := (Sound.memory Sound.knows_wf fun _ => rfl).followed fun _ => trivial
  recovery _ _ := (Sound.call Sound.knows_wf fun _ _ _ h => by
    obtain ⟨_, rfl⟩ | h := h
    · rfl
    · exact h.elim).followed fun _ => trivial
  entry _ _ := (Sound.memory Sound.knows_wf fun _ => rfl).followed fun _ _ _ => nofun
  deref role pfx := Sound.followed (show Sound (Knows (some ⟨role, pfx⟩)) _ fun _ =>
    Knows (some ⟨role, pfx⟩) from Sound.registryEntryDeref) fun _ => nofun

theorem flushZone_sound {zone : String} :
    Sound WF (flushZone cfg authority zone) fun _ r => WF r ∧ True :=
  .of_follows ((lawful_soundly).flushZone rfl)

theorem forget_sound : Sound WF (forget cfg authority intent) fun _ r => WF r ∧ True :=
  .of_follows ((lawful_soundly).forget rfl)

def Verdict (answer : LeshyRouteResult × Option ManagerError) (r : MemorySelectedRegistry) : Prop :=
  WF r ∧ answer.2 ≠ some .nilRecord

theorem ensureVerdict_sound : Sound WF (ensureVerdict cfg authority intent) Verdict := by
  refine .bind (.of_follows ((lawful_soundly).ensure rfl)) fun answer => ?_
  obtain ⟨result, _ | e⟩ := answer
  · exact .ret (fun _ h => h.1) fun _ h => ⟨h.1, by simp⟩
  · exact .ret (fun _ h => h.1) fun _ h => ⟨h.1, fun he => h.2.2 e rfl (Option.some.inj he)⟩

theorem retryQuarantinedRole_sound : Sound WF (retryQuarantinedRole cfg role) fun _ => WF := by
  refine .bind (.memory (fun _ h => h) fun _ => rfl) fun state => ?_
  split
  · exact .fail (fun _ h => h) (by simp)
  split
  · exact .fail (fun _ h => h) (by simp)
  refine .bind (.routes fun _ h => h) fun rows =>
    .bind (.memory (fun _ h => h) fun _ => rfl) fun entries => ?_
  split
  · exact .fail (fun _ h => h) (by simp)
  · exact .memory (fun _ h => h) fun _ => rfl

end Operations

-- === Methods ===

def apiSetting : Setting ApiEffect ApiState where
  Step := ApiStep
  Guarantee _ := True
  Crash _ := True

def Survives {α : Type} (p : ApiM α) (s : ApiState) : Prop :=
  p.Safe apiSetting (fun _ _ => True) (fun _ _ => False) s

namespace Api

variable {α β : Type} {cfg : ApiConfig} {role : String} {s : ApiState} {p : ApiM (Option String)}
  {reply : Reply} {routes : Config} {authority : RouteAuthority} {request : Request}

theorem selected_safe {p : ManagerM α} {Q : α → World → Prop}
    (h : p.Safe unwatched Q Raised s.observed) :
    (selected p).Safe apiSetting
      (fun r s' => s'.world.registry.WellFormed ∧ ∀ a, r = .ok a → Q a s'.observed)
      (fun _ _ => False) s := by
  induction p generalizing s with
  | ret a =>
    refine ⟨trivial, h.1, fun a' ha => ?_⟩
    cases ha
    exact h.2
  | fail e =>
    have he : e ≠ .nilRecord := h.2.1
    cases e with
    | nilRecord => exact absurd rfl he
    | _ => exact ⟨trivial, h.1, fun _ ha => by cases ha⟩
  | call c k ih =>
    refine ⟨trivial, fun b s' hs => ⟨trivial, ih b ?_⟩⟩
    obtain ⟨w, hstep, rfl⟩ := hs
    have hw : ({ s with world := w } : ApiState).observed = w := by
      show { w with runtime := s.manager.product.roles } = w
      rw [show s.manager.product.roles = w.runtime from hstep.runtime_eq.symm]
    rw [hw]
    exact (h.2 b w hstep).2

theorem selected_sound {p : ManagerM α} {Q : α → MemorySelectedRegistry → Prop}
    (h : Sound WF p Q) (hw : s.world.registry.WellFormed) :
    (selected p).Safe apiSetting
      (fun r s' => s'.world.registry.WellFormed ∧ ∀ a, r = .ok a → Q a s'.world.registry)
      (fun _ _ => False) s :=
  selected_safe (h s.observed hw)

theorem locked_safe {f : ApiState → β × ApiState} {Q : β → ApiState → Prop}
    {X : Panic → ApiState → Prop} (h : Q (f s).1 (f s).2) : (locked f).Safe apiSetting Q X s := by
  refine .perform trivial fun b s' hs => ⟨trivial, trivial, ?_⟩
  obtain ⟨rfl, rfl⟩ := hs
  exact h

theorem survives_of_total {p : ApiM α} (h : p.Total) : Survives p s :=
  h.safe (fun _ => trivial) (fun _ => trivial) s

theorem locked_total (f : ApiState → β × ApiState) : (locked f).Total := .perform _

theorem service_total (c : Service β) : (service c).Total := .perform _

theorem enter_total (sec : Section) : (enter sec).Total := .perform _

theorem product_total (f : Controller → β × Controller) : (product f).Total := .perform _

theorem command_total (cmd : Command) : (command cmd).Total := .perform _

theorem scheduleStartRetry_total : (scheduleStartRetry role).Total :=
  (service_total _).bind fun _ => locked_total _

theorem prepareRoleStart_total : (prepareRoleStart cfg role).Total := by
  refine (locked_total _).bind fun r => ?_
  split
  · exact .ret _
  split_ifs
  · exact .ret _
  · exact .ret _
  refine (service_total _).bind fun err => ?_
  split
  · exact (enter_total _).bind fun _ => .ret _
  · exact .ret _
  · exact (enter_total _).bind fun _ => (product_total _).bind fun _ =>
      scheduleStartRetry_total.bind fun _ => .ret _

theorem launchRole_total : (launchRole role).Total := by
  refine (enter_total _).bind fun begun => ?_
  split_ifs
  · exact .ret _
  refine (service_total _).bind fun launched => ?_
  split
  · exact (enter_total _).bind fun _ => .ret _
  refine (enter_total _).bind fun started => ?_
  split_ifs
  · exact (service_total _).bind fun _ => .ret _
  · exact (product_total _).bind fun _ => .ret _

theorem startRoleProcess_total : (startRoleProcess cfg role).Total := by
  refine (locked_total _).bind fun credentials => ?_
  split
  · exact .ret _
  refine prepareRoleStart_total.bind fun ready => ?_
  split
  · exact .ret _
  · exact .ret _
  · exact launchRole_total

theorem stopRoleProcess_total : (stopRoleProcess role).Total := by
  refine (locked_total _).bind fun process => (enter_total _).bind fun known => ?_
  split_ifs
  · exact .ret _
  · split
    · exact .ret _
    · exact (service_total _).bind fun _ => .ret _

theorem releaseRoleResources_total : (releaseRoleResources cfg role).Total := by
  refine (locked_total _).bind fun enabled => ?_
  split_ifs
  · exact .ret _
  · refine (service_total _).bind fun err => ?_
    split <;> exact (enter_total _).bind fun _ => .ret _

theorem work_total (w : RoleWork) : (work cfg w).Total := by
  cases w with
  | start role => exact startRoleProcess_total
  | stop role =>
    exact stopRoleProcess_total.bind fun _ => releaseRoleResources_total.bind fun _ => .ret _

theorem workAll_total (works : List RoleWork) : (workAll cfg works).Total := by
  induction works with
  | nil => exact .ret _
  | cons w works ih => exact (work_total w).bind fun _ => ih.bind fun _ => .ret _

theorem commandAll_total (cmd : Command) : (commandAll cfg cmd).Total := by
  refine (command_total cmd).bind fun result => ?_
  split
  · exact .ret _
  · exact (workAll_total _).bind fun _ => .ret _

theorem commandRole_total (cmd : Command) : (commandRole cfg cmd).Total := by
  refine (command_total cmd).bind fun result => ?_
  split
  · exact .ret _
  · exact .ret _
  · exact work_total _

theorem setActiveProfile_total (profile : String) : (setActiveProfile profile).Total := by
  refine (command_total _).bind fun result => ?_
  split <;> exact .ret _

theorem rediscoverEndpoints_total : (rediscoverEndpoints role).Total := by
  refine (locked_total _).bind fun known => ?_
  split_ifs
  · exact .ret _
  · exact (enter_total _).bind fun _ => .ret _

theorem retryProcess_total : (retryProcess cfg role).Total := by
  refine (locked_total _).bind fun r => (enter_total _).bind fun entered => ?_
  split_ifs
  · exact .ret _
  · exact startRoleProcess_total

theorem failValidation_total (process : Option Nat) (token : ValidationToken) (message : String) :
    (failValidation role process token message).Total :=
  (locked_total _).bind fun _ => .ret _

theorem concludeValidation_total (process : Nat) (token : ValidationToken)
    (result : ValidationResult) : (concludeValidation role process token result).Total := by
  unfold concludeValidation
  split_ifs
  · refine (locked_total _).bind fun accepted => ?_
    split_ifs <;> exact .ret _
  · exact (locked_total _).bind fun _ => .ret _

theorem readValidation_total (process : Nat) (token : ValidationToken) (response : ToadResponse) :
    (readValidation role process token response).Total := by
  unfold readValidation
  split_ifs
  · exact failValidation_total _ _ _
  refine Prog.Total.bind ?_ fun live => ?_
  · split
    · exact .ret _
    · exact enter_total _
  split_ifs
  · exact .ret _
  · split
    · exact failValidation_total _ _ _
    · exact concludeValidation_total _ _ _

theorem validateRole_total : (validateRole role).Total := by
  refine (product_total _).bind fun token => ?_
  split
  · exact .ret _
  refine (locked_total _).bind fun r => ?_
  split
  · exact .ret _
  · exact failValidation_total _ _ _
  refine (service_total _).bind fun answer => ?_
  split
  · exact failValidation_total _ _ _
  · exact readValidation_total _ _ _

theorem createTunnel_total (spec : Option TunnelSpec) : (createTunnel cfg spec).Total := by
  unfold createTunnel
  split
  · exact .ret _
  · split_ifs
    · exact .ret _
    · exact service_total _

theorem removeTunnel_total (name : String) : (removeTunnel cfg name).Total := by
  unfold removeTunnel
  split_ifs
  · exact .ret _
  · exact service_total _

theorem setTunnelProfiles_total (name : String) (profiles : List String) :
    (setTunnelProfiles cfg name profiles).Total := by
  unfold setTunnelProfiles
  split_ifs
  · exact .ret _
  · exact .ret _
  refine (service_total _).bind fun err => ?_
  split
  · exact .ret _
  · exact (enter_total _).bind fun _ => .ret _

theorem writeMemberships_total (changes : List (String × List String)) :
    (writeMemberships cfg changes).Total := by
  induction changes with
  | nil => exact .ret _
  | cons change changes ih =>
    unfold writeMemberships
    split_ifs
    · exact ih
    refine (service_total _).bind fun err => ?_
    split
    · exact .ret _
    · exact ih

theorem setProfileRoles_total (profile : String) (roles : List String) :
    (setProfileRoles cfg profile roles).Total := by
  unfold setProfileRoles
  dsimp only
  split_ifs
  · exact .ret _
  · exact .ret _
  refine (locked_total _).bind fun m => ?_
  split_ifs
  · exact .ret _
  split
  · exact .ret _
  refine (writeMemberships_total _).bind fun err => ?_
  split
  · exact .ret _
  · exact (enter_total _).bind fun _ => .ret _

theorem createProfile_total (profile : String) (roles : List String) :
    (createProfile cfg profile roles).Total := by
  unfold createProfile
  split
  · exact .ret _
  refine (service_total _).bind fun added => ?_
  split
  · exact .ret _
  refine (enter_total _).bind fun _ => ?_
  split
  · exact .ret _
  · refine (setProfileRoles_total _ _).bind fun err => ?_
    split <;> exact .ret _

theorem readLists_total (names : List String) (lists : List (String × String)) :
    (readLists lists names).Total := by
  induction names generalizing lists with
  | nil => exact .ret _
  | cons name names ih =>
    refine (service_total _).bind fun answer => ?_
    split
    · exact .ret _
    · exact ih _

theorem setBypassMode_total (mode : String) : (setBypassMode mode).Total := by
  refine (service_total _).bind fun err => ?_
  split
  · exact .ret _
  · exact service_total _

theorem setRoleIPv6_total (enabled : Bool) : (setRoleIPv6 role enabled).Total := by
  refine (locked_total _).bind fun known => ?_
  split_ifs
  · exact .ret _
  refine (service_total _).bind fun err => ?_
  split
  · exact .ret _
  · exact service_total _

theorem setDiagnosticsCapture_total (enabled : Bool) :
    (setDiagnosticsCapture cfg enabled).Total := by
  unfold setDiagnosticsCapture
  split_ifs
  · exact .ret _
  refine (service_total _).bind fun err => ?_
  split
  · exact .ret _
  · exact (enter_total _).bind fun _ => .ret _

theorem bundleDiagnostics_total : (bundleDiagnostics cfg).Total := by
  unfold bundleDiagnostics
  split_ifs
  · exact .ret _
  · exact service_total _

theorem retryRole_survives (hw : s.world.registry.WellFormed) :
    Survives (retryRole cfg role) s := by
  refine .step (locked_safe ?_)
  split_ifs
  · exact survives_of_total (.ret _)
  split
  · exact survives_of_total retryProcess_total
  have hstate : Sound WF (roleState role) fun _ => WF := .memory (fun _ h => h) fun _ => rfl
  refine (selected_sound hstate hw).bind fun r s' hs => ?_
  split
  · split_ifs
    · refine (selected_sound retryQuarantinedRole_sound hs.1).bind fun r s' _ => ?_
      split <;> exact survives_of_total (.ret _)
    · exact survives_of_total retryProcess_total
  · exact survives_of_total (.ret _)

theorem settled_survives {p : ManagerM Unit} {Q : Unit → MemorySelectedRegistry → Prop}
    (h : Sound WF p Q)
    (hw : s.world.registry.WellFormed) : Survives (settled reply p) s := by
  refine (selected_sound h hw).bind fun r s' _ => ?_
  split <;> exact survives_of_total (.ret _)

theorem handleEnsure_survives (hw : s.world.registry.WellFormed) :
    Survives (handleEnsure routes authority request reply) s := by
  unfold handleEnsure
  split
  · exact survives_of_total (.ret _)
  refine (selected_sound ensureVerdict_sound hw).bind fun r s' hs => ?_
  split
  · exact survives_of_total (.ret _)
  · exact absurd rfl (hs.2 _ rfl).2
  · split_ifs <;> exact survives_of_total (.ret _)
  · exact survives_of_total (.ret _)

theorem handleForget_survives (hw : s.world.registry.WellFormed) :
    Survives (handleForget routes authority request reply) s := by
  unfold handleForget
  split
  · exact survives_of_total (.ret _)
  · exact settled_survives forget_sound hw

theorem handleFlush_survives (hw : s.world.registry.WellFormed) (hr : request.leshyRoute ≠ none) :
    Survives (handleFlush routes authority request reply) s := by
  obtain ⟨intent, hr⟩ := Option.ne_none_iff_exists'.mp hr
  simp only [handleFlush, hr, deref, Prog.bind_eq, Prog.ret_bind]
  split_ifs
  · exact survives_of_total (.ret _)
  · exact settled_survives flushZone_sound hw

theorem handleLeshyRoute_survives {f : Config → RouteAuthority → ApiM Dispatched}
    (h : ∀ routes authority, cfg.selectedRoutes = some (routes, authority) →
      Survives (f routes authority) s) : Survives (handleLeshyRoute cfg reply f) s := by
  unfold handleLeshyRoute
  split
  · exact survives_of_total (.ret _)
  · next routes authority hsel => exact h routes authority hsel

theorem finished_survives (h : Survives p s) : Survives (finished reply p) s :=
  .bind h fun _ _ _ => survives_of_total (.ret _)

theorem reported_total {message : String} (h : p.Total) : (reported reply p message).Total := by
  refine h.bind fun err => ?_
  split <;> exact .ret _

theorem finished_total (h : p.Total) : (finished reply p).Total :=
  h.bind fun _ => .ret _

theorem reloaded_total {changed restarted : String} : (reloaded reply changed restarted).Total :=
  (service_total _).bind fun _ => .ret _

theorem snapshot_total : snapshot.Total := locked_total _

theorem handleSetRoutingList_total : (handleSetRoutingList request reply).Total := by
  unfold handleSetRoutingList
  split_ifs
  · exact .ret _
  refine (service_total _).bind fun err => ?_
  split
  · exact .ret _
  refine (service_total _).bind fun err => ?_
  split
  · exact .ret _
  · exact reloaded_total

theorem handleGetRoutingLists_total : (handleGetRoutingLists reply).Total :=
  (service_total _).bind fun _ => (service_total _).bind fun _ => (locked_total _).bind fun names =>
    (readLists_total names []).bind fun _ => .ret _

theorem handleCreateProfile_total : (handleCreateProfile cfg request reply).Total := by
  refine (createProfile_total request.profile request.roles).bind fun added => ?_
  split <;> exact .ret _

theorem dispatch_survives (hw : s.world.registry.WellFormed)
    (hf : request.method = .flushLeshyZone → cfg.selectedRoutes ≠ none →
      request.leshyRoute ≠ none) :
    Survives (dispatch cfg request reply) s := by
  cases hm : request.method
  all_goals simp only [dispatch, hm]
  case retryRole => exact finished_survives (retryRole_survives hw)
  case ensureLeshyRoute =>
    exact handleLeshyRoute_survives fun _ _ _ => handleEnsure_survives hw
  case forgetLeshyRoute =>
    exact handleLeshyRoute_survives fun _ _ _ => handleForget_survives hw
  case flushLeshyZone =>
    refine handleLeshyRoute_survives fun _ _ hsel => handleFlush_survives hw (hf hm ?_)
    rw [hsel]
    simp
  all_goals refine survives_of_total ?_
  case snapshot | getSnapshot | subscribe | getDiagnosticsSnapshot =>
    exact snapshot_total.bind fun _ => .ret _
  case connectAll | disconnectAll => exact finished_total (commandAll_total _)
  case connectRole | disconnectRole => exact finished_total (commandRole_total _)
  case setActiveProfile => exact finished_total (setActiveProfile_total _)
  case rediscoverEndpoints => exact finished_total rediscoverEndpoints_total
  case validateRole => exact finished_total validateRole_total
  case createTunnel =>
    refine (createTunnel_total _).bind fun path => ?_
    split <;> exact .ret _
  case removeTunnel => exact reported_total (removeTunnel_total _)
  case createProfile => exact handleCreateProfile_total
  case setProfileRoles => exact reported_total (setProfileRoles_total _ _)
  case setTunnelProfiles => exact reported_total (setTunnelProfiles_total _ _)
  case getRoutingLists => exact handleGetRoutingLists_total
  case setRoutingList => exact handleSetRoutingList_total
  case setBypassMode =>
    refine (setBypassMode_total _).bind fun err => ?_
    split
    · exact .ret _
    · exact reloaded_total
  case setDiagnosticsCapture =>
    split
    · exact .ret _
    · exact finished_total (setDiagnosticsCapture_total _)
  case createDiagnosticsBundle =>
    refine bundleDiagnostics_total.bind fun path => ?_
    split <;> exact .ret _
  case setRoleIPv6 =>
    split
    · exact .ret _
    · exact finished_total (setRoleIPv6_total _)
  case handshake | other => exact .ret _

-- === Rejected requests ===

end Api

/-- Why a request is rejected before its method does anything. -/
inductive Rejection
  | version
  | authentication
  | payload
  deriving DecidableEq, Repr

namespace Request

def supported (request : Request) : Bool :=
  1 ≤ request.version && request.version ≤ Api.apiVersion &&
    (3 ≤ request.version || !request.method.leshyRoute)

def authentic (cfg : ApiConfig) (request : Request) : Bool :=
  !request.method.leshyRoute || cfg.privilegedAuth.all fun key =>
    request.privilegedAuth = "" || Api.verifyPrivilegedAuth key request.privilegedAuth

def Counted (cfg : ApiConfig) (request : Request) : Prop :=
  request.method.leshyRoute = true ∧ cfg.privilegedAuth ≠ none ∧ request.privilegedAuth = ""

def missesPayload (request : Request) : Bool :=
  match request.method with
  | .createTunnel => request.tunnel.isNone
  | .setTunnelProfiles => request.profiles.isEmpty
  | .setDiagnosticsCapture | .setRoleIPv6 => request.enabled.isNone
  | .ensureLeshyRoute | .forgetLeshyRoute => request.leshyRoute.isNone
  | .flushLeshyZone => request.leshyRoute.all fun intent => intent.zone = ""
  | _ => false

def rejection (cfg : ApiConfig) (request : Request) : Option Rejection :=
  if !request.supported then some .version
  else if !request.authentic cfg then some .authentication
  else if request.missesPayload && (!request.method.leshyRoute || cfg.selectedRoutes.isSome) then
    some .payload
  else none

/-- A method of the selected routes that misses its payload has a token where there is a
    key, and a flush has a route. -/
def Careful (cfg : ApiConfig) (request : Request) : Prop :=
  request.rejection cfg = some .payload → ¬request.Counted cfg ∧
    ¬(request.method = .flushLeshyZone ∧ request.leshyRoute = none)

end Request

/-- What is wanted of a request: it is answered, and never ends the process; the response
    is OK exactly when it reports no error; a rejected request changes nothing. -/
structure Handled (cfg : ApiConfig) (request : Request) (s : ApiState) : Prop where
  returns : ∃ trace response s', Exec ApiStep (Api.handle cfg request) s trace
    (.returned response) s'
  survives : ∀ trace panic s', ¬Exec ApiStep (Api.handle cfg request) s trace (.failed panic) s'
  ok_iff : ∀ trace response s',
    Exec ApiStep (Api.handle cfg request) s trace (.returned response) s' →
      (response.ok = true ↔ ¬response.ReportsError)
  unchanged : request.rejection cfg ≠ none → ∀ trace response s',
    Exec ApiStep (Api.handle cfg request) s trace (.returned response) s' → s' = s

namespace Api

variable {cfg : ApiConfig} {request : Request} {reply : Reply} {s : ApiState}

theorem authenticate_cases (cfg : ApiConfig) (request : Request) :
    (request.authentic cfg = false ∧ ∃ e, authenticate cfg request = .ret (some e)) ∨
    (request.authentic cfg = true ∧ ¬request.Counted cfg ∧
      authenticate cfg request = .ret none) ∨
    (request.authentic cfg = true ∧ request.Counted cfg ∧ authenticate cfg request =
      locked fun s => (none, { s with legacyAuthRequests := s.legacyAuthRequests + 1 })) := by
  cases hl : request.method.leshyRoute with
  | false =>
    refine .inr (.inl ⟨?_, fun h => ?_, ?_⟩)
    · simp [Request.authentic, hl]
    · exact absurd h.1 (by simp [hl])
    · simp [authenticate, hl]
  | true =>
    cases hk : cfg.privilegedAuth with
    | none =>
      refine .inr (.inl ⟨?_, fun h => h.2.1 hk, ?_⟩)
      · simp [Request.authentic, hk]
      · simp [authenticate, checkPrivilegedAuth, hk]
    | some key =>
      by_cases hp : request.privilegedAuth = ""
      · refine .inr (.inr ⟨?_, ⟨hl, by simp [hk], hp⟩, ?_⟩)
        · simp [Request.authentic, hk, hp]
        · simp [authenticate, checkPrivilegedAuth, hl, hk, hp, schema2ManagedActive]
      cases hv : verifyPrivilegedAuth key request.privilegedAuth with
      | false =>
        refine .inl ⟨?_, authRequired request.method
          "privileged method requires the service credential", ?_⟩
        · simp [Request.authentic, hl, hk, hp, hv]
        · simp [authenticate, checkPrivilegedAuth, hl, hk, hp, hv]
      | true =>
        refine .inr (.inl ⟨?_, fun h => hp h.2.2, ?_⟩)
        · simp [Request.authentic, hk, hv]
        · simp [authenticate, checkPrivilegedAuth, hl, hk, hp, hv]

theorem handle_eq (cfg : ApiConfig) (request : Request) :
    (request.supported = false ∧
      ∃ e, ∃ reply : Reply, handle cfg request = .ret (refused reply e)) ∨
    (request.supported = true ∧ handle cfg request = (authenticate cfg request).bind fun
      | some e => .ret (refused { version := request.version, id := request.id } e)
      | none => (dispatch cfg request { version := request.version, id := request.id }).bind
          (conclude request)) := by
  unfold handle
  split_ifs with h1 h2
  · refine .inl ⟨?_, _, _, rfl⟩
    simp only [Bool.or_eq_true, decide_eq_true_eq] at h1
    simp only [Request.supported, Bool.and_eq_false_iff, decide_eq_false_iff_not]
    omega
  · refine .inl ⟨?_, _, _, rfl⟩
    simp only [Bool.and_eq_true, decide_eq_true_eq] at h2
    simp only [Request.supported, h2.2, Bool.and_eq_false_iff, Bool.or_eq_false_iff,
      decide_eq_false_iff_not, Bool.not_true, and_true]
    omega
  · refine .inr ⟨?_, rfl⟩
    simp only [Bool.or_eq_true, decide_eq_true_eq, not_or, Bool.and_eq_true, not_and] at h1 h2
    simp only [Request.supported, Bool.and_eq_true, Bool.or_eq_true, decide_eq_true_eq,
      Bool.not_eq_true']
    refine ⟨⟨by omega, by omega⟩, ?_⟩
    by_cases hv : request.version < 3
    · exact .inr (by simpa using h2 hv)
    · exact .inl (by omega)

/-- A method without its payload only reports that, but the flush without a route. -/
theorem dispatch_missing (hm : request.missesPayload = true)
    (hw : request.method.leshyRoute = true → cfg.selectedRoutes ≠ none)
    (hf : ¬(request.method = .flushLeshyZone ∧ request.leshyRoute = none)) :
    ∃ error, dispatch cfg request reply = .ret (.failed reply error) := by
  have hsel : request.method.leshyRoute = true →
      ∃ routes authority, cfg.selectedRoutes = some (routes, authority) := fun h => by
    obtain ⟨⟨routes, authority⟩, hsel⟩ := Option.ne_none_iff_exists'.mp (hw h)
    exact ⟨routes, authority, hsel⟩
  cases hmethod : request.method
  all_goals simp only [Request.missesPayload, hmethod, Bool.false_eq_true] at hm
  all_goals simp only [hmethod, Method.leshyRoute, forall_const] at hsel
  case createTunnel =>
    rw [Option.isNone_iff_eq_none] at hm
    simp only [dispatch, hmethod, createTunnel, hm, Prog.ret_bind]
    exact ⟨_, rfl⟩
  case setTunnelProfiles =>
    rw [List.isEmpty_iff] at hm
    simp only [dispatch, hmethod, reported, setTunnelProfiles, hm, if_true]
    split_ifs <;> exact ⟨_, rfl⟩
  case setDiagnosticsCapture | setRoleIPv6 =>
    rw [Option.isNone_iff_eq_none] at hm
    simp only [dispatch, hmethod, hm]
    exact ⟨_, rfl⟩
  case ensureLeshyRoute | forgetLeshyRoute =>
    obtain ⟨routes, authority, hsel⟩ := hsel
    rw [Option.isNone_iff_eq_none] at hm
    simp only [dispatch, hmethod, handleLeshyRoute, hsel, handleEnsure, handleForget, hm]
    exact ⟨_, rfl⟩
  case flushLeshyZone =>
    obtain ⟨routes, authority, hsel⟩ := hsel
    cases hr : request.leshyRoute with
    | none => exact absurd ⟨hmethod, hr⟩ hf
    | some intent =>
      have hz : intent.zone = "" := by simpa [hr] using hm
      refine ⟨"FlushLeshyZone requires leshy_route.zone", ?_⟩
      simp [dispatch, hmethod, handleLeshyRoute, hsel, handleFlush, hr, deref, hz]

theorem dispatch_flush (hm : request.method = .flushLeshyZone) (hr : request.leshyRoute = none)
    (hw : cfg.selectedRoutes ≠ none) : dispatch cfg request reply = .fail .nilDereference := by
  obtain ⟨⟨routes, authority⟩, hsel⟩ := Option.ne_none_iff_exists'.mp hw
  simp [dispatch, hm, handleLeshyRoute, hsel, handleFlush, hr, deref]

theorem conclude_safe (d : Dispatched) :
    (conclude request d).Safe apiSetting
      (fun response _ => response.ok = true ↔ ¬response.ReportsError) (fun _ _ => False) s := by
  cases d with
  | failed reply error | verdict reply => exact ⟨trivial, by simp [Response.ReportsError]⟩
  | done reply =>
    unfold conclude
    dsimp only
    split_ifs
    · exact ⟨trivial, by simp [Response.ReportsError]⟩
    · refine .step (locked_safe ⟨trivial, ?_⟩)
      simp [Response.ReportsError]

theorem rejection_eq (hs : request.supported = true) (ha : request.authentic cfg = true) :
    request.rejection cfg =
      if request.missesPayload && (!request.method.leshyRoute || cfg.selectedRoutes.isSome) then
        some .payload
      else none := by
  simp [Request.rejection, hs, ha]

def Answered (cfg : ApiConfig) (request : Request) (s : ApiState) (response : Response)
    (s' : ApiState) : Prop :=
  (response.ok = true ↔ ¬response.ReportsError) ∧ (request.rejection cfg ≠ none → s' = s)

theorem refused_safe (e : APIError) :
    (Prog.ret (refused reply e) : ApiM Response).Safe apiSetting (Answered cfg request s)
      (fun _ _ => False) s :=
  ⟨trivial, by simp [refused, Response.ReportsError], fun _ => rfl⟩

theorem answer_safe {s₀ : ApiState} (hw : s.world.registry.WellFormed)
    (hrej : request.rejection cfg = none)
    (hf : request.method = .flushLeshyZone → cfg.selectedRoutes ≠ none →
      request.leshyRoute ≠ none) :
    ((dispatch cfg request reply).bind (conclude request)).Safe apiSetting (Answered cfg request s₀)
      (fun _ _ => False) s :=
  .bind (dispatch_survives hw hf) fun d _ _ =>
    (conclude_safe d).mono (fun _ _ h => ⟨h, fun h' => absurd hrej h'⟩) fun _ _ h => h

theorem handle_safe (hw : s.world.registry.WellFormed) (hc : request.Careful cfg) :
    (handle cfg request).Safe apiSetting (Answered cfg request s) (fun _ _ => False) s := by
  rcases handle_eq cfg request with ⟨_, e, reply, he⟩ | ⟨hs, he⟩
  · rw [he]
    exact refused_safe e
  rw [he]
  rcases authenticate_cases cfg request with ⟨_, e, hauth⟩ | ⟨ha, _, hauth⟩ | ⟨ha, hcount, hauth⟩
  · rw [hauth]
    exact refused_safe e
  all_goals
    have hrej := rejection_eq hs ha
    rw [hauth]
  · split at hrej
    · next hmiss =>
      -- the request misses its payload: the method stops at once
      simp only [Bool.and_eq_true, Bool.or_eq_true, Bool.not_eq_true'] at hmiss
      obtain ⟨error, hd⟩ := dispatch_missing hmiss.1
        (fun hl => by simpa [hl, Option.isSome_iff_ne_none] using hmiss.2) (hc hrej).2
      rw [Prog.ret_bind]
      rw [hd]
      exact ⟨trivial, by simp [Response.ReportsError], fun _ => rfl⟩
    · next hmiss =>
      refine answer_safe hw hrej fun hm hsel hr => hmiss ?_
      simp [Request.missesPayload, hm, hr, Option.isSome_iff_ne_none, hsel]
  · split at hrej
    · exact absurd hcount (hc hrej).1
    · next hmiss =>
      refine .step (locked_safe (answer_safe hw hrej fun hm hsel hr => hmiss ?_))
      simp [Request.missesPayload, hm, hr, Option.isSome_iff_ne_none, hsel]

-- === The condition is needed ===

theorem exec_flush (hs : request.supported = true) (ha : request.authentic cfg = true)
    (hm : request.method = .flushLeshyZone) (hr : request.leshyRoute = none)
    (hw : cfg.selectedRoutes ≠ none) (s : ApiState) :
    ∃ trace s', Exec ApiStep (handle cfg request) s trace (.failed .nilDereference) s' := by
  rcases handle_eq cfg request with ⟨hn, _⟩ | ⟨_, he⟩
  · rw [hs] at hn
    cases hn
  have hrest : ∀ reply s', Exec ApiStep ((dispatch cfg request reply).bind (conclude request)) s' []
      (.failed .nilDereference) s' := fun reply s' => by
    rw [dispatch_flush hm hr hw]
    exact .fail _ s'
  rw [he]
  rcases authenticate_cases cfg request with ⟨hn, _⟩ | ⟨_, _, hauth⟩ | ⟨_, _, hauth⟩
  · rw [ha] at hn
    cases hn
  · rw [hauth]
    exact ⟨_, _, hrest _ s⟩
  · rw [hauth]
    exact ⟨_, _, .call ⟨rfl, rfl⟩ (hrest _ _)⟩

theorem exec_counted (hs : request.supported = true) (ha : request.authentic cfg = true)
    (hcount : request.Counted cfg) (hm : request.missesPayload = true)
    (hw : cfg.selectedRoutes ≠ none)
    (hf : ¬(request.method = .flushLeshyZone ∧ request.leshyRoute = none)) (s : ApiState) :
    ∃ trace response, Exec ApiStep (handle cfg request) s trace (.returned response)
      { s with legacyAuthRequests := s.legacyAuthRequests + 1 } := by
  rcases handle_eq cfg request with ⟨hn, _⟩ | ⟨_, he⟩
  · rw [hs] at hn
    cases hn
  rw [he]
  rcases authenticate_cases cfg request with ⟨hn, _⟩ | ⟨_, hn, _⟩ | ⟨_, _, hauth⟩
  · rw [ha] at hn
    cases hn
  · exact absurd hcount hn
  rw [hauth]
  have hrest : ∀ reply s', ∃ response, Exec ApiStep
      ((dispatch cfg request reply).bind (conclude request)) s' [] (.returned response) s' :=
    fun reply s' => by
      obtain ⟨error, hd⟩ := dispatch_missing hm (fun _ => hw) hf
      rw [hd]
      exact ⟨_, .ret _ s'⟩
  obtain ⟨response, he⟩ := hrest { version := request.version, id := request.id }
    { s with legacyAuthRequests := s.legacyAuthRequests + 1 }
  exact ⟨_, response, .call ⟨rfl, rfl⟩ he⟩

end Api

def Service.refuse {β : Type} : Service β → β
  | .createTunnel _ _ | .readRoutingList _ | .bundle => .error ""
  | .addDeclaredProfile _ _ => .error ""
  | .removeTunnel _ _ | .setTunnelProfiles _ _ _ | .writeBypassMode _ | .writeRoutingList _ _
  | .writeRoleIPv6Setting _ _ | .regenerateLeshyConfig | .reloadLeshy | .setCaptureEnabled _
  | .stopProcess _ | .releaseResources _ => some ""
  | .readLeshyZones => []
  | .readBypassMode => ""
  | .now => 0
  | .launch _ => .error ""
  | .validate _ _ => .error ""
  | .applyEndpoint _ => some (.other "")

def refusing ⦃β : Type⦄ : ApiEffect β → ApiState → β × ApiState
  | .locked f, s => f s
  | .command cmd, s => ((s.manager.command none cmd).1,
      { s with manager := (s.manager.command none cmd).2 })
  | .selected c, s => ((handle c s.observed).1, { s with world := (handle c s.observed).2 })
  | .service c, s => (c.refuse, s)

theorem apiStep_refusing ⦃β : Type⦄ (c : ApiEffect β) (s : ApiState) :
    ApiStep c s (refusing c s).1 (refusing c s).2 := by
  cases c with
  | locked f => exact ⟨rfl, rfl⟩
  | command cmd => exact ⟨none, rfl, rfl⟩
  | selected c => exact ⟨_, faultStep_handle c s.observed, rfl⟩
  | service c => exact rfl

namespace Api

/-- A request is handled as wanted exactly when it is careful. -/
theorem handled_iff (cfg : ApiConfig) (request : Request) (s : ApiState)
    (hw : s.world.registry.WellFormed) : Handled cfg request s ↔ request.Careful cfg := by
  constructor
  · intro h hrej
    obtain ⟨hs, ha, hm, hl⟩ : request.supported = true ∧ request.authentic cfg = true ∧
        request.missesPayload = true ∧
        (request.method.leshyRoute = true → cfg.selectedRoutes ≠ none) := by
      unfold Request.rejection at hrej
      split at hrej
      · cases hrej
      next h₁ =>
      split at hrej
      · cases hrej
      next h₂ =>
      split at hrej
      · next h₃ =>
        simp only [Bool.and_eq_true, Bool.or_eq_true, Bool.not_eq_true'] at h₃
        refine ⟨by simpa using h₁, by simpa using h₂, h₃.1, fun hl => ?_⟩
        simpa [hl, Option.isSome_iff_ne_none] using h₃.2
      · cases hrej
    have hflush : ¬(request.method = .flushLeshyZone ∧ request.leshyRoute = none) := by
      rintro ⟨hf, hr⟩
      obtain ⟨trace, s', he⟩ := exec_flush hs ha hf hr (hl (by rw [hf]; rfl)) s
      exact h.survives _ _ _ he
    refine ⟨fun hcount => ?_, hflush⟩
    obtain ⟨trace, response, he⟩ := exec_counted hs ha hcount hm (hl hcount.1) hflush s
    have heq := congrArg ApiState.legacyAuthRequests (h.unchanged (by rw [hrej]; simp) _ _ _ he)
    grind
  · intro hc
    have hsafe := handle_safe hw hc
    refine ⟨?_, fun trace panic s' he => (hsafe.sound he).2.2.2 panic rfl,
      fun trace response s' he => ((hsafe.sound he).2.2.1 response rfl).1,
      fun hr trace response s' he => ((hsafe.sound he).2.2.1 response rfl).2 hr⟩
    rcases Prog.Safe.of_run (S := apiSetting) (fun c => apiStep_refusing c) hsafe with
      ⟨response, hr, _⟩ | ⟨_, _, hf⟩
    · have he := Prog.exec_run apiStep_refusing (handle cfg request) s
      rw [hr] at he
      exact ⟨_, response, _, he⟩
    · exact hf.elim

def sampleApi : ApiConfig :=
  { privilegedAuth := some [0x0a, 0xff], selectedRoutes := some ({}, workAuthority) }

/-- The role `work` has an active record. -/
def sampleApiState : ApiState :=
  { manager := FeedRun.freshManager
    world := sampleWorld (activeOps 7) [.route (sampleIdentity 7)] 7 }

def flushRequest : Request :=
  { version := 3, method := .flushLeshyZone, privilegedAuth := "0aff"
    leshyRoute := some ⟨"corp", "", .dns⟩ }

def ensureBare : Request :=
  { version := 3, method := .ensureLeshyRoute, privilegedAuth := "0aff" }

/-- The flush of the zone of an active record is handled. So is an ensure that has its
    token and no route: it is rejected, and nothing changes. -/
theorem handled_iff_flush :
    (sampleApiState.world.registry.snapshot "work").length = 1 ∧
    Handled sampleApi flushRequest sampleApiState ∧
    ensureBare.rejection sampleApi = some .payload ∧
    Handled sampleApi ensureBare sampleApiState := by
  have hw := wellFormed_sampleWorld (activeOps 7) [.route (sampleIdentity 7)] 7
  refine ⟨by decide +kernel, (handled_iff _ _ _ hw).mpr fun h => absurd h (by decide), by decide,
    (handled_iff _ _ _ hw).mpr fun _ => ⟨fun h => absurd h.2.2 (by decide), fun h => ?_⟩⟩
  exact absurd h.1 (by decide)

/-- A flush without its route ends the process; an ensure without its route and without a
    token is rejected and counted. -/
theorem rejected_requests_act :
    (∃ trace s', Exec ApiStep (handle sampleApi { flushRequest with leshyRoute := none })
      sampleApiState trace (.failed .nilDereference) s') ∧
    ({ version := 3, method := .ensureLeshyRoute } : Request).rejection sampleApi = some .payload ∧
    ∃ trace response s', Exec ApiStep
      (handle sampleApi { version := 3, method := .ensureLeshyRoute })
      sampleApiState trace (.returned response) s' ∧ response.ok = false ∧
        s'.legacyAuthRequests = sampleApiState.legacyAuthRequests + 1 := by
  refine ⟨⟨_, _, .fail _ _⟩, by decide, ⟨_, _, _, .call ⟨rfl, rfl⟩ (.ret _ _), rfl, rfl⟩⟩

end Api

end Kikimora.Control

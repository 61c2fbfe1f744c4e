import Kikimora.Control.Isolation
import Kikimora.Control.RecoveryCorrect

/-!
# A refused intent

A request for a prefix whose rows belong to somebody else is answered with a
conflict. Its reservation stays in the registry, and the audit and the parking
step judge it by their own rules later.
-/

namespace Kikimora.Control

open Net Routing Platform Lib

-- === Which refusals are conflicts ===

variable {message : String}

theorem not_isForeignRowError (c : Char) (hc : c ∈ "conflicts with a foreign row".toList)
    (hm : c ∉ message.toList) : isForeignRowError (.text message) = false := by
  refine decide_eq_false fun hinfix => hm ?_
  exact hinfix.subset hc

theorem not_mem_toDigits (n : Nat) {c : Char} (hc : c.isDigit = false) :
    c ∉ Nat.toDigits 10 n := by
  intro h
  rw [Nat.isDigit_of_mem_toDigits (by decide) (by decide) h] at hc
  cases hc

theorem of_require_bind_eq_error {β : Type} {ok : Bool} {text : String}
    {f : Unit → Except String β} (h : (require ok text >>= f) = .error message) :
    (ok = false ∧ message = text) ∨ f () = .error message := by
  cases ok with
  | false => exact .inl ⟨rfl, (Except.error.inj h).symm⟩
  | true => exact .inr h

/-- The planner's refusals of a Pending record that count as conflicts name a row
    that the record does not account for. -/
theorem exists_unauthorized_of_foreign {e : SelectedRoute} {rows : List SelectedKernelRow}
    (hs : e.state = .pending) (hplan : planSelectedRoute rows (some e) = .error message)
    (hforeign : isForeignRowError (.text message) = true) : ∃ row ∈ rows, ¬ row.AuthorizedBy e := by
  by_contra hall
  push Not at hall
  have hc : classifyRows e rows 0 0 = .ok _ := classifyRows_eq_ok_iff.mpr ⟨hall, rfl, rfl⟩
  simp only [planSelectedRoute, hc, hs] at hplan
  -- what is left are the refusals of the target's own row
  rcases of_require_bind_eq_error hplan with ⟨hok, _⟩ | hplan
  · exact absurd hok (by decide)
  rcases of_require_bind_eq_error hplan with ⟨_, rfl⟩ | hplan
  · rw [not_isForeignRowError 'g' (by decide)
      (by simp [not_mem_toDigits _ (show 'g'.isDigit = false from rfl)])] at hforeign
    cases hforeign
  rcases of_require_bind_eq_error hplan with ⟨_, rfl⟩ | hplan
  · rw [not_isForeignRowError 'c' (by decide) (by decide)] at hforeign
    cases hforeign
  · split_ifs at hplan

-- === What a conflict leaves ===

/-- The record that a refused request leaves: reserved, without a park, and over a
    row that it does not account for. -/
structure LeftBehind (role : String) (e : SelectedRoute) (w : World) : Prop where
  wellFormed : w.registry.WellFormed
  registered : w.registry.lookup ⟨role, e.pfx⟩ = some e
  state : e.state = .pending
  unparked : e.park = none
  foreign : ∃ row ∈ w.kernel e.pfx, ¬ row.AuthorizedBy e

section Conflict

variable {cfg : Config} {role : String} {a : EnsureRequest} {fast : Bool} {w : World}

theorem LeftBehind.agrees {e : SelectedRoute} {w' : World} (h : LeftBehind role e w)
    (ha : Agrees w w') : LeftBehind role e w' where
  wellFormed := ha.registry ▸ h.wellFormed
  registered := ha.registry ▸ h.registered
  state := h.state
  unparked := h.unparked
  foreign := ha.kernel ▸ h.foreign

/-- The reserved record meets the preflight: it goes through, or the refusal
    leaves everything as it is. -/
theorem runs_reconcileRecordLocked_reserved {e : SelectedRoute}
    (hroutes : cfg.routesResolved = true)
    (hw : w.registry.WellFormed) (hl : w.registry.lookup ⟨role, e.pfx⟩ = some e)
    (hs : e.state = .pending) (hpark : e.park = none) (hif : 0 < e.desired.ifIndex) :
    (reconcileRecordLocked cfg role e.pfx).Safe clean (fun _ _ => True)
      (fun err w' => w' = w ∧ ((∃ message, err = .text message ∧ isForeignRowError err = false) ∨
        LeftBehind role e w)) w := by
  have hat : At role e.pfx w e (w.kernel e.pfx) w := .start hw hl
  cases hplan : planSelectedRoute (w.kernel e.pfx) (some e) with
  | ok action =>
    exact (runs_reconcileRecordLocked hat hroutes (.inl hs) hplan hif).mono (fun _ _ _ => trivial)
      fun _ _ h => h
  | error message =>
    simp only [reconcileRecordLocked, hroutes, Bool.not_true, Bool.false_eq_true, if_false]
    refine .step (runs_registryEntry hat ?_)
    simp only [hs]
    have hpre : (RouteCall.preflightSelectedRoute e.pfx e.desired e).plan w.platform w.kernel =
        (.error message, []) := by
      simp [RouteCall.plan, preflightSelectedRoute, hplan, Except.map]
    refine .step (.tryCatch (X := fun err w' => err = .text message ∧ w' = w)
      (runs_answer hpre (by simp) fun _ h => ⟨by cases h; rfl, rfl⟩) ?_)
    rintro _ _ ⟨rfl, rfl⟩
    split
    · next hforeign =>
      exact ⟨trivial, rfl, .inr ⟨hw, hl, hs, hpark,
        exists_unauthorized_of_foreign hs hplan hforeign⟩⟩
    · next hforeign => exact ⟨trivial, rfl, .inl ⟨message, rfl, by simpa using hforeign⟩⟩

theorem runs_reserve_new {b : Reservation} {Q : Unit → World → Prop}
    {X : ManagerError → World → Prop} (hw : w.registry.WellFormed)
    (hl : w.registry.lookup b.key = none)
    (hQ : b.desired.validate b.pfx = .ok () →
      (w.registry.set b.key (b.next none)).WellFormed →
      Q () (w.withRegistry (w.registry.set b.key (b.next none))))
    (hX : ∀ message, X (.text message) w) : (registry (·.reserve b)).Safe clean Q X w := by
  refine .step (runs_memory ?_)
  dsimp only
  rcases reserve_spec w.registry b with ⟨message, he⟩ | ⟨_, hv, ⟨e, hl', _⟩ | he⟩
  · rw [he]
    exact ⟨trivial, hX message⟩
  · cases hl.symm.trans hl'
  have hset := hw.reserved hv
  rw [hl] at he hset
  rw [he]
  exact ⟨trivial, hQ hv hset⟩

/-- A request for a prefix that the role has not registered, when it ends in a
    conflict. -/
theorem runs_applySelectedRouteCanonical_conflict (hw : w.registry.WellFormed)
    (hl : w.registry.lookup ⟨role, a.pfx⟩ = none) :
    (applySelectedRouteCanonical cfg role a fast).Safe clean (fun _ _ => True)
      (fun err w' => (∃ r z p, err = .conflict r z p) →
        w'.kernel = w.kernel ∧ ∃ e, e.pfx = a.pfx ∧ LeftBehind role e w') w := by
  unfold applySelectedRouteCanonical
  split
  · exact ⟨trivial, nofun⟩
  next hroutes =>
  replace hroutes : cfg.routesResolved = true := by simpa using hroutes
  refine .step (runs_answer rfl (fun identity _ => ?_) nofun)
  refine .step (runs_memory ?_)
  have ha := agrees_roleState w role
  split
  · exact ⟨trivial, trivial⟩
  refine .step (runs_reserve_new hw hl (fun hv hset => ?_) nofun)
  let e := (a.reservation role identity).next none
  refine .step (.tryCatch (X := fun _ _ => False)
    (runs_writeCheckpoint fun w1 ha1 => ?_) fun _ _ h => h.elim)
  refine .step (.tryCatch ((runs_reconcileRecordLocked_reserved (e := e) hroutes
    (ha1.registry ▸ hset) (ha1.registry ▸ MemorySelectedRegistry.lookup_set_self ..) rfl rfl
    (SelectedRouteIdentity.ifIndex_pos_of_validate hv)).mono (fun _ _ _ => ⟨trivial, trivial⟩)
      fun _ _ h => h) ?_)
  rintro err _ ⟨rfl, ⟨message, rfl, hforeign⟩ | hleft⟩
  · rw [hforeign]
    exact ⟨trivial, nofun⟩
  have hend := ha1.kernel.trans ha.kernel
  split
  · exact ⟨trivial, fun _ => ⟨hend, e, rfl, hleft⟩⟩
  · exact ⟨trivial, fun _ => ⟨hend, e, rfl, hleft⟩⟩

theorem ensure_conflict (cfg : Config) {authority : RouteAuthority} {intent : LeshyRouteIntent}
    {pfx : Prefix} (hzone : authority.zoneRoles intent.zone = [role])
    (hpfx : canonicalIntentPrefix intent = .ok pfx) (hw : w.registry.WellFormed)
    (hl : w.registry.lookup ⟨role, pfx⟩ = none) :
    (ensure cfg authority intent).Safe clean
      (fun answer w' => (∃ r z p, answer.2 = some (.conflict r z p)) →
        w'.kernel = w.kernel ∧ ∃ e, e.pfx = pfx ∧ LeftBehind role e w') (fun _ _ => False) w := by
  simp only [ensure, hzone, hpfx]
  split
  · exact ⟨trivial, nofun⟩
  refine .step (runs_roleState fun w1 ha1 => ?_)
  split
  · exact ⟨trivial, nofun⟩
  refine .step (runs_roleRuntime ?_)
  cases w1.runtime role with
  | none => exact ⟨trivial, nofun⟩
  | some runtime =>
    dsimp only
    split
    · exact ⟨trivial, nofun⟩
    refine .step (runs_read ?_)
    split
    · exact ⟨trivial, nofun⟩
    refine .step (runs_memory ?_)
    have ha := ha1.trans (agrees_roleState w1 role)
    rw [← ha.registry] at hw hl
    refine .tryCatch (.step
      ((runs_applySelectedRouteCanonical_conflict hw hl).mono (fun _ _ _ => ?_)
        fun _ _ h => h)) fun err w2 h => ?_
    · exact ⟨trivial, nofun⟩
    · refine ⟨trivial, fun hconflict => ?_⟩
      obtain ⟨hk, hleft⟩ := h (by simpa using hconflict)
      exact ⟨hk.trans ha.kernel, hleft⟩

end Conflict

-- === The audit and the recovery ===

def recoverSelected (cfg : Config) (role : String) (v4Ready v6Ready : Bool) : ManagerM Unit := do
  let _ ← freeze role
  parkRegistered cfg role
  withdrawSelected cfg role
  restore cfg role v4Ready v6Ready
  observeRestoration cfg role

section LeftBehind

variable {cfg : Config} {role : String} {e : SelectedRoute} {w w' : World}

theorem LeftBehind.reached {key : SelectedRouteKey} (h : LeftBehind role e w)
    (hr : Reached key w w') (hk : key.pfx ≠ e.pfx) : LeftBehind role e w' where
  wellFormed := hr.wellFormed h.wellFormed
  registered := (hr.lookup _ fun heq => hk (heq ▸ rfl)).trans h.registered
  state := h.state
  unparked := h.unparked
  foreign := by
    rw [hr.kernel _ hk.symm]
    exact h.foreign

/-- The audit refuses the record, unless the startup freeze keeps it away. -/
theorem audit_leftBehind {roles : List String} (h : LeftBehind role e w) (hmem : role ∈ roles)
    (hopen : (w.memory.roleState role).restorePending = false) (hcfg : cfg.routesResolved = true) :
    ((audit cfg roles).run handle w).1.isOk = false := by
  obtain ⟨row, hrow, hforeign⟩ := h.foreign
  have hrefused : Refused role w.kernel e w := ⟨h.wellFormed, h.registered, h.unparked, hopen,
    planSelectedRoute_unauthorized e row hrow hforeign⟩
  obtain ⟨err, w', hrun⟩ := run_refused cfg hrefused hmem
  rw [audit_run hcfg, Prog.run_tryCatch, hrun]
  rfl

theorem parkOne_leftBehind (h : LeftBehind role e w) :
    (parkOne cfg role e).Safe clean (fun _ _ => False)
      (fun _ w' => w'.kernel e.pfx = w.kernel e.pfx) w := by
  refine .step (runs_answer rfl (fun d _ => ?_) fun _ _ => rfl)
  rw [h.unparked]
  let reserved : SelectedRoute := { e with park := some { state := .pending, desired := d } }
  cases hd : d.validate e.pfx with
  | error message =>
    refine .step (.step (runs_memory ?_))
    simp only [MemorySelectedRegistry.reservePark, hd]
    exact ⟨trivial, rfl⟩
  | ok _ =>
    have hat : At role e.pfx w e (w.kernel e.pfx) w := .start h.wellFormed h.registered
    refine .step (runs_record (.reservePark d false) (f := reserved) hat hd
      (by simp [RecordTransition.mutate, h.unparked, reservedPark, reserved]) fun w1 h1 => ?_)
    refine .step (runs_checkpoint fun w2 ha2 => ?_)
    have h2 := h1.agrees ha2
    refine .step (runs_registryEntryDeref h2 ?_)
    refine .step (runs_answer rfl (fun _ hok => ?_) fun _ _ => h2.rows)
    obtain ⟨row, hrow, hforeign⟩ := h.foreign
    rw [preflightManagedPark, h2.rows] at hok
    refine absurd ?_ hforeign
    -- a reserved park accounts for no park row
    have hauth := classifyParkPrefixRows_eq_ok_iff.mp hok row hrow
    cases row with
    | foreign text | route i => exact hauth
    | park i => simp [SelectedKernelRow.AuthorizedBy, parkRowAuthorized, reserved,
        SelectedPark.authorizesRow] at hauth

theorem parkRegistered_leftBehind (h : LeftBehind role e w) :
    (parkRegistered cfg role).Safe clean (fun _ _ => False)
      (fun _ w' => w'.kernel e.pfx = w.kernel e.pfx) w := by
  refine .step (runs_roleState fun w1 ha => ?_)
  replace h := h.agrees ha
  rw [← ha.kernel]
  split
  · exact ⟨trivial, rfl⟩
  split
  · exact ⟨trivial, rfl⟩
  refine .step (runs_read ?_)
  refine (Prog.Safe.forEach (fun xs w' => LeftBehind role e w' ∧
    w'.kernel e.pfx = w1.kernel e.pfx ∧ e ∈ xs ∧ (xs.map SelectedRoute.pfx).Nodup)
    (fun _ _ => trivial) ?_ _ ⟨h, rfl, h.wellFormed.mem_snapshot_iff.mpr h.registered,
      h.wellFormed.nodup_pfx_snapshot role⟩).mono (fun _ _ h => nomatch h.2.2.1) fun _ _ h => h
  rintro x xs w2 ⟨h2, hrows, hmem, hn⟩
  rw [List.map_cons, List.nodup_cons] at hn
  rcases List.mem_cons.mp hmem with rfl | hmem
  · rw [if_neg (by simp [h.state])]
    exact (parkOne_leftBehind h2).mono (fun _ _ h => h.elim) fun _ _ h => h.trans hrows
  have hne : x.pfx ≠ e.pfx := fun heq => hn.1 (heq ▸ List.mem_map_of_mem hmem)
  split
  · exact ⟨trivial, h2, hrows, hmem, hn.2⟩
  · exact ((parkOne_stays cfg role x).runs w2).mono
      (fun _ _ hr => ⟨h2.reached hr.1 hne, (hr.1.kernel _ hne.symm).trans hrows, hmem, hn.2⟩)
      fun _ _ hr => (hr.kernel _ hne.symm).trans hrows

theorem recoverSelected_leftBehind (cfg : Config) (v4Ready v6Ready : Bool)
    (h : LeftBehind role e w) :
    (recoverSelected cfg role v4Ready v6Ready).Safe clean (fun _ _ => False)
      (fun _ w' => w'.kernel e.pfx = w.kernel e.pfx) w := by
  refine .step (runs_memory ?_)
  have h1 : LeftBehind role e (refrozen role w) :=
    ⟨h.wellFormed, h.registered, h.state, h.unparked, h.foreign⟩
  exact (parkRegistered_leftBehind h1).bind fun _ _ hf => hf.elim

end LeftBehind

/-- A request for a prefix that the role has not registered has been answered with
    a conflict. -/
structure IntentRefused (cfg : Config) (authority : RouteAuthority) (intent : LeshyRouteIntent)
    (role : String) (pfx : Prefix) (w w' : World) : Prop where
  wellFormed : w.registry.WellFormed
  routesResolved : cfg.routesResolved = true
  zone : authority.zoneRoles intent.zone = [role]
  canonical : canonicalIntentPrefix intent = .ok pfx
  unregistered : w.registry.lookup ⟨role, pfx⟩ = none
  answer : ∃ result, ((ensure cfg authority intent).run handle w).1 =
    .ok (result, some (.conflict role intent.zone pfx.toString))
  after : ((ensure cfg authority intent).run handle w).2 = w'

section

variable {cfg : Config} {authority : RouteAuthority} {intent : LeshyRouteIntent} {role : String}
  {pfx : Prefix} {w w' : World}

theorem IntentRefused.leftBehind (h : IntentRefused cfg authority intent role pfx w w') :
    w'.kernel = w.kernel ∧ ∃ e, e.pfx = pfx ∧ LeftBehind role e w' := by
  obtain ⟨result, hrun⟩ := h.answer
  rcases (ensure_conflict cfg h.zone h.canonical h.wellFormed h.unregistered).ofHandler
    with ⟨answer, hok, hQ⟩ | ⟨_, _, hf⟩
  · cases hok.symm.trans hrun
    rw [h.after] at hQ
    exact hQ ⟨_, _, _, rfl⟩
  · exact hf.elim

/-- No refused intent is contained: every recovery of the role stops at its record,
    and unless the startup freeze is on so does every audit. The rows stay. -/
theorem refused_intent_spreads (h : IntentRefused cfg authority intent role pfx w w') :
    (∀ v4Ready v6Ready, ((recoverSelected cfg role v4Ready v6Ready).run handle w').1.isOk = false ∧
      ((recoverSelected cfg role v4Ready v6Ready).run handle w').2.kernel pfx = w.kernel pfx) ∧
    ((w.memory.roleState role).restorePending = false → ∀ roles, role ∈ roles →
      ((audit cfg roles).run handle w').1.isOk = false) ∧
    w'.kernel = w.kernel := by
  obtain ⟨hk, e, rfl, hleft⟩ := h.leftBehind
  refine ⟨fun v4Ready v6Ready => ?_, fun hopen roles hmem => ?_, hk⟩
  · rcases (recoverSelected_leftBehind cfg v4Ready v6Ready hleft).ofHandler with
      ⟨_, _, hf⟩ | ⟨err, herr, hrows⟩
    · exact hf.elim
    · rw [herr, hrows, hk]
      exact ⟨rfl, rfl⟩
  · refine audit_leftBehind hleft hmem ?_ h.routesResolved
    have hexec := Prog.exec_run faultStep_handle (ensure cfg authority intent) w
    have hsame := (ensure_quiet cfg authority intent).admission_eq hexec role
    rw [h.after] at hsame
    exact (SelectedRoleState.restorePending_of_admission hsame).trans hopen

end

/-- The role `work` with its row on interface 7 and its Toad on interface 8, and a
    prefix whose row is an administrator's. -/
def administeredWorld : World :=
  { openWorld (activeOps 7) [] 7 with
    kernel := fun pfx =>
      if pfx = samplePrefix then [.route (sampleIdentity 7)]
      else if pfx = homePrefix then [.foreign "row"]
      else []
    runtime := fun _ => some (healthyRuntime 8) }

def homeIntent : LeshyRouteIntent := ⟨"corp", "10.0.0.3/32", .dns⟩

def refusedWorld : World := ((ensure {} workAuthority homeIntent).run handle administeredWorld).2

theorem intentRefused_home :
    IntentRefused {} workAuthority homeIntent "work" homePrefix administeredWorld refusedWorld where
  wellFormed := wellFormed_run _ MemorySelectedRegistry.wellFormed_empty
  routesResolved := rfl
  zone := rfl
  canonical := by decide +kernel
  unregistered := by decide +kernel
  answer := ⟨{ role := "work", zone := "corp", pfx := "10.0.0.3/32", family := 4, generation := 1 },
    by decide +kernel⟩
  after := rfl

theorem refused_intent_spreads_home :
    ((recoverSelected {} "work" true true).run handle refusedWorld).1.isOk = false :=
  ((refused_intent_spreads intentRefused_home).1 true true).1

/-- The role recovers and passes its audits until a request for somebody else's
    prefix is refused. Then neither succeeds any more, and the audit quarantines
    the role. -/
theorem refusal_quarantines_role :
    let audited := (audit {} ["work"]).run handle
    let recovered := (recoverSelected {} "work" true true).run handle
    (audited administeredWorld).1.isOk = true ∧ (recovered administeredWorld).1.isOk = true ∧
    IntentRefused {} workAuthority homeIntent "work" homePrefix administeredWorld refusedWorld ∧
    (audited refusedWorld).1.isOk = false ∧
    ((audited refusedWorld).2.memory.roleState "work").integrityQuarantined = true ∧
    (recovered refusedWorld).1.isOk = false := by
  refine ⟨by decide +kernel, by decide +kernel, intentRefused_home, by decide +kernel,
    by decide +kernel, by decide +kernel⟩

end Kikimora.Control

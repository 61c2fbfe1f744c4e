import Kikimora.Control.Admission
import Kikimora.Control.FaultFree

/-!
# What a transaction can reach

A transaction works on one record and on the rows of its prefix. Every other
record and every other row stays as it is, and what the transaction does depends
on nothing else in the kernel.
-/

namespace Kikimora.Control

open Net Routing Platform Lib

-- === Programs on one record ===

def SelectedRoleState.KeepsTokens (s s' : SelectedRoleState) : Prop :=
  ∀ p token, s'.verification p = some token → s.verification p = some token

/-- A step inside the process that writes at most one record, leaves every startup
    freeze alone and gives no other role a token. -/
structure Memory.Reached (key : SelectedRouteKey) (m m' : Memory) : Prop where
  wellFormed : m.registry.WellFormed → m'.registry.WellFormed
  lookup : ∀ k, k ≠ key → m'.registry.lookup k = m.registry.lookup k
  restorePending : ∀ id, (m'.roleState id).restorePending = (m.roleState id).restorePending
  tokens : ∀ id, id ≠ key.role → (m.roleState id).KeepsTokens (m'.roleState id)

theorem Memory.Reached.of_registry {key : SelectedRouteKey} {m m' : Memory}
    (hr : m'.registry = m.registry)
    (hp : ∀ id, (m'.roleState id).restorePending = (m.roleState id).restorePending)
    (ht : ∀ id, id ≠ key.role → (m.roleState id).KeepsTokens (m'.roleState id)) :
    Memory.Reached key m m' :=
  ⟨fun h => hr ▸ h, fun _ _ => by rw [hr], hp, ht⟩

theorem Memory.Reached.of_roleState {key : SelectedRouteKey} {m m' : Memory}
    (hr : m'.registry = m.registry) (hs : ∀ id, m'.roleState id = m.roleState id) :
    Memory.Reached key m m' :=
  .of_registry hr (fun id => by rw [hs id]) fun id _ _ _ h => by rwa [hs id] at h

def Effect.Stays (key : SelectedRouteKey) ⦃β : Type⦄ : Effect β → Prop
  | .memory f => ∀ m, Memory.Reached key m (f m).2
  | .routes c => RouteCall.Local key.pfx c
  | _ => True

def Effect.Answers ⦃β : Type⦄ : Effect β → β → Prop
  | .memory f, b => ∃ m, b = (f m).1
  | _, _ => True

theorem Effect.answers_handle ⦃β : Type⦄ (c : Effect β) (w : World) :
    c.Answers (handle c w).1 := by
  cases c with
  | memory f => exact ⟨w.memory, rfl⟩
  | _ => trivial

def staying (key : SelectedRouteKey) : Setting Effect Unit where
  Step _ c _ b _ := c.Answers b
  Guarantee ev := ev.call.Stays key
  Crash _ := True

def Stays {α : Type} (key : SelectedRouteKey) (p : ManagerM α) (Q : α → Prop) : Prop :=
  p.Safe (staying key) (fun a _ => Q a) (fun _ _ => True) ()

section

variable {α β : Type} {key : SelectedRouteKey} {Q : α → Prop} {Q' : β → Prop} {p : ManagerM α}

theorem Stays.ret {a : α} (h : Q a) : Stays key (.ret a) Q := ⟨trivial, h⟩

theorem Stays.fail (e : ManagerError) : Stays key (.fail e : ManagerM α) Q := ⟨trivial, trivial⟩

theorem Stays.ofExcept {x : Except ManagerError α} (h : ∀ a, x = .ok a → Q a) :
    Stays key (.ofExcept x) Q :=
  Prog.Safe.ofExcept trivial h fun _ _ => trivial

theorem Stays.bind {f : α → ManagerM β} (h : Stays key p Q) (hf : ∀ a, Q a → Stays key (f a) Q') :
    Stays key (p.bind f) Q' :=
  Prog.Safe.bind h fun a _ ha => hf a ha

theorem Stays.perform {c : Effect α} (hc : c.Stays key) (h : ∀ a, c.Answers a → Q a) :
    Stays key (Prog.perform c) Q :=
  Prog.Safe.perform trivial fun b _ hb => ⟨hc, trivial, h b hb⟩

theorem Stays.mono {Q1 : α → Prop} (h : Stays key p Q1) (hQ : ∀ a, Q1 a → Q a) : Stays key p Q :=
  Prog.Safe.mono h (fun a _ => hQ a) fun _ _ _ => trivial

end

-- === Primitives ===

section

variable {β : Type} {cfg : Config} {key : SelectedRouteKey} {role : String} {pfx : Prefix}

theorem Memory.roleState_mintToken_of_ne (m : Memory) {id : String} (entry : SelectedRoute)
    (h : id ≠ role) : (m.mintToken role entry).roleState id = m.roleState id := by
  unfold Memory.mintToken
  cases m.roles role with
  | none => rfl
  | some state => exact m.roleState_setRole_of_ne h _

theorem Memory.keepsTokens_keepVerification (m : Memory)
    (keep : Prefix → SelectedVerification → Bool) (id : String) :
    (m.roleState id).KeepsTokens ((m.keepVerification keep).roleState id) := by
  intro p token h
  simp only [Memory.keepVerification, Memory.roleState] at h ⊢
  cases hr : m.roles id with
  | none =>
    rw [hr] at h
    cases h
  | some state =>
    rw [hr] at h
    exact (Option.filter_eq_some_iff.mp h).1

theorem read_stays (f : Memory → β) :
    Stays key (memory fun m => (f m, m)) fun b => ∃ m, b = f m :=
  .perform (fun _ => .of_roleState rfl fun _ => rfl) fun _ h => h

theorem touch_stays (f : Memory → β) :
    Stays key (memory fun m => (f m, m.setRole role (m.roleState role))) fun b => ∃ m, b = f m :=
  .perform (fun m => .of_roleState rfl fun id => m.roleState_setRole_self role id) fun _ h => h

theorem pfx_registryEntryOf {r : MemorySelectedRegistry} {e : SelectedRoute}
    (h : registryEntryOf r role pfx = some e) : e.pfx = pfx := by
  simpa using List.find?_some h

theorem registryEntry_stays :
    Stays key (registryEntry role pfx) fun b => ∀ e, b = some e → e.pfx = pfx := by
  refine (read_stays _).mono ?_
  rintro _ ⟨m, rfl⟩ e he
  exact pfx_registryEntryOf he

theorem registryEntryDeref_stays : Stays key (registryEntryDeref role pfx) fun e => e.pfx = pfx :=
  registryEntry_stays.bind fun
    | some _, h => .ret (h _ rfl)
    | none, _ => .fail _

theorem registry_stays {op : MemorySelectedRegistry → RegistryResult}
    (hw : ∀ r : MemorySelectedRegistry, r.WellFormed → (op r).2.WellFormed)
    (hl : ∀ r k, k ≠ key → (op r).2.lookup k = r.lookup k) : Stays key (registry op) Any :=
  .bind (Q := Any) (.perform (fun m => ⟨hw m.registry, hl m.registry, fun _ => rfl,
    fun _ _ _ _ h => h⟩)
    fun _ _ => trivial) fun _ _ => .ofExcept fun _ _ => trivial

theorem record_stays (t : RecordTransition) :
    Stays ⟨role, pfx⟩ (registry fun r => t.apply r role pfx) Any := by
  refine registry_stays (fun r hr => wellFormed_apply hr (.record role pfx t)) fun r k hk => ?_
  rcases t.apply_spec r role pfx with ⟨_, _, hs⟩ | ⟨_, _, _, _, _, _, hr⟩
  · exact hs k
  · rw [hr]
    exact r.lookup_set_of_ne _ hk

theorem remove_stays : Stays ⟨role, pfx⟩ (registry fun r => (.ok (), r.remove role pfx)) Any := by
  refine registry_stays (fun r hr => wellFormed_apply hr (.remove role pfx)) fun r k hk => ?_
  simp [MemorySelectedRegistry.remove, MemorySelectedRegistry.lookup_erase, hk]

theorem reserve_stays (q : Reservation) : Stays ⟨q.role, q.pfx⟩ (registry (·.reserve q)) Any := by
  refine registry_stays (fun r hr => wellFormed_apply hr (.reserve q)) fun r k hk => ?_
  rcases reserve_spec r q with ⟨_, he⟩ | ⟨_, _, ⟨_, _, _, he⟩ | he⟩
  · rw [he]
  · rw [he]
  · rw [he]
    exact r.lookup_set_of_ne _ hk

theorem writeCheckpoint_stays (generation : UInt64) :
    Stays key (writeCheckpoint cfg role generation) Any := by
  unfold writeCheckpoint
  split
  · exact .ret trivial
  · exact .bind (read_stays _) fun _ _ => .bind (Q := Any) (.perform trivial fun _ _ => trivial)
      fun _ _ => .ofExcept fun _ _ => trivial

theorem routes_stays {c : RouteCall β} (h : RouteCall.Local key.pfx c) : Stays key (routes c) Any :=
  .bind (Q := Any) (.perform h fun _ _ => trivial) fun _ _ => .ofExcept fun _ _ => trivial

theorem notify_stays (notice : Notice) : Stays key (notify notice) Any :=
  .perform trivial fun _ _ => trivial

theorem mintVerificationToken_stays (entry : SelectedRoute) :
    Stays ⟨role, pfx⟩ (mintVerificationToken role entry) Any := by
  refine .perform (fun m => .of_registry (m.registry_mintToken role entry)
    (fun id => SelectedRoleState.restorePending_of_admission (m.admission_mintToken role entry id))
    fun id hid p token h => ?_) fun _ _ => trivial
  rwa [m.roleState_mintToken_of_ne entry hid] at h

theorem clearVerificationForPrefix_stays (pfx : Prefix) :
    Stays key (clearVerificationForPrefix pfx) Any :=
  .perform (fun m => .of_registry rfl
    (fun id => SelectedRoleState.restorePending_of_admission (m.admission_keepVerification _ id))
    fun id _ => m.keepsTokens_keepVerification _ id) fun _ _ => trivial

theorem failSelectedRouteIntegrity_stays (text : String) :
    Stays ⟨role, pfx⟩ (failSelectedRouteIntegrity role text) Any := by
  refine .bind (Q := Any) (.perform (fun m => .of_registry rfl (fun id => ?_)
    fun id hid p token h => ?_) fun _ _ => trivial) fun _ _ => notify_stays _
  · by_cases h : id = role
    · subst h
      rw [Memory.roleState_setRole]
    · rw [m.roleState_setRole_of_ne h]
  · rwa [m.roleState_setRole_of_ne hid] at h

end

-- === Transactions ===

def withRecord (key : SelectedRouteKey) : Discipline :=
  .ofSetting (staying key) (some key) fun _ _ => True

section

variable {α : Type} {known known' : Option SelectedRouteKey} {key : SelectedRouteKey}
  {p : ManagerM α} {Q : α → Prop}

theorem follows_withRecord : (withRecord key).Follows known p known' Q ↔ Stays key p Q :=
  Discipline.follows_ofSetting

theorem Stays.of_follows (h : (withRecord key).Follows none p none Q) : Stays key p Q :=
  follows_withRecord.mp h

theorem within_withRecord {role : String} {pfx : Prefix} :
    (withRecord key).Within role pfx ↔ key = ⟨role, pfx⟩ := by
  simp [Discipline.Within, withRecord, Discipline.ofSetting]

theorem lawful_withRecord (key : SelectedRouteKey) : (withRecord key).Lawful where
  crash _ := trivial
  weaken _ := trivial
  raised _ := trivial
  read f := follows_withRecord.mpr ((read_stays f).mono fun _ _ => trivial)
  touch f := follows_withRecord.mpr ((touch_stays f).mono fun _ _ => trivial)
  generation _ := follows_withRecord.mpr ((touch_stays _).mono fun _ _ => trivial)
  runtime _ := follows_withRecord.mpr (.perform trivial fun _ _ => trivial)
  record t hin := by
    obtain rfl := within_withRecord.mp hin
    exact follows_withRecord.mpr (record_stays t)
  remove hin := by
    obtain rfl := within_withRecord.mp hin
    exact follows_withRecord.mpr remove_stays
  reserve q hin := by
    obtain rfl := within_withRecord.mp hin
    exact follows_withRecord.mpr (reserve_stays q)
  routes h := follows_withRecord.mpr (routes_stays (h key rfl))
  write _ := follows_withRecord.mpr (writeCheckpoint_stays _)
  mint entry hin := by
    obtain rfl := within_withRecord.mp hin
    exact follows_withRecord.mpr (mintVerificationToken_stays entry)
  clear pfx := follows_withRecord.mpr (clearVerificationForPrefix_stays pfx)
  recovery _ _ := follows_withRecord.mpr (notify_stays _)
  entry _ _ := follows_withRecord.mpr (registryEntry_stays.mono fun _ h e he _ _ _ => h e he)
  deref _ _ := follows_withRecord.mpr (registryEntryDeref_stays.mono fun _ h _ _ _ => h)

variable (cfg : Config) (role : String)

theorem retireRecordLocked_stays {pfx : Prefix} :
    Stays ⟨role, pfx⟩ (retireRecordLocked cfg role pfx) Any :=
  .of_follows ((lawful_withRecord _).retireRecordLocked (within_withRecord.mpr rfl))

theorem auditRecord_stays (entry : SelectedRoute) (rows : List SelectedKernelRow) :
    Stays ⟨role, entry.pfx⟩ (auditRecord cfg role entry rows) Any :=
  .of_follows ((lawful_withRecord _).auditRecord (within_withRecord.mpr rfl)
    fun _ _ _ text => follows_withRecord.mpr (failSelectedRouteIntegrity_stays text))

theorem parkOne_stays (entry : SelectedRoute) :
    Stays ⟨role, entry.pfx⟩ (parkOne cfg role entry) Any :=
  .of_follows ((lawful_withRecord _).parkOne (within_withRecord.mpr rfl))

end

-- === Runs ===

/-- What a program that stays with one record can have changed. -/
structure Reached (key : SelectedRouteKey) (w w' : World) : Prop
    extends Memory.Reached key w.memory w'.memory where
  kernel : ∀ q, q ≠ key.pfx → w'.kernel q = w.kernel q

/-- The second world differs from the first in the rows of the prefixes in `S` only. -/
structure Alike (S : Prefix → Prop) (w w' : World) : Prop where
  eq : w' = w.withKernel w'.kernel
  rows : ∀ q, ¬ S q → w'.kernel q = w.kernel q

def Twin {α : Type} (S : Prefix → Prop) (p p' : ManagerM α) (w w' : World) : Prop :=
  (p'.run handle w').1 = (p.run handle w).1 ∧ Alike S (p.run handle w).2 (p'.run handle w').2

section Runs

variable {α β : Type} {key : SelectedRouteKey} {S : Prefix → Prop} {w w' w'' : World}
  {p : ManagerM α} {Q : α → Prop}

theorem Reached.refl (key : SelectedRouteKey) (w : World) : Reached key w w :=
  ⟨.of_roleState rfl fun _ => rfl, fun _ _ => rfl⟩

theorem Reached.trans (h : Reached key w w') (h' : Reached key w' w'') : Reached key w w'' where
  wellFormed hw := h'.wellFormed (h.wellFormed hw)
  lookup k hk := (h'.lookup k hk).trans (h.lookup k hk)
  restorePending id := (h'.restorePending id).trans (h.restorePending id)
  tokens id hid p token ht := h.tokens id hid p token (h'.tokens id hid p token ht)
  kernel q hq := (h'.kernel q hq).trans (h.kernel q hq)

theorem Effect.Stays.reached ⦃β : Type⦄ {c : Effect β} (h : c.Stays key) (w : World) :
    Reached key w (handle c w).2 := by
  cases c with
  | memory f => exact ⟨h w.memory, fun _ _ => rfl⟩
  | routes c =>
    exact ⟨(Reached.refl key w).toReached, fun q hq =>
      applyAll_of_ne (fun m hm => h.writes _ _ m hm ▸ hq.symm) w.kernel⟩
  | roleRuntime role => exact .refl key w
  | notify notice | writeCheckpoint role c => exact ⟨(Reached.refl key w).toReached, fun _ _ => rfl⟩

/-- A program that stays with one record leaves the others and their rows. -/
theorem Stays.reached (h : Stays key p Q) (w : World) :
    Reached key w (p.run handle w).2 ∧ ∀ a, (p.run handle w).1 = .ok a → Q a := by
  induction p generalizing w with
  | ret a =>
    refine ⟨.refl key w, fun b hb => ?_⟩
    cases hb
    exact h.2
  | fail e => exact ⟨.refl key w, nofun⟩
  | call c k ih =>
    obtain ⟨hc, hk⟩ := h.2 _ () (c.answers_handle w)
    obtain ⟨hr, hQ⟩ := ih _ hk (handle c w).2
    exact ⟨(hc.reached w).trans hr, hQ⟩

theorem Stays.runs (h : Stays key p Q) (w : World) :
    p.Safe clean (fun a w' => Reached key w w' ∧ Q a) (fun _ w' => Reached key w w') w :=
  .of_ends (fun a ha => ⟨(h.reached w).1, (h.reached w).2 a ha⟩) fun _ _ => (h.reached w).1

theorem applyAll_congr_at {ms : List KernelMutation} {k k' : Kernel} {q : Prefix}
    (h : k' q = k q) : applyAll ms k' q = applyAll ms k q := by
  induction ms generalizing k k' with
  | nil => exact h
  | cons m ms ih =>
    refine ih ?_
    cases m <;> simp only [KernelMutation.apply, h]

theorem Alike.withMemory (h : Alike S w w') (f : Memory → Memory) :
    Alike S (w.withMemory (f w.memory)) (w'.withMemory (f w'.memory)) := by
  obtain ⟨heq, hrows⟩ := h
  rw [heq]
  exact ⟨rfl, hrows⟩

/-- An effect that stays with a record whose prefix is the same in both worlds has
    the same answer in both. -/
theorem Effect.Stays.twin ⦃β : Type⦄ {c : Effect β} (h : c.Stays key) (hS : ¬ S key.pfx)
    (ha : Alike S w w') :
    (handle c w').1 = (handle c w).1 ∧ Alike S (handle c w).2 (handle c w').2 := by
  obtain ⟨heq, hrows⟩ := ha
  cases c with
  | memory f => exact ⟨by rw [heq]; rfl, Alike.withMemory ⟨heq, hrows⟩ fun m => (f m).2⟩
  | roleRuntime role => exact ⟨by rw [heq]; rfl, heq, hrows⟩
  | notify notice | writeCheckpoint role c => exact ⟨rfl, by rw [heq]; rfl, hrows⟩
  | routes c =>
    have hp : w'.platform = w.platform := by rw [heq]; rfl
    have hplan : c.plan w'.platform w'.kernel = c.plan w.platform w.kernel := by
      rw [hp]
      exact h.plan _ _ _ (hrows _ hS)
    refine ⟨by simp only [handle, hplan], ?_, fun q hq => ?_⟩
    · rw [heq]
      rfl
    · simp only [handle, hplan]
      exact applyAll_congr_at (hrows q hq)

theorem Stays.twin (h : Stays key p Q) (hS : ¬ S key.pfx) (ha : Alike S w w') :
    Twin S p p w w' := by
  induction p generalizing w w' with
  | ret a | fail e => exact ⟨rfl, ha⟩
  | call c k ih =>
    obtain ⟨hc, hk⟩ := h.2 _ () (c.answers_handle w)
    obtain ⟨hanswer, halike⟩ := hc.twin hS ha
    simp only [Twin, Prog.run, hanswer]
    exact ih _ hk halike

theorem Twin.ret (a : α) (ha : Alike S w w') : Twin S (.ret a : ManagerM α) (.ret a) w w' :=
  ⟨rfl, ha⟩

theorem Twin.memory (f : Memory → β × Memory) (ha : Alike S w w') :
    Twin S (Control.memory f) (Control.memory f) w w' :=
  ⟨by rw [ha.eq]; rfl, ha.withMemory fun m => (f m).2⟩

theorem Twin.bind {p' : ManagerM α} {f f' : α → ManagerM β} (h : Twin S p p' w w')
    (hf : ∀ a w1 w1', p.run handle w = (.ok a, w1) → Alike S w1 w1' → Twin S (f a) (f' a) w1 w1') :
    Twin S (p.bind f) (p'.bind f') w w' := by
  obtain ⟨heq, halike⟩ := h
  unfold Twin
  rw [Prog.run_bind, Prog.run_bind]
  cases hp : p.run handle w with
  | mk r w1 =>
    cases hp' : p'.run handle w' with
    | mk r' w1' =>
      rw [hp, hp'] at heq halike
      obtain rfl : r' = r := heq
      cases r' with
      | ok a => exact hf a w1 w1' hp halike
      | error e => exact ⟨rfl, halike⟩

theorem Twin.tryCatch {p' : ManagerM α} {handler : ManagerError → ManagerM α}
    (h : Twin S p p' w w')
    (hh : ∀ e w1 w1', Alike S w1 w1' → Twin S (handler e) (handler e) w1 w1') :
    Twin S (p.tryCatch handler) (p'.tryCatch handler) w w' := by
  obtain ⟨heq, halike⟩ := h
  unfold Twin
  rw [Prog.run_tryCatch, Prog.run_tryCatch]
  cases hp : p.run handle w with
  | mk r w1 =>
    cases hp' : p'.run handle w' with
    | mk r' w1' =>
      rw [hp, hp'] at heq halike
      obtain rfl : r' = r := heq
      cases r' with
      | ok a => exact ⟨rfl, halike⟩
      | error e => exact hh e w1 w1' halike

end Runs

end Kikimora.Control

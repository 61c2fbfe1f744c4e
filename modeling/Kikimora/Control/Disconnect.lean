import Kikimora.Control.Processes

/-!
# What a disconnect leaves

`DisconnectRole` disables the role, stores that, and stops the process. What was in
flight for the role before goes on: a launch, a driver call, and the restart of a
transport, which ends with the operator's own `ConnectRole`.
-/

namespace Kikimora.Control

open Function
open Lifecycle

/-- The role whose process the job launches or holds, or whose routes, endpoint policy
    or publication it may change. -/
def Job.engages : Job → Option String
  | .applyEndpoint role | .launch role | .commit role _ | .discard role _ | .kill role _
  | .restartKill role _ => some role
  | .activate role calls => if calls.any mutating then some role else none
  | .driving role step _ => if mutating step then some role else none
  | _ => none

def Lifecycle.Permits (s : Lifecycle) (task : Nat) (result : CallResult) : Job → Prop
  | .discard _ _ | .kill _ _ | .restartKill _ _ => result = .done
  | .reconnect role => result = .done → s.cancelled task = false → (s.roles role).enabled = true
  | .returned role =>
    task ∈ s.disconnecting role → ∀ id, ∀ job ∈ s.tasks id, job.engages ≠ some role
  | _ => True

/-- No stop of a process fails, a restart reconnects a role that is still enabled, and
    a disconnect returns when nothing of its role is in flight. -/
def Drained (s : Lifecycle) : LifecycleAction → Prop
  | .work task result => ∀ job rest, s.tasks task = job :: rest → s.Permits task result job
  | _ => True

/-- A disconnected role: not wanted anywhere, without a process, and no driver call
    that is in flight changes its routes, endpoint policy or publication. -/
structure Lifecycle.Down (f : Fleet) (s : Lifecycle) (role : String) : Prop where
  enabled : (s.roles role).enabled = false
  desired : s.desired role = false
  persisted : s.persisted role = false
  process : ∀ pid, s.alive pid ≠ some role
  unchanged : ∀ task s', s.step f (.mutate task) = some s' →
    (s.tasks task).head?.bind Job.mutates ≠ some role

def Lifecycle.closed (s : Lifecycle) (role : String) : Prop :=
  s.disconnecting role ≠ [] ∨ s.disconnected role = true

structure Lifecycle.Unwanted (s : Lifecycle) (role : String) : Prop where
  enabled : (s.roles role).enabled = false
  desired : s.desired role = false
  persisted : s.persisted role = false

/-- What holds while roles are disconnected. -/
structure Closing (s : Lifecycle) : Prop where
  allHeld : AllHeld s
  unwanted : ∀ role, s.closed role → s.Unwanted role
  stopped : ∀ role, ∀ id ∈ s.disconnecting role,
    s.tasks id = [.stop role, .release role, .returned role] ∨ (s.roles role).process = none
  drained : ∀ role, s.disconnected role = true →
    (s.roles role).process = none ∧ ∀ id, ∀ job ∈ s.tasks id, job.engages ≠ some role

section Work

variable {f : Fleet} {s : Lifecycle} {task : Nat} {result : CallResult} {job : Job}
  {rest : List Job} {role : String}

theorem enabled_of_perform (h : ((s.perform f task result job).1.roles role).enabled = true) :
    (s.roles role).enabled = true ∨ job = .reconnect role ∧ result = .done ∧
      s.cancelled task = false := by
  unfold perform at h
  grind [roles_setRole, roles_takeProcess, roles_disconnectFails,
    roles_kill, roles_launch, enabled_enable, setDesired,
    setStreak]

theorem desired_of_perform (h : (s.perform f task result job).1.desired role = true) :
    s.desired role = true ∨ job = .reconnect role ∧
      (result = .done ∧ s.cancelled task = false ∨ (s.roles role).enabled = true) := by
  unfold perform at h
  grind [setRole, desired_takeProcess, disconnectFails,
    kill, launch, desired_enable, desired_setDesired, setStreak]

theorem persisted_of_perform (h : (s.perform f task result job).1.persisted role = true) :
    s.persisted role = true ∨ ((s.perform f task result job).1.roles role).enabled = true := by
  unfold perform at h ⊢
  grind [setRole, persisted_takeProcess, disconnectFails,
    kill, launch, persisted_enable, setDesired,
    setStreak]

theorem unwanted_perform (h : s.Unwanted role) (hjob : s.Permits task result job) :
    (s.perform f task result job).1.Unwanted role := by
  have hsaved : ¬ (job = .reconnect role ∧ result = .done ∧ s.cancelled task = false) := by
    rintro ⟨rfl, hdone, hcancelled⟩
    exact Bool.false_ne_true (h.enabled.symm.trans (hjob hdone hcancelled))
  have henabled : ((s.perform f task result job).1.roles role).enabled = false := by
    refine Bool.eq_false_iff.mpr fun htrue => ?_
    exact (enabled_of_perform htrue).elim (Bool.eq_false_iff.mp h.enabled) hsaved
  refine ⟨henabled, Bool.eq_false_iff.mpr fun htrue => ?_, Bool.eq_false_iff.mpr fun htrue => ?_⟩
  · obtain hold | ⟨hrestart, ⟨hdone, hcancelled⟩ | hen⟩ := desired_of_perform htrue
    · exact Bool.eq_false_iff.mp h.desired hold
    · exact hsaved ⟨hrestart, hdone, hcancelled⟩
    · exact Bool.eq_false_iff.mp h.enabled hen
  · exact (persisted_of_perform htrue).elim (Bool.eq_false_iff.mp h.persisted)
      (Bool.eq_false_iff.mp henabled)

/-- Nothing new is in flight for a role that is not wanted and has no process. -/
theorem engages_perform (h : s.Unwanted role) (hnone : (s.roles role).process = none)
    (hjob : job.engages ≠ some role) {job' : Job} (hj : job' ∈ (s.perform f task result job).2) :
    job'.engages ≠ some role := by
  obtain ⟨henabled, hdesired, _⟩ := h
  unfold perform at hj
  grind [Job.engages, needsProcess]

theorem disconnecting_disconnectFails (s : Lifecycle) (role id : String) (task : Nat) :
    (s.disconnectFails role task).disconnecting id =
      if id = role then (s.disconnecting role).erase task else s.disconnecting id :=
  update_apply ..

theorem disconnecting_of_perform {id : Nat}
    (h : id ∈ (s.perform f task result job).1.disconnecting role) : id ∈ s.disconnecting role := by
  by_cases hjob : ∃ other, job = .returned other
  · obtain ⟨other, rfl⟩ := hjob
    simp only [perform] at h
    split_ifs at h
    · rw [show disconnecting _ role = _ from disconnecting_disconnectFails s other role task] at h
      split_ifs at h with hrole
      · exact hrole ▸ List.mem_of_mem_erase h
      · exact h
    · exact h
  · unfold perform at h
    grind [setRole, disconnecting_takeProcess, disconnecting_disconnectFails,
      kill, launch, enable, setDesired,
      setStreak, persist, List.mem_of_mem_erase]

theorem disconnected_of_perform (h : (s.perform f task result job).1.disconnected role = true) :
    s.disconnected role = true ∨ job = .returned role ∧ task ∈ s.disconnecting role := by
  by_cases hjob : ∃ other, job = .returned other
  · obtain ⟨other, rfl⟩ := hjob
    simp only [perform] at h
    split_ifs at h with hmem
    · simp only [update_apply] at h
      split_ifs at h with hrole
      · exact .inr ⟨by rw [hrole], hrole ▸ hmem⟩
      · exact .inl h
    · exact .inl h
  · unfold perform at h
    grind [setRole, disconnected_takeProcess, disconnectFails,
      kill, launch, enable, setDesired,
      setStreak, persist]

theorem Closing.worked (h : Closing s) (ht : s.tasks task = job :: rest)
    (hjob : s.Permits task result job) : Closing (s.worked f task result job rest) := by
  have hends : job.ends = true → result = .done := by
    intro hends
    cases job <;> first | exact hjob | cases hends
  -- a role without a process gets none while it is not wanted
  have hnone {role : String} (hun : s.Unwanted role) (hnone : (s.roles role).process = none) :
      ((s.worked f task result job rest).roles role).process = none := by
    refine Option.eq_none_iff_forall_ne_some.mpr fun pid hsome => ?_
    obtain hold | ⟨_, hneeds⟩ := process_of_perform hsome
    · rw [hnone] at hold
      cases hold
    · simp [needsProcess, hun.enabled] at hneeds
  have hclosed {role : String} (hc : (s.worked f task result job rest).closed role) :
      s.closed role := by
    rcases hc with hne | hdis
    · obtain ⟨id, hid⟩ := List.exists_mem_of_ne_nil _ hne
      exact .inl (List.ne_nil_of_mem (disconnecting_of_perform hid))
    · obtain hold | ⟨_, hmem⟩ := disconnected_of_perform hdis
      · exact .inr hold
      · exact .inl (List.ne_nil_of_mem hmem)
  refine ⟨h.allHeld.worked ht hends, fun role hc => ?_, fun role id hid => ?_, fun role hdis => ?_⟩
  · obtain ⟨henabled, hdesired, hpersisted⟩ :=
      unwanted_perform (f := f) (h.unwanted role (hclosed hc)) hjob
    exact ⟨henabled, hdesired, hpersisted⟩
  · have hid := disconnecting_of_perform hid
    have hun := h.unwanted role (.inl (List.ne_nil_of_mem hid))
    obtain htask | hproc := h.stopped role id hid
    · by_cases hne : id = task
      · -- the task of the disconnect does its stop
        subst hne
        obtain ⟨rfl, _⟩ := List.cons.inj (ht.symm.trans htask)
        right
        simp [worked, setTask, perform, roles_takeProcess]
      · left
        simpa [Lifecycle.worked, Lifecycle.setTask, hne] using htask
    · exact .inr (hnone hun hproc)
  · have hbefore : s.Unwanted role ∧ (s.roles role).process = none ∧
        ∀ id, ∀ job ∈ s.tasks id, job.engages ≠ some role := by
      obtain hold | ⟨rfl, hmem⟩ := disconnected_of_perform hdis
      · exact ⟨h.unwanted role (.inr hold), h.drained role hold⟩
      · refine ⟨h.unwanted role (.inl (List.ne_nil_of_mem hmem)), ?_, hjob hmem⟩
        exact (h.stopped role task hmem).resolve_left fun heq => by cases ht.symm.trans heq
    obtain ⟨hun, hproc, hfree⟩ := hbefore
    refine ⟨hnone hun hproc, fun id job' hj => ?_⟩
    obtain ⟨rfl, hj⟩ | hj := mem_tasks_of_worked ht hj
    · exact engages_perform hun hproc (hfree id job (by simp [ht])) hj
    · exact hfree id job' hj

end Work

section Commands

variable {f : Fleet} {s s' : Lifecycle} {a : LifecycleAction} {role : String}

/-- What an action other than a job does to the disconnects. -/
structure Lifecycle.Retains (s s' : Lifecycle) : Prop where
  disconnected : ∀ role, s'.disconnected role = true → s.disconnected role = true
  disconnecting : ∀ role, ∀ id ∈ s'.disconnecting role, id ∈ s.disconnecting role ∨
    s'.tasks id = [.stop role, .release role, .returned role]
  unwanted : ∀ role, s'.closed role → s.closed role ∧ (s.Unwanted role → s'.Unwanted role) ∨
    s'.Unwanted role

theorem Lifecycle.Retains.of_eq (hdis : s'.disconnected = s.disconnected)
    (hing : s'.disconnecting = s.disconnecting)
    (hun : ∀ role, s.Unwanted role → s'.Unwanted role) : s.Retains s' := by
  refine ⟨fun role => ?_, fun role id hid => ?_, fun role hc => ?_⟩
  · rw [hdis]
    exact id
  · rw [hing] at hid
    exact .inl hid
  · rw [closed, hdis, hing] at hc
    exact .inl ⟨hc, hun role⟩

theorem Lifecycle.Retains.of_connects (hdis : s'.disconnected = fun _ => false)
    (hing : s'.disconnecting = fun _ => []) : s.Retains s' := by
  refine ⟨fun role h => ?_, fun role id hid => ?_, fun role hc => ?_⟩
  · rw [hdis] at h
    cases h
  · rw [hing] at hid
    cases hid
  · rw [closed, hdis, hing] at hc
    exact hc.elim (absurd rfl) nofun

theorem Lifecycle.Retains.of_enable {other : String} {saved : Bool}
    (hroles : s'.roles = ((s.connectsRole other).enable other saved).roles)
    (hdesired : s'.desired = ((s.connectsRole other).enable other saved).desired)
    (hpersisted : s'.persisted = ((s.connectsRole other).enable other saved).persisted)
    (hdis : s'.disconnected = update s.disconnected other false)
    (hing : s'.disconnecting = update s.disconnecting other []) : s.Retains s' := by
  refine ⟨fun role h => ?_, fun role id hid => ?_, fun role hc => ?_⟩
  · rw [hdis, update_apply] at h
    split_ifs at h
    exact h
  · rw [hing, update_apply] at hid
    split_ifs at hid
    · cases hid
    · exact .inl hid
  rw [closed, hdis, hing, update_apply, update_apply] at hc
  by_cases hne : role = other
  · simp [hne] at hc
  rw [if_neg hne, if_neg hne] at hc
  refine .inl ⟨hc, fun ⟨hen, hdes, hper⟩ => ?_⟩
  have hoff : (s'.roles role).enabled = false := by
    rw [hroles, enabled_enable, if_neg fun h => hne h.1]
    exact hen
  refine ⟨hoff, ?_, ?_⟩
  · rw [hdesired, desired_enable, if_neg hne]
    exact hdes
  rw [hpersisted, persisted_enable, ← hroles, hoff]
  split_ifs
  · rfl
  · exact hper

theorem Lifecycle.retains_command (h : s.step f a = some s')
    (hwork : ∀ task result, a ≠ .work task result) : s.Retains s' := by
  cases a with
  | work task result => exact absurd rfl (hwork task result)
  | connectAll task saved | setActiveProfile task profile order saved =>
    simp only [step] at h
    split_ifs at h <;> cases h <;> exact .of_connects rfl rfl
  | disconnectAll task saved =>
    simp only [step] at h
    split_ifs at h
    all_goals
      cases h
      refine .of_eq rfl rfl fun role hun => ?_
      obtain ⟨henabled, hdesired, hpersisted⟩ := hun
    · have hoff : ((s.setEnabled f.names fun _ => false).roles role).enabled = false := by
        simp only [setEnabled]
        split_ifs
        · rfl
        · exact henabled
      refine ⟨hoff, ?_, hoff⟩
      simp only [setTask, persist, setEnabled]
      split_ifs
      · rfl
      · exact hdesired
    · refine ⟨henabled, ?_, hpersisted⟩
      simp only [rollback]
      split_ifs
      · exact henabled
      · exact hdesired
  | connectRole task other saved =>
    simp only [step] at h
    split_ifs at h
    · cases h
      exact .of_enable rfl rfl rfl (by cases saved <;> rfl) (by cases saved <;> rfl)
    · cases h
      exact .of_enable rfl rfl rfl (by cases saved <;> rfl) (by cases saved <;> rfl)
    · cases h
      exact .of_eq rfl rfl fun _ h => h
  | disconnectRole task other saved =>
    simp only [step] at h
    split_ifs at h
    · cases h
      let r := { s.roles other with enabled := false, startPending := false }
      have hroles (role : String) (hun : s.Unwanted role ∨ role = other) :
          ((s.setRole other r).roles role).enabled = false := by
        rw [roles_setRole]
        split_ifs with hrole
        · rfl
        · exact (hun.resolve_right hrole).enabled
      have hun (role : String) (hun : s.Unwanted role ∨ role = other) :
          Unwanted { ((s.setRole other r).setDesired other false).persist.setTask task
              [.stop other, .release other, .returned other] with
            disconnecting := update s.disconnecting other (task :: s.disconnecting other) }
            role := by
        refine ⟨hroles role hun, ?_, hroles role hun⟩
        refine (desired_setDesired _ other role false).trans ?_
        split_ifs with hrole
        · rfl
        · exact (hun.resolve_right hrole).desired
      refine ⟨fun _ h => h, fun role id hid => ?_, fun role hc => ?_⟩
      · simp only [update_apply] at hid
        split_ifs at hid with hrole
        · subst hrole
          rcases List.mem_cons.mp hid with rfl | hid
          · exact .inr (update_self ..)
          · exact .inl hid
        · exact .inl hid
      · by_cases hrole : role = other
        · exact .inr (hun role (.inr hrole))
        · refine .inl ⟨?_, fun h => hun role (.inl h)⟩
          simp only [closed, update_of_ne hrole] at hc
          exact hc
    · cases h
      refine .of_eq rfl rfl fun role hun => ?_
      obtain ⟨henabled, hdesired, hpersisted⟩ := hun
      refine ⟨?_, ?_, hpersisted⟩
      · simp only [setDesired, roles_setRole]
        split_ifs with hrole
        · rw [← hrole, henabled]
        · exact henabled
      rw [desired_setDesired]
      split_ifs with hrole
      · rw [← hrole, henabled]
      · exact hdesired
    · cases h
      exact .of_eq rfl rfl fun _ h => h
  | mutate task =>
    simp only [step] at h
    split_ifs at h
    cases h
    exact .of_eq rfl rfl fun _ h => h
  | spawn task job =>
    simp only [step] at h
    split_ifs at h
    cases h
    exact .of_eq rfl rfl fun _ h => ⟨h.enabled, h.desired, h.persisted⟩
  | recoverRole task role managed action =>
    simp only [step] at h
    split_ifs at h
    all_goals
      cases h
      exact .of_eq rfl rfl fun _ h => ⟨h.enabled, h.desired, h.persisted⟩
  | timeout task =>
    cases h
    exact .of_eq rfl rfl fun _ h => ⟨h.enabled, h.desired, h.persisted⟩
  | exit task pid =>
    simp only [step] at h
    split_ifs at h
    obtain ⟨role, _, rfl⟩ := Option.map_eq_some_iff.mp h
    exact .of_eq rfl rfl fun _ h => ⟨h.enabled, h.desired, h.persisted⟩
  | failByConfiguration task other =>
    simp only [step] at h
    split_ifs at h
    cases h
    refine .of_eq rfl rfl fun role hun => ⟨?_, hun.desired, hun.persisted⟩
    simp only [setTask, roles_setRole]
    split_ifs
    · rfl
    · exact hun.enabled

theorem Job.engages_of_opens {job : Job} (h : job.opens = true) : job.engages = none := by
  cases job <;> first | rfl | cases h

theorem Closing.retains (h : Closing s) (hs : s.Retains s') (hacc : AllHeld s')
    (hproc : ∀ role, (s'.roles role).process = (s.roles role).process)
    (htasks : ∀ id, s'.tasks id = s.tasks id ∨
      s.tasks id = [] ∧ ∀ job ∈ s'.tasks id, job.engages = none) : Closing s' := by
  refine ⟨hacc, fun role hc => ?_, fun role id hid => ?_, fun role hdis => ?_⟩
  · rcases hs.unwanted role hc with ⟨hold, hun⟩ | hun
    · exact hun (h.unwanted role hold)
    · exact hun
  · obtain hold | hnew := hs.disconnecting role id hid
    · rw [hproc]
      refine (h.stopped role id hold).imp_left fun heq => ?_
      rcases htasks id with hsame | ⟨hnil, _⟩
      · rw [hsame, heq]
      · cases hnil.symm.trans heq
    · exact .inl hnew
  · obtain ⟨hnone, hfree⟩ := h.drained role (hs.disconnected role hdis)
    refine ⟨(hproc role).trans hnone, fun id job hj => ?_⟩
    rcases htasks id with hsame | ⟨_, hnew⟩
    · exact hfree id job (hsame ▸ hj)
    · rw [hnew job hj]
      exact nofun

theorem Closing.step (h : Closing s) (ha : Drained s a) (hs : s.step f a = some s') :
    Closing s' := by
  obtain ⟨task, result, job, rest, rfl, ht, rfl⟩ | ⟨task, pid, role, rfl, halive, hfree, rfl⟩ |
    ⟨hwork, hb⟩ := step_cases hs
  · exact h.worked ht (ha job rest ht)
  · refine h.retains (retains_command hs (by rintro _ _ ⟨⟩)) (h.allHeld.exit halive hfree)
      (fun _ => rfl) fun id => ?_
    by_cases hid : id = task
    · subst hid
      exact .inr ⟨hfree, by simp [setTask, Job.engages]⟩
    · exact .inl (by simp [setTask, hid])
  · exact h.retains (retains_command hs hwork) (h.allHeld.brings hb) hb.process fun id =>
      (hb.tasks id).imp_right (And.imp_right fun hnew job hj => Job.engages_of_opens (hnew job hj))

end Commands

theorem closing_start (profile : String) (persisted : String → Bool) :
    Closing { activeProfile := profile, persisted := persisted } where
  allHeld := allHeld_start profile persisted
  unwanted _ h := h.elim (absurd rfl) nofun
  stopped _ _ h := nomatch h
  drained _ h := nomatch h

theorem LifecycleRun.closing {f : Fleet} {s : Lifecycle} (h : LifecycleRun f Drained s) :
    Closing s := by
  induction h with
  | start profile persisted => exact closing_start profile persisted
  | restore task profile persisted blocked =>
    have hb := brings_restoreDesired f task profile persisted blocked
    refine (closing_start profile persisted).retains ?_
      ((allHeld_start profile persisted).brings hb)
      hb.process fun id => (hb.tasks id).imp_right fun ⟨hnil, hnew⟩ => ?_
    · exact .of_connects rfl rfl
    · exact ⟨hnil, fun job hj => Job.engages_of_opens (hnew job hj)⟩
  | step _ ha hs ih => exact ih.step ha hs

theorem Job.engages_of_process? {job : Job} {role : String} {pid : Nat}
    (h : job.process? = some (role, pid)) : job.engages = some role := by
  cases job <;> cases h <;> rfl

theorem Job.engages_of_mutates {job : Job} {role : String} (h : job.mutates = some role) :
    job.engages = some role := by
  cases job with
  | activate other calls =>
    cases calls with
    | nil => cases h
    | cons step calls =>
      simp only [mutates] at h
      split_ifs at h with hstep
      simpa [engages, hstep] using h
  | applyEndpoint _ | driving _ _ _ => exact h
  | _ => cases h

/-- After a disconnect has returned, the role stays down until the next connect. -/
theorem LifecycleRun.disconnect_final {f : Fleet} {s : Lifecycle} (h : LifecycleRun f Drained s)
    {role : String} (hdis : s.disconnected role = true) : s.Down f role := by
  have hs := h.closing
  obtain ⟨henabled, hdesired, hpersisted⟩ := hs.unwanted role (.inr hdis)
  obtain ⟨hnone, hfree⟩ := hs.drained role hdis
  refine ⟨henabled, hdesired, hpersisted, fun pid halive => ?_, fun task s' _ hmut => ?_⟩
  · obtain hproc | ⟨id, job, hj, hprocess⟩ := hs.allHeld.owned pid role halive
    · rw [hnone] at hproc
      cases hproc
    · exact hfree id job hj (Job.engages_of_process? hprocess)
  · obtain ⟨job, hj, hmut⟩ := Option.bind_eq_some_iff.mp hmut
    exact hfree task job (List.mem_of_head? hj) (Job.engages_of_mutates hmut)

theorem LifecycleRun.drains {f : Fleet} {s : Lifecycle} (h : LifecycleRun f Drained s) (task : Nat)
    {job : Job} {rest : List Job} (ht : s.tasks task = job :: rest)
    (hjob : s.Permits task .done job) :
    LifecycleRun f Drained (s.worked f task .done job rest) := by
  refine h.step (a := .work task .done) (fun job' rest' ht' => ?_) ?_
  · exact (List.cons.inj (ht.symm.trans ht')).1 ▸ hjob
  · simp only [Lifecycle.step, ht]
    rfl

theorem LifecycleRun.disconnect_final_connected :
    ∃ s, LifecycleRun sampleFleet Drained s ∧ s.launched = 1 ∧ s.disconnected "work" = true ∧
      s.Down sampleFleet "work" := by
  have h₀ : LifecycleRun sampleFleet Drained _ := .start "office" fun _ => false
  have h₁ := h₀.step (a := .connectRole 0 "work" true) trivial rfl
  have h₂ := ((h₁.drains 0 rfl trivial).drains 0 rfl trivial).drains 0 rfl trivial
  have h₃ := (h₂.drains 0 rfl trivial).drains 0 rfl trivial
  have h₄ := h₃.step (a := .disconnectRole 1 "work" true) trivial rfl
  have h₅ := ((h₄.drains 1 rfl trivial).drains 1 rfl rfl).drains 1 rfl trivial
  have h₆ := h₅.drains 1 rfl trivial
  have h₇ := h₆.drains 1 rfl fun _ id job hj => ?_
  · exact ⟨_, h₇, rfl, rfl, LifecycleRun.disconnect_final h₇ rfl⟩
  match id with
  | 0 => cases hj
  | 1 =>
    obtain rfl := List.mem_singleton.mp hj
    exact nofun
  | _ + 2 => cases hj

def disconnectWork (task : Nat) : List LifecycleAction :=
  .disconnectRole task "work" true :: List.replicate 4 (.work task .done)

/-- A recovery has replaced the transport up to its reconnect when the disconnect commits. -/
def restartedRecovery : List LifecycleAction :=
  .connectRole 0 "work" true :: startWork 0 ++
    .recoverRole 1 "work" false .restartTransport :: List.replicate 11 (.work 1 .done) ++
    [.work 1 .unsupported, .work 1 .done, .work 1 .done, .disconnectRole 2 "work" true,
      .work 1 .done, .work 2 .done, .work 2 .done, .work 2 .done] ++ startWork 1

def lateLaunch : List LifecycleAction :=
  .connectRole 0 "work" true :: List.replicate 3 (.work 0 .done) ++ disconnectWork 1 ++
    [.work 0 .done]

def lateActivation : List LifecycleAction :=
  .connectRole 0 "work" true :: startWork 0 ++
    [.spawn 1 (.validate "work" 0), .work 1 .done, .work 1 .done] ++ disconnectWork 2 ++
    [.work 2 .done]

def orphanedProcess : List LifecycleAction :=
  .connectRole 0 "work" true :: startWork 0 ++
    [.disconnectRole 1 "work" true, .work 1 .done, .work 1 .failed] ++ disconnectWork 2

def DisconnectedAfter (actions : List LifecycleAction) (s : Lifecycle) : Prop :=
  ({ activeProfile := "office" } : Lifecycle).play sampleFleet actions = some s ∧
    LifecycleRun sampleFleet (fun _ _ => True) s ∧ s.disconnected "work" = true

theorem disconnect_not_final :
    (∃ s, DisconnectedAfter restartedRecovery s ∧ (s.roles "work").enabled = true ∧
      s.desired "work" = true ∧ s.persisted "work" = true ∧ s.alive 1 = some "work") ∧
    (∃ s, DisconnectedAfter lateLaunch s ∧ s.alive 0 = some "work") ∧
    (∃ s, DisconnectedAfter lateActivation s ∧ (s.step sampleFleet (.mutate 1)).isSome = true ∧
      (s.tasks 1).head?.bind Job.mutates = some "work") ∧
    ∃ s, DisconnectedAfter orphanedProcess s ∧ s.alive 0 = some "work" := by
  refine ⟨⟨_, ⟨rfl, lifecycleRun_play restartedRecovery rfl, rfl⟩, rfl, rfl, rfl, rfl⟩,
    ⟨_, ⟨rfl, lifecycleRun_play lateLaunch rfl, rfl⟩, rfl⟩,
    ⟨_, ⟨rfl, lifecycleRun_play lateActivation rfl, rfl⟩, rfl, rfl⟩,
    ⟨_, ⟨rfl, lifecycleRun_play orphanedProcess rfl, rfl⟩, rfl⟩⟩

end Kikimora.Control

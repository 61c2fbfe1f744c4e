import Kikimora.Control.Lifecycle

/-!
# The processes of the roles

Every running process is in the hands of its role or of the function that starts
or stops it, as long as no stop fails. A start looks at the role before it
launches; whether another launch or stop of the role is in flight it cannot see.
-/

namespace Kikimora.Control

open Lifecycle

def Job.occupies : Job → Option String
  | .launch role | .commit role _ | .discard role _ | .kill role _ | .restartKill role _ =>
    some role
  | _ => none

def Job.ends : Job → Bool
  | .discard _ _ | .kill _ _ | .restartKill _ _ => true
  | _ => false

/-- Every running process is in someone's hands, and an exit is reported after it
    has happened. -/
structure AllHeld (s : Lifecycle) : Prop where
  owned : ∀ pid role, s.alive pid = some role →
    (s.roles role).process = some pid ∨ ∃ id, ∃ job ∈ s.tasks id, job.process? = some (role, pid)
  exited : ∀ id role pid, .exited role pid ∈ s.tasks id → s.alive pid = none ∧ pid < s.launched
  fresh : ∀ pid, s.launched ≤ pid → s.alive pid = none

section Work

variable {f : Fleet} {s : Lifecycle} {task : Nat} {result : CallResult} {job : Job}
  {rest : List Job} {role : String} {pid : Nat}

theorem exited_perform (h : .exited role pid ∈ (s.perform f task result job).2) : False := by
  unfold perform at h
  grind

theorem owned_perform (hends : job.ends = true → result = .done)
    (hexited : ∀ role pid, job = .exited role pid → s.alive pid = none)
    (h : (s.perform f task result job).1.alive pid = some role)
    (hold : (s.roles role).process = some pid ∨ job.process? = some (role, pid)) :
    ((s.perform f task result job).1.roles role).process = some pid ∨
      (s.perform f task result job).2.head?.bind Job.process? = some (role, pid) := by
  unfold perform at h ⊢
  grind [Job.ends, Job.process?, roles_setRole, roles_takeProcess,
    roles_disconnectFails, alive_kill, alive_launch,
    process_enable, needsProcess, setDesired, setStreak,
    alive_setRole, roles_kill, roles_launch]

theorem owned_launch (h : (s.perform f task result (.launch role)).1.alive s.launched = some role)
    (hfresh : s.alive s.launched = none) :
    .commit role s.launched ∈ (s.perform f task result (.launch role)).2 := by
  simp only [perform] at h ⊢
  split_ifs at h ⊢ with hdone
  · exact List.mem_singleton_self _
  · rw [hfresh] at h
    cases h

theorem AllHeld.worked (h : AllHeld s) (ht : s.tasks task = job :: rest)
    (hends : job.ends = true → result = .done) : AllHeld (s.worked f task result job rest) where
  owned pid role halive := by
    have hnew {job' : Job} (hj : job' ∈ (s.perform f task result job).2) :
        job' ∈ (s.worked f task result job rest).tasks task := by
      rw [mem_tasks_worked, if_pos rfl]
      exact .inl hj
    have hexited (role : String) (pid : Nat) (hjob : job = .exited role pid) : s.alive pid = none :=
      (h.exited task role pid (by simp [ht, hjob])).1
    have hkept (hold : (s.roles role).process = some pid ∨ job.process? = some (role, pid)) :
        ((s.worked f task result job rest).roles role).process = some pid ∨
          ∃ id, ∃ job' ∈ (s.worked f task result job rest).tasks id,
            job'.process? = some (role, pid) := by
      refine (owned_perform hends hexited halive hold).imp_right fun hhead => ?_
      obtain ⟨job', hj, hprocess⟩ := Option.bind_eq_some_iff.mp hhead
      exact ⟨task, job', hnew (List.mem_of_head? hj), hprocess⟩
    obtain hbefore | ⟨rfl, rfl⟩ := alive_perform halive
    · obtain hproc | ⟨id, job', hj, hprocess⟩ := h.owned pid role hbefore
      · exact hkept (.inl hproc)
      · by_cases hne : job' = job
        · exact hkept (.inr (hne ▸ hprocess))
        · exact .inr ⟨id, job', mem_tasks_of_ne ht hj hne, hprocess⟩
    · exact .inr ⟨task, _, hnew (owned_launch halive (h.fresh _ le_rfl)), rfl⟩
  exited id role pid hj := by
    obtain ⟨_, hnew⟩ | hold := mem_tasks_of_worked ht hj
    · exact (exited_perform hnew).elim
    obtain ⟨hdead, hlt⟩ := h.exited id role pid hold
    refine ⟨Option.eq_none_iff_forall_ne_some.mpr fun other halive => ?_, ?_⟩
    · obtain hbefore | ⟨_, rfl⟩ := alive_perform halive
      · rw [hdead] at hbefore
        cases hbefore
      · exact Nat.lt_irrefl _ hlt
    · exact Nat.lt_of_lt_of_le hlt (launched_perform f s task result job)
  fresh pid hpid := by
    refine Option.eq_none_iff_forall_ne_some.mpr fun role halive => ?_
    obtain hbefore | ⟨rfl, rfl⟩ := alive_perform halive
    · rw [h.fresh pid ((launched_perform f s task result job).trans hpid)] at hbefore
      cases hbefore
    simp only [worked, setTask, perform] at halive hpid
    split_ifs at halive hpid
    · exact Nat.not_succ_le_self _ hpid
    · rw [h.fresh _ le_rfl] at halive
      cases halive

theorem AllHeld.exit (h : AllHeld s) (halive : s.alive pid = some role)
    (hfree : s.tasks task = []) :
    AllHeld ((s.kill pid).setTask task [.exited role pid]) where
  owned other owner hother := by
    simp only [setTask, alive_kill] at hother
    split_ifs at hother
    obtain hproc | ⟨id, job, hj, hprocess⟩ := h.owned other owner hother
    · exact .inl hproc
    refine .inr ⟨id, job, ?_, hprocess⟩
    have hid : id ≠ task := by
      rintro rfl
      simp [hfree] at hj
    simpa [setTask, hid] using hj
  exited id other gone hj := by
    have hlt : pid < s.launched := by
      by_contra hge
      rw [h.fresh pid (Nat.le_of_not_lt hge)] at halive
      cases halive
    simp only [setTask, alive_kill]
    by_cases hid : id = task
    · subst hid
      obtain ⟨rfl, rfl⟩ : other = role ∧ gone = pid := by simpa [setTask] using hj
      exact ⟨if_pos rfl, hlt⟩
    have hold : .exited other gone ∈ s.tasks id := by simpa [setTask, hid] using hj
    obtain ⟨hdead, hbound⟩ := h.exited id other gone hold
    refine ⟨?_, hbound⟩
    split_ifs
    · rfl
    · exact hdead
  fresh other hother := by
    simp only [setTask, alive_kill]
    split_ifs
    · rfl
    · exact h.fresh other hother

theorem AllHeld.brings {s' : Lifecycle} (h : AllHeld s) (hs : s.Brings s') : AllHeld s' where
  owned pid role halive := by
    rw [hs.alive] at halive
    rw [hs.process]
    refine (h.owned pid role halive).imp_right fun ⟨id, job, hj, hprocess⟩ =>
      ⟨id, job, ?_, hprocess⟩
    rcases hs.tasks id with heq | ⟨hnil, _⟩
    · rwa [heq]
    · simp [hnil] at hj
  exited id role pid hj := by
    rw [hs.alive, hs.launched]
    rcases hs.tasks id with heq | ⟨_, hopens⟩
    · exact h.exited id role pid (heq ▸ hj)
    · cases hopens _ hj
  fresh pid hpid := by
    rw [hs.alive]
    exact h.fresh pid (hs.launched ▸ hpid)

end Work

def StopsSucceed (s : Lifecycle) : LifecycleAction → Prop
  | .work task result => ∀ job rest, s.tasks task = job :: rest → job.ends = true → result = .done
  | _ => True

variable {s s' : Lifecycle}

theorem allHeld_start (profile : String) (persisted : String → Bool) :
    AllHeld { activeProfile := profile, persisted := persisted } where
  owned _ _ h := nomatch h
  exited _ _ _ h := nomatch h
  fresh _ _ := rfl

theorem brings_restoreDesired (f : Fleet) (task : Nat) (profile : String)
    (persisted blocked : String → Bool) :
    ({ activeProfile := profile, persisted := persisted } : Lifecycle).Brings
      (.restoreDesired f task profile persisted blocked) := by
  refine .of_setTask (fun role => ?_) rfl rfl (show (fun _ => []) task = [] from rfl) rfl ?_
  · simp only [restoreDesired, setTask, setEnabled]
    split_ifs <;> rfl
  · grind [Job.opens]

-- === One launch at a time ===

/-- A start goes on only while no launch of the role and no process of it is in
    flight. -/
def Exclusive (s : Lifecycle) (a : LifecycleAction) : Prop :=
  StopsSucceed s a ∧
    match a with
    | .work task _ => ∀ role rest, s.tasks task = .begin role :: rest → s.needsProcess role = true →
        ∀ id, ∀ job ∈ s.tasks id, job.occupies ≠ some role
    | _ => True

/-- While a launch is in flight, its role has nothing else in flight. -/
structure Single (s : Lifecycle) : Prop where
  allHeld : AllHeld s
  queued : ∀ id, ∀ job ∈ (s.tasks id).tail, job.occupies = none
  alone : ∀ id role, .launch role ∈ s.tasks id → (s.roles role).process = none ∧
    ∀ id', ∀ job ∈ s.tasks id', job.occupies = some role → id' = id ∧ job = .launch role

theorem Job.occupies_of_process? {job : Job} {role : String} {pid : Nat}
    (h : job.process? = some (role, pid)) : job.occupies = some role ∧ job ≠ .launch role := by
  cases job <;> cases h <;> exact ⟨rfl, nofun⟩

theorem Job.occupies_of_opens {job : Job} (h : job.opens = true) : job.occupies = none := by
  cases job <;> first | rfl | cases h

section Work

variable {f : Fleet} {s : Lifecycle} {task : Nat} {result : CallResult} {job : Job}
  {rest : List Job} {role : String}

theorem process_of_perform {pid : Nat}
    (h : ((s.perform f task result job).1.roles role).process = some pid) :
    (s.roles role).process = some pid ∨ job = .commit role pid ∧ s.needsProcess role = true := by
  unfold perform at h
  grind [roles_setRole, roles_takeProcess, roles_disconnectFails,
    roles_kill, roles_launch, process_enable, setDesired,
    setStreak]

theorem occupies_of_perform {job' : Job} (h : job' ∈ (s.perform f task result job).2)
    (hocc : job'.occupies = some role) :
    job.occupies = some role ∧ job' ≠ .launch role ∨
      job = .begin role ∧ job' = .launch role ∧ s.needsProcess role = true ∨
      ∃ pid, (s.roles role).process = some pid ∧ job' ≠ .launch role := by
  unfold perform at h
  grind [Job.occupies]

theorem Single.queued_worked (h : Single s) (ht : s.tasks task = job :: rest) (id : Nat) :
    ∀ job' ∈ ((s.worked f task result job rest).tasks id).tail, job'.occupies = none := by
  intro job' hj
  by_cases hid : id = task
  · subst hid
    have hrest := h.queued id
    rw [ht] at hrest
    exact hrest job' (mem_tail_worked hj)
  · refine h.queued id job' ?_
    simpa [worked, setTask, hid] using hj

theorem Single.alone_worked (h : Single s) (ht : s.tasks task = job :: rest)
    (hbegin : job = .begin role → s.needsProcess role = true →
      ∀ id, ∀ job ∈ s.tasks id, job.occupies ≠ some role) {id : Nat}
    (hlaunch : .launch role ∈ (s.worked f task result job rest).tasks id) :
    ((s.worked f task result job rest).roles role).process = none ∧
      ∀ id', ∀ job' ∈ (s.worked f task result job rest).tasks id', job'.occupies = some role →
        id' = id ∧ job' = .launch role := by
  have hproc (hjob : ∀ pid, job ≠ .commit role pid) (hnone : (s.roles role).process = none) :
      ((s.worked f task result job rest).roles role).process = none := by
    refine Option.eq_none_iff_forall_ne_some.mpr fun pid hsome => ?_
    obtain hold | ⟨hcommit, _⟩ := process_of_perform hsome
    · rw [hnone] at hold
      cases hold
    · exact hjob pid hcommit
  by_cases hnew : id = task ∧ .launch role ∈ (s.perform f task result job).2
  · obtain ⟨rfl, hnew⟩ := hnew
    obtain ⟨_, hne⟩ | ⟨rfl, _, hneeds⟩ | ⟨_, _, hne⟩ := occupies_of_perform hnew rfl
    · exact absurd rfl hne
    · have hnone : (s.roles role).process = none := by
        simpa [needsProcess] using (Bool.and_eq_true_iff.mp hneeds).2
      refine ⟨hproc nofun hnone, fun id' job' hj hocc => ?_⟩
      obtain ⟨rfl, hj⟩ | hj := mem_tasks_of_worked ht hj
      · obtain ⟨hbad, _⟩ | ⟨_, rfl, _⟩ | ⟨pid, hsome, _⟩ := occupies_of_perform hj hocc
        · cases hbad
        · exact ⟨rfl, rfl⟩
        · rw [hnone] at hsome
          cases hsome
      · exact absurd hocc (hbegin rfl hneeds id' job' hj)
    · exact absurd rfl hne
  · -- the launch was in flight before, so the job is none of its role
    have hrest : id = task → .launch role ∈ rest := by
      rintro rfl
      rw [mem_tasks_worked, if_pos rfl] at hlaunch
      exact hlaunch.resolve_left fun hj => hnew ⟨rfl, hj⟩
    have hold : .launch role ∈ s.tasks id :=
      (mem_tasks_of_worked ht hlaunch).resolve_left hnew
    obtain ⟨hnone, honly⟩ := h.alone id role hold
    have hjob : job.occupies ≠ some role := by
      intro hocc
      obtain ⟨rfl, _⟩ := honly task job (by simp [ht]) hocc
      have hqueued := h.queued task (.launch role) (by rw [ht]; exact hrest rfl)
      cases hqueued
    refine ⟨hproc (fun pid hcommit => hjob (by rw [hcommit]; rfl)) hnone,
      fun id' job' hj hocc => ?_⟩
    obtain ⟨_, hj⟩ | hj := mem_tasks_of_worked ht hj
    · obtain ⟨hbad, _⟩ | ⟨hb, _, hneeds⟩ | ⟨pid, hsome, _⟩ := occupies_of_perform hj hocc
      · exact absurd hbad hjob
      · exact absurd rfl (hbegin hb hneeds id _ hold)
      · rw [hnone] at hsome
        cases hsome
    · exact honly id' job' hj hocc

theorem Single.worked (h : Single s) (ht : s.tasks task = job :: rest)
    (hends : job.ends = true → result = .done)
    (hbegin : ∀ role, job = .begin role → s.needsProcess role = true →
      ∀ id, ∀ job ∈ s.tasks id, job.occupies ≠ some role) :
    Single (s.worked f task result job rest) where
  allHeld := h.allHeld.worked ht hends
  queued := h.queued_worked ht
  alone _ role hlaunch := h.alone_worked ht (hbegin role) hlaunch

end Work

theorem Single.of_tasks (h : Single s) (hacc : AllHeld s')
    (hproc : ∀ role, (s'.roles role).process = (s.roles role).process)
    (htasks : ∀ id, s'.tasks id = s.tasks id ∨ ∀ job ∈ s'.tasks id, job.occupies = none) :
    Single s' := by
  have hold {id : Nat} {job : Job} {role : String} (hj : job ∈ s'.tasks id)
      (hocc : job.occupies = some role) : job ∈ s.tasks id := by
    rcases htasks id with heq | hnone
    · rwa [← heq]
    · rw [hnone job hj] at hocc
      cases hocc
  refine ⟨hacc, fun id job hj => ?_, fun id role hj => ?_⟩
  · rcases htasks id with heq | hnone
    · exact h.queued id job (heq ▸ hj)
    · exact hnone job (List.mem_of_mem_tail hj)
  · obtain ⟨hnone, honly⟩ := h.alone id role (hold hj rfl)
    exact ⟨(hproc role).trans hnone, fun id' job hj hocc => honly id' job (hold hj hocc) hocc⟩

theorem Single.brings (h : Single s) (hs : s.Brings s') : Single s' :=
  h.of_tasks (h.allHeld.brings hs) hs.process fun id =>
    (hs.tasks id).imp_right fun hnew job hj => Job.occupies_of_opens (hnew.2 job hj)

theorem Single.step {f : Fleet} {a : LifecycleAction} (h : Single s) (ha : Exclusive s a)
    (hs : s.step f a = some s') : Single s' := by
  obtain ⟨task, result, job, rest, rfl, ht, rfl⟩ | ⟨task, pid, role, rfl, halive, hfree, rfl⟩ |
    ⟨_, hs⟩ := step_cases hs
  · exact h.worked ht (ha.1 job rest ht) fun role hjob => ha.2 role rest (hjob ▸ ht)
  · refine h.of_tasks (h.allHeld.exit halive hfree) (fun _ => rfl) fun id => ?_
    by_cases hid : id = task
    · subst hid
      simp [setTask, Job.occupies]
    · simp [setTask, hid]
  · exact h.brings hs

theorem single_start (profile : String) (persisted : String → Bool) :
    Single { activeProfile := profile, persisted := persisted } where
  allHeld := allHeld_start profile persisted
  queued _ _ h := nomatch h
  alone _ _ h := nomatch h

theorem LifecycleRun.single {f : Fleet} (h : LifecycleRun f Exclusive s) : Single s := by
  induction h with
  | start profile persisted => exact single_start profile persisted
  | restore task profile persisted blocked =>
    exact (single_start profile persisted).brings (brings_restoreDesired ..)
  | step _ ha hs ih => exact ih.step ha hs

/-- A process of a role is launched while no other process of it runs and no other
    launch of it is in flight. -/
theorem LifecycleRun.launches_alone {f : Fleet} {s : Lifecycle} (h : LifecycleRun f Exclusive s)
    {task : Nat} {role : String} {rest : List Job} (ht : s.tasks task = .launch role :: rest) :
    (∀ pid, s.alive pid ≠ some role) ∧
      ∀ id, .launch role ∈ s.tasks id → id = task := by
  have hs := h.single
  obtain ⟨hnone, honly⟩ := hs.alone task role (by simp [ht])
  refine ⟨fun pid halive => ?_, fun id hj => (honly id _ hj rfl).1⟩
  obtain hproc | ⟨id, job, hj, hprocess⟩ := hs.allHeld.owned pid role halive
  · rw [hnone] at hproc
    cases hproc
  · obtain ⟨hocc, hne⟩ := Job.occupies_of_process? hprocess
    exact hne (honly id job hj hocc).2

theorem LifecycleRun.prepares {f : Fleet} (h : LifecycleRun f Exclusive s) (task : Nat) {job : Job}
    {rest : List Job} (ht : s.tasks task = job :: rest) (hbegin : ∀ role, job ≠ .begin role) :
    LifecycleRun f Exclusive (s.worked f task .done job rest) := by
  refine h.step (a := .work task .done) ⟨fun _ _ _ _ => rfl, fun role rest' ht' => ?_⟩ ?_
  · exact absurd (List.cons.inj (ht.symm.trans ht')).1 (hbegin role)
  · simp only [Lifecycle.step, ht]
    rfl

theorem LifecycleRun.launches_alone_connected :
    ∃ s, LifecycleRun sampleFleet Exclusive s ∧ s.tasks 0 = [.launch "work"] ∧
      (∀ pid, s.alive pid ≠ some "work") ∧ ∀ id, .launch "work" ∈ s.tasks id → id = 0 := by
  have h₀ : LifecycleRun sampleFleet Exclusive _ := .start "office" fun _ => false
  have h₁ := h₀.step (a := .connectRole 0 "work" true) ⟨trivial, trivial⟩ rfl
  have h₂ := (h₁.prepares 0 rfl nofun).prepares 0 rfl nofun
  have h₃ :=
    h₂.step (a := .work 0 .done) ⟨fun _ _ _ _ => rfl, fun role rest _ _ id job hj => ?_⟩ rfl
  · exact ⟨_, h₃, rfl, LifecycleRun.launches_alone h₃ rfl⟩
  match id with
  | 0 =>
    obtain rfl := List.mem_singleton.mp hj
    exact nofun
  | _ + 1 => cases hj

def racingStarts : List LifecycleAction :=
  [.connectRole 0 "work" true, .connectRole 1 "work" true] ++ List.replicate 4 (.work 0 .done) ++
    List.replicate 3 (.work 1 .done)

def hastyConnect : List LifecycleAction :=
  .connectRole 0 "work" true :: startWork 0 ++
    [.disconnectRole 1 "work" true, .work 1 .done, .connectRole 0 "work" true] ++
    List.replicate 3 (.work 0 .done)

def failedStop : List LifecycleAction :=
  .connectRole 0 "work" true :: startWork 0 ++
    [.disconnectRole 1 "work" true, .work 1 .done, .work 1 .failed, .connectRole 0 "work" true] ++
    List.replicate 3 (.work 0 .done)

/-- In each of them a process is launched while another one of the role runs. -/
theorem second_process :
    [(1, racingStarts), (0, hastyConnect), (0, failedStop)].Forall fun run =>
      ∃ s, ({ activeProfile := "office" } : Lifecycle).play sampleFleet run.2 = some s ∧
        LifecycleRun sampleFleet (fun _ _ => True) s ∧ s.tasks run.1 = [.launch "work"] ∧
        s.alive 0 = some "work" := by
  refine ⟨?_, ?_, ?_⟩
  · exact ⟨_, rfl, lifecycleRun_play racingStarts rfl, rfl, rfl⟩
  · exact ⟨_, rfl, lifecycleRun_play hastyConnect rfl, rfl, rfl⟩
  · exact ⟨_, rfl, lifecycleRun_play failedStop rfl, rfl, rfl⟩

end Kikimora.Control

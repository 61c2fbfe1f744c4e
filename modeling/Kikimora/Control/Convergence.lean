import Kikimora.Control.Lifecycle

/-!
# Convergence of the lifecycle commands

When the work of all commands has finished, a role should run exactly when it is
enabled. Two commands stand in the way: one disables roles and stops none of
them, and a stop that comes late does not look at the role again.
-/

namespace Kikimora.Control

open Lib
open Function
open Lifecycle

/-- A process is in the hands of its role or of the task that starts or stops it. -/
inductive Holder
  | role (name : String)
  | task (id : Nat)
  deriving DecidableEq, Repr

def Lifecycle.held (s : Lifecycle) : Holder → Option (String × Nat)
  | .role name => (s.roles name).process.map fun pid => (name, pid)
  | .task id => (s.tasks id).head?.bind Job.process?

def Job.starts : Job → Option String
  | .start role | .applyEndpoint role | .begin role | .launch role | .commit role _ => some role
  | _ => none

def Job.ofCommand : Job → Bool
  | .start _ | .applyEndpoint _ | .begin _ | .launch _ | .commit _ _ | .discard _ _ | .stop _
  | .kill _ _ | .release _ | .releasing _ | .returned _ => true
  | _ => false

def LifecycleAction.commanded : LifecycleAction → Bool
  | .connectAll _ _ | .disconnectAll _ _ | .connectRole _ _ _ | .disconnectRole _ _ _
  | .setActiveProfile _ _ _ _ => true
  | .work _ result => result = .done
  | _ => false

/-- `ConnectAll` disables no role that has a process, and a stop takes no process
    from an enabled role. -/
def Orderly (f : Fleet) (s : Lifecycle) (a : LifecycleAction) : Prop :=
  a.commanded = true ∧
    match a with
    | .connectAll _ saved => saved = true → ∀ role ∈ f.names, (s.roles role).enabled = true →
        (s.roles role).process.isSome = true → f.wanted s.activeProfile role = true
    | .work task _ => ∀ role rest, s.tasks task = .stop role :: rest →
        (s.roles role).enabled = true → (s.roles role).process = none
    | _ => True

/-- What holds while work is in flight. -/
structure Settling (s : Lifecycle) : Prop where
  owns : Owns s.held fun k => s.alive k.2 = some k.1
  fresh : ∀ pid role, s.alive pid = some role → pid < s.launched
  queued : ∀ id, ∀ job ∈ (s.tasks id).tail, job.process? = none
  jobs : ∀ id, ∀ job ∈ s.tasks id, job.ofCommand = true
  starting : ∀ role, s.needsProcess role = true → ∃ id, ∃ job ∈ s.tasks id, job.starts = some role
  stopping : ∀ role, (s.roles role).enabled = false → (s.roles role).process.isSome = true →
    ∃ id, .stop role ∈ s.tasks id

section Work

variable {f : Fleet} {s : Lifecycle} {task : Nat} {job : Job} {rest : List Job} {role : String}
  {pid : Nat}

theorem ofCommand_perform {job' : Job} (h : job.ofCommand = true)
    (hj : job' ∈ (s.perform f task .done job).2) : job'.ofCommand = true := by
  unfold perform at hj
  grind [Job.ofCommand]

theorem starts_perform (hjob : job.starts = some role) (hn : s.needsProcess role = true) :
    (∃ job' ∈ (s.perform f task .done job).2, job'.starts = some role) ∨
      ((s.perform f task .done job).1.roles role).process.isSome = true := by
  cases job <;> cases hjob
  case start =>
    cases hf : f.recovering <;> simp [perform, hn, hf, Job.starts]
  case commit => simp [perform, hn, roles_setRole]
  all_goals simp [perform, hn, Job.starts]

theorem enabled_perform (h : job.ofCommand = true) (role : String) :
    ((s.perform f task .done job).1.roles role).enabled = (s.roles role).enabled := by
  unfold perform
  grind [Job.ofCommand, roles_setRole, launch, kill,
    roles_takeProcess, roles_disconnectFails]

theorem process_perform (f : Fleet) (s : Lifecycle) (task : Nat) (h : job.ofCommand = true)
    (role : String) :
    ((s.perform f task .done job).1.roles role).process = (s.roles role).process ∨
      (∃ pid, job = .commit role pid ∧ s.needsProcess role = true) ∨ job = .stop role := by
  unfold perform
  grind [Job.ofCommand, roles_setRole, launch, kill,
    roles_takeProcess, roles_disconnectFails]

theorem Lifecycle.held_worked {result : CallResult} (hq : ∀ job ∈ rest, job.process? = none)
    (x : Holder) :
    (s.worked f task result job rest).held x =
      match x with
      | .role name =>
        ((s.perform f task result job).1.roles name).process.map fun pid => (name, pid)
      | .task id =>
        if id = task then (s.perform f task result job).2.head?.bind Job.process?
        else s.held (.task id) := by
  cases x with
  | role name => rfl
  | task id =>
    simp only [held, worked, setTask, tasks_perform, update_apply]
    split_ifs
    · cases hnew : (s.perform f task result job).2 with
      | nil =>
        cases rest with
        | nil => rfl
        | cons next rest => simp [hq next]
      | cons next _ => rfl
    · rfl

variable (h : Settling s)

include h

theorem Settling.queued_rest (ht : s.tasks task = job :: rest) : ∀ job ∈ rest, job.process? = none
    := by
  have hq := h.queued task
  rw [ht] at hq
  exact hq

theorem owns_worked_of_same {result : CallResult} (ht : s.tasks task = job :: rest)
    (hroles : ∀ name, ((s.perform f task result job).1.roles name).process = (s.roles name).process)
    (hjob : (s.perform f task result job).2.head?.bind Job.process? = job.process?)
    (halive : (s.perform f task result job).1.alive = s.alive) : Owns
    (s.worked f task result job rest).held fun k => (s.worked f task result job rest).alive k.2 =
    some k.1 := by
  refine h.owns.congr (fun x => ?_) fun k => by
    show (s.perform f task result job).1.alive k.2 = some k.1 ↔ _
    rw [halive]
  rw [held_worked (h.queued_rest ht)]
  cases x with
  | role name =>
    dsimp only
    rw [hroles]
    rfl
  | task id =>
    dsimp only
    split_ifs with hid
    · subst hid
      simp [hjob, held, ht]
    · rfl

theorem owns_worked_killed (ht : s.tasks task = job :: rest)
    (hjob : job.process? = some (role, pid)) (hp : s.perform f task .done job = (s.kill pid, [])) :
    Owns (s.worked f task .done job rest).held fun k => (s.worked f task .done job rest).alive k.2 =
    some k.1 := by
  have hheld : s.held (.task task) = some (role, pid) := by simp [held, ht, hjob]
  have halive : s.alive pid = some role := h.owns.sound hheld
  refine (h.owns.release hheld).congr (fun x => ?_) fun k => ?_
  · rw [held_worked (h.queued_rest ht), hp]
    cases x with
    | role name => rfl
    | task id => simp [update_apply]
  show (s.perform f task .done job).1.alive k.2 = some k.1 ↔ _
  rw [hp]
  by_cases hk : k.2 = pid
  · subst hk
    simp only [kill, update_self, reduceCtorEq, halive, Option.some.injEq,
      false_iff, not_and]
    exact fun hne heq => hne (Prod.ext heq.symm rfl)
  · have hne : k ≠ (role, pid) := fun he => hk (congrArg Prod.snd he)
    simp [kill, hk, hne]

theorem owns_worked_launched (ht : s.tasks task = .launch role :: rest) : Owns
    (s.worked f task .done (.launch role) rest).held fun k =>
    (s.worked f task .done (.launch role) rest).alive k.2 = some k.1 := by
  have hheld : s.held (.task task) = none := by simp [held, ht, Job.process?]
  have hfresh (name : String) : s.alive s.launched ≠ some name := fun ha => (h.fresh _ _ ha).false
  refine (h.owns.acquire (k := (role, s.launched)) hheld (hfresh role)).congr (fun x => ?_)
    fun k => ?_
  · rw [held_worked (h.queued_rest ht)]
    cases x with
    | role name => rfl
    | task id => simp [update_apply, perform, Job.process?]
  show update s.alive s.launched (some role) k.2 = some k.1 ↔ _
  by_cases hk : k.2 = s.launched
  · simp [hk, hfresh k.1, Prod.ext_iff, eq_comm]
  · simp [hk, Prod.ext_iff]

theorem owns_worked_committed (ht : s.tasks task = .commit role pid :: rest)
    (hn : s.needsProcess role = true) : Owns (s.worked f task .done (.commit role pid) rest).held
    fun k => (s.worked f task .done (.commit role pid) rest).alive k.2 = some k.1 := by
  have hp : s.perform f task .done (.commit role pid) =
      (s.setRole role { s.roles role with process := some pid }, []) := by
    simp [perform, hn]
  have hheld : s.held (.task task) = some (role, pid) := by simp [held, ht, Job.process?]
  have hnone : s.held (.role role) = none := by
    simp only [needsProcess, Bool.and_eq_true, Option.isNone_iff_eq_none] at hn
    simp [held, hn.2]
  refine (h.owns.transfer hheld hnone).congr (fun x => ?_) fun k => by
    show (s.perform f task .done (.commit role pid)).1.alive k.2 = some k.1 ↔ _
    rw [hp]
    rfl
  rw [held_worked (h.queued_rest ht), hp]
  cases x with
  | role name =>
    simp only [roles_setRole, update_apply, Holder.role.injEq, reduceCtorEq,
      if_false]
    split_ifs with hname
    · rw [hname]
      rfl
    · rfl
  | task id => simp [update_apply]

theorem owns_worked_stopped (ht : s.tasks task = .stop role :: rest)
    (hpid : (s.roles role).process = some pid) : Owns (s.worked f task .done (.stop role) rest).held
    fun k => (s.worked f task .done (.stop role) rest).alive k.2 = some k.1 := by
  have hp : s.perform f task .done (.stop role) = (s.takeProcess role, [.kill role pid]) := by
    simp [perform, hpid]
  have hheld : s.held (.role role) = some (role, pid) := by simp [held, hpid]
  have hnone : s.held (.task task) = none := by simp [held, ht, Job.process?]
  refine (h.owns.transfer hheld hnone).congr (fun x => ?_) fun k => by
    show (s.perform f task .done (.stop role)).1.alive k.2 = some k.1 ↔ _
    rw [hp]
    simp
  rw [held_worked (h.queued_rest ht), hp]
  cases x with
  | role name =>
    simp only [roles_takeProcess, update_apply, Holder.role.injEq, reduceCtorEq,
      if_false]
    split_ifs <;> rfl
  | task id => simp [update_apply, Job.process?]

theorem Settling.owns_worked (ht : s.tasks task = job :: rest) : Owns
    (s.worked f task .done job rest).held fun k => (s.worked f task .done job rest).alive k.2 = some
    k.1 := by
  have hcmd := h.jobs task job (by simp [ht])
  have hsame := process_perform f s task hcmd
  cases job with
  | discard | kill => exact owns_worked_killed h ht rfl rfl
  | launch role => exact owns_worked_launched h ht
  | commit role pid =>
    by_cases hn : s.needsProcess role = true
    · exact owns_worked_committed h ht hn
    · have hp : s.perform f task .done (.commit role pid) = (s, [.discard role pid]) := by
        simp [perform, hn]
      exact owns_worked_of_same h ht (fun _ => by rw [hp]) (by rw [hp]; rfl) (by rw [hp])
  | stop role =>
    cases hpid : (s.roles role).process with
    | some pid => exact owns_worked_stopped h ht hpid
    | none =>
      refine owns_worked_of_same h ht (fun name => ?_) (by simp [perform, hpid, Job.process?])
        (s.alive_takeProcess role)
      show ((s.takeProcess role).roles name).process = _
      rw [s.roles_takeProcess]
      split_ifs with hname
      · rw [hname, hpid]
      · rfl
  | start | release =>
    refine owns_worked_of_same h ht (fun _ => rfl) ?_ rfl
    simp only [perform]
    split_ifs <;> rfl
  | applyEndpoint role =>
    exact owns_worked_of_same h ht (fun name => (hsame name).resolve_right (by simp)) rfl rfl
  | begin role =>
    refine owns_worked_of_same h ht (fun name => (hsame name).resolve_right (by simp)) ?_ ?_
    all_goals
      simp only [perform]
      split_ifs <;> rfl
  | releasing role => exact owns_worked_of_same h ht (fun _ => rfl) rfl rfl
  | returned role =>
    refine owns_worked_of_same h ht (fun name => (hsame name).resolve_right (by simp)) rfl ?_
    simp only [perform]
    split_ifs <;> rfl
  | _ => cases hcmd

theorem Settling.fresh_worked (ha : (s.worked f task .done job rest).alive pid = some role) : pid <
    (s.worked f task .done job rest).launched := by
  rcases alive_perform ha with ha | ⟨rfl, rfl⟩
  · exact (h.fresh pid role ha).trans_le (s.launched_perform f task .done job)
  · exact Nat.lt_succ_self _

theorem Settling.queued_worked (ht : s.tasks task = job :: rest) {id : Nat} {job' : Job}
    (hj : job' ∈ ((s.worked f task .done job rest).tasks id).tail) : job'.process? = none := by
  by_cases hid : id = task
  · subst hid
    exact h.queued_rest ht job' (mem_tail_worked hj)
  · refine h.queued id job' ?_
    simpa [worked, setTask, hid] using hj

omit h

theorem process_stopped : ((s.perform f task .done (.stop role)).1.roles role).process = none := by
  simp [perform, roles_takeProcess]

theorem Settling.starting_worked (h : Settling s) (ht : s.tasks task = job :: rest)
    (hstop : job = .stop role → (s.roles role).enabled = true → (s.roles role).process = none)
    (hn : (s.worked f task .done job rest).needsProcess role = true) :
    ∃ id, ∃ job' ∈ (s.worked f task .done job rest).tasks id, job'.starts = some role := by
  have hcmd := h.jobs task job (by simp [ht])
  obtain ⟨hen', hnone'⟩ : ((s.perform f task .done job).1.roles role).enabled = true ∧
      ((s.perform f task .done job).1.roles role).process = none := by
    simpa [needsProcess, worked, setTask] using hn
  have hen : (s.roles role).enabled = true := (enabled_perform hcmd role).symm.trans hen'
  have hneeds : s.needsProcess role = true := by
    rcases process_perform f s task hcmd role with heq | ⟨_, _, hneeds⟩ | hjob
    · simp [needsProcess, hen, heq.symm.trans hnone']
    · exact hneeds
    · simp [needsProcess, hen, hstop hjob hen]
  obtain ⟨id, job', hj, hstarts⟩ := h.starting role hneeds
  by_cases hne : job' = job
  · subst hne
    rcases starts_perform (f := f) hstarts hneeds with ⟨next, hnext, hstarts⟩ | hsome
    · refine ⟨task, next, ?_, hstarts⟩
      rw [mem_tasks_worked, if_pos rfl]
      exact .inl hnext
    · rw [hnone'] at hsome
      cases hsome
  · exact ⟨id, job', mem_tasks_of_ne ht hj hne, hstarts⟩

theorem Settling.stopping_worked (h : Settling s) (ht : s.tasks task = job :: rest)
    (hen : ((s.worked f task .done job rest).roles role).enabled = false)
    (hsome : ((s.worked f task .done job rest).roles role).process.isSome = true) :
    ∃ id, .stop role ∈ (s.worked f task .done job rest).tasks id := by
  have hcmd := h.jobs task job (by simp [ht])
  have hdisabled : (s.roles role).enabled = false := (enabled_perform hcmd role).symm.trans hen
  have hne : job ≠ .stop role := by
    rintro rfl
    have hnone : ((s.worked f task .done (.stop role) rest).roles role).process = none :=
      process_stopped
    rw [hnone] at hsome
    cases hsome
  rcases process_perform f s task hcmd role with heq | ⟨_, _, hneeds⟩ | hjob
  · obtain ⟨id, hmem⟩ := h.stopping role hdisabled (heq ▸ hsome)
    exact ⟨id, mem_tasks_of_ne ht hmem hne.symm⟩
  · simp [needsProcess, hdisabled] at hneeds
  · exact absurd hjob hne

theorem Settling.worked (h : Settling s) (ht : s.tasks task = job :: rest)
    (hstop : ∀ role, job = .stop role → (s.roles role).enabled = true →
      (s.roles role).process = none) : Settling (s.worked f task .done job rest) where
  owns := h.owns_worked ht
  fresh _ _ := h.fresh_worked
  queued _ _ := h.queued_worked ht
  jobs id job' hj := by
    rw [mem_tasks_worked] at hj
    split_ifs at hj
    · rcases hj with hj | hj
      · exact ofCommand_perform (h.jobs task job (by simp [ht])) hj
      · exact h.jobs task job' (by simp [ht, hj])
    · exact h.jobs id job' hj
  starting role := h.starting_worked ht (hstop role)
  stopping _ := h.stopping_worked ht

end Work

section Commands

variable {f : Fleet} {s s' : Lifecycle} {task : Nat} {jobs : List Job} {role : String}
  {saved : Bool}

/-- A command leaves the processes alone and adds its work: a start for every role
    that it enables, a stop for every role that it disables over a process. -/
theorem Settling.command (h : Settling s) (hfree : s.tasks task = [])
    (hproc : ∀ role, (s'.roles role).process = (s.roles role).process)
    (halive : s'.alive = s.alive) (hlaunched : s'.launched = s.launched)
    (htasks : s'.tasks = update s.tasks task jobs)
    (hjobs : ∀ job ∈ jobs, job.ofCommand = true ∧ job.process? = none)
    (hstart : ∀ role, (s'.roles role).enabled = true →
      .start role ∈ jobs ∨ (s.roles role).enabled = true)
    (hstop : ∀ role, (s'.roles role).enabled = false → (s.roles role).process.isSome = true →
      .stop role ∈ jobs ∨ (s.roles role).enabled = false) : Settling s' := by
  have hmem (id : Nat) (job : Job) : job ∈ s'.tasks id ↔ if id = task then job ∈ jobs else
      job ∈ s.tasks id := by
    rw [htasks, update_apply]
    split_ifs <;> rfl
  have hkeep (id : Nat) (job : Job) (hj : job ∈ s.tasks id) : job ∈ s'.tasks id := by
    rw [hmem, if_neg]
    · exact hj
    · rintro rfl
      rw [hfree] at hj
      cases hj
  refine ⟨?_, ?_, fun id job hj => ?_, fun id job hj => ?_, fun role hn => ?_,
    fun role hen hsome => ?_⟩
  · refine h.owns.congr (fun x => ?_) fun k => by rw [halive]
    cases x with
    | role name => simp only [held, hproc]
    | task id =>
      simp only [held, htasks, update_apply]
      split_ifs with hid
      · subst hid
        rw [hfree]
        cases hjs : jobs with
        | nil => rfl
        | cons job _ => exact (hjobs job (by simp [hjs])).2
      · rfl
  · rw [halive, hlaunched]
    exact h.fresh
  · rw [htasks, update_apply] at hj
    split_ifs at hj
    · exact (hjobs job (List.mem_of_mem_tail hj)).2
    · exact h.queued id job hj
  · rw [hmem] at hj
    split_ifs at hj
    · exact (hjobs job hj).1
    · exact h.jobs id job hj
  · obtain ⟨hen, hnone⟩ : (s'.roles role).enabled = true ∧ (s.roles role).process = none := by
      simpa [needsProcess, hproc] using hn
    rcases hstart role hen with hj | hen
    · exact ⟨task, .start role, by rw [hmem, if_pos rfl]; exact hj, rfl⟩
    · obtain ⟨id, job, hj, hstarts⟩ := h.starting role (by simp [needsProcess, hen, hnone])
      exact ⟨id, job, hkeep id job hj, hstarts⟩
  · rw [hproc] at hsome
    rcases hstop role hen hsome with hj | hdisabled
    · exact ⟨task, by rw [hmem, if_pos rfl]; exact hj⟩
    · obtain ⟨id, hj⟩ := h.stopping role hdisabled hsome
      exact ⟨id, hkeep id _ hj⟩

theorem Settling.of_roles (h : Settling s)
    (hen : ∀ role, (s'.roles role).enabled = (s.roles role).enabled)
    (hproc : ∀ role, (s'.roles role).process = (s.roles role).process) (halive : s'.alive = s.alive)
    (hlaunched : s'.launched = s.launched) (htasks : s'.tasks = s.tasks) : Settling s' := by
  have hheld : s'.held = s.held := by
    funext x
    cases x <;> simp only [held, hproc, htasks]
  refine ⟨?_, ?_, ?_, ?_, ?_, ?_⟩
  · rw [hheld, halive]
    exact h.owns
  · rw [halive, hlaunched]
    exact h.fresh
  · rw [htasks]
    exact h.queued
  · rw [htasks]
    exact h.jobs
  · simpa only [needsProcess, hen, hproc, htasks] using h.starting
  · simpa only [hen, hproc, htasks] using h.stopping

theorem job_of_stops {names : List String} {job : Job}
    (h : job ∈ names.flatMap fun role => [.stop role, .release role]) :
    job.ofCommand = true ∧ job.process? = none := by
  obtain ⟨role, _, hj⟩ := List.mem_flatMap.mp h
  simp only [List.mem_cons, List.not_mem_nil, or_false] at hj
  rcases hj with rfl | rfl <;> exact ⟨rfl, rfl⟩

theorem Settling.connectAll (h : Settling s) (ha : Orderly f s (.connectAll task saved))
    (hs : s.step f (.connectAll task saved) = some s') : Settling s' := by
  simp only [step] at hs
  split_ifs at hs with hfree hsaved
  · cases hs
    refine h.command (not_not.mp hfree) (fun role => ?_) rfl rfl rfl (fun job hj => ?_)
      (fun role hen => ?_) fun role hen hsome => ?_
    · simp only [setTask, persist, setEnabled, connects]
      split_ifs <;> rfl
    · obtain ⟨role, _, rfl⟩ := List.mem_map.mp hj
      exact ⟨rfl, rfl⟩
    · simp only [setTask, persist, setEnabled, connects] at hen
      split_ifs at hen with hrole
      · exact .inl (List.mem_map.mpr ⟨role, hrole, rfl⟩)
      · exact .inr hen
    simp only [setTask, persist, setEnabled, connects] at hen
    split_ifs at hen with hrole
    · refine .inr (Bool.eq_false_iff.mpr fun henabled => ?_)
      exact Bool.false_ne_true (hen.symm.trans (ha.2 hsaved role hrole henabled hsome))
    · exact .inr hen
  · cases hs
    exact h.of_roles (fun _ => rfl) (fun _ => rfl) rfl rfl rfl

theorem Settling.disconnectAll (h : Settling s)
    (hs : s.step f (.disconnectAll task saved) = some s') : Settling s' := by
  simp only [step] at hs
  split_ifs at hs with hfree
  · cases hs
    refine h.command (not_not.mp hfree) (fun role => ?_) rfl rfl rfl (fun job => job_of_stops)
      (fun role hen => ?_) fun role hen _ => ?_
    · simp only [setTask, persist, setEnabled]
      split_ifs <;> rfl
    · simp only [setTask, persist, setEnabled] at hen
      split_ifs at hen
      exact .inr hen
    simp only [setTask, persist, setEnabled] at hen
    split_ifs at hen with hrole
    · exact .inl (List.mem_flatMap.mpr ⟨role, hrole, List.mem_cons_self⟩)
    · exact .inr hen
  · cases hs
    exact h.of_roles (fun _ => rfl) (fun _ => rfl) rfl rfl rfl

theorem Settling.connectRole (h : Settling s)
    (hs : s.step f (.connectRole task role saved) = some s') : Settling s' := by
  cases saved with
  | false =>
    simp only [step, Bool.false_eq_true, if_false] at hs
    split_ifs at hs
    all_goals
      cases hs
      exact h.of_roles (fun _ => rfl) (fun _ => rfl) rfl rfl rfl
  | true =>
    simp only [step, if_true] at hs
    split_ifs at hs with hfree hrole
    · cases hs
      have hroles (id : String) : (((s.connectsRole role).enable role true).setTask task
          [.start role]).roles id =
          if id = role then { s.roles role with enabled := true } else s.roles id :=
        update_apply ..
      refine h.command (not_not.mp hfree) (fun id => ?_) rfl rfl rfl (fun job hj => ?_)
        (fun id hen => ?_) fun id hen _ => ?_
      · rw [hroles]
        split_ifs with hid
        · rw [hid]
        · rfl
      · rw [List.mem_singleton.mp hj]
        exact ⟨rfl, rfl⟩
      · rw [hroles] at hen
        split_ifs at hen with hid
        · exact .inl (by simp [hid])
        · exact .inr hen
      · rw [hroles] at hen
        split_ifs at hen
        exact .inr hen
    · cases hs
      exact h

theorem Settling.disconnectRole (h : Settling s)
    (hs : s.step f (.disconnectRole task role saved) = some s') : Settling s' := by
  simp only [step] at hs
  split_ifs at hs with hfree hrole hsaved
  · cases hs
    have hroles := fun id => s.roles_setRole role id
      { s.roles role with enabled := false, startPending := false }
    refine h.command (not_not.mp hfree) (fun id => ?_) rfl rfl rfl (fun job hj => ?_)
      (fun id hen => ?_) fun id hen _ => ?_
    · show ((s.setRole role _).roles id).process = _
      rw [hroles]
      split_ifs with hid
      · rw [hid]
      · rfl
    · simp only [List.mem_cons, List.not_mem_nil, or_false] at hj
      rcases hj with rfl | rfl | rfl <;> exact ⟨rfl, rfl⟩
    · change ((s.setRole role _).roles id).enabled = true at hen
      rw [hroles] at hen
      split_ifs at hen
      exact .inr hen
    · change ((s.setRole role _).roles id).enabled = false at hen
      rw [hroles] at hen
      split_ifs at hen with hid
      · exact .inl (by simp [hid])
      · exact .inr hen
  · cases hs
    have hroles := fun id => s.roles_setRole role id { s.roles role with startPending := false }
    refine h.of_roles (fun id => ?_) (fun id => ?_) rfl rfl rfl
    · show ((s.setRole role _).roles id).enabled = _
      rw [hroles]
      split_ifs with hid
      · rw [hid]
      · rfl
    · show ((s.setRole role _).roles id).process = _
      rw [hroles]
      split_ifs with hid
      · rw [hid]
      · rfl
  · cases hs
    exact h

theorem Settling.setActiveProfile (h : Settling s) {profile : String} {order : List String}
    (hs : s.step f (.setActiveProfile task profile order saved) = some s') : Settling s' := by
  simp only [step] at hs
  split_ifs at hs with hfree hknown hsaved horder
  · cases hs
    exact h.of_roles (fun _ => rfl) (fun _ => rfl) rfl rfl rfl
  · cases hs
    have hswitched (id : String) (hne : ((s.connects.switchProfile f task profile order).roles
        id).enabled ≠ (s.roles id).enabled) : id ∈ order ∧ f.wanted profile id ≠
          (s.roles id).enabled := by
      simp only [switchProfile, setTask, persist,
        connects] at hne
      split_ifs at hne with hid
      · refine ⟨?_, hne⟩
        rw [(List.isPerm_iff.mp horder).mem_iff]
        exact List.mem_filter.mpr ⟨hid, by simpa using Ne.symm hne⟩
      · exact absurd rfl hne
    refine h.command (not_not.mp hfree) (fun id => ?_) rfl rfl rfl (fun job hj => ?_)
      (fun id hen => ?_) fun id hen _ => ?_
    · simp only [switchProfile, setTask, persist, connects]
      split_ifs <;> rfl
    · obtain ⟨id, _, hj⟩ := List.mem_flatMap.mp hj
      split_ifs at hj
      · rw [List.mem_singleton.mp hj]
        exact ⟨rfl, rfl⟩
      · simp only [List.mem_cons, List.not_mem_nil, or_false] at hj
        rcases hj with rfl | rfl <;> exact ⟨rfl, rfl⟩
    · cases henabled : (s.roles id).enabled with
      | true => exact .inr rfl
      | false =>
        obtain ⟨hid, hw⟩ := hswitched id (by simp [hen, henabled])
        refine .inl (List.mem_flatMap.mpr ⟨id, hid, ?_⟩)
        have hwant : f.wanted profile id = true := by simpa [henabled] using hw
        simp [hwant]
    · cases henabled : (s.roles id).enabled with
      | false => exact .inr rfl
      | true =>
        obtain ⟨hid, hw⟩ := hswitched id (by simp [hen, henabled])
        refine .inl (List.mem_flatMap.mpr ⟨id, hid, ?_⟩)
        have hwant : f.wanted profile id = false := by simpa [henabled] using hw
        simp [hwant]
  · cases hs
    exact h.of_roles (fun _ => rfl) (fun _ => rfl) rfl rfl rfl

end Commands

theorem settling_start (profile : String) (persisted : String → Bool) :
    Settling { activeProfile := profile, persisted := persisted } where
  owns := by
    refine ⟨fun {x y k} hx _ => ?_, fun {x k} hx => ?_, nofun⟩
    all_goals cases x <;> cases hx
  fresh _ _ h := nomatch h
  queued _ _ h := nomatch h
  jobs _ _ h := nomatch h
  starting _ h := nomatch h
  stopping _ _ h := nomatch h

theorem settling_restoreDesired (f : Fleet) (task : Nat) (profile : String)
    (persisted blocked : String → Bool) :
    Settling (.restoreDesired f task profile persisted blocked) := by
  refine (settling_start profile persisted).command rfl (fun role => ?_) rfl rfl rfl
    (fun job hj => ?_) (fun role hen => ?_) fun role _ hsome => ?_
  · simp only [restoreDesired, setTask, setEnabled]
    split_ifs <;> rfl
  · obtain ⟨role, _, rfl⟩ := List.mem_map.mp hj
    exact ⟨rfl, rfl⟩
  · simp only [restoreDesired, setTask, setEnabled] at hen
    split_ifs at hen with hrole
    exact .inl (List.mem_map.mpr ⟨role, List.mem_filter.mpr ⟨hrole, hen⟩, rfl⟩)
  · cases hsome

theorem LifecycleRun.settling {f : Fleet} {s : Lifecycle} (h : LifecycleRun f (Orderly f) s) :
    Settling s := by
  induction h with
  | start profile persisted => exact settling_start profile persisted
  | restore task profile persisted blocked =>
    exact settling_restoreDesired f task profile persisted blocked
  | @step s s' a _ ha hs ih =>
    cases a with
    | connectAll task saved => exact ih.connectAll ha hs
    | disconnectAll task saved => exact ih.disconnectAll hs
    | connectRole task role saved => exact ih.connectRole hs
    | disconnectRole task role saved => exact ih.disconnectRole hs
    | setActiveProfile task profile order saved => exact ih.setActiveProfile hs
    | work task result =>
      obtain ⟨hdone, hstop⟩ := ha
      obtain rfl : result = .done := by simpa [LifecycleAction.commanded] using hdone
      simp only [Lifecycle.step] at hs
      split at hs
      · cases hs
      · next job rest ht =>
        cases hs
        exact ih.worked ht fun role hjob => hstop role rest (hjob ▸ ht)
    | _ => cases ha.1

/-- When the work of the commands is finished, a role runs exactly when it is
    enabled. -/
theorem LifecycleRun.converges {f : Fleet} {s : Lifecycle} (h : LifecycleRun f (Orderly f) s)
    (hidle : ∀ id, s.tasks id = []) (role : String) :
    (∃ pid, s.alive pid = some role) ↔ (s.roles role).enabled = true := by
  have hs := h.settling
  constructor
  · rintro ⟨pid, halive⟩
    obtain ⟨x, hx⟩ := hs.owns.complete (k := (role, pid)) halive
    by_contra hen
    cases x with
    | task id => simp [held, hidle] at hx
    | role name =>
      obtain ⟨_, hpid, heq⟩ := Option.map_eq_some_iff.mp hx
      cases heq
      obtain ⟨id, hj⟩ := hs.stopping role (by simpa using hen) (by simp [hpid])
      simp [hidle] at hj
  · intro hen
    cases hpid : (s.roles role).process with
    | some pid =>
      exact ⟨pid, hs.owns.sound (x := .role role) (k := (role, pid)) (by simp [held, hpid])⟩
    | none =>
      obtain ⟨id, job, hj, _⟩ := hs.starting role (by simp [needsProcess, hen, hpid])
      simp [hidle] at hj

theorem LifecycleRun.works {f : Fleet} {s : Lifecycle} (h : LifecycleRun f (Orderly f) s)
    (task : Nat) {job : Job} {rest : List Job} (ht : s.tasks task = job :: rest)
    (hjob : ∀ role, job ≠ .stop role) :
    LifecycleRun f (Orderly f) (s.worked f task .done job rest) := by
  refine h.step (a := .work task .done) ⟨rfl, fun role rest' ht' => ?_⟩ ?_
  · exact absurd (List.cons.inj (ht.symm.trans ht')).1 (hjob role)
  · simp only [Lifecycle.step, ht]
    rfl

theorem LifecycleRun.converges_connected :
    ∃ s, LifecycleRun sampleFleet (Orderly sampleFleet) s ∧ (∀ id, s.tasks id = []) ∧
      (s.roles "work").enabled = true ∧ ∃ pid, s.alive pid = some "work" := by
  have h₀ : LifecycleRun sampleFleet (Orderly sampleFleet) _ := .start "office" fun _ => false
  have h₁ := h₀.step (a := .connectRole 0 "work" true) ⟨rfl, trivial⟩ rfl
  have h₂ := (((h₁.works 0 rfl nofun).works 0 rfl nofun).works 0 rfl nofun).works 0 rfl nofun
  have h₃ := h₂.works 0 rfl nofun
  obtain ⟨s, h, hidle, henabled⟩ : ∃ s, LifecycleRun sampleFleet (Orderly sampleFleet) s ∧
      (∀ id, s.tasks id = []) ∧ (s.roles "work").enabled = true :=
    ⟨_, h₃, fun | 0 => rfl | _ + 1 => rfl, rfl⟩
  exact ⟨s, h, hidle, henabled, (LifecycleRun.converges h hidle "work").mpr henabled⟩

/-- A role outside the profile is connected by its name; then `ConnectAll` disables it. -/
def strayConnect : List LifecycleAction :=
  .connectRole 0 "work" true :: startWork 0 ++ .connectAll 1 true :: startWork 1 ++ [.work 1 .done]

/-- A connected role is disconnected, and connected again before the disconnect
    reaches its stop. -/
def lateStop : List LifecycleAction :=
  .connectRole 0 "work" true :: startWork 0 ++
    [.disconnectRole 1 "work" true, .connectRole 0 "work" true, .work 0 .done] ++
    List.replicate 4 (.work 1 .done)

/-- Nobody stops the process of the disabled role, and the late stop takes the
    process of the enabled one. -/
theorem unsettled_process :
    (∃ s, LifecycleRun sampleFleet (fun _ a => a.commanded = true) s ∧ (∀ id, s.tasks id = []) ∧
      (s.roles "work").enabled = false ∧ ∃ pid, s.alive pid = some "work") ∧
    ∃ s, LifecycleRun sampleFleet (fun _ a => a.commanded = true) s ∧ (∀ id, s.tasks id = []) ∧
      (s.roles "work").enabled = true ∧ ∀ pid, s.alive pid = none := by
  have h₀ : LifecycleRun sampleFleet (fun _ a => a.commanded = true) _ :=
    .start "office" fun _ => false
  constructor
  · exact ⟨_, h₀.play strayConnect (fun a ha _ => by revert a; decide) rfl,
      fun | 0 => rfl | 1 => rfl | _ + 2 => rfl, rfl, 0, rfl⟩
  · exact ⟨_, h₀.play lateStop (fun a ha _ => by revert a; decide) rfl,
      fun | 0 => rfl | 1 => rfl | _ + 2 => rfl, rfl, fun | 0 => rfl | _ + 1 => rfl⟩

end Kikimora.Control

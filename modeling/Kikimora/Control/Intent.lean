import Kikimora.Control.Lifecycle

/-!
# The two desired flags

The manager's `enabled` says what the operator wants, and the product state has a
flag of its own. The commands write both under the manager's lock. A configuration
failure and the tracking of failed recoveries write the product flag later, without
the lock, and the tracking does not write the other one at all.
-/

namespace Kikimora.Control

open Lifecycle

def Heeded (s : Lifecycle) : LifecycleAction → Prop
  | .work task _ => ∀ role rest, s.tasks task = .undesire role :: rest →
      (s.roles role).enabled = false
  | _ => True

def Lifecycle.Agrees (s : Lifecycle) (role : String) : Prop :=
  (s.roles role).enabled = s.desired role ∨
    (s.roles role).enabled = false ∧ ∃ id, .undesire role ∈ s.tasks id

section Steps

variable {f : Fleet} {s s' : Lifecycle} {task : Nat} {result : CallResult} {job : Job}
  {rest : List Job} {role : String} {a : LifecycleAction}

theorem intent_perform (f : Fleet) (s : Lifecycle) (task : Nat) (result : CallResult)
    (hjob : job ≠ .undesire role) :
    ((s.perform f task result job).1.roles role).enabled = (s.roles role).enabled ∧
        (s.perform f task result job).1.desired role = s.desired role ∨
      ((s.perform f task result job).1.roles role).enabled =
        (s.perform f task result job).1.desired role := by
  unfold perform
  grind [roles_setRole, roles_setDesired, roles_takeProcess, roles_disconnectFails,
    roles_kill, roles_launch, enabled_enable, setStreak,
    setRole, desired_takeProcess, disconnectFails, kill,
    launch, desired_enable, desired_setDesired]

theorem Lifecycle.Agrees.worked (h : s.Agrees role) (ht : s.tasks task = job :: rest)
    (hjob : job = .undesire role → (s.roles role).enabled = false) :
    (s.worked f task result job rest).Agrees role := by
  by_cases hund : job = .undesire role
  · subst hund
    left
    show (s.roles role).enabled = (s.setDesired role false).desired role
    rw [hjob rfl, desired_setDesired, if_pos rfl]
  obtain ⟨hen, hdes⟩ | heq := intent_perform f s task result hund
  · refine h.imp (fun heq => ?_) fun ⟨hoff, id, hj⟩ => ⟨hen.trans hoff, id, ?_⟩
    · exact hen.trans (heq.trans hdes.symm)
    · exact mem_tasks_of_ne ht hj (Ne.symm hund)
  · exact .inl heq

/-- An action other than a job changes both flags alike, or it disables the role and
    takes the product flag back later. -/
theorem intent_command (h : s.step f a = some s') (hwork : ∀ task result, a ≠ .work task result)
    (role : String) :
    (s'.roles role).enabled = (s.roles role).enabled ∧ s'.desired role = s.desired role ∨
      (s'.roles role).enabled = s'.desired role ∨
      (s'.roles role).enabled = false ∧ ∃ id, .undesire role ∈ s'.tasks id := by
  cases a with
  | work task result => exact absurd rfl (hwork task result)
  | connectAll task saved | disconnectAll task saved =>
    simp only [step] at h
    split_ifs at h
    all_goals
      cases h
      by_cases hrole : role ∈ f.names
      · exact .inr (.inl (by simp [setTask, persist, setEnabled,
          rollback, hrole]))
      · exact .inl (by simp [setTask, persist, setEnabled,
          rollback, connects, hrole])
  | connectRole task other saved =>
    have henable : (((s.connectsRole other).enable other saved).roles role).enabled =
          (s.roles role).enabled ∧
        ((s.connectsRole other).enable other saved).desired role = s.desired role ∨
        (((s.connectsRole other).enable other saved).roles role).enabled =
          ((s.connectsRole other).enable other saved).desired role := by
      rw [enabled_enable, desired_enable]
      by_cases hrole : role = other
      · right
        cases saved <;> simp [hrole]
      · exact .inl (by simp [hrole, connectsRole])
    simp only [step] at h
    split_ifs at h
    · cases h
      exact henable.imp_right .inl
    · cases h
      exact henable.imp_right .inl
    · cases h
      exact .inl ⟨rfl, rfl⟩
  | disconnectRole task other saved =>
    simp only [step] at h
    split_ifs at h
    · cases h
      by_cases hrole : role = other
      · exact .inr (.inl (by simp [setTask, persist, setDesired,
          setRole, hrole]))
      · exact .inl (by simp [setTask, persist, setDesired,
          setRole, hrole])
    · cases h
      by_cases hrole : role = other
      · exact .inr (.inl (by simp [setDesired, setRole, hrole]))
      · exact .inl (by simp [setDesired, setRole, hrole])
    · cases h
      exact .inl ⟨rfl, rfl⟩
  | setActiveProfile task profile order saved =>
    simp only [step] at h
    split_ifs at h with _ _ _ horder
    · cases h
      exact .inl ⟨rfl, rfl⟩
    · cases h
      have hperm := (List.isPerm_iff.mp horder).mem_iff (a := role)
      simp only [changed, List.mem_filter, bne_iff_ne] at hperm
      by_cases hin : role ∈ order
      · refine .inr (.inl ?_)
        simp [switchProfile, setTask, persist, hin, (hperm.mp hin).1]
      -- a role that the switch does not change keeps both flags
      refine .inl ⟨?_, by simp [switchProfile, setTask, persist,
        connects, hin]⟩
      simp only [switchProfile, setTask, persist, connects]
      split_ifs with hrole
      · exact (not_not.mp fun hne => hin (hperm.mpr ⟨hrole, hne⟩)).symm
      · rfl
    · cases h
      by_cases hrole : role ∈ f.names
      · exact .inr (.inl (by simp [rollback, hrole]))
      · exact .inl (by simp [rollback, connects, hrole])
  | failByConfiguration task other =>
    simp only [step] at h
    split_ifs at h
    cases h
    by_cases hrole : role = other
    · subst hrole
      exact .inr (.inr ⟨by simp [setTask, roles_setRole], task,
        by simp [setTask]⟩)
    · exact .inl (by simp [setTask, setRole, hrole])
  | exit task pid =>
    simp only [step] at h
    split_ifs at h
    obtain ⟨_, _, rfl⟩ := Option.map_eq_some_iff.mp h
    exact .inl ⟨rfl, rfl⟩
  | timeout task =>
    cases h
    exact .inl ⟨rfl, rfl⟩
  | _ =>
    simp only [step] at h
    split_ifs at h
    all_goals
      cases h
      exact .inl ⟨rfl, rfl⟩

theorem Lifecycle.Agrees.command (h : s.Agrees role) (hs : s.step f a = some s')
    (hwork : ∀ task result, a ≠ .work task result) : s'.Agrees role := by
  obtain ⟨hen, hdes⟩ | heq := intent_command hs hwork role
  · refine h.imp (fun heq => ?_) fun ⟨hoff, id, hj⟩ => ⟨hen.trans hoff, id, ?_⟩
    · exact hen.trans (heq.trans hdes.symm)
    · exact mem_tasks_of_step hs hwork hj
  · exact heq

theorem Lifecycle.Agrees.step (h : s.Agrees role) (ha : Heeded s a) (hs : s.step f a = some s') :
    s'.Agrees role := by
  obtain ⟨task, result, job, rest, rfl, ht, rfl⟩ | ⟨_, _, _, rfl, _⟩ | ⟨hwork, _⟩ := step_cases hs
  · exact h.worked ht fun hjob => ha role rest (hjob ▸ ht)
  · exact h.command hs nofun
  · exact h.command hs hwork

theorem agrees_restoreDesired (f : Fleet) (task : Nat) (profile : String)
    (persisted blocked : String → Bool) (role : String) :
    (restoreDesired f task profile persisted blocked).Agrees role := by
  left
  simp only [restoreDesired, setTask, setEnabled]
  split_ifs <;> rfl

end Steps

theorem LifecycleRun.agrees {f : Fleet} {s : Lifecycle} (h : LifecycleRun f Heeded s)
    (role : String) : s.Agrees role := by
  induction h with
  | start profile persisted => exact .inl rfl
  | restore task profile persisted blocked => exact agrees_restoreDesired ..
  | step _ ha hs ih => exact ih.step ha hs

/-- Where nothing is half-way for a role, both flags agree, and a role whose product
    flag is taken back is disabled in both places. -/
theorem LifecycleRun.intent_agrees {f : Fleet} {s : Lifecycle} (h : LifecycleRun f Heeded s)
    (role : String) :
    ((∀ id, .undesire role ∉ s.tasks id) → (s.roles role).enabled = s.desired role) ∧
      ∀ task result rest s', s.tasks task = .undesire role :: rest → Heeded s (.work task result) →
        s.step f (.work task result) = some s' →
        (s'.roles role).enabled = false ∧ s'.desired role = false := by
  refine ⟨fun hquiet => ?_, fun task result rest s' ht ha hs => ?_⟩
  · exact (h.agrees role).resolve_right fun ⟨_, id, hj⟩ => hquiet id hj
  simp only [Lifecycle.step, ht] at hs
  cases hs
  refine ⟨ha role rest ht, ?_⟩
  show (s.setDesired role false).desired role = false
  rw [desired_setDesired, if_pos rfl]

theorem LifecycleRun.intent_agrees_failed :
    ∃ s, LifecycleRun sampleFleet Heeded s ∧ (∀ id, .undesire "work" ∉ s.tasks id) ∧
      (s.roles "work").enabled = s.desired "work" ∧ s.desired "work" = false := by
  have h₀ : LifecycleRun sampleFleet Heeded _ := .start "office" fun _ => false
  have h₁ := h₀.step (a := .connectRole 0 "work" true) trivial rfl
  have h₂ := h₁.step (a := .failByConfiguration 1 "work") trivial rfl
  have h₃ := h₂.step (a := .work 1 .done) (fun role rest ht => ?_) rfl
  · obtain ⟨s, h, hquiet, hdes⟩ : ∃ s, LifecycleRun sampleFleet Heeded s ∧
        (∀ id, .undesire "work" ∉ s.tasks id) ∧ s.desired "work" = false :=
      ⟨_, h₃, fun
        | 0 => (by decide : Job.undesire "work" ∉ [Job.start "work"])
        | 1 => (List.not_mem_nil : Job.undesire "work" ∉ [])
        | _ + 2 => (List.not_mem_nil : Job.undesire "work" ∉ []), rfl⟩
    exact ⟨s, h, hquiet, (LifecycleRun.intent_agrees h "work").1 hquiet, hdes⟩
  · cases ht
    rfl

def failedRecovery (task : Nat) : List LifecycleAction :=
  [.recoverRole task "work" false .rebind, .work task .done, .work task .failed,
    .work task .failed, .work task .done]

def threeFailures : List LifecycleAction :=
  .connectRole 0 "work" true :: startWork 0 ++ failedRecovery 1 ++ [.work 1 .done] ++
    failedRecovery 1 ++ [.work 1 .done] ++ failedRecovery 1 ++ [.work 1 .done, .work 1 .done] ++
    [.spawn 2 (.retryRole "work"), .work 2 .done]

def repairedConfiguration : List LifecycleAction :=
  [.connectRole 0 "work" true, .failByConfiguration 1 "work", .connectRole 2 "work" true,
    .work 1 .done] ++ startWork 0 ++ [.work 2 .done]

/-- The role stays enabled with the product flag off, its process runs, and no work is
    left. -/
theorem intent_diverges :
    [threeFailures, repairedConfiguration].Forall fun actions =>
      ∃ s, ({ activeProfile := "office" } : Lifecycle).play sampleFleet actions = some s ∧
        LifecycleRun sampleFleet (fun _ _ => True) s ∧ (∀ id, s.tasks id = []) ∧
        (s.roles "work").enabled = true ∧ s.desired "work" = false ∧
        (s.roles "work").process = some 0 := by
  refine ⟨?_, ?_⟩
  · exact ⟨_, rfl, lifecycleRun_play threeFailures rfl,
      fun | 0 => rfl | 1 => rfl | 2 => rfl | _ + 3 => rfl,
      rfl, rfl, rfl⟩
  · exact ⟨_, rfl, lifecycleRun_play repairedConfiguration rfl,
      fun | 0 => rfl | 1 => rfl | 2 => rfl | _ + 3 => rfl, rfl, rfl, rfl⟩

end Kikimora.Control

import Kikimora.Control.Admission

/-!
# Route generations over crashes

The route generation of a role lives in memory. Unfreeze moves it on, every
checkpoint carries the one that its writer has read, now or when its call was
admitted, and a restart continues after the one in the last checkpoint.

The calls of a role are modelled as a pool of programs whose effects are
interleaved in any order, which includes every order that the apply lock
allows. Freeze and Unfreeze are single steps.
-/

namespace Kikimora.Control

open Routing Platform Kikimora.Core Lib

def World.generation (w : World) (role : String) : UInt64 :=
  (w.memory.roleState role).routeGeneration

-- === What the checkpoints carry ===

def Effect.Carries (I : UInt64 → Prop) (role : String) ⦃β : Type⦄ : Effect β → Prop
  | .writeCheckpoint id c => id = role → I c.routeGeneration
  | _ => True

def Effect.AnswersIn (I : UInt64 → Prop) (role : String) ⦃β : Type⦄ : Effect β → β → Prop
  | .memory f, b => ∃ m : Memory, I (m.roleState role).routeGeneration ∧ b = (f m).1
  | _, _ => True

def carrying (I : UInt64 → Prop) (role : String) : Setting Effect Unit where
  Step _ c _ b _ := c.AnswersIn I role b
  Guarantee ev := ev.call.Carries I role
  Crash _ := True

/-- As long as the generation of the role is in `I`, every checkpoint of the role
    that the program writes carries one in `I`, and its answer satisfies `Q`. -/
def Carries {α : Type} (I : UInt64 → Prop) (role : String) (p : ManagerM α) (Q : α → Prop) : Prop :=
  p.Safe (carrying I role) (fun a _ => Q a) (fun _ _ => True) ()

section

variable {α β : Type} {I : UInt64 → Prop} {role : String} {Q : α → Prop} {Q' : β → Prop}

theorem Carries.ret {a : α} (h : Q a) : Carries I role (.ret a) Q := ⟨trivial, h⟩

theorem Carries.fail (e : ManagerError) : Carries I role (.fail e : ManagerM α) Q :=
  ⟨trivial, trivial⟩

theorem Carries.ofExcept (x : Except ManagerError α) :
    Carries I role (.ofExcept x) fun _ => True :=
  Prog.Safe.ofExcept trivial (fun _ _ => trivial) fun _ _ => trivial

theorem Carries.bind {p : ManagerM α} {f : α → ManagerM β} (h : Carries I role p Q)
    (hf : ∀ a, Q a → Carries I role (f a) Q') : Carries I role (p.bind f) Q' :=
  Prog.Safe.bind h fun a _ ha => hf a ha

theorem Carries.perform {c : Effect α} (hc : c.Carries I role)
    (h : ∀ a, c.AnswersIn I role a → Q a) :
    Carries I role (Prog.perform c) Q :=
  Prog.Safe.perform trivial fun b _ hb => ⟨hc, trivial, h b hb⟩

theorem Carries.next {c : Effect β} {k : β → ManagerM α} {b : β} (h : Carries I role (.call c k) Q)
    (hb : c.AnswersIn I role b) : c.Carries I role ∧ Carries I role (k b) Q :=
  h.2 b () hb

end

section

variable {α β : Type} {I : UInt64 → Prop} {role id : String} {cfg : Config}
  {known known' : Option SelectedRouteKey} {p : ManagerM α} {Q : α → Prop}

def generationIn (I : UInt64 → Prop) (role : String) : Discipline :=
  .ofSetting (carrying I role) none fun id generation => id = role → I generation

theorem follows_generationIn :
    (generationIn I role).Follows known p known' Q ↔ Carries I role p Q :=
  Discipline.follows_ofSetting

theorem Carries.of_follows (h : (generationIn I role).Follows none p none Q) : Carries I role p Q :=
  follows_generationIn.mp h

theorem memory_carries (f : Memory → β × Memory) : Carries I role (memory f) Any :=
  .perform trivial fun _ _ => trivial

theorem registry_carries (op : MemorySelectedRegistry → RegistryResult) :
    Carries I role (registry op) Any :=
  .bind (memory_carries _) fun _ _ => .ofExcept _

theorem writeCheckpoint_carries {generation : UInt64} (h : id = role → I generation) :
    Carries I role (writeCheckpoint cfg id generation) Any := by
  unfold writeCheckpoint
  split
  · exact .ret trivial
  refine .bind (Q := fun c => c.routeGeneration = generation) (.perform trivial ?_) fun c hc => ?_
  · rintro _ ⟨m, _, rfl⟩
    rfl
  · exact .bind (Q := Any) (.perform (fun hid => hc ▸ h hid) fun _ _ => trivial)
      fun _ _ => .ofExcept _

theorem lawful_generationIn (I : UInt64 → Prop) (role : String) : (generationIn I role).Lawful where
  crash _ := trivial
  weaken _ := trivial
  raised _ := trivial
  read _ := follows_generationIn.mpr (memory_carries _)
  touch _ := follows_generationIn.mpr (memory_carries _)
  generation id := by
    refine follows_generationIn.mpr (.perform trivial ?_)
    rintro _ ⟨m, hm, rfl⟩ rfl
    exact hm
  runtime _ := follows_generationIn.mpr (.perform trivial fun _ _ => trivial)
  record _ _ := follows_generationIn.mpr (registry_carries _)
  remove _ := follows_generationIn.mpr (registry_carries _)
  reserve _ _ := follows_generationIn.mpr (registry_carries _)
  routes _ := follows_generationIn.mpr (.bind (Q := Any) (.perform trivial fun _ _ => trivial)
    fun _ _ => .ofExcept _)
  write h := follows_generationIn.mpr (writeCheckpoint_carries h)
  mint _ _ := follows_generationIn.mpr (memory_carries _)
  clear _ := follows_generationIn.mpr (memory_carries _)
  recovery _ _ := follows_generationIn.mpr (.perform trivial fun _ _ => trivial)
  entry _ _ := follows_generationIn.mpr (.perform trivial fun _ _ _ _ => nofun)
  deref _ _ := follows_generationIn.mpr (.bind (memory_carries _) fun
    | some _, _ => .ret nofun
    | none, _ => .fail _)

end

-- === Runs ===

/-- The calls that take more than one step. -/
inductive RoleCall
  | ensure (authority : RouteAuthority) (intent : LeshyRouteIntent)
  | forget (authority : RouteAuthority) (intent : LeshyRouteIntent)
  | flushZone (authority : RouteAuthority) (zone : String)
  | restore (v4Ready v6Ready : Bool)

namespace RoleCall

/-- The call, with the generation of the role that it hands out. A denied request
    reports none. -/
def program (cfg : Config) (role : String) : RoleCall → ManagerM (Option UInt64)
  | ensure authority intent => (Control.ensure cfg authority intent).bind fun answer =>
    .ret (if answer.1.role = role ∧ answer.1.generation ≠ 0 then some answer.1.generation else none)
  | forget authority intent => (Control.forget cfg authority intent).bind fun _ => .ret none
  | flushZone authority zone => (Control.flushZone cfg authority zone).bind fun _ => .ret none
  | restore v4Ready v6Ready => (Control.restore cfg role v4Ready v6Ready).bind fun _ => .ret none

def reports : RoleCall → Bool
  | ensure _ _ => true
  | _ => false

end RoleCall

/-- What is left of a call in flight. -/
structure InFlight where
  reports : Bool
  residual : ManagerM (Option UInt64)

/-- A process, with the generations that it has handed out and those that were
    handed out before its start, newest first. -/
structure Generations where
  world : World
  calls : List InFlight := []
  handed : List UInt64 := []
  earlier : List UInt64 := []

/-- Under which conditions the role is unfrozen and the process crashes. -/
structure GenerationRules where
  unfreeze : Generations → Prop := fun _ => True
  crash : Generations → Prop := fun _ => True

def unfrozen (role : String) (w : World) : World := ((unfreeze role).run handle w).2

/-- The runs of one role. A crash cuts off every call. -/
inductive GenerationRun (cfg : Config) (role : String) (R : GenerationRules) : Generations → Prop
  | start (w : World) : GenerationRun cfg role R { world := w }
  | call {s : Generations} (c : RoleCall) (h : GenerationRun cfg role R s) :
      GenerationRun cfg role R { s with calls := ⟨c.reports, c.program cfg role⟩ :: s.calls }
  | effect {s : Generations} {before after : List InFlight} {reports : Bool} {β : Type}
      {c : Effect β} {k : β → ManagerM (Option UInt64)} {b : β} {w : World}
      (h : GenerationRun cfg role R s) (hc : s.calls = before ++ ⟨reports, .call c k⟩ :: after)
      (hs : FaultStep c s.world b w) :
      GenerationRun cfg role R
        { s with world := w, calls := before ++ ⟨reports, k b⟩ :: after }
  | returned {s : Generations} {before after : List InFlight} {reports : Bool} {g : Option UInt64}
      (h : GenerationRun cfg role R s) (hc : s.calls = before ++ ⟨reports, .ret g⟩ :: after) :
      GenerationRun cfg role R
        { s with calls := before ++ after, handed := g.toList ++ s.handed }
  | failed {s : Generations} {before after : List InFlight} {reports : Bool} {e : ManagerError}
      (h : GenerationRun cfg role R s) (hc : s.calls = before ++ ⟨reports, .fail e⟩ :: after) :
      GenerationRun cfg role R { s with calls := before ++ after }
  | freeze {s : Generations} (h : GenerationRun cfg role R s) :
      GenerationRun cfg role R { s with world := ((Control.freeze role).run handle s.world).2 }
  | unfreeze {s : Generations} (h : GenerationRun cfg role R s) (hr : R.unfreeze s) :
      GenerationRun cfg role R
        { s with
          world := unfrozen role s.world
          handed := (unfrozen role s.world).generation role :: s.handed }
  | environment {s : Generations} (kernel : Kernel) (platform : RoutePlatform)
      (runtime : String → Option RoleRuntime) (h : GenerationRun cfg role R s) :
      GenerationRun cfg role R
        { s with world :=
          { s.world with kernel := kernel, platform := platform, runtime := runtime } }
  | crash {s : Generations} {w : World} (h : GenerationRun cfg role R s) (hr : R.crash s)
      (hw : restart cfg role s.world = .ok w) :
      GenerationRun cfg role R { world := w, earlier := s.handed ++ s.earlier }

/-- No generation goes back, and none is handed out again after a restart. -/
structure Ordered (s : Generations) : Prop where
  monotone : (s.handed ++ s.earlier).Pairwise fun newer older => older ≤ newer
  fresh : ∀ g ∈ s.handed, ∀ g' ∈ s.earlier, g' < g

def lastCheckpoint (cfg : Config) (role : String) (w : World) : Option SelectedRoutesCheckpoint :=
  if cfg.stateDir role then w.disk role else none

/-- The role is unfrozen when no request is in flight, and the process crashes when
    the last checkpoint carries the current generation or nothing has been handed
    out. The counter does not wrap around. -/
def persisted (cfg : Config) (role : String) : GenerationRules where
  unfreeze s := (∀ call ∈ s.calls, call.reports = false) ∧
    s.world.generation role < s.world.generation role + 1
  crash s :=
    (s.handed = [] ∨
      (lastCheckpoint cfg role s.world).map SelectedRoutesCheckpoint.routeGeneration =
        some (s.world.generation role)) ∧
    ∀ c, lastCheckpoint cfg role s.world = some c → c.routeGeneration < c.routeGeneration + 1

section Invariant

variable {cfg : Config} {role : String} {base : UInt64} {s : Generations} {w w' : World}

/-- What is known of a call in flight: a request sees one generation only. -/
structure InFlight.Sound (role : String) (base gen : UInt64) (call : InFlight) : Prop where
  quiet : Quiet call.residual
  request : call.reports = true →
    Carries (· = gen) role call.residual fun answer => ∀ g, answer = some g → g = gen
  other : call.reports = false →
    Carries (base ≤ ·) role call.residual fun answer => answer = none

variable {β : Type} {c : Effect β} {b : β}

theorem RoleCall.sound (c : RoleCall) (base gen : UInt64) :
    InFlight.Sound role base gen ⟨c.reports, c.program cfg role⟩ := by
  cases c with
  | ensure authority intent =>
    refine ⟨.bind (ensure_quiet cfg authority intent) fun _ => .ret _, fun _ => ?_, (nofun)⟩
    refine .bind (.of_follows ((lawful_generationIn _ role).ensure rfl)) fun answer h =>
      .ret fun g hg => ?_
    split_ifs at hg with hrole
    cases hg
    exact h.1 hrole.2 hrole.1
  | forget authority intent =>
    exact ⟨.bind (forget_quiet cfg authority intent) fun _ => .ret _, (nofun),
      fun _ => .bind (.of_follows ((lawful_generationIn _ role).forget rfl)) fun _ _ => .ret rfl⟩
  | flushZone authority zone =>
    exact ⟨.bind (flushZone_quiet cfg authority zone) fun _ => .ret _, (nofun),
      fun _ => .bind (.of_follows ((lawful_generationIn _ role).flushZone rfl)) fun _ _ => .ret rfl⟩
  | restore v4Ready v6Ready =>
    exact ⟨.bind (restore_quiet cfg role v4Ready v6Ready) fun _ => .ret _, (nofun),
      fun _ => .bind (.of_follows ((lawful_generationIn _ role).restore rfl)) fun _ _ => .ret rfl⟩

theorem FaultStep.answersIn {I : UInt64 → Prop} (h : FaultStep c w b w')
    (hI : I (w.generation role)) : c.AnswersIn I role b := by
  cases c with
  | memory f =>
    rcases h with ⟨rfl, _⟩ | h
    · exact ⟨w.memory, hI, rfl⟩
    · exact h.elim
  | _ => trivial

theorem FaultStep.lastCheckpoint {I : UInt64 → Prop} (h : FaultStep c w b w')
    (hc : c.Carries I role) : lastCheckpoint cfg role w' = lastCheckpoint cfg role w ∨
      ∃ checkpoint, lastCheckpoint cfg role w' = some checkpoint ∧
        I checkpoint.routeGeneration := by
  have hsame (hd : w'.disk role = w.disk role) :
      Control.lastCheckpoint cfg role w' = Control.lastCheckpoint cfg role w := by
    simp only [Control.lastCheckpoint, hd]
  cases c with
  | memory f | roleRuntime id | notify notice =>
    rcases h with ⟨_, rfl⟩ | h
    · exact .inl (hsame rfl)
    · exact h.elim
  | routes c =>
    rcases h with ⟨_, rfl⟩ | ⟨_, _, _, rfl⟩ <;> exact .inl (hsame rfl)
  | writeCheckpoint id checkpoint =>
    have hwritten : Control.lastCheckpoint cfg role (w.written id checkpoint) =
        Control.lastCheckpoint cfg role w ∨ ∃ checkpoint',
          Control.lastCheckpoint cfg role (w.written id checkpoint) = some checkpoint' ∧
            I checkpoint'.routeGeneration := by
      by_cases hid : id = role
      · subst hid
        cases hdir : cfg.stateDir id with
        | false => exact .inl (by simp [Control.lastCheckpoint, hdir])
        | true => exact .inr ⟨checkpoint, by simp [Control.lastCheckpoint, hdir], hc rfl⟩
      · exact .inl (by simp [Control.lastCheckpoint, World.written, Ne.symm hid])
    rcases h with ⟨_, rfl⟩ | ⟨_, _, rfl | rfl⟩
    · exact hwritten
    · exact .inl rfl
    · exact hwritten

@[simp] theorem generation_setRole (w : World) (m : Memory) (state : SelectedRoleState) :
    (w.withMemory (m.setRole role state)).generation role = state.routeGeneration :=
  congrArg SelectedRoleState.routeGeneration (m.roleState_setRole role state)

theorem generation_of_admission (h : w'.admission role = w.admission role) :
    w'.generation role = w.generation role := by
  show (w'.admission role).routeGeneration = (w.admission role).routeGeneration
  rw [h]

theorem InFlight.Sound.effect {reports : Bool} {k : β → ManagerM (Option UInt64)} (cfg : Config)
    (h : InFlight.Sound role base (w.generation role) ⟨reports, .call c k⟩)
    (hbase : base ≤ w.generation role) (hs : FaultStep c w b w') :
    w'.generation role = w.generation role ∧
      InFlight.Sound role base (w.generation role) ⟨reports, k b⟩ ∧
      (Control.lastCheckpoint cfg role w' = Control.lastCheckpoint cfg role w ∨
        ∃ checkpoint, Control.lastCheckpoint cfg role w' = some checkpoint ∧
          base ≤ checkpoint.routeGeneration) := by
  obtain ⟨quiet, request, other⟩ := h
  refine ⟨generation_of_admission (quiet.1.admission_eq hs role), ?_⟩
  cases reports with
  | true =>
    obtain ⟨hcarries, hk⟩ := (request rfl).next (hs.answersIn rfl)
    refine ⟨⟨quiet.2 b, fun _ => hk, nofun⟩, ?_⟩
    refine (hs.lastCheckpoint hcarries).imp id ?_
    rintro ⟨checkpoint, hlast, hgen⟩
    exact ⟨checkpoint, hlast, hgen ▸ hbase⟩
  | false =>
    obtain ⟨hcarries, hk⟩ := (other rfl).next (hs.answersIn hbase)
    exact ⟨⟨quiet.2 b, (nofun), fun _ => hk⟩, hs.lastCheckpoint hcarries⟩

/-- What holds between two steps: the process works above `base`, and the
    generations of its predecessors are below, on disk as well. -/
structure Generations.Sound (cfg : Config) (role : String) (base : UInt64) (s : Generations) :
    Prop where
  earlier : ∀ g ∈ s.earlier, g < base
  current : base ≤ s.world.generation role
  handed : ∀ g ∈ s.handed, base ≤ g ∧ g ≤ s.world.generation role
  covered : ∀ g ∈ s.earlier,
    ∃ c, Control.lastCheckpoint cfg role s.world = some c ∧ g ≤ c.routeGeneration
  monotone : (s.handed ++ s.earlier).Pairwise fun newer older => older ≤ newer
  calls : ∀ call ∈ s.calls, call.Sound role base (s.world.generation role)

namespace Generations.Sound

theorem increasing (h : s.Sound cfg role base) : Ordered s where
  monotone := h.monotone
  fresh _ hg _ hg' := UInt64.lt_of_lt_of_le (h.earlier _ hg') (h.handed _ hg).1

variable {before after : List InFlight} (h : s.Sound cfg role base)

include h

/-- A generation between the newest and the current one may be handed out. -/
theorem hand {g : UInt64} (hle : g ≤ s.world.generation role) (hnewest : ∀ g' ∈ s.handed, g' ≤ g)
    (hbase : base ≤ g) : { s with handed := g :: s.handed }.Sound cfg role base := by
  refine { h with handed := ?_, monotone := ?_ }
  · exact List.forall_mem_cons.mpr ⟨⟨hbase, hle⟩, h.handed⟩
  refine List.pairwise_cons.mpr ⟨fun g' hg' => ?_, h.monotone⟩
  rcases List.mem_append.mp hg' with hg' | hg'
  · exact hnewest g' hg'
  · exact UInt64.le_of_lt (UInt64.lt_of_lt_of_le (h.earlier g' hg') hbase)

theorem effect {reports : Bool} {c : Effect β} {k : β → ManagerM (Option UInt64)} {b : β}
    (hc : s.calls = before ++ ⟨reports, .call c k⟩ :: after) (hs : FaultStep c s.world b w) :
    Generations.Sound cfg role base
    { s with world := w, calls := before ++ ⟨reports, k b⟩ :: after } := by
  have hcalls := h.calls
  simp only [hc, List.forall_mem_append, List.forall_mem_cons] at hcalls
  obtain ⟨hgen, hsound, hlast⟩ := hcalls.2.1.effect cfg h.current hs
  have hcovered : ∀ g ∈ s.earlier,
      ∃ c, Control.lastCheckpoint cfg role w = some c ∧ g ≤ c.routeGeneration := by
    intro g hg
    rcases hlast with heq | ⟨checkpoint, heq, hle⟩
    · rw [heq]
      exact h.covered g hg
    · exact ⟨checkpoint, heq, UInt64.le_of_lt (UInt64.lt_of_lt_of_le (h.earlier g hg) hle)⟩
  constructor <;> dsimp only
  · exact h.earlier
  · exact hgen ▸ h.current
  · exact hgen ▸ h.handed
  · exact hcovered
  · exact h.monotone
  · rw [hgen]
    simp only [List.forall_mem_append, List.forall_mem_cons]
    exact ⟨hcalls.1, hsound, hcalls.2.2⟩

theorem drop {call : InFlight} (hc : s.calls = before ++ call :: after) :
    { s with calls := before ++ after }.Sound cfg role base := by
  refine { h with calls := fun call' hcall' => h.calls call' ?_ }
  rw [hc]
  simp only [List.mem_append, List.mem_cons] at hcall' ⊢
  exact hcall'.imp id .inr

theorem call (c : RoleCall) : Generations.Sound cfg role base
    { s with calls := ⟨c.reports, c.program cfg role⟩ :: s.calls } :=
  { h with calls := List.forall_mem_cons.mpr ⟨c.sound _ _, h.calls⟩ }

theorem returned {reports : Bool} {g : Option UInt64}
    (hc : s.calls = before ++ ⟨reports, .ret g⟩ :: after) : Generations.Sound cfg role base
    { s with calls := before ++ after, handed := g.toList ++ s.handed } := by
  have hcall : InFlight.Sound role base (s.world.generation role) ⟨reports, .ret g⟩ :=
    h.calls _ (hc ▸ List.mem_append_right before List.mem_cons_self)
  have hdrop := h.drop hc
  cases reports with
  | true =>
    cases g with
    | none => exact hdrop
    | some g =>
      have hg : g = s.world.generation role := (hcall.request rfl).2 g rfl
      subst hg
      exact hdrop.hand (UInt64.le_refl _) (fun g' hg' => (h.handed g' hg').2) h.current
  | false =>
    have hg : g = none := (hcall.other rfl).2
    subst hg
    exact hdrop

/-- The rest of the process may change when the generation and the file stay. -/
theorem of_world (hgen : w.generation role = s.world.generation role)
    (hdisk : w.disk = s.world.disk) : Generations.Sound cfg role base { s with world := w } := by
  constructor <;> dsimp only
  · exact h.earlier
  · exact hgen ▸ h.current
  · exact hgen ▸ h.handed
  · simpa only [Control.lastCheckpoint, hdisk] using h.covered
  · exact h.monotone
  · exact hgen ▸ h.calls

theorem unfreeze (hrequests : ∀ call ∈ s.calls, call.reports = false)
    (hnext : s.world.generation role < s.world.generation role + 1) :
    Generations.Sound cfg role base
      { s with
        world := unfrozen role s.world
        handed := (unfrozen role s.world).generation role :: s.handed } := by
  have hgen : (unfrozen role s.world).generation role = s.world.generation role + 1 :=
    generation_setRole _ _ _
  have hle : s.world.generation role ≤ (unfrozen role s.world).generation role :=
    hgen ▸ UInt64.le_of_lt hnext
  have hbase := UInt64.le_trans h.current hle
  have hopen : Generations.Sound cfg role base { s with world := unfrozen role s.world } := by
    refine ⟨h.earlier, hbase, fun g hg => ?_, h.covered, h.monotone, fun call hcall => ?_⟩
    · exact ⟨(h.handed g hg).1, UInt64.le_trans (h.handed g hg).2 hle⟩
    · have hnot := hrequests call hcall
      have hcall := h.calls call hcall
      exact ⟨hcall.quiet, fun h => absurd (hnot.symm.trans h) Bool.false_ne_true, hcall.other⟩
  exact hopen.hand (UInt64.le_refl _) (fun g hg => (hopen.handed g hg).2) hbase

end Generations.Sound

theorem lt_seededRole {c : SelectedRoutesCheckpoint}
    (h : c.routeGeneration < c.routeGeneration + 1) :
    c.routeGeneration < (seededRole c).routeGeneration := by
  show c.routeGeneration < if 1 ≤ c.routeGeneration + 1 then c.routeGeneration + 1 else 1
  split_ifs with hle
  · exact h
  · exact UInt64.lt_trans h (UInt64.not_le.mp hle)

theorem restart_generation (h : restart cfg role w = .ok w') :
    w'.disk = w.disk ∧ ∀ c, lastCheckpoint cfg role w = some c →
      w'.generation role = (seededRole c).routeGeneration := by
  have hread : (if cfg.stateDir role then w.disk role else none) = lastCheckpoint cfg role w := rfl
  rw [restart, hread] at h
  cases hlast : lastCheckpoint cfg role w with
  | none =>
    rw [hlast] at h
    cases h
    exact ⟨rfl, fun _ hc => by cases hc⟩
  | some c =>
    rw [hlast] at h
    dsimp only at h
    split at h
    · cases h
    split_ifs at h
    split at h
    · cases h
    cases h
    refine ⟨rfl, fun _ hc => ?_⟩
    cases hc
    exact generation_setRole _ _ _

theorem Generations.Sound.crash (h : s.Sound cfg role base) (hr : (persisted cfg role).crash s)
    (hw : restart cfg role s.world = .ok w) :
    Generations.Sound cfg role (w.generation role)
      { world := w, earlier := s.handed ++ s.earlier } := by
  obtain ⟨hdisk, hseed⟩ := restart_generation hw
  obtain ⟨hcurrent, hnext⟩ := hr
  have hcovered : ∀ g ∈ s.handed ++ s.earlier,
      ∃ c, Control.lastCheckpoint cfg role s.world = some c ∧ g ≤ c.routeGeneration := by
    intro g hg
    rcases List.mem_append.mp hg with hg | hg
    · obtain ⟨c, hc, hgen⟩ := Option.map_eq_some_iff.mp
        (hcurrent.resolve_left (List.ne_nil_of_mem hg))
      exact ⟨c, hc, hgen ▸ (h.handed g hg).2⟩
    · exact h.covered g hg
  refine ⟨fun g hg => ?_, UInt64.le_refl _, (nofun), ?_, h.monotone,
    (nofun)⟩
  · obtain ⟨c, hc, hle⟩ := hcovered g hg
    rw [hseed c hc]
    exact UInt64.lt_of_le_of_lt hle (lt_seededRole (hnext c hc))
  · simpa only [Control.lastCheckpoint, hdisk] using hcovered

theorem GenerationRun.sound (h : GenerationRun cfg role (persisted cfg role) s) :
    ∃ base, s.Sound cfg role base := by
  induction h with
  | start w =>
    exact ⟨w.generation role, fun _ h => (nomatch h), UInt64.le_refl _, fun _ h => (nomatch h),
      fun _ h => (nomatch h), .nil, fun _ h => (nomatch h)⟩
  | call c _ ih => exact ih.imp fun _ hs => hs.call c
  | effect _ hc hstep ih => exact ih.imp fun _ hs => hs.effect hc hstep
  | returned _ hc ih => exact ih.imp fun _ hs => hs.returned hc
  | failed _ hc ih => exact ih.imp fun _ hs => hs.drop hc
  | freeze _ ih =>
    exact ih.imp fun _ hs => hs.of_world (generation_setRole _ _ _) rfl
  | unfreeze _ hr ih => exact ih.imp fun _ hs => hs.unfreeze hr.1 hr.2
  | environment kernel platform runtime _ ih => exact ih.imp fun _ hs => hs.of_world rfl rfl
  | crash _ hr hw ih =>
    obtain ⟨_, hs⟩ := ih
    exact ⟨_, hs.crash hr hw⟩

/-- Generations go up, over restarts as well, when every Unfreeze meets no request
    in flight and every crash finds the current generation on disk. -/
theorem GenerationRun.ordered (h : GenerationRun cfg role (persisted cfg role) s) : Ordered s :=
  let ⟨_, hs⟩ := h.sound
  hs.increasing

end Invariant

section Samples

variable {cfg : Config} {role : String} {R : GenerationRules} {s : Generations}

theorem GenerationRun.complete {reports : Bool} {p : ManagerM (Option UInt64)}
    {rest : List InFlight} {g : Option UInt64} {w : World} (h : GenerationRun cfg role R s)
    (hc : s.calls = ⟨reports, p⟩ :: rest) (hp : (p.run handle s.world).1 = .ok g)
    (hw : (p.run handle s.world).2 = w) :
    GenerationRun cfg role R
      { s with world := w, calls := rest, handed := g.toList ++ s.handed } := by
  induction p generalizing s with
  | ret a =>
    cases hp
    subst hw
    exact h.returned (show s.calls = [] ++ _ from hc)
  | fail e => cases hp
  | call c k ih =>
    have hnext := h.effect (show s.calls = [] ++ _ from hc) (.inl ⟨rfl, rfl⟩)
    have hrest := ih _ hnext rfl hp hw
    exact hrest

theorem GenerationRun.serve (c : RoleCall) {g : Option UInt64} {w : World}
    (h : GenerationRun cfg role R s) (hp : ((c.program cfg role).run handle s.world).1 = .ok g)
    (hw : ((c.program cfg role).run handle s.world).2 = w) :
    GenerationRun cfg role R { s with world := w, handed := g.toList ++ s.handed } :=
  (h.call c).complete rfl hp hw

def idleWorld : World :=
  { sampleWorld [] [] 7 with runtime := fun _ => some (healthyRuntime 7) }

def sampleIntent : LeshyRouteIntent := ⟨"corp", "10.0.0.1/32", .dns⟩

def openedWorld : World := unfrozen "work" idleWorld

@[irreducible] def servedWorld : World :=
  (((RoleCall.ensure workAuthority sampleIntent).program {} "work").run handle openedWorld).2

def reopenedWorld : World := unfrozen "work" (restarted {} "work" servedWorld)

theorem served_answer :
    (((RoleCall.ensure workAuthority sampleIntent).program {} "work").run handle openedWorld).1 =
      .ok (some 2) := by
  decide +kernel

theorem generationRun_opened :
    GenerationRun {} "work" (persisted {} "work")
      { world := openedWorld, handed := [openedWorld.generation "work"] } :=
  .unfreeze (s := { world := idleWorld }) (.start idleWorld)
    ⟨fun _ h => (nomatch h), by decide +kernel⟩

theorem persisted_crash {g : UInt64} (hgen : s.world.generation role = g)
    (hlast :
      (lastCheckpoint cfg role s.world).map SelectedRoutesCheckpoint.routeGeneration = some g)
    (hg : g < g + 1) : (persisted cfg role).crash s := by
  refine ⟨.inr (hgen ▸ hlast), fun c hc => ?_⟩
  rw [hc] at hlast
  rwa [show c.routeGeneration = g from Option.some.inj hlast]

/-- The request writes the generation that the role was opened with, so that it
    can be opened after a crash. -/
theorem GenerationRun.ordered_served :
    Ordered { world := reopenedWorld
              handed := [reopenedWorld.generation "work"]
              earlier := [2, openedWorld.generation "work"] } := by
  have hserved := generationRun_opened.serve (.ensure workAuthority sampleIntent) served_answer
    servedWorld.eq_def.symm
  have hcrash : (persisted {} "work").crash
      { world := servedWorld, handed := [2, openedWorld.generation "work"] } :=
    persisted_crash (g := 2) (by decide +kernel) (by decide +kernel) (by decide)
  have hcrashed := hserved.crash hcrash (restart_of_isOk (by decide +kernel))
  have hreopened := hcrashed.unfreeze ⟨fun _ h => (nomatch h), by decide +kernel⟩
  exact GenerationRun.ordered hreopened

/-- The role is opened twice, crashes, and is opened again under a generation that
    was already handed out, below the last one: opening it writes nothing. -/
theorem unfreeze_reuses_generation :
    ∃ s, GenerationRun {} "work" {} s ∧ s.handed = [2] ∧ s.earlier = [3, 2] ∧ ¬ Ordered s := by
  have hopened : GenerationRun {} "work" {}
      { world := openedWorld, handed := [openedWorld.generation "work"] } :=
    .unfreeze (s := { world := idleWorld }) (.start idleWorld) trivial
  have htwice := hopened.unfreeze trivial
  have hcrashed := htwice.crash trivial (restart_of_isOk (by decide +kernel))
  have hagain := hcrashed.unfreeze trivial
  refine ⟨_, hagain, by decide +kernel, by decide +kernel, fun h => ?_⟩
  exact absurd (h.fresh 2 (by decide +kernel) 3 (by decide +kernel)) (by decide)

end Samples

end Kikimora.Control

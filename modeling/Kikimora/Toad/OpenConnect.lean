import Kikimora.Routing.Identity
import Kikimora.Toad.Runtime

/-!
# The OpenConnect backend

The backend runs the official client as a child process. A goroutine waits for the child
and records its end in two fields. `Validate`, `Health` and `RestartTransport` infer from
these whether the child is alive. A child that ends with status zero leaves no error
there, and then the first two take it for alive.
-/

namespace Kikimora.Toad

open Net
open Routing (bind_ok_iff)

-- === The backend ===

/-- The fields of the backend that its methods decide by. A child is named by a number. -/
structure OpenConnect where
  cfg : Option Config
  cmd : Option Nat := none
  closing : Bool := false
  exitErr : Option String := none
  health : Health := { state := "stopped" }

def exitError (status : Int) : Option String :=
  if status = 0 then none else some ("exit status " ++ toString status)

def endpointOf (cfg : Option Config) : String :=
  ((cfg.bind Config.openConnect).map OpenConnectConfig.gateway).getD ""

/-- The managed interface as `Health` finds it. -/
structure Tun where
  up : Bool
  rxBytes : UInt64 := 0
  txBytes : UInt64 := 0
  deriving DecidableEq, Repr

namespace OpenConnect

def start (b : OpenConnect) (child : Nat) (launch : Except String Unit) :
    Except String Unit × OpenConnect :=
  if b.cmd.isSome then (.ok (), b)
  else
    match b.cfg.bind Config.openConnect with
    | none => (.error "OpenConnect backend requires normalized openconnect config", b)
    | some openConnect =>
      match launch with
      | .error e => (.error e, b)
      | .ok () =>
        (.ok (), { b with
          cmd := some child
          closing := false
          exitErr := none
          health :=
            { state := "connecting"
              reason := "official OpenConnect client running; waiting for managed TUN"
              endpoint := openConnect.gateway } })

def wait (b : OpenConnect) (child : Nat) (err : Option String) : OpenConnect :=
  if b.cmd = some child then
    let b := { b with exitErr := err }
    if !b.closing then
      { b with
        health :=
          { state := "degraded"
            reason := match err with
              | some e => "official OpenConnect client exited: " ++ e
              | none => "official OpenConnect client exited"
            endpoint := endpointOf b.cfg } }
    else b
  else b

def validate (b : OpenConnect) : Validation :=
  if b.cmd.isNone || b.exitErr.isSome then
    { healthy := false
      state := "degraded"
      reason := match b.exitErr with
        | some e => "official OpenConnect client exited: " ++ e
        | none => "official OpenConnect client is not running" }
  else
    { healthy := true
      state := "ready"
      reason := "official OpenConnect client owns the managed TUN" }

def readHealth (b : OpenConnect) (tun : Option Tun) : Health :=
  if b.cmd.isNone || b.exitErr.isSome then b.health
  else
    match tun with
    | none =>
      { state := "connecting"
        reason := "official OpenConnect client running; managed TUN not ready"
        endpoint := endpointOf b.cfg }
    | some tun =>
      { state := if tun.up then "online" else "connecting"
        reason :=
          if tun.up then "official OpenConnect data phase owns stable managed TUN"
          else "OpenConnect TUN exists but link is not up"
        connected := tun.up
        rxBytes := tun.rxBytes
        txBytes := tun.txBytes
        endpoint := endpointOf b.cfg }

def closed (b : OpenConnect) : OpenConnect :=
  { b with cmd := none, closing := false, exitErr := none, health := { state := "stopped" } }

end OpenConnect

-- === The backend with its child ===

/-- The backend and the child that was started last. -/
structure World where
  backend : OpenConnect
  /-- the number of children started -/
  children : Nat := 0
  /-- the last child has ended, and `wait` has recorded that -/
  exited : Bool := false

def World.new (cfg : Option Config) : World := { backend := { cfg := cfg } }

/-- What happens while `RestartTransport` waits for the publication. -/
inductive Poll
  /-- the file has this content -/
  | content (data : String)
  | absent
  | failed (error : String)
  /-- the child ends -/
  | exits (status : Int)
  deriving DecidableEq, Repr

def hasReconnectPublication (data : String) : Bool :=
  (splitChars '\n' data.toList).any fun line =>
    line = "reason=reconnect".toList || line = "reason=connect".toList

/-- What a call of `RestartTransport` meets. -/
structure Restart where
  cancelled : Bool := false
  /-- the stale publication cannot be removed -/
  remove : Option String := none
  /-- a living child cannot be signalled -/
  signal : Option String := none
  polls : List Poll := []

inductive Call
  | start (launch : Except String Unit)
  | exits (status : Int)
  | health (tun : Option Tun)
  | validate
  | restart (env : Restart)
  | close (status : Int)

namespace World

def exits (w : World) (status : Int) : World :=
  if w.backend.cmd = some w.children && !w.exited then
    { w with backend := w.backend.wait w.children (exitError status), exited := true }
  else w

def start (w : World) (launch : Except String Unit) : World :=
  let (_, backend) := w.backend.start (w.children + 1) launch
  if backend.cmd = some (w.children + 1) then
    { w with backend := backend, children := w.children + 1, exited := false }
  else { w with backend := backend }

/-- The wait of `RestartTransport` for the publication of the new data phase; it ends with
    the context when nothing else ends it. -/
def awaitPublication (cmd : Option Nat) : World → List Poll → Except String Unit × World
  | w, [] => (.error "context canceled", w)
  | w, .exits status :: polls => awaitPublication cmd (w.exits status) polls
  | w, .absent :: polls => awaitPublication cmd w polls
  | w, .failed e :: _ => (.error ("read OpenConnect reconnect state: " ++ e), w)
  | w, .content data :: polls =>
    if hasReconnectPublication data then
      if w.backend.cmd = cmd && w.backend.exitErr.isNone then (.ok (), w)
      else (.error "official OpenConnect client exited during reconnect", w)
    else awaitPublication cmd w polls

def signalReconnect (w : World) (env : Restart) : Option String :=
  if w.exited then some "os: process already finished" else env.signal

def restartTransport (w : World) (env : Restart) : Except String Unit × World :=
  if env.cancelled then (.error "context canceled", w)
  else if w.backend.cmd.isNone || w.backend.exitErr.isSome then
    (.error "official OpenConnect client is not running", w)
  else if ((w.backend.cfg.map Config.stateDir).getD "") = "" then
    (.error "OpenConnect state directory is unavailable", w)
  else
    match env.remove, w.signalReconnect env with
    | some e, _ => (.error ("clear stale OpenConnect network state: " ++ e), w)
    | none, some e => (.error ("request OpenConnect reconnect: " ++ e), w)
    | none, none => awaitPublication w.backend.cmd w env.polls

def close (w : World) (status : Int) : World :=
  let w := { w with backend := { w.backend with closing := true } }
  if w.backend.cmd.isNone then w
  else
    let w := w.exits status
    { w with backend := w.backend.closed }

def step (w : World) : Call → World
  | .start launch => w.start launch
  | .exits status => w.exits status
  | .health tun => { w with backend := { w.backend with health := w.backend.readHealth tun } }
  | .validate => w
  | .restart env => (w.restartTransport env).2
  | .close status => w.close status

end World

def World.run (cfg : Option Config) (calls : List Call) : World :=
  calls.foldl World.step (.new cfg)

def Health.Dead (h : Health) : Prop := h.connected = false ∧ h.state ≠ "online"

/-- A child that has ended, recorded by `wait`, is not taken for alive. -/
structure LooksDead (w : World) : Prop where
  validate : w.exited = true → w.backend.validate.healthy = false
  health : w.exited = true → ∀ tun, (w.backend.readHealth tun).Dead
  restart : w.exited = true → ∀ env, ∃ e, (w.restartTransport env).1 = .error e

def Poll.Nonzero : Poll → Prop
  | .exits status => status ≠ 0
  | _ => True

def Restart.Nonzero (env : Restart) : Prop := ∀ poll ∈ env.polls, poll.Nonzero

/-- A child that ends on its own during the call or instead of one does so with another
    status than zero. -/
def Call.Nonzero : Call → Prop
  | .exits status => status ≠ 0
  | .restart env => env.Nonzero
  | _ => True

-- === Runs ===

namespace World

theorem run_induction {P : World → Prop} (ok : Call → Prop) {cfg : Option Config}
    (hnew : P (.new cfg)) (hstep : ∀ w c, P w → ok c → P (w.step c)) {calls : List Call}
    (hok : ∀ c ∈ calls, ok c) : P (.run cfg calls) := by
  suffices h : ∀ w, P w → P (calls.foldl World.step w) from h _ hnew
  induction calls with
  | nil => exact fun w hw => hw
  | cons c calls ih =>
    intro w hw
    exact ih (fun d hd => hok d (List.mem_cons_of_mem c hd)) _
      (hstep w c hw (hok c List.mem_cons_self))

/-- The backend holds the last child until it is closed, and is not closing meanwhile. -/
def Tracked (w : World) : Prop :=
  ∀ child, w.backend.cmd = some child → child = w.children ∧ w.backend.closing = false

variable {w : World} {cfg : Option Config}

theorem exits_eq (h : w.Tracked) {child : Nat} (hcmd : w.backend.cmd = some child)
    (hexited : w.exited = false) (status : Int) : ∃ reason endpoint, w.exits status =
      { w with
        exited := true
        backend := { w.backend with
          exitErr := exitError status
          health := { state := "degraded", reason := reason, endpoint := endpoint } } } := by
  obtain ⟨rfl, hclosing⟩ := h child hcmd
  simp only [exits, OpenConnect.wait, hcmd, hexited, hclosing]
  exact ⟨_, _, rfl⟩

theorem exits_eq_self (h : w.backend.cmd = none ∨ w.exited = true) (status : Int) :
    w.exits status = w := by
  rcases h with h | h <;> simp [exits, h]

theorem alive_or_not (w : World) : (∃ child, w.backend.cmd = some child ∧ w.exited = false) ∨
    (w.backend.cmd = none ∨ w.exited = true) := by
  rcases w.backend.cmd with _ | child
  · exact .inr (.inl rfl)
  · cases w.exited
    · exact .inl ⟨child, rfl, rfl⟩
    · exact .inr (.inr rfl)

theorem Tracked.exits (h : w.Tracked) (status : Int) : (w.exits status).Tracked := by
  rcases w.alive_or_not with ⟨child, hcmd, hexited⟩ | hnone
  · obtain ⟨reason, endpoint, heq⟩ := exits_eq h hcmd hexited status
    rw [heq]
    exact h
  · rw [exits_eq_self hnone]
    exact h

theorem Tracked.awaitPublication {cmd : Option Nat} (polls : List Poll) :
    ∀ {w : World}, w.Tracked → (World.awaitPublication cmd w polls).2.Tracked := by
  induction polls with
  | nil => exact fun h => h
  | cons poll polls ih =>
    intro w h
    cases poll with
    | exits status => exact ih (h.exits status)
    | absent => exact ih h
    | failed e => exact h
    | content data =>
      simp only [World.awaitPublication]
      split
      · split <;> exact h
      · exact ih h

/-- A restart fails at once, or it waits for the publication. A child that has ended
    cannot be signalled. -/
theorem restartTransport_cases (w : World) (env : Restart) :
    (∃ e, w.restartTransport env = (.error e, w)) ∨
      ∃ child, w.exited = false ∧
        w.restartTransport env = World.awaitPublication (some child) w env.polls := by
  unfold restartTransport
  split
  · exact .inl ⟨_, rfl⟩
  split
  · exact .inl ⟨_, rfl⟩
  rename_i hgone
  split
  · exact .inl ⟨_, rfl⟩
  split
  · exact .inl ⟨_, rfl⟩
  · exact .inl ⟨_, rfl⟩
  rename_i hsignal
  obtain ⟨child, hcmd⟩ : ∃ child, w.backend.cmd = some child := by
    rcases hcmd : w.backend.cmd with _ | child
    · simp [hcmd] at hgone
    · exact ⟨child, rfl⟩
  refine .inr ⟨child, ?_, by rw [hcmd]⟩
  cases hexited : w.exited
  · rfl
  · simp [signalReconnect, hexited] at hsignal

theorem start_cases (h : w.Tracked) (launch : Except String Unit) :
    w.start launch = w ∨ ∃ reason endpoint, w.start launch =
      { w with
        children := w.children + 1
        exited := false
        backend := { w.backend with
          cmd := some (w.children + 1)
          closing := false
          exitErr := none
          health := { state := "connecting", reason := reason, endpoint := endpoint } } } := by
  rcases hcmd : w.backend.cmd with _ | child
  · rcases hcfg : w.backend.cfg.bind Config.openConnect with _ | openConnect
    · exact .inl (by simp [start, OpenConnect.start, hcmd, hcfg])
    rcases launch with e | ⟨⟩
    · exact .inl (by simp [start, OpenConnect.start, hcmd, hcfg])
    · refine .inr ⟨"official OpenConnect client running; waiting for managed TUN",
        openConnect.gateway, ?_⟩
      simp [start, OpenConnect.start, hcmd, hcfg]
  · have hne : child ≠ w.children + 1 := by
      have := (h child hcmd).1
      omega
    exact .inl (by simp [start, OpenConnect.start, hcmd, hne])

/-- A close of a backend without a child only marks it; any other one clears it. -/
theorem close_cases (w : World) (status : Int) :
    w.backend.cmd = none ∧ w.close status =
        { w with backend := { w.backend with closing := true } } ∨
      ∃ w' : World, w.close status = { w' with backend := w'.backend.closed } := by
  rcases hcmd : w.backend.cmd with _ | child
  · exact .inl ⟨rfl, by simp [close, hcmd]⟩
  · exact .inr ⟨_, by simp only [close, hcmd]; rfl⟩

theorem Tracked.step (h : w.Tracked) (c : Call) : (w.step c).Tracked := by
  cases c with
  | start launch =>
    rcases start_cases h launch with heq | ⟨reason, endpoint, heq⟩
    · rw [World.step, heq]
      exact h
    · rw [World.step, heq]
      exact fun child hchild => ⟨(Option.some.inj hchild).symm, rfl⟩
  | exits status => exact h.exits status
  | health tun | validate => exact h
  | restart env =>
    rcases w.restartTransport_cases env with ⟨e, heq⟩ | ⟨child, -, heq⟩
    · rw [World.step, heq]
      exact h
    · rw [World.step, heq]
      exact h.awaitPublication env.polls
  | close status =>
    rcases w.close_cases status with ⟨hcmd, heq⟩ | ⟨w', heq⟩
    · rw [World.step, heq]
      exact fun child hchild => absurd (hcmd.symm.trans hchild) (by simp)
    · rw [World.step, heq]
      exact fun child hchild => by cases hchild

theorem tracked_run (cfg : Option Config) (calls : List Call) : (run cfg calls).Tracked :=
  run_induction (fun _ => True) (fun _ h => by cases h) (fun _ c h _ => h.step c)
    fun _ _ => trivial

/-- The end of the child has left its mark. -/
structure Recorded (w : World) : Prop where
  tracked : w.Tracked
  gone : w.exited = true → w.backend.cmd = none ∨ w.backend.exitErr.isSome = true
  dead : w.exited = true → w.backend.health.Dead

theorem exitError_isSome {status : Int} : (exitError status).isSome = true ↔ status ≠ 0 := by
  by_cases h : status = 0 <;> simp [exitError, h]

theorem Recorded.exits (h : w.Recorded) {status : Int} (hstatus : status ≠ 0) :
    (w.exits status).Recorded := by
  rcases w.alive_or_not with ⟨child, hcmd, hexited⟩ | hnone
  · obtain ⟨reason, endpoint, heq⟩ := exits_eq h.tracked hcmd hexited status
    refine ⟨h.tracked.exits status, fun _ => .inr ?_, fun _ => ?_⟩
    · rw [heq]
      exact exitError_isSome.mpr hstatus
    · rw [heq]
      exact ⟨rfl, by simp⟩
  · rw [exits_eq_self hnone]
    exact h

theorem Recorded.readHealth (h : w.Recorded) (hexited : w.exited = true) (tun : Option Tun) :
    w.backend.readHealth tun = w.backend.health := by
  rcases h.gone hexited with hnone | hsome
  · simp [OpenConnect.readHealth, hnone]
  · simp [OpenConnect.readHealth, hsome]

/-- A child that ends while a restart waits is recorded, and the restart fails. -/
theorem Recorded.awaitPublication {child : Nat} {polls : List Poll}
    (hpolls : ∀ poll ∈ polls, poll.Nonzero) : ∀ {w : World}, w.Recorded →
      (World.awaitPublication (some child) w polls).2.Recorded ∧
        ((World.awaitPublication (some child) w polls).2.exited = true →
          ∃ e, (World.awaitPublication (some child) w polls).1 = .error e) := by
  induction polls with
  | nil => exact fun h => ⟨h, fun _ => ⟨_, rfl⟩⟩
  | cons poll polls ih =>
    have ih := @ih fun p hp => hpolls p (List.mem_cons_of_mem poll hp)
    have hpoll := hpolls poll List.mem_cons_self
    intro w h
    cases poll with
    | exits status => exact ih (h.exits hpoll)
    | absent => exact ih h
    | failed e => exact ⟨h, fun _ => ⟨_, rfl⟩⟩
    | content data =>
      simp only [World.awaitPublication]
      split
      · split
        · rename_i hsame
          -- the child is the one that was signalled, and no error is recorded
          simp only [Bool.and_eq_true, decide_eq_true_eq, Option.isNone_iff_eq_none] at hsame
          refine ⟨h, fun hexited => ?_⟩
          rcases h.gone hexited with hnone | hsome
          · rw [hsame.1] at hnone
            cases hnone
          · rw [hsame.2] at hsome
            cases hsome
        · exact ⟨h, fun _ => ⟨_, rfl⟩⟩
      · exact ih h

theorem Recorded.restartTransport (h : w.Recorded) {env : Restart} (henv : env.Nonzero) :
    (w.restartTransport env).2.Recorded ∧
      ((w.restartTransport env).2.exited = true → ∃ e, (w.restartTransport env).1 = .error e) := by
  rcases w.restartTransport_cases env with ⟨e, heq⟩ | ⟨child, -, heq⟩
  · rw [heq]
    exact ⟨h, fun _ => ⟨e, rfl⟩⟩
  · rw [heq]
    exact Recorded.awaitPublication henv h

theorem Recorded.step (h : w.Recorded) {c : Call} (hc : c.Nonzero) : (w.step c).Recorded := by
  cases c with
  | start launch =>
    rcases start_cases h.tracked launch with heq | ⟨reason, endpoint, heq⟩
    · rw [World.step, heq]
      exact h
    · refine ⟨h.tracked.step (.start launch), fun hexited => ?_, fun hexited => ?_⟩ <;>
      · rw [World.step, heq] at hexited
        cases hexited
  | exits status => exact h.exits hc
  | health tun =>
    refine ⟨h.tracked, h.gone, fun hexited => ?_⟩
    simp only [World.step, h.readHealth hexited]
    exact h.dead hexited
  | validate => exact h
  | restart env => exact (h.restartTransport hc).1
  | close status =>
    have htracked := h.tracked.step (.close status)
    rcases w.close_cases status with ⟨hcmd, heq⟩ | ⟨w', heq⟩
    · rw [World.step, heq] at htracked ⊢
      exact ⟨htracked, fun _ => .inl hcmd, h.dead⟩
    · rw [World.step, heq] at htracked ⊢
      exact ⟨htracked, fun _ => .inl rfl, fun _ => ⟨rfl, by simp [OpenConnect.closed]⟩⟩

theorem Recorded.looksDead (h : w.Recorded) : LooksDead w where
  validate hexited := by
    rcases h.gone hexited with hnone | hsome
    · simp [OpenConnect.validate, hnone]
    · simp [OpenConnect.validate, hsome]
  health hexited tun := by
    rw [h.readHealth hexited]
    exact h.dead hexited
  restart hexited env := by
    rcases w.restartTransport_cases env with ⟨e, heq⟩ | ⟨child, halive, -⟩
    · exact ⟨e, by rw [heq]⟩
    · rw [hexited] at halive
      cases halive

/-- The end of the running child shows exactly when its status is not zero. -/
theorem looksDead_exits_iff (h : w.Tracked) (hrunning : w.backend.cmd.isSome = true)
    (hexited : w.exited = false) (status : Int) : LooksDead (w.exits status) ↔ status ≠ 0 := by
  obtain ⟨child, hcmd⟩ := Option.isSome_iff_exists.mp hrunning
  obtain ⟨reason, endpoint, heq⟩ := exits_eq h hcmd hexited status
  constructor
  · rintro hdead rfl
    have hvalidate := hdead.validate (by rw [heq])
    rw [heq] at hvalidate
    simp [OpenConnect.validate, hcmd, exitError] at hvalidate
  intro hstatus
  have hrecorded : w.Recorded := ⟨h, fun he => by simp [hexited] at he, fun he => by
    simp [hexited] at he⟩
  exact (hrecorded.exits hstatus).looksDead

theorem recorded_run (cfg : Option Config) {calls : List Call} (h : ∀ c ∈ calls, c.Nonzero) :
    (run cfg calls).Recorded :=
  run_induction Call.Nonzero
    ⟨fun _ h => (by cases h), fun h => (by cases h), fun h => (by cases h)⟩
    (fun _ _ h hc => h.step hc) h

end World

/-- In every run in which no child ends on its own with status zero, a child that has ended
    looks dead, and a restart that it does not survive fails. After any run at all, the
    end of the running child shows exactly when its status is not zero. -/
theorem openconnect_dead_iff (cfg : Option Config) (calls : List Call) :
    ((∀ c ∈ calls, c.Nonzero) →
      LooksDead (World.run cfg calls) ∧
        ∀ env : Restart, env.Nonzero →
          ((World.run cfg calls).restartTransport env).2.exited = true →
            ∃ e, ((World.run cfg calls).restartTransport env).1 = .error e) ∧
    ((World.run cfg calls).backend.cmd.isSome = true → (World.run cfg calls).exited = false →
      ∀ status, LooksDead ((World.run cfg calls).step (.exits status)) ↔ status ≠ 0) := by
  refine ⟨fun h => ?_, fun hrunning hexited status => ?_⟩
  · have hrecorded := World.recorded_run cfg h
    exact ⟨hrecorded.looksDead, fun env henv => (hrecorded.restartTransport henv).2⟩
  · exact World.looksDead_exits_iff (World.tracked_run cfg calls) hrunning hexited status

def sampleOpenConnect : Config where
  protocol := .openconnect
  stateDir := "/run/toad"
  openConnect := some { gateway := "vpn.example.org" }

def childRunning : World := .run (some sampleOpenConnect) [.start (.ok ())]

def childDone : World := .run (some sampleOpenConnect) [.start (.ok ()), .exits 0]

def restartDone : Restart := { polls := [.absent, .exits 0, .content "reason=reconnect"] }

/-- A child that has ended with status zero: `Validate` is healthy, `Health` is connected
    and online on the interface that is left, and a restart that was waiting succeeds. -/
theorem openconnect_exit_zero :
    (childDone.exited = true ∧ childDone.backend.validate.healthy = true ∧
      (childDone.backend.readHealth (some { up := true })).connected = true ∧
      (childDone.backend.readHealth (some { up := true })).state = "online") ∧
    ((childRunning.restartTransport restartDone).2.exited = true ∧
      (childRunning.restartTransport restartDone).1.toOption = some ()) := by
  decide +kernel

theorem openconnect_exit_one :
    (World.run (some sampleOpenConnect) [.start (.ok ()), .exits 1]).exited = true ∧
    LooksDead (World.run (some sampleOpenConnect) [.start (.ok ()), .exits 1]) ∧
    LooksDead ((World.run (some sampleOpenConnect) [.start (.ok ())]).step (.exits 1)) := by
  refine ⟨by decide +kernel, ?_, ?_⟩
  · refine ((openconnect_dead_iff (some sampleOpenConnect) [.start (.ok ()), .exits 1]).1 ?_).1
    intro c hc
    rcases List.mem_pair.mp hc with rfl | rfl
    · trivial
    · exact one_ne_zero
  · exact ((openconnect_dead_iff (some sampleOpenConnect) [.start (.ok ())]).2 (by decide +kernel)
      (by decide +kernel) 1).mpr one_ne_zero

end Kikimora.Toad

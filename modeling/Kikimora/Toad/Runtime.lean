import Kikimora.Toad.Families

/-!
# The runtime of a Toad

The runtime holds the last snapshot that it published. A health tick reads the interface
and publishes what it finds, after an attempt to repair it where that is possible.
`Validate` reads the interface as well and answers at once, without publishing.
-/

namespace Kikimora.Toad

open Kikimora.Core Net

-- === Snapshots ===

/-- A `backend.Health`. -/
structure Health where
  state : String := ""
  reason : String := ""
  connected : Bool := false
  lastHandshakeAgeMS : Option Int := none
  rxBytes : UInt64 := 0
  txBytes : UInt64 := 0
  endpoint : String := ""
  deriving DecidableEq, Repr

/-- A `backend.Validation`. -/
structure Validation where
  healthy : Bool := false
  state : String := ""
  reason : String := ""
  deriving DecidableEq, Repr

/-- What the backend answers. Not every backend validates, and not every one reports the
    local addresses it expects. -/
structure Backend where
  health : Health := {}
  validation : Option Validation := none
  expectation : Option (Except String Expectation) := none

def Backend.Healthy (backend : Backend) : Prop :=
  ∀ v, backend.validation = some v → v.healthy = true

structure SessionState where
  connected : Bool := false
  lastHandshakeAgeMS : Option Int := none
  rxBytes : UInt64 := 0
  txBytes : UInt64 := 0
  endpoint : String := ""
  deriving DecidableEq, Repr

/-- A `state.Snapshot`. -/
structure Snapshot where
  name : String := ""
  protocol : String := ""
  generation : UInt64 := 0
  state : String := ""
  reason : String := ""
  routeReady : Bool := false
  families : RouteFamilies := {}
  interface : Interface := {}
  session : SessionState := {}
  deriving DecidableEq, Repr

def fromHealth (cfg : Config) (iface : Interface) (h : Health) (generation : UInt64)
    (families : RouteFamilies) : Snapshot where
  name := cfg.name
  protocol := cfg.protocol.text
  generation := generation
  state := h.state
  reason := h.reason
  families := families
  routeReady := interfaceIdentityReady iface && ready families
  interface := iface
  session :=
    { connected := h.connected, lastHandshakeAgeMS := h.lastHandshakeAgeMS, rxBytes := h.rxBytes,
      txBytes := h.txBytes, endpoint := h.endpoint }

def currentFamilies (cfg : Config) (backend : Backend) (iface : Interface) : RouteFamilies :=
  if cfg.protocol ≠ .openconnect then interfaceFamilyReadiness cfg iface none
  else
    match backend.expectation with
    | none => interfaceFamilyReadiness cfg iface none
    | some (.error _) => unavailable
    | some (.ok expectation) => interfaceFamilyReadiness cfg iface (some expectation)

def sameInterface (a b : Interface) : Bool :=
  a.name = b.name && a.ifIndex = b.ifIndex && a.mtu = b.mtu && a.addresses.isPerm b.addresses

-- === The runtime ===

/-- A runtime; times are in milliseconds. -/
structure Runtime where
  cfg : Config
  generation : UInt64 := 0
  state : Snapshot := {}
  revision : UInt64 := 1
  started : Bool := false
  /-- there is an interface repairer -/
  repairer : Bool := false
  repairInterval : Int := 1000
  nextRepair : Int := 0

namespace Runtime

def validate (r : Runtime) (backend : Backend) (read : Except String Interface) :
    ValidationResult :=
  if !r.started then { state := "stopped", reason := "runtime is stopped" }
  else
    match read with
    | .error _ => { state := "degraded", reason := "managed interface is unavailable" }
    | .ok iface =>
      let expectedIfIndex := r.state.interface.ifIndex
      if !interfaceIdentityReady iface then
        { state := "degraded", reason := "managed route target is structurally unavailable" }
      else if 0 < expectedIfIndex && iface.ifIndex ≠ expectedIfIndex then
        { state := "degraded", reason := "managed interface identity changed" }
      else
        let families := currentFamilies r.cfg backend iface
        match backend.validation.filter fun v => !v.healthy with
        | some v =>
          { healthy := false, state := v.state, reason := v.reason
            families :=
              { ipv4 := { configured := families.ipv4.configured, reason := v.reason }
                ipv6 := { configured := families.ipv6.configured, reason := v.reason } } }
        | none =>
          if !ready families then
            { healthy := false, state := "degraded"
              reason := "no configured address family is usable on the managed interface"
              families := families }
          else
            { healthy := true, state := "ready"
              reason := "managed route target is structurally ready", families := families }

/-- What a health tick meets: the first read of the interface, the result of a repair and
    the read after it. -/
structure Tick where
  read : Except String Interface
  repair : Except String Unit := .error "not attempted"
  reread : Except String Interface := .error "not attempted"
  now : Int := 0

def healthLoopInterval : Int := 250

/-- The snapshot after an attempt to repair the interface, and whether the interface is
    all right again. -/
def repaired (r : Runtime) (backend : Backend) (tick : Tick) (next : Snapshot) :
    Snapshot × Bool :=
  let known := r.state.interface.ifIndex
  match backend.expectation with
  | none => (next, false)
  | some (.error _) =>
    ({ next with reason := "managed interface drift expectation unavailable" }, false)
  | some (.ok _) =>
    match tick.repair, tick.reread with
    | .error _, _ => ({ next with reason := "managed interface drift repair failed" }, false)
    | .ok _, .error _ => ({ next with reason := "managed interface drift reread failed" }, false)
    | .ok _, .ok iface =>
      let families := currentFamilies r.cfg backend iface
      let after := fromHealth r.cfg iface backend.health r.generation families
      if 0 < known && iface.ifIndex ≠ known then
        ({ after with
            state := "degraded", reason := "managed interface identity changed"
            routeReady := false }, false)
      else if ready families then (after, true)
      else
        ({ after with
            state := "degraded", reason := "managed interface drift persists after repair"
            routeReady := false }, false)

def nextSnapshot (r : Runtime) (backend : Backend) (tick : Tick) : Snapshot × Int :=
  let known := r.state.interface.ifIndex
  match tick.read with
  | .error _ =>
    let iface : Interface := { name := r.cfg.interface }
    let families := currentFamilies r.cfg backend iface
    ({ fromHealth r.cfg iface backend.health r.generation families with
        state := "degraded", reason := "managed interface is unavailable", routeReady := false },
      r.nextRepair)
  | .ok iface =>
    let families := currentFamilies r.cfg backend iface
    let structuralReady := interfaceIdentityReady iface && ready families
    let next := fromHealth r.cfg iface backend.health r.generation families
    if 0 < known && 0 < iface.ifIndex && iface.ifIndex ≠ known then
      ({ next with
          state := "degraded", reason := "managed interface identity changed"
          routeReady := false }, r.nextRepair)
    else if !structuralReady && r.cfg.protocol = .openconnect then
      ({ next with
          state := "degraded"
          reason := "OpenConnect negotiated interface drift requires transport recovery" },
        r.nextRepair)
    else if !structuralReady && 0 < iface.ifIndex && r.repairer then
      let next := { next with
        state := "degraded", reason := "managed interface drift detected", routeReady := false }
      if r.state.routeReady then
        -- the drop is published before anything is repaired
        (next, tick.now + healthLoopInterval)
      else if tick.now < r.nextRepair then (next, r.nextRepair)
      else
        let interval := if r.repairInterval ≤ 0 then 1000 else r.repairInterval
        let (after, restored) := r.repaired backend tick next
        let pause := if backend.expectation.isNone then r.nextRepair else tick.now + interval
        (after, if restored then 0 else pause)
    else (next, r.nextRepair)

def healthTick (r : Runtime) (backend : Backend) (tick : Tick) : Runtime :=
  if !r.started then r
  else
    let (next, nextRepair) := r.nextSnapshot backend tick
    let r := { r with nextRepair := nextRepair }
    if next.state ≠ r.state.state || next.reason ≠ r.state.reason ||
        !sameInterface next.interface r.state.interface ||
        next.routeReady ≠ r.state.routeReady || next.families ≠ r.state.families ||
        next.session ≠ r.state.session then
      { r with state := next, revision := r.revision + 1 }
    else r

/-- The interface is the same at every read of a tick. -/
structure Tick.Over (tick : Tick) (iface : Interface) : Prop where
  read : tick.read = .ok iface
  reread : tick.reread = .ok iface ∨ ∃ e, tick.reread = .error e

section

variable {r : Runtime} {backend : Backend} {tick : Tick} {iface : Interface}

theorem repaired_spec (hindex : iface.ifIndex = r.state.interface.ifIndex)
    (htick : tick.Over iface) {next : Snapshot} (hroute : next.routeReady = false)
    (hfamilies : next.families = currentFamilies r.cfg backend iface)
    (hnot : (interfaceIdentityReady iface && ready (currentFamilies r.cfg backend iface)) = false) :
    (r.repaired backend tick next).1.routeReady = false ∧
      (r.repaired backend tick next).1.families = currentFamilies r.cfg backend iface := by
  unfold repaired
  split
  · exact ⟨hroute, hfamilies⟩
  · exact ⟨hroute, hfamilies⟩
  split
  · exact ⟨hroute, hfamilies⟩
  · exact ⟨hroute, hfamilies⟩
  rename_i iface' _ hreread
  obtain rfl : iface = iface' := by
    rcases htick.reread with h | ⟨e, h⟩
    · exact Except.ok.inj (h.symm.trans hreread)
    · rw [h] at hreread
      cases hreread
  simp only [hindex, ne_eq, not_true_eq_false, decide_false, Bool.and_false,
    Bool.false_eq_true, if_false]
  split
  · exact ⟨hnot, rfl⟩
  · exact ⟨rfl, rfl⟩

/-- A tick over an interface with the known index arrives at what the interface is. -/
theorem nextSnapshot_spec (hindex : iface.ifIndex = r.state.interface.ifIndex)
    (htick : tick.Over iface) :
    (r.nextSnapshot backend tick).1.routeReady =
        (interfaceIdentityReady iface && ready (currentFamilies r.cfg backend iface)) ∧
      (r.nextSnapshot backend tick).1.families = currentFamilies r.cfg backend iface := by
  simp only [nextSnapshot, htick.read, hindex, ne_eq, not_true_eq_false, decide_false,
    Bool.and_false, Bool.false_eq_true, if_false]
  cases hready : interfaceIdentityReady iface && ready (currentFamilies r.cfg backend iface) with
  | true =>
    exact ⟨hready, rfl⟩
  | false =>
    split
    · exact ⟨hready, rfl⟩
    split
    · split
      · exact ⟨rfl, rfl⟩
      · split
        · exact ⟨rfl, rfl⟩
        · exact repaired_spec hindex htick rfl rfl hready
    · exact ⟨hready, rfl⟩

/-- The snapshot after a tick says what the tick arrived at, published or not. -/
theorem healthTick_state (hstarted : r.started = true) :
    (r.healthTick backend tick).state.routeReady = (r.nextSnapshot backend tick).1.routeReady ∧
      (r.healthTick backend tick).state.families = (r.nextSnapshot backend tick).1.families := by
  simp only [healthTick, hstarted, Bool.not_true, Bool.false_eq_true, if_false]
  split
  · exact ⟨rfl, rfl⟩
  · rename_i hsame
    simp only [Bool.or_eq_true, decide_eq_true_eq, not_or, ne_eq, not_not] at hsame
    exact ⟨hsame.1.1.2.symm, hsame.1.2.symm⟩

theorem validate_eq (hstarted : r.started = true)
    (hindex : iface.ifIndex = r.state.interface.ifIndex) (hhealthy : backend.Healthy) :
    (r.validate backend (.ok iface)).healthy =
        (interfaceIdentityReady iface && ready (currentFamilies r.cfg backend iface)) ∧
      ((r.validate backend (.ok iface)).healthy = true →
        (r.validate backend (.ok iface)).families = currentFamilies r.cfg backend iface) := by
  have hvalidation : (backend.validation.filter fun v => !v.healthy) = none := by
    rw [Option.filter_eq_none_iff]
    intro v hv
    simp [hhealthy v hv]
  simp only [validate, hstarted, hindex, hvalidation, Bool.not_true, Bool.false_eq_true, if_false,
    ne_eq, not_true_eq_false, decide_false, Bool.and_false]
  cases interfaceIdentityReady iface with
  | false => exact ⟨rfl, fun h => by cases h⟩
  | true =>
    cases ready (currentFamilies r.cfg backend iface) with
    | false => exact ⟨rfl, fun h => by cases h⟩
    | true => exact ⟨rfl, fun _ => rfl⟩

theorem validate_eq_healthTick (hstarted : r.started = true)
    (hindex : iface.ifIndex = r.state.interface.ifIndex) (hhealthy : backend.Healthy)
    (htick : tick.Over iface) :
    (r.validate backend (.ok iface)).healthy = (r.healthTick backend tick).state.routeReady ∧
      ((r.validate backend (.ok iface)).healthy = true →
        (r.validate backend (.ok iface)).families =
          (r.healthTick backend tick).state.families) := by
  obtain ⟨hroute, hfamilies⟩ : (r.nextSnapshot backend tick).1.routeReady = _ ∧
    (r.nextSnapshot backend tick).1.families = _ := nextSnapshot_spec hindex htick
  obtain ⟨hroute', hfamilies'⟩ : (r.healthTick backend tick).state.routeReady = _ ∧
    (r.healthTick backend tick).state.families = _ := healthTick_state hstarted
  rw [hroute', hroute, hfamilies', hfamilies]
  exact validate_eq hstarted hindex hhealthy

end

end Runtime

-- === Exactness and independence ===

def ReadyExactly (cfg : Config) (iface : Interface) (expectation : Option Expectation)
    (is4 : Bool) : Prop :=
  (family (interfaceFamilyReadiness cfg iface expectation) is4).ready = true ↔
    expectedPrefixes cfg expectation is4 ≠ [] ∧
      ∀ p ∈ expectedPrefixes cfg expectation is4, p ∈ observed iface

/-- The interface of an OpenConnect Toad has addresses of a negotiated family only
    together with all the negotiated ones. -/
def NegotiatedTogether (cfg : Config) (iface : Interface) (expectation : Option Expectation)
    (is4 : Bool) : Prop :=
  cfg.protocol = .openconnect → ∀ p ∈ expectedPrefixes cfg expectation is4,
    (∃ q ∈ observed iface, routable is4 q = true) → p ∈ observed iface

theorem routable_of_mem_expectedPrefixes {cfg : Config} {expectation : Option Expectation}
    {is4 : Bool} {p : Prefix} (h : cfg.protocol = .openconnect)
    (hp : p ∈ expectedPrefixes cfg expectation is4) : routable is4 p = true := by
  simp only [expectedPrefixes, h] at hp
  split at hp
  · exact absurd hp List.not_mem_nil
  · exact (List.mem_filter.mp hp).2

theorem readyExactly_iff {cfg : Config} {iface : Interface} {expectation : Option Expectation}
    {is4 : Bool} : ReadyExactly cfg iface expectation is4 ↔
      NegotiatedTogether cfg iface expectation is4 := by
  by_cases h : cfg.protocol = .openconnect
  · rw [ReadyExactly, ready_iff_of_negotiated h]
    constructor
    · intro hexact _ p hp hobserved
      exact (hexact.mp ⟨List.ne_nil_of_mem hp, hobserved⟩).2 p hp
    intro htogether
    refine and_congr_right fun hne => ⟨fun hobserved p hp => htogether h p hp hobserved, ?_⟩
    intro hall
    obtain ⟨p, hp⟩ := List.exists_mem_of_ne_nil _ hne
    exact ⟨p, hall p hp, routable_of_mem_expectedPrefixes h hp⟩
  · exact ⟨fun _ hprotocol => absurd hprotocol h, fun _ => ready_iff_of_configured h⟩

/-- Readiness is exact where an OpenConnect interface has addresses of a negotiated family
    only together with all the negotiated ones. The families are independent and the two
    readers of the interface agree without a condition. -/
theorem family_readiness_iff (cfg : Config) (iface : Interface)
    (expectation : Option Expectation) (is4 : Bool) :
    (ReadyExactly cfg iface expectation is4 ↔ NegotiatedTogether cfg iface expectation is4) ∧
    (∀ cfg' iface' expectation', cfg.SameFamily cfg' is4 →
      SameFamily is4 (observed iface) (observed iface') →
      Expectation.SameFamily is4 expectation expectation' →
      family (interfaceFamilyReadiness cfg iface expectation) is4 =
        family (interfaceFamilyReadiness cfg' iface' expectation') is4) ∧
    (∀ (r : Runtime) (backend : Backend) (tick : Runtime.Tick), r.started = true →
      iface.ifIndex = r.state.interface.ifIndex → backend.Healthy → tick.Over iface →
      (r.validate backend (.ok iface)).healthy = (r.healthTick backend tick).state.routeReady ∧
        ((r.validate backend (.ok iface)).healthy = true →
          (r.validate backend (.ok iface)).families =
            (r.healthTick backend tick).state.families)) :=
  ⟨readyExactly_iff, fun _ _ _ => family_congr,
    fun _ _ _ => Runtime.validate_eq_healthTick⟩

def driftedInterface : Interface :=
  { name := "oc0", ifIndex := 7, mtu := 1400, addresses := ["192.168.7.7/24"] }

def negotiatedAddress : Expectation := { addresses := [⟨.v4 0x0a080002, 24⟩] }

theorem family_readiness_drifted :
    (interfaceFamilyReadiness { protocol := .openconnect } driftedInterface
      (some negotiatedAddress)).ipv4.ready = true ∧
    expectedPrefixes { protocol := .openconnect } (some negotiatedAddress) true =
      [⟨.v4 0x0a080002, 24⟩] ∧
    observed driftedInterface = [⟨.v4 0xc0a80707, 24⟩] := by
  decide +kernel

def configuredInterface : Interface :=
  { name := "awg0", ifIndex := 7, mtu := 1400, addresses := ["10.8.0.2/24", "fe80::1/64"] }

def startedRuntime : Runtime where
  cfg := { protocol := .amneziawg2, address := ["10.8.0.2/24"] }
  started := true
  state := { interface := configuredInterface }

theorem family_readiness_configured :
    (interfaceFamilyReadiness startedRuntime.cfg configuredInterface none).ipv4.ready = true ∧
    ReadyExactly startedRuntime.cfg configuredInterface none true ∧
    (startedRuntime.healthTick {} { read := .ok configuredInterface }).state.routeReady = true := by
  obtain ⟨hexact, -, hagree⟩ :=
    family_readiness_iff startedRuntime.cfg configuredInterface none true
  refine ⟨by decide +kernel, hexact.mpr fun h => (by cases h), ?_⟩
  rw [← (hagree startedRuntime {} { read := .ok configuredInterface } rfl rfl
    (fun v hv => by cases hv) ⟨rfl, .inr ⟨_, rfl⟩⟩).1]
  decide +kernel

namespace Runtime

-- === Runs of the health loop ===

/-- The runtime after ticks of the health loop, each with what the backend answers in it. -/
def after (r : Runtime) (ticks : List (Backend × Tick)) : Runtime :=
  ticks.foldl (fun r x => r.healthTick x.1 x.2) r

/-- The first state is that of the interface that `Start` has waited for. -/
def JustStarted (r : Runtime) : Prop :=
  r.started = true ∧ ∃ iface health families,
    r.state = fromHealth r.cfg iface health r.generation families

/-- The tick reads the interface of the index, and it is structurally ready. -/
def Sees (cfg : Config) (index : Int) (x : Backend × Tick) : Prop :=
  ∃ iface, x.2.read = .ok iface ∧ iface.ifIndex = index ∧
    (interfaceIdentityReady iface && ready (currentFamilies cfg x.1 iface)) = true

/-- A started runtime of the configuration whose state, if it is ready, has an interface. -/
structure Indexed (cfg : Config) (r : Runtime) : Prop where
  started : r.started = true
  cfg : r.cfg = cfg
  index : r.state.routeReady = true → 0 < r.state.interface.ifIndex

section

variable {r : Runtime} {x : Backend × Tick} {s : Snapshot}

theorem fromHealth_index {cfg : Config} {iface : Interface} {h : Health} {generation : UInt64}
    {families : RouteFamilies} (hready : (fromHealth cfg iface h generation families).routeReady) :
    0 < iface.ifIndex := by
  simp only [fromHealth, interfaceIdentityReady, Bool.and_eq_true, decide_eq_true_eq] at hready
  exact hready.1.1.1

theorem repaired_index {next : Snapshot} (hnext : next.routeReady = false)
    (hs : (r.repaired x.1 x.2 next).1 = s) (h : s.routeReady = true) : 0 < s.interface.ifIndex := by
  unfold repaired at hs
  dsimp only at hs
  repeat' split at hs
  all_goals
    subst hs
    first
    | exact fromHealth_index h
    | cases hnext.symm.trans h
    | cases h

/-- From a ready state a tick arrives at a ready one only over the same interface. -/
theorem nextSnapshot_ready (hs : (r.nextSnapshot x.1 x.2).1 = s) (h : s.routeReady = true) :
    0 < s.interface.ifIndex ∧
    (r.state.routeReady = true → 0 < r.state.interface.ifIndex →
      Sees r.cfg r.state.interface.ifIndex x ∧
        s.interface.ifIndex = r.state.interface.ifIndex) := by
  unfold nextSnapshot at hs
  cases hread : x.2.read with
  | error e =>
    simp only [hread] at hs
    subst hs
    cases h
  | ok iface =>
    simp only [hread] at hs
    split at hs
    · subst hs
      cases h
    next hchanged =>
    cases hready : interfaceIdentityReady iface && ready (currentFamilies r.cfg x.1 iface) with
    | true =>
      simp only [hready, Bool.not_true, Bool.false_and, Bool.false_eq_true, if_false] at hs
      subst hs
      have hindex : 0 < iface.ifIndex := fromHealth_index h
      refine ⟨hindex, fun _ hknown => ?_⟩
      have hsame : iface.ifIndex = r.state.interface.ifIndex := by
        simpa [hindex, hknown] using hchanged
      exact ⟨⟨iface, hread, hsame, hready⟩, hsame⟩
    | false =>
      have hlost : (fromHealth r.cfg iface x.1.health r.generation
        (currentFamilies r.cfg x.1 iface)).routeReady = false := hready
      -- only a repair can make the interface ready, and only from a state that is not
      split at hs
      · subst hs
        cases hlost.symm.trans h
      split at hs
      · split at hs
        · subst hs
          cases h
        next hunready =>
        split at hs
        · subst hs
          cases h
        exact ⟨repaired_index rfl hs h, fun hnot => absurd hnot hunready⟩
      · subst hs
        cases hlost.symm.trans h

theorem healthTick_indexed {cfg : Config} (h : r.Indexed cfg) :
    (r.healthTick x.1 x.2).Indexed cfg ∧
    (r.state.routeReady = true → (r.healthTick x.1 x.2).state.routeReady = true →
      Sees cfg r.state.interface.ifIndex x ∧
        (r.healthTick x.1 x.2).state.interface.ifIndex = r.state.interface.ifIndex) ∧
    ((r.healthTick x.1 x.2).state ≠ r.state →
      (r.healthTick x.1 x.2).revision = r.revision + 1) := by
  obtain ⟨hstarted, rfl, hindex⟩ := h
  have hnext {s : Snapshot} := nextSnapshot_ready (r := r) (x := x) (s := s)
  simp only [healthTick, hstarted, Bool.not_true, Bool.false_eq_true, if_false]
  split
  · refine ⟨⟨rfl, rfl, fun h => (hnext rfl h).1⟩, fun hr h => (hnext rfl h).2 hr (hindex hr),
      fun _ => rfl⟩
  rename_i hsame
  simp only [Bool.or_eq_true, decide_eq_true_eq, not_or, ne_eq, not_not] at hsame
  refine ⟨⟨rfl, rfl, hindex⟩, fun hr _ => ⟨?_, rfl⟩, fun hne => absurd rfl hne⟩
  exact ((hnext rfl (hsame.1.1.2.trans hr)).2 hr (hindex hr)).1

theorem after_indexed {cfg : Config} (h : r.Indexed cfg) (ticks : List (Backend × Tick)) :
    (r.after ticks).Indexed cfg := by
  induction ticks generalizing r with
  | nil => exact h
  | cons x ticks ih => exact ih (healthTick_indexed h).1

theorem JustStarted.indexed (h : r.JustStarted) : r.Indexed r.cfg := by
  obtain ⟨hstarted, iface, health, families, hstate⟩ := h
  refine ⟨hstarted, rfl, fun hready => ?_⟩
  rw [hstate] at hready ⊢
  exact fromHealth_index hready

end

/-- Two consecutive states of a started runtime that are both ready have the same
    interface, and every tick from the one to the other has read it and found it ready. So
    a ready state whose interface is lost is followed by one that is not ready, and every
    new state has a revision of its own. -/
theorem loss_is_published (r : Runtime) (h : r.JustStarted) (ticks : List (Backend × Tick)) :
    (∀ idle last, (∀ done, done <+: idle →
        ((r.after ticks).after done).state = (r.after ticks).state) →
      (r.after ticks).state.routeReady = true →
      ((r.after ticks).after (idle ++ [last])).state.routeReady = true →
      ((r.after ticks).after (idle ++ [last])).state.interface.ifIndex =
        (r.after ticks).state.interface.ifIndex ∧
      ∀ x ∈ idle ++ [last], Sees r.cfg (r.after ticks).state.interface.ifIndex x) ∧
    ∀ x : Backend × Tick,
      ((r.after ticks).state.routeReady = true →
        ¬ Sees r.cfg (r.after ticks).state.interface.ifIndex x →
        ((r.after ticks).healthTick x.1 x.2).state.routeReady = false) ∧
      (((r.after ticks).healthTick x.1 x.2).state ≠ (r.after ticks).state →
        ((r.after ticks).healthTick x.1 x.2).revision = (r.after ticks).revision + 1) := by
  have hindexed := after_indexed h.indexed ticks
  generalize r.after ticks = s at hindexed ⊢
  refine ⟨fun idle last hidle hready hlast => ?_, fun x => ⟨fun hready hnot => ?_,
    (healthTick_indexed hindexed).2.2⟩⟩
  · induction idle generalizing s with
    | nil =>
      obtain ⟨hsees, hindex⟩ := (healthTick_indexed (x := last) hindexed).2.1 hready hlast
      exact ⟨hindex, by simpa using hsees⟩
    | cons x idle ih =>
      obtain ⟨hindexed', hsees, _⟩ := healthTick_indexed (x := x) hindexed
      have hstate : (s.healthTick x.1 x.2).state = s.state := hidle [x] (by simp)
      have hrest := ih (s.healthTick x.1 x.2) hindexed'
        (fun done hdone => (hidle (x :: done) (by simpa using hdone)).trans hstate.symm)
        (hstate ▸ hready) hlast
      rw [hstate] at hrest hsees
      exact ⟨hrest.1, List.forall_mem_cons.mpr ⟨(hsees hready hready).1, hrest.2⟩⟩
  · by_contra hstill
    rw [Bool.not_eq_false] at hstill
    exact hnot ((healthTick_indexed hindexed).2.1 hready hstill).1

def readyRuntime : Runtime :=
  { startedRuntime with
    repairer := true
    state := fromHealth startedRuntime.cfg configuredInterface {} 0
      (currentFamilies startedRuntime.cfg {} configuredInterface) }

def driftTick : Tick := { read := .ok { configuredInterface with addresses := [] } }

/-- The interface loses its address for one tick: the state before the repair says so. -/
theorem loss_is_published_drift :
    (readyRuntime.after []).state.routeReady = true ∧
    ((readyRuntime.after []).healthTick {} driftTick).state.routeReady = false := by
  refine ⟨by decide +kernel, ((loss_is_published readyRuntime ⟨rfl, _, _, _, rfl⟩ []).2
    (_, driftTick)).1 (by decide +kernel) ?_⟩
  rintro ⟨iface, hread, -, hready⟩
  cases hread
  exact absurd hready (by decide +kernel)

end Runtime

end Kikimora.Toad

import Kikimora.Control.Underlay
import Mathlib.Data.List.Sort

/-!
# The snapshot that clients see

What a client renders of the manager: its own fields and those of the product
controller, which has a revision of its own. A subscription sends a snapshot when
its fingerprint has changed.
-/

namespace Kikimora.Control

open Kikimora.Core

-- === Snapshots ===

structure VisibleRole where
  id : String
  state : String
  reason : String
  endpoint : String
  published : Bool
  parked : Bool
  deriving DecidableEq, Repr

structure VisibleSnapshot where
  coreState : String
  aggregateState : String
  activeProfile : String
  profiles : List String
  underlaySummary : String
  roles : List VisibleRole
  deriving DecidableEq, Repr

def titleState (value : String) : String :=
  match value.toLower with
  | "online" => "Online"
  | "ready" => "Ready"
  | "starting" | "connecting" => "Starting"
  | "recovering" => "Recovering"
  | "degraded" => "Degraded"
  | "waitingforunderlay" | "waiting_for_underlay" => "WaitingForUnderlay"
  | "failed" => "Failed"
  | "stopped" | "disconnecting" => "Stopped"
  | _ => "Starting"

def underlaySummary (snapshot : Underlay) : String :=
  match snapshot.ipv4, snapshot.ipv6 with
  | some path, _ =>
    if path.preferredSrc.isValid then path.interface ++ " · " ++ path.preferredSrc.toString
    else path.interface
  | none, some path => path.interface
  | none, none => "Physical network unavailable"

def observedState (r : Role) : String × String :=
  match r.process with
  | none =>
    if r.enabled && r.startPending then ("Recovering", r.startReason)
    else if r.enabled && r.lastError ≠ "" then ("Failed", r.lastError)
    -- a disabled role may carry residue
    else if r.lastError ≠ "" then ("Stopped", r.lastError)
    else ("Stopped", "")
  | some _ =>
    if !r.stateValid then ("Starting", "waiting for Toad state snapshot")
    else (titleState r.observed.state, r.observed.reason)

def shownState (r : Role) (product : Option RoleRuntime) : String × String :=
  let (state, reason) := observedState r
  match product with
  | none => (state, reason)
  | some p =>
    if r.enabled && r.process.isSome && r.streamed && (!r.stateValid || p.state ≠ .starting) then
      let reason := if p.reason ≠ "" then p.reason else reason
      (p.state.text, if p.lastError ≠ "" then p.lastError else reason)
    else (state, reason)

def shownEndpoint (r : Role) (product : Option RoleRuntime) : String :=
  let live := r.process.isSome && r.stateValid && r.observed.routeReady && r.observed.connected
  let state := if live then "ready" else ""
  match product with
  | none => state
  | some p => if p.endpoint.state ≠ "" then p.endpoint.state else state

def snapshotRole (id : String) (r : Role) (product : Option RoleRuntime) : VisibleRole where
  id := id
  state := (shownState r product).1
  reason := (shownState r product).2
  endpoint := shownEndpoint r product
  published := product.any fun p => p.publication.zone ≠ "" && p.publication.published
  parked := product.any fun p => p.parking.active

/-- The aggregate of `Controller.snapshotLocked`. The roles are walked in the order of a
    Go map; the order does not matter. -/
def aggregateState (roles : List RoleRuntime) : String :=
  let desired := roles.filter fun r => r.desired
  if !desired.isEmpty && desired.all (fun r => r.state = .ready) then "Ready"
  else if roles.any fun r => r.state = .recovering then "Recovering"
  else if roles.any fun r => r.state = .waitingForUnderlay then "WaitingForUnderlay"
  else if desired.any fun r => r.state = .ready then "PartiallyReady"
  else if roles.any fun r => r.state = .failed then "Failed"
  else if roles.any fun r => r.state ≠ .stopped then "Connecting"
  else "Stopped"

namespace Manager

def profileNames (m : Manager) : List String :=
  let declared := m.declaredProfiles.filter fun p => p ≠ "" && p ≠ "default"
  ("default" :: declared ++ m.names.flatMap fun role => (m.roles role).profiles).dedup.insertionSort
    (· ≤ ·)

def snapshotRow (m : Manager) (role : String) : VisibleRole :=
  snapshotRole role (m.roles role) (m.product.roles role)

def snapshotWith (m : Manager) (rows : List VisibleRole) : VisibleSnapshot where
  coreState := "Ready"
  aggregateState := aggregateState (m.names.filterMap m.product.roles)
  activeProfile := m.activeProfile
  profiles := m.profileNames
  underlaySummary := underlaySummary m.underlay
  roles := rows

def visible (m : Manager) : VisibleSnapshot := m.snapshotWith (m.names.map m.snapshotRow)

end Manager

def fingerprintSeparator : Char := Char.ofNat 0x1f

def VisibleRole.parts (r : VisibleRole) : List String :=
  [r.id, r.state, r.reason, r.endpoint, toString r.published, toString r.parked]

def VisibleSnapshot.parts (s : VisibleSnapshot) : List String :=
  [s.coreState, s.aggregateState, s.activeProfile, s.underlaySummary, ",".intercalate s.profiles] ++
    s.roles.flatMap VisibleRole.parts

def subscriptionFingerprint (s : VisibleSnapshot) : String :=
  (String.singleton fingerprintSeparator).intercalate s.parts

-- === What of the product is shown ===

def shown (r : RoleRuntime) :=
  (r.desired, r.state, r.reason, r.lastError, r.endpoint.state, r.publication.zone,
    r.publication.published, r.parking.active)

theorem snapshotRole_congr (id : String) (r : Role) {p q : Option RoleRuntime}
    (h : p.map shown = q.map shown) : snapshotRole id r p = snapshotRole id r q := by
  cases p with
  | none =>
    cases q with
    | none => rfl
    | some q => cases h
  | some p =>
    cases q with
    | none => cases h
    | some q =>
      simp only [Option.map_some, Option.some.injEq, shown, Prod.mk.injEq] at h
      obtain ⟨_, hstate, hreason, herror, hendpoint, hzone, hpublished, hparked⟩ := h
      simp only [snapshotRole, shownState, shownEndpoint, Option.any_some, hstate, hreason, herror,
        hendpoint, hzone, hpublished, hparked]

theorem aggregateState_congr {ids : List String} {f g : String → Option RoleRuntime}
    (h : ∀ id, (f id).map shown = (g id).map shown) :
    aggregateState (ids.filterMap f) = aggregateState (ids.filterMap g) := by
  have hmap : (ids.filterMap f).map (fun r => (r.desired, r.state)) =
      (ids.filterMap g).map fun r => (r.desired, r.state) := by
    rw [List.map_filterMap, List.map_filterMap]
    congr 1
    funext id
    have hid := congrArg (Option.map fun x => (x.1, x.2.1)) (h id)
    simpa only [Option.map_map, Function.comp_def, shown] using hid
  -- every test of the aggregate is a test of these pairs
  have hview : ∀ l : List RoleRuntime, aggregateState l =
      (let pairs := l.map fun r => (r.desired, r.state)
       let desired := pairs.filter fun r => r.1
       if !desired.isEmpty && desired.all (fun r => r.2 = .ready) then "Ready"
       else if pairs.any fun r => r.2 = .recovering then "Recovering"
       else if pairs.any fun r => r.2 = .waitingForUnderlay then "WaitingForUnderlay"
       else if desired.any fun r => r.2 = .ready then "PartiallyReady"
       else if pairs.any fun r => r.2 = .failed then "Failed"
       else if pairs.any fun r => r.2 ≠ .stopped then "Connecting"
       else "Stopped") := by
    intro l
    simp only [aggregateState, List.filter_map, List.all_map, List.any_map, List.isEmpty_map,
      Function.comp_def]
  rw [hview, hview, hmap]

/-- Two managers whose records agree, and whose product roles agree in what is shown. -/
theorem visible_congr {m m' : Manager} (hnames : m'.names = m.names)
    (hrows : ∀ role, m'.snapshotRow role = m.snapshotRow role)
    (hproduct : ∀ role, (m'.product.roles role).map shown = (m.product.roles role).map shown)
    (hactive : m'.activeProfile = m.activeProfile) (hprofiles : m'.profileNames = m.profileNames)
    (hunderlay : m'.underlay = m.underlay) : m'.visible = m.visible := by
  have hrow : m'.snapshotRow = m.snapshotRow := funext hrows
  simp only [Manager.visible, Manager.snapshotWith, hnames, hrow, hactive, hprofiles, hunderlay,
    aggregateState_congr hproduct]

-- === The fingerprint ===

/-- No text has a separator in it, and no profile name a comma. -/
structure Plain (s : VisibleSnapshot) : Prop where
  texts : ∀ part ∈ s.parts, fingerprintSeparator ∉ part.toList
  profiles : ∀ profile ∈ s.profiles, ',' ∉ profile.toList
  profiled : s.profiles ≠ []

theorem intercalate_injective {sep : Char} {a b : List String}
    (ha : ∀ part ∈ a, sep ∉ part.toList) (hb : ∀ part ∈ b, sep ∉ part.toList) (hna : a ≠ [])
    (hnb : b ≠ [])
    (h : (String.singleton sep).intercalate a = (String.singleton sep).intercalate b) : a = b := by
  have split : ∀ {l : List String}, (∀ part ∈ l, sep ∉ part.toList) → l ≠ [] →
      ((String.singleton sep).intercalate l).toList.splitOn sep = l.map String.toList := by
    intro l hl hne
    rw [String.toList_intercalate, String.toList_singleton]
    refine List.splitOn_intercalate sep (fun chars hchars => ?_) (by simpa using hne)
    obtain ⟨part, hpart, rfl⟩ := List.mem_map.mp hchars
    exact hl part hpart
  have hmap : a.map String.toList = b.map String.toList := by
    rw [← split ha hna, ← split hb hnb, h]
  exact List.map_injective_iff.mpr (fun _ _ => String.toList_inj.mp) hmap

theorem toString_bool_injective {a b : Bool} (h : toString a = toString b) : a = b := by
  revert h
  cases a <;> cases b <;> decide

theorem flatMap_parts_injective : ∀ {a b : List VisibleRole},
    a.flatMap VisibleRole.parts = b.flatMap VisibleRole.parts → a = b
  | [], [], _ => rfl
  | [], r :: b, h => by simp [VisibleRole.parts] at h
  | r :: a, [], h => by simp [VisibleRole.parts] at h
  | r :: a, r' :: b, h => by
    simp only [List.flatMap_cons, VisibleRole.parts, List.cons_append, List.nil_append,
      List.cons.injEq] at h
    obtain ⟨hid, hstate, hreason, hendpoint, hpublished, hparked, hrest⟩ := h
    have hr : r = r' := by
      cases r
      cases r'
      simp only [VisibleRole.mk.injEq]
      exact ⟨hid, hstate, hreason, hendpoint, toString_bool_injective hpublished,
        toString_bool_injective hparked⟩
    rw [hr, flatMap_parts_injective hrest]

theorem fingerprint_injective {a b : VisibleSnapshot} (ha : Plain a) (hb : Plain b)
    (h : subscriptionFingerprint a = subscriptionFingerprint b) : a = b := by
  have hparts : a.parts = b.parts :=
    intercalate_injective ha.texts hb.texts (by simp [VisibleSnapshot.parts])
      (by simp [VisibleSnapshot.parts]) h
  simp only [VisibleSnapshot.parts, List.cons_append, List.nil_append, List.cons.injEq] at hparts
  obtain ⟨hcore, haggregate, hactive, hsummary, hprofiles, hroles⟩ := hparts
  have hprofiles' : a.profiles = b.profiles :=
    intercalate_injective ha.profiles hb.profiles ha.profiled hb.profiled hprofiles
  have hroles' := flatMap_parts_injective hroles
  cases a
  cases b
  simp_all

theorem fingerprint_ne_empty (s : VisibleSnapshot) : subscriptionFingerprint s ≠ "" := by
  intro h
  have hlist := congrArg String.toList h
  rw [subscriptionFingerprint, String.toList_intercalate] at hlist
  simp [VisibleSnapshot.parts, List.intercalate, fingerprintSeparator] at hlist

end Kikimora.Control

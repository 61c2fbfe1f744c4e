import Kikimora.Control.Commands

/-!
# The underlay and its epoch

An observation of the physical underlay passes the coalescer, the manager and the
product controller. Each compares it with a copy of its own, and the epoch that
results is the same in all three.
-/

namespace Kikimora.Control

open Kikimora.Core

-- === The coalescer and the manager ===

/-- A `netstate.Change`. -/
structure Change where
  snapshot : Underlay
  reason : ChangeReason
  resume : Bool
  deriving DecidableEq, Repr

/-- `Coalescer.publish` once the snapshot is built: the coalescer's new copy, and the
    change that it reports. -/
def Coalescer.publish (current next : Underlay) (resume : Bool) : Underlay × Option Change :=
  let (merged, reason, changed) := compareUnderlay current next
  if !changed && !resume then (current, none)
  else if !changed then
    let merged := { next with epoch := current.epoch }
    (merged, some ⟨merged, .resumeValidation, resume⟩)
  else (merged, some ⟨merged, reason, resume⟩)

/-- What a change does to the manager's copy and to the product; `none` when there is
    nothing to apply. -/
def takeUnderlay (underlay : Underlay) (product : Controller) (change : Change) :
    Option (Underlay × Controller) :=
  let (merged, reason, materialChanged) := compareUnderlay underlay change.snapshot
  if !materialChanged && !change.resume then none
  else if materialChanged then some (merged, product.setUnderlay merged reason)
  else
    -- a resume refreshes the observation time and keeps the epoch
    some ({ underlay with observedAt := change.snapshot.observedAt }, product)

namespace Manager

def takeUnderlayChange (m : Manager) (change : Change) : Option Manager :=
  (takeUnderlay m.underlay m.product change).map fun (underlay, product) =>
    { m with underlay := underlay, product := product }.bump

def applyUnderlayChange (m : Manager) (change : Change) : Manager :=
  match m.takeUnderlayChange change with
  | none => m
  | some m =>
    if change.resume then { m with product := m.product.requestResumeValidation } else m

end Manager

/-- The manager with the copy of a running coalescer. -/
structure Watch where
  manager : Manager
  current : Option Underlay := none
  /-- a change has reached the manager past the running coalescer -/
  direct : Bool := false

def Watch.observe (s : Watch) (next : Underlay) (resume : Bool) : Watch :=
  match s.current with
  | none => s
  | some current =>
    match Coalescer.publish current next resume with
    | (current, none) => { s with current := some current }
    | (current, some change) =>
      { s with current := some current, manager := s.manager.applyUnderlayChange change }

/-- Nothing is observed yet. -/
structure Watch.Initial (s : Watch) : Prop where
  underlay : s.manager.underlay = {}
  product : s.manager.product.underlay = {}
  current : s.current = none ∨ s.current = some {}
  direct : s.direct = false

def NoOverflow (m : Manager) (next : Underlay) : Prop :=
  identityEqual m.underlay next = false → m.underlay.epoch + 1 ≠ 0

/-- The states that follow a state. -/
inductive WatchRun (s₀ : Watch) : Watch → Prop
  | refl : WatchRun s₀ s₀
  /-- `applyUnderlayChange` is called -/
  | change {s} (h : WatchRun s₀ s) (change : Change) (hn : NoOverflow s.manager change.snapshot) :
      WatchRun s₀ { s with manager := s.manager.applyUnderlayChange change, direct := true }
  /-- the coalescer has built a snapshot -/
  | observe {s} (h : WatchRun s₀ s) (next : Underlay) (resume : Bool)
      (hn : NoOverflow s.manager next) : WatchRun s₀ (s.observe next resume)
  /-- the coalescer fails -/
  | fails {s} (h : WatchRun s₀ s) : WatchRun s₀ { s with current := none }
  /-- the coalescer is started with the manager's underlay -/
  | starts {s} (h : WatchRun s₀ s) :
      WatchRun s₀ { s with current := some s.manager.underlay, direct := false }
  /-- any other step of the manager or of the product -/
  | other {s} (h : WatchRun s₀ s) (m : Manager) (hm : m.underlay = s.manager.underlay)
      (hp : m.product.underlay = s.manager.product.underlay) :
      WatchRun s₀ { s with manager := m }

def SameUnderlay (a b : Underlay) : Prop := a.epoch = b.epoch ∧ identityEqual a b = true

/-- What an observation does: it counts exactly when its identity is new, and its
    metadata alone is not noticed. A resume invalidates the roles whatever the
    observation says. -/
structure EpochLaw (m m' : Manager) (next : Underlay) (resume : Bool) : Prop where
  epoch : m'.underlay.epoch.toNat =
    m.underlay.epoch.toNat + if identityEqual m.underlay next then 0 else 1
  identity : identityEqual m'.underlay next = true
  unnoticed : identityEqual m.underlay next = true → resume = false → m' = m
  resumed : identityEqual m.underlay next = true → resume = true →
    m'.product = m.product.requestResumeValidation

-- === Identities ===

section

variable {a b c : Underlay}

theorem identityEqual_iff :
    identityEqual a b = true ↔ a.ipv4 = b.ipv4 ∧ a.ipv6 = b.ipv6 ∧ a.bssid = b.bssid := by
  simp [identityEqual, and_assoc]

theorem identityEqual_refl (a : Underlay) : identityEqual a a = true :=
  identityEqual_iff.mpr ⟨rfl, rfl, rfl⟩

theorem identityEqual_symm (h : identityEqual a b = true) : identityEqual b a = true := by
  obtain ⟨h4, h6, hb⟩ := identityEqual_iff.mp h
  exact identityEqual_iff.mpr ⟨h4.symm, h6.symm, hb.symm⟩

theorem identityEqual_trans (h : identityEqual a b = true) (h' : identityEqual b c = true) :
    identityEqual a c = true := by
  obtain ⟨h4, h6, hb⟩ := identityEqual_iff.mp h
  obtain ⟨h4', h6', hb'⟩ := identityEqual_iff.mp h'
  exact identityEqual_iff.mpr ⟨h4.trans h4', h6.trans h6', hb.trans hb'⟩

theorem identityEqual_congr (h : identityEqual a b = true) (c : Underlay) :
    identityEqual a c = identityEqual b c := by
  obtain ⟨h4, h6, hb⟩ := identityEqual_iff.mp h
  unfold identityEqual
  rw [h4, h6, hb]

theorem identityEqual_congr_right (h : identityEqual b c = true) (a : Underlay) :
    identityEqual a b = identityEqual a c := by
  obtain ⟨h4, h6, hb⟩ := identityEqual_iff.mp h
  unfold identityEqual
  rw [h4, h6, hb]

theorem SameUnderlay.refl (a : Underlay) : SameUnderlay a a := ⟨rfl, identityEqual_refl a⟩

/-- `Compare` keeps an observation of the same identity and gives it the old epoch. -/
theorem compareUnderlay_same (h : identityEqual a b = true) :
    compareUnderlay a b = ({ b with epoch := a.epoch }, .unspecified, false) := by
  simp [compareUnderlay, h]

theorem compareUnderlay_differs (h : identityEqual a b = false) :
    ∃ reason, compareUnderlay a b = ({ b with epoch := a.epoch + 1 }, reason, true) := by
  by_cases h0 : a.epoch = 0
  · exact ⟨.initial, by simp [compareUnderlay, h, h0]⟩
  · exact ⟨changeReason a b, by simp [compareUnderlay, h, h0]⟩

end

variable {next : Underlay}

theorem toNat_succ_of_ne {e : UInt64} (h : e + 1 ≠ 0) : (e + 1).toNat = e.toNat + 1 := by
  have hlt := e.toNat_lt
  have hne : (e + 1).toNat ≠ 0 := fun h0 => h (UInt64.toNat_inj.mp h0)
  simp only [UInt64.toNat_add, UInt64.reduceToNat] at hne ⊢
  omega

theorem lt_succ_of_ne {e : UInt64} (h : e + 1 ≠ 0) : e < e + 1 := by
  rw [UInt64.lt_iff_toNat_lt, toNat_succ_of_ne h]
  omega

-- === One change ===

theorem setUnderlay_later {c : Controller} (h : c.underlay.epoch < next.epoch)
    (reason : ChangeReason) : c.setUnderlay next reason = c.applyUnderlay next reason := by
  have h0 : next.epoch ≠ 0 := fun h0 => by
    rw [h0] at h
    exact absurd h UInt64.not_lt_zero
  have hle : ¬next.epoch < c.underlay.epoch := UInt64.not_lt.mpr (UInt64.le_of_lt h)
  have hne : next.epoch ≠ c.underlay.epoch := (UInt64.ne_of_lt h).symm
  rw [Controller.setUnderlay, if_neg h0, if_neg hle, if_neg hne]

namespace Manager

variable {m : Manager} {change : Change}

theorem applyUnderlayChange_unnoticed (h : identityEqual m.underlay change.snapshot = true)
    (hr : change.resume = false) : m.applyUnderlayChange change = m := by
  simp [applyUnderlayChange, takeUnderlayChange, takeUnderlay, compareUnderlay_same h, hr]

theorem applyUnderlayChange_resumed (h : identityEqual m.underlay change.snapshot = true)
    (hr : change.resume = true) :
    (m.applyUnderlayChange change).underlay =
        { m.underlay with observedAt := change.snapshot.observedAt } ∧
      (m.applyUnderlayChange change).product = m.product.requestResumeValidation := by
  simp [applyUnderlayChange, takeUnderlayChange, takeUnderlay, compareUnderlay_same h, hr, bump]

theorem applyUnderlayChange_differs (h : identityEqual m.underlay change.snapshot = false) :
    (m.applyUnderlayChange change).underlay =
        { change.snapshot with epoch := m.underlay.epoch + 1 } ∧
      ∃ reason, (m.applyUnderlayChange change).product.underlay =
        (m.product.setUnderlay { change.snapshot with epoch := m.underlay.epoch + 1 }
          reason).underlay := by
  obtain ⟨reason, hc⟩ := compareUnderlay_differs h
  cases hr : change.resume
  all_goals
    simp only [applyUnderlayChange, takeUnderlayChange, takeUnderlay, hc, hr, Bool.not_true,
      Bool.false_and, Bool.false_eq_true, if_false, if_true, Option.map_some, bump]
    exact ⟨trivial, reason, rfl⟩

theorem epochLaw_applyUnderlayChange (hn : NoOverflow m change.snapshot) :
    EpochLaw m (m.applyUnderlayChange change) change.snapshot change.resume := by
  cases h : identityEqual m.underlay change.snapshot with
  | true =>
    cases hr : change.resume with
    | false =>
      rw [applyUnderlayChange_unnoticed h hr]
      exact ⟨by simp [h], h, fun _ _ => rfl, fun _ h' => by cases h'⟩
    | true =>
      obtain ⟨hu, hp⟩ := applyUnderlayChange_resumed h hr
      refine ⟨by simp [hu, h], ?_, fun _ h' => (by cases h'), fun _ _ => hp⟩
      rw [hu]
      exact h
  | false =>
    obtain ⟨hu, _⟩ := applyUnderlayChange_differs h
    refine ⟨?_, ?_, fun h' => ?_, fun h' => ?_⟩
    · rw [hu, h]
      exact toNat_succ_of_ne (hn h)
    · rw [hu]
      exact identityEqual_iff.mpr ⟨rfl, rfl, rfl⟩
    all_goals
      rw [h] at h'
      cases h'

/-- The controller follows the manager: it never drops a change and never numbers one
    anew. -/
theorem sameUnderlay_applyUnderlayChange (hs : SameUnderlay m.product.underlay m.underlay)
    (hn : NoOverflow m change.snapshot) :
    SameUnderlay (m.applyUnderlayChange change).product.underlay
      (m.applyUnderlayChange change).underlay := by
  cases h : identityEqual m.underlay change.snapshot with
  | true =>
    cases hr : change.resume with
    | false =>
      rw [applyUnderlayChange_unnoticed h hr]
      exact hs
    | true =>
      obtain ⟨hu, hp⟩ := applyUnderlayChange_resumed h hr
      rw [hu, hp]
      exact hs
  | false =>
    obtain ⟨hu, reason, hp⟩ := applyUnderlayChange_differs h
    have hlt : m.product.underlay.epoch < m.underlay.epoch + 1 := by
      rw [hs.1]
      exact lt_succ_of_ne (hn h)
    rw [hu, hp, setUnderlay_later hlt]
    exact SameUnderlay.refl _

end Manager

-- === One observation ===

/-- The coalescer drops an observation of the identity that it has, or hands it on with
    the next epoch of its own copy. -/
theorem publish_cases (current next : Underlay) (resume : Bool) :
    (Coalescer.publish current next resume = (current, none) ∧
        identityEqual current next = true ∧ resume = false) ∨
      ∃ u reason, Coalescer.publish current next resume = (u, some ⟨u, reason, resume⟩) ∧
        u = { next with
          epoch := if identityEqual current next then current.epoch else current.epoch + 1 } := by
  cases h : identityEqual current next with
  | true =>
    cases resume with
    | false => exact .inl ⟨by simp [Coalescer.publish, compareUnderlay_same h], rfl, rfl⟩
    | true =>
      exact .inr ⟨_, .resumeValidation, by simp [Coalescer.publish, compareUnderlay_same h], rfl⟩
  | false =>
    obtain ⟨reason, hc⟩ := compareUnderlay_differs h
    exact .inr ⟨_, reason, by simp [Coalescer.publish, hc], rfl⟩

theorem EpochLaw.congr {m m' : Manager} {u : Underlay} {resume : Bool} (h : EpochLaw m m' u resume)
    (hu : identityEqual u next = true) : EpochLaw m m' next resume := by
  have hm : identityEqual m.underlay next = identityEqual m.underlay u :=
    (identityEqual_congr_right hu _).symm
  refine ⟨hm ▸ h.epoch, identityEqual_trans h.identity hu, fun h' => h.unnoticed (hm ▸ h'),
    fun h' => h.resumed (hm ▸ h')⟩

namespace Watch

variable {s : Watch}

def Coalesced (s : Watch) : Prop :=
  ∀ current, s.current = some current → SameUnderlay current s.manager.underlay

/-- An observation that passes the coalescer reaches the manager as one change at most,
    and under its own identity. -/
theorem observe_cases (s : Watch) (next : Underlay) (resume : Bool) :
    (s.observe next resume).manager = s.manager ∨
      ∃ change, identityEqual change.snapshot next = true ∧
        (s.observe next resume).manager = s.manager.applyUnderlayChange change := by
  unfold observe
  cases hc : s.current with
  | none => exact .inl rfl
  | some current =>
    rcases publish_cases current next resume with ⟨hp, _, _⟩ | ⟨u, reason, hp, hu⟩
    · exact .inl (by simp only [hp])
    · simp only [hp]
      exact .inr ⟨⟨u, reason, resume⟩, hu ▸ identityEqual_iff.mpr ⟨rfl, rfl, rfl⟩, rfl⟩

/-- The epoch law for an observation that passes a coalescer in step with the manager, and
    the two stay in step. -/
theorem Coalesced.observe (h : s.Coalesced) (hrun : s.current ≠ none) {resume : Bool}
    (hn : NoOverflow s.manager next) :
    EpochLaw s.manager (s.observe next resume).manager next resume ∧
      (s.observe next resume).Coalesced := by
  obtain ⟨current, hc⟩ := Option.ne_none_iff_exists'.mp hrun
  have hsame := h current hc
  have hid : identityEqual current next = identityEqual s.manager.underlay next :=
    identityEqual_congr hsame.2 next
  unfold Watch.observe
  rw [hc]
  rcases publish_cases current next resume with ⟨hp, hnext, hr⟩ | ⟨u, reason, hp, hu⟩
  · simp only [hp]
    rw [hid] at hnext
    refine ⟨⟨by simp [hnext], hnext, fun _ _ => rfl, fun _ h' => ?_⟩, fun c hc' => ?_⟩
    · rw [hr] at h'
      cases h'
    · cases hc'
      exact hsame
  · simp only [hp]
    have hiu : identityEqual u next = true := hu ▸ identityEqual_iff.mpr ⟨rfl, rfl, rfl⟩
    have hiu' := identityEqual_congr_right hiu s.manager.underlay
    have hn' : NoOverflow s.manager u := fun h' => hn (hiu' ▸ h')
    have hlaw : EpochLaw s.manager (s.manager.applyUnderlayChange ⟨u, reason, resume⟩) u resume :=
      Manager.epochLaw_applyUnderlayChange hn'
    refine ⟨hlaw.congr hiu, fun c hc' => ?_⟩
    cases hc'
    refine ⟨UInt64.toNat_inj.mp ?_, identityEqual_symm hlaw.identity⟩
    rw [hlaw.epoch, hiu', hu, hid, hsame.1]
    split
    · rfl
    · next hdiff => exact toNat_succ_of_ne (hn (by simpa using hdiff))

end Watch

-- === Runs ===

theorem NoOverflow.of_identity {m : Manager} {u : Underlay} (h : NoOverflow m next)
    (hu : identityEqual u next = true) : NoOverflow m u :=
  fun h' => h (identityEqual_congr_right hu m.underlay ▸ h')

namespace WatchRun

variable {s₀ s : Watch}

/-- The controller's underlay is the manager's, and a coalescer that has run alone since
    it started is in step. -/
theorem sameUnderlay (h0 : s₀.Initial) (h : WatchRun s₀ s) :
    SameUnderlay s.manager.product.underlay s.manager.underlay ∧
      (s.direct = false → s.Coalesced) := by
  induction h with
  | refl =>
    refine ⟨by rw [h0.product, h0.underlay]; exact .refl _, fun _ current hc => ?_⟩
    rcases h0.current with h | h
    · rw [h] at hc
      cases hc
    rw [h] at hc
    cases hc
    rw [h0.underlay]
    exact .refl _
  | change h change hn ih =>
    exact ⟨Manager.sameUnderlay_applyUnderlayChange ih.1 hn, fun h' => by cases h'⟩
  | @observe s h next resume hn ih =>
    have hdirect : (s.observe next resume).direct = s.direct := by
      unfold Watch.observe
      split
      · rfl
      · split <;> rfl
    refine ⟨?_, fun h' => ?_⟩
    · rcases s.observe_cases next resume with hm | ⟨change, hid, hm⟩
      · rw [hm]
        exact ih.1
      · rw [hm]
        exact Manager.sameUnderlay_applyUnderlayChange ih.1 (NoOverflow.of_identity hn hid)
    · have hco := ih.2 (hdirect ▸ h')
      by_cases hrun : s.current = none
      · rw [show s.observe next resume = s by simp only [Watch.observe, hrun]]
        exact hco
      · exact (hco.observe hrun hn).2
  | fails h ih => exact ⟨ih.1, fun _ _ hc => by cases hc⟩
  | starts h ih =>
    refine ⟨ih.1, fun _ current hc => ?_⟩
    cases hc
    exact .refl _
  | other h m hm hp ih =>
    refine ⟨by rw [hp, hm]; exact ih.1, fun hd current hc => ?_⟩
    show SameUnderlay current m.underlay
    rw [hm]
    exact ih.2 hd current hc

theorem identity_of_epoch (h : WatchRun s₀ s) :
    s₀.manager.underlay.epoch.toNat ≤ s.manager.underlay.epoch.toNat ∧
      (s.manager.underlay.epoch = s₀.manager.underlay.epoch →
        identityEqual s.manager.underlay s₀.manager.underlay = true) := by
  -- one change either keeps the identity or counts
  have step : ∀ {m : Manager} {change : Change}, NoOverflow m change.snapshot →
      s₀.manager.underlay.epoch.toNat ≤ m.underlay.epoch.toNat →
      (m.underlay.epoch = s₀.manager.underlay.epoch →
        identityEqual m.underlay s₀.manager.underlay = true) →
      s₀.manager.underlay.epoch.toNat ≤ (m.applyUnderlayChange change).underlay.epoch.toNat ∧
        ((m.applyUnderlayChange change).underlay.epoch = s₀.manager.underlay.epoch →
          identityEqual (m.applyUnderlayChange change).underlay s₀.manager.underlay = true) := by
    intro m change hn hle hid
    have hlaw := Manager.epochLaw_applyUnderlayChange hn
    have hepoch := hlaw.epoch
    cases hsame : identityEqual m.underlay change.snapshot with
    | true =>
      simp only [hsame, if_true, Nat.add_zero] at hepoch
      refine ⟨by omega, fun he => ?_⟩
      rw [identityEqual_congr hlaw.identity, ← identityEqual_congr hsame]
      exact hid (by rw [← he]; exact (UInt64.toNat_inj.mp hepoch).symm)
    | false =>
      simp only [hsame, Bool.false_eq_true, if_false] at hepoch
      refine ⟨by omega, fun he => ?_⟩
      rw [he] at hepoch
      omega
  induction h with
  | refl => exact ⟨le_refl _, fun _ => identityEqual_refl _⟩
  | change h change hn ih => exact step hn ih.1 ih.2
  | @observe s h next resume hn ih =>
    rcases s.observe_cases next resume with hm | ⟨change, hid, hm⟩
    · rw [hm]
      exact ih
    · rw [hm]
      exact step (NoOverflow.of_identity hn hid) ih.1 ih.2
  | fails h ih => exact ih
  | starts h ih => exact ih
  | other h m hm hp ih =>
    show s₀.manager.underlay.epoch.toNat ≤ m.underlay.epoch.toNat ∧ _
    rw [hm]
    exact ih

/-- The epoch law. The controller has the manager's epoch and identity in every state; a
    change that reaches the manager, and an observation that passes the coalescer, count
    exactly when their identity is new; and in one run an epoch stands for one identity. -/
theorem epoch_law (h₀ : s₀.Initial) (h : WatchRun s₀ s) :
    SameUnderlay s.manager.product.underlay s.manager.underlay ∧
      (∀ change, NoOverflow s.manager change.snapshot →
        EpochLaw s.manager (s.manager.applyUnderlayChange change) change.snapshot change.resume) ∧
      (∀ next resume, s.current ≠ none → s.direct = false → NoOverflow s.manager next →
        EpochLaw s.manager (s.observe next resume).manager next resume) ∧
      ∀ s', WatchRun s s' → s'.manager.underlay.epoch = s.manager.underlay.epoch →
        identityEqual s'.manager.underlay s.manager.underlay = true := by
  obtain ⟨hsame, hco⟩ := sameUnderlay h₀ h
  exact ⟨hsame, fun change hn => Manager.epochLaw_applyUnderlayChange hn,
    fun next resume hrun hd hn => ((hco hd).observe hrun hn).1,
    fun s' h' => (identity_of_epoch h').2⟩

def wiredUnderlay : Underlay := { ipv4 := some ⟨4, 2, "eth0", .zero, .zero, 1500, 254, 100⟩ }

def freshWatch : Watch := { manager := Manager.readyManager, current := some {} }

/-- The first path has epoch one, and another connection id on it is not noticed. -/
theorem epoch_law_wired :
    (freshWatch.observe wiredUnderlay false).manager.underlay.epoch = 1 ∧
      (freshWatch.observe wiredUnderlay false).manager.product.underlay.epoch = 1 ∧
      ((freshWatch.observe wiredUnderlay false).observe
          { wiredUnderlay with connectionID := "home" } false).manager =
        (freshWatch.observe wiredUnderlay false).manager := by
  have h₀ : freshWatch.Initial := ⟨rfl, rfl, .inr rfl, rfl⟩
  have hn : NoOverflow freshWatch.manager wiredUnderlay := fun _ => by decide
  have hrun : WatchRun freshWatch (freshWatch.observe wiredUnderlay false) :=
    .observe .refl wiredUnderlay false hn
  obtain ⟨hsame, _, hobserve, _⟩ := epoch_law h₀ hrun
  have hlaw := hobserve { wiredUnderlay with connectionID := "home" } false (fun h => by cases h)
    rfl (fun h => by cases h)
  exact ⟨rfl, hsame.1, hlaw.unnoticed rfl rfl⟩

/-- A path that reaches the manager past the coalescer. -/
def bypassed : Watch :=
  { freshWatch with
    manager := freshWatch.manager.applyUnderlayChange ⟨wiredUnderlay, .initial, false⟩
    direct := true }

/-- The coalescer drops the loss of a path that it has not seen: the identity is not the
    stored one, and the epoch stays. -/
theorem bypassed_keeps_epoch :
    freshWatch.Initial ∧ WatchRun freshWatch bypassed ∧ bypassed.manager.underlay.epoch = 1 ∧
      identityEqual bypassed.manager.underlay {} = false ∧
      (bypassed.observe {} false).manager.underlay.epoch = 1 :=
  ⟨⟨rfl, rfl, .inr rfl, rfl⟩, .change .refl _ fun _ => by decide, by decide, by decide, by decide⟩

end WatchRun

end Kikimora.Control

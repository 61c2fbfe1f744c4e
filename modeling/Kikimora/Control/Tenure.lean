import Kikimora.Control.Faults
import Kikimora.Control.Parking
import Kikimora.Platform.Contract
import Kikimora.Routing.Evidence

/-!
# Transactions on one record

A transaction works on the record of one prefix and leaves the others alone. What has
to hold while it runs is told in several ways, and each time rests on the same points:
which rows the record has to name, that a row is written ahead, and when the park may
go. The transactions are followed once, for whatever is kept at these points.
-/

namespace Kikimora.Routing

def SelectedRoute.NamesRow (e : SelectedRoute) : SelectedKernelRow → Prop
  | .route i => e.Names i
  | .park i => e.NamesPark i
  | .foreign _ => False

def SelectedRoute.Authorizes (e : SelectedRoute) : SelectedKernelRow → Prop
  | .route i => e.state = .applying ∧ e.desired = i
  | .park i => ∃ p, e.park = some p ∧ p.state = .applying ∧ p.desired = i
  | .foreign _ => False

def RecordTransition.Plain : RecordTransition → Prop
  | .markActive _ | .markParkActive _ | .reservePark _ _ | .clearPark => False
  | _ => True

/-- The transition changes nothing but the park of the record. -/
def RecordTransition.OnPark : RecordTransition → Prop
  | .markParkApplying | .markParkActive _ | .reservePark _ _ | .markParkRetiring | .clearPark =>
    True
  | _ => False

variable {e e' : SelectedRoute} {row : SelectedKernelRow} {t : RecordTransition}

theorem SelectedRoute.Authorizes.namesRow (h : e.Authorizes row) : e.NamesRow row := by
  cases row with
  | route i => exact .inr (.inl ⟨h.2, h.1⟩)
  | park i =>
    obtain ⟨p, hp, hs, hd⟩ := h
    exact ⟨p, hp, .inr (.inl ⟨hd, hs⟩)⟩
  | foreign text => exact h

theorem SelectedRoute.NamesRow.authorizedBy (hw : e.WellFormed) (h : e.NamesRow row) :
    row.AuthorizedBy e := by
  cases row with
  | route i =>
    rcases h with h | ⟨h, _⟩ | ⟨h, _⟩
    · exact .inr h
    · exact .inl h.symm
    · exact .inl h.symm
  | park i =>
    obtain ⟨p, hp, hn⟩ := h
    simp only [SelectedKernelRow.AuthorizedBy, parkRowAuthorized, hp]
    cases hs : p.state with
    | pending | active =>
      simpa [SelectedPark.authorizesRow, hs] using hn.owned (by simp [hs]) (by simp [hs])
    | applying =>
      rcases hn with hn | ⟨hn, _⟩ | ⟨_, hr, _⟩
      · simp [SelectedPark.authorizesRow, hs, hn]
      · simp [SelectedPark.authorizesRow, hs, hn]
      · simp [hs] at hr
    | retiring =>
      rcases hn with hn | ⟨_, ha⟩ | ⟨hn, _, hr⟩
      · simp [SelectedPark.authorizesRow, hs, hn]
      · simp [hs] at ha
      · simp [SelectedPark.authorizesRow, hs, hn, hr]
    | other text => exact absurd hs ((hw.park p hp).known text)
  | foreign text => exact h

theorem RecordTransition.Edits.namesRow (hedit : t.Edits e e') (ht : t.Plain)
    (hn : e.NamesRow row) :
    e'.NamesRow row := by
  cases row with
  | route x => exact hedit.names hn fun _ h => by subst h; exact ht.elim
  | park x =>
    exact hedit.namesPark hn (fun _ h => by subst h; exact ht.elim)
      (fun _ _ h => by subst h; exact ht.elim) fun h => by subst h; exact ht.elim
  | foreign text => exact hn

end Kikimora.Routing

namespace Kikimora.Control

open Net Routing Platform Lib

/-- The call changes no route. -/
def Reads {β : Type} : RouteCall β → Prop
  | .reconcileSelectedRoute _ _ | .removeSelectedRoute _ | .reconcileManagedPark _ _ _
  | .removeManagedPark _ _ _ => False
  | _ => True

theorem Reads.plan {β : Type} {c : RouteCall β} (h : Reads c) (p : RoutePlatform) (k : Kernel) :
    (c.plan p k).2 = [] := by
  cases c <;> first | rfl | cases h

theorem scanBeforeUnpark_eq_ok {pfx : Prefix} {desired : SelectedRouteIdentity}
    {park : SelectedParkIdentity} {rows : List SelectedKernelRow} {seen : Bool}
    (h : scanBeforeUnpark pfx desired park rows seen = .ok true) :
    seen = true ∨ .route desired ∈ rows := by
  induction rows generalizing seen with
  | nil =>
    cases h
    exact .inl rfl
  | cons row rows ih =>
    cases row with
    | foreign text => cases h
    | park i =>
      unfold scanBeforeUnpark at h
      split_ifs at h
      exact (ih h).imp_right (List.mem_cons_of_mem _)
    | route i =>
      rcases ih h with hseen | hmem
      · rcases Bool.or_eq_true_iff.mp hseen with hs | hi
        · exact .inl hs
        · exact .inr (List.mem_cons.mpr (.inl (by rw [of_decide_eq_true hi])))
      · exact .inr (List.mem_cons_of_mem _ hmem)

/-- Between two steps of a transaction that keeps `I` the record of the prefix is `e`. -/
structure Held {L : Type} (I : World → L → Prop) (role : String) (pfx : Prefix) (e : SelectedRoute)
    (w : World) (l : L) : Prop where
  inv : I w l
  lookup : w.registry.lookup ⟨role, pfx⟩ = some e

/-- What the operations of a role keep, with the rules of the single steps. -/
structure Tenure {L : Type} (H : History L)
    (G : ∀ ⦃β : Type⦄, RouteCall β → World → L → Prop) (cfg : Config) (role : String) where
  /-- between two transactions -/
  Inv : World → L → Prop
  /-- during a transaction on the prefix that began in the first world -/
  At : Prefix → World → World → L → Prop
  /-- the rows of the prefix that its record has to name -/
  Live : Prefix → Kernel → L → SelectedKernelRow → Prop
  /-- the row was written ahead -/
  Ahead : Prefix → World → L → SelectedKernelRow → Prop
  /-- the park of the record may be deleted -/
  Unparks : Prefix → SelectedRoute → Kernel → L → Prop
  /-- the transitions that may occur -/
  May : RecordTransition → Prop
  onPark : ∀ {t}, t.OnPark → May t
  wellFormed : ∀ {w l}, Inv w l → w.registry.WellFormed
  start : ∀ {w l} pfx, Inv w l → At pfx w w l
  done : ∀ {pfx base w l}, At pfx base w l → Inv w l
  elsewhere : ∀ {pfx base w l k}, At pfx base w l → k ≠ ⟨role, pfx⟩ →
    w.registry.lookup k = base.registry.lookup k
  /-- the memory of the process beside the registry plays no part -/
  memory : ∀ {pfx base w l m}, At pfx base w l → m.registry = w.registry →
    At pfx base (w.withMemory m) l
  record : ∀ {pfx base e w l} {Q : Unit → World × L → Prop} t, May t →
    Held (At pfx base) role pfx e w l →
    (∀ e', t.Edits e e' → ∀ row, Live pfx w.kernel l row → e.NamesRow row → e'.NamesRow row) →
    (∀ e' w', t.Edits e e' → Held (At pfx base) role pfx e' w' l →
      (Unparks pfx e' w.kernel l → Unparks pfx e' w'.kernel l) → Q () (w', l)) →
    (registry fun r => t.apply r role pfx).Keeps (faulty H G (At pfx base)) Q (w, l)
  checkpoint : ∀ {pfx base e w l} {Q : Unit → World × L → Prop},
    Held (At pfx base) role pfx e w l →
    (∀ w' l', Held (At pfx base) role pfx e w' l' →
      (∀ row, e.Authorizes row → Ahead pfx w' l' row) →
      (Unparks pfx e w.kernel l → Unparks pfx e w'.kernel l') → Q () (w', l')) →
    (checkpoint cfg role).Keeps (faulty H G (At pfx base)) Q (w, l)
  reads : ∀ {β pfx base e w l} {c : RouteCall β} {Q : β → World × L → Prop}, Reads c →
    Held (At pfx base) role pfx e w l →
    (∀ b w' l', (c.plan w.platform w.kernel).1 = .ok b → Held (At pfx base) role pfx e w' l' →
      w'.kernel = w.kernel → (∀ row, Live pfx w.kernel l' row → Live pfx w.kernel l row) →
      (Unparks pfx e w.kernel l → Unparks pfx e w.kernel l') → Q b (w', l')) →
    (routes c).Keeps (faulty H G (At pfx base)) Q (w, l)
  reconcilePark : ∀ {pfx base e w l p} {Q : SelectedParkReconcileResult → World × L → Prop},
    Held (At pfx base) role pfx e w l → e.park = some p → p.state = .applying →
    Ahead pfx w l (.park p.desired) →
    (∀ result w' l', Held (At pfx base) role pfx e w' l' →
      (∀ i, Live pfx w'.kernel l' (.park i) → i = result.verified) → Q result (w', l')) →
    (routes (.reconcileManagedPark role pfx e)).Keeps (faulty H G (At pfx base)) Q (w, l)
  removePark : ∀ {pfx base e w l p} {Q : Unit → World × L → Prop},
    Held (At pfx base) role pfx e w l → e.park = some p → p.state = .retiring →
    Unparks pfx e w.kernel l →
    (∀ w' l', Held (At pfx base) role pfx e w' l' →
      (∀ i, ¬ Live pfx w'.kernel l' (.park i)) → Q () (w', l')) →
    (routes (.removeManagedPark role pfx p)).Keeps (faulty H G (At pfx base)) Q (w, l)
  reconcileRoute : ∀ {pfx base e w l desired} {Q : SelectedReconcileResult → World × L → Prop},
    (∀ t, May t) → Held (At pfx base) role pfx e w l → e.state = .applying →
    desired.pfx = pfx → Ahead pfx w l (.route e.desired) →
    (∀ result w' l', Held (At pfx base) role pfx e w' l' →
      (∀ i, Live pfx w'.kernel l' (.route i) → i = result.verified) → Q result (w', l')) →
    (routes (.reconcileSelectedRoute desired e)).Keeps (faulty H G (At pfx base)) Q (w, l)
  retiring : ∀ {pfx e e' k l}, RecordTransition.markParkRetiring.Edits e e' →
    Unparks pfx e k l → Unparks pfx e' k l
  /-- the park is gone, or stands behind the selected row -/
  proven : ∀ {pfx e p k l}, e.park = some p → p.owned = some p.desired → e.owned = some e.desired →
    (.route e.desired ∈ k pfx ∨ .park p.desired ∉ k pfx) → Unparks pfx e k l

namespace Tenure

variable {L : Type} {H : History L} {G : ∀ ⦃β : Type⦄, RouteCall β → World → L → Prop}
  {cfg : Config} {role : String} {pfx : Prefix} {base w : World} {l : L} {e : SelectedRoute}
  {p : SelectedPark} {d : SelectedParkIdentity} {α : Type} {Q : α → World × L → Prop}
  {rest : ManagerM α}

abbrev setting (T : Tenure H G cfg role) (pfx : Prefix) (base : World) :
    Setting Effect (World × L) :=
  faulty H G (T.At pfx base)

abbrev Holds (T : Tenure H G cfg role) (pfx : Prefix) (base : World) :
    SelectedRoute → World → L → Prop :=
  Held (T.At pfx base) role pfx

def Keeps (T : Tenure H G cfg role) (pfx : Prefix) (base : World) (program : ManagerM α) (w : World)
    (l : L) : Prop :=
  program.Keeps (T.setting pfx base) (fun _ _ => True) (w, l)

variable (T : Tenure H G cfg role)

section Steps

variable (h : T.Holds pfx base e w l)

include h

theorem pfx_eq : e.pfx = pfx := (T.wellFormed (T.done h.inv)).pfx_eq h.lookup

theorem deref {Q : SelectedRoute → World × L → Prop} (hQ : Q e (w, l)) :
    (registryEntryDeref role pfx).Keeps (T.setting pfx base) Q (w, l) := by
  refine .step (keeps_read h.inv ?_)
  rw [registryEntryOf_eq (T.wellFormed (T.done h.inv)), h.lookup]
  exact .ret h.inv hQ

/-- A transition and its checkpoint. -/
theorem stored (t : RecordTransition) (ht : T.May t)
    (hkeep : ∀ e', t.Edits e e' → ∀ row, T.Live pfx w.kernel l row → e.NamesRow row →
      e'.NamesRow row)
    (hrest : ∀ e' w' l', t.Edits e e' → T.Holds pfx base e' w' l' →
      (∀ row, e'.Authorizes row → T.Ahead pfx w' l' row) →
      (T.Unparks pfx e' w.kernel l → T.Unparks pfx e' w'.kernel l') →
      rest.Keeps (T.setting pfx base) Q (w', l')) :
    ((registry fun r => t.apply r role pfx).bind fun _ => (Control.checkpoint cfg role).bind
      fun _ => rest).Keeps (T.setting pfx base) Q (w, l) :=
  .step (T.record t ht h hkeep fun e1 _ hedit h1 hu1 => .step (T.checkpoint h1
    fun w2 l2 h2 ha hu2 => hrest e1 w2 l2 hedit h2 ha (hu2 ∘ hu1)))

theorem plain (t : RecordTransition) (ht : T.May t) (hplain : t.Plain)
    (hrest : ∀ e' w' l', t.Edits e e' → T.Holds pfx base e' w' l' →
      (∀ row, e'.Authorizes row → T.Ahead pfx w' l' row) →
      (T.Unparks pfx e' w.kernel l → T.Unparks pfx e' w'.kernel l') →
      rest.Keeps (T.setting pfx base) Q (w', l')) :
    ((registry fun r => t.apply r role pfx).bind fun _ => (Control.checkpoint cfg role).bind
      fun _ => rest).Keeps (T.setting pfx base) Q (w, l) :=
  T.stored h t ht (fun _ hedit _ _ hn => hedit.namesRow hplain hn) hrest

-- === Parks ===

theorem applyParkTransaction (hp : e.park = some p) :
    T.Keeps pfx base (applyParkTransaction cfg role pfx d e) w l := by
  have hpfx := T.pfx_eq h
  refine T.plain h .markParkApplying (T.onPark trivial) trivial fun e1 w1 l1 hedit h1 ha _ => ?_
  refine .step (keeps_read h1.inv ?_)
  -- the record read earlier shows the park of the registry
  obtain ⟨q, hq, hqs, hshared⟩ : ∃ q, e1.park = some q ∧ q.state = .applying ∧
      sharedPark w1.registry role e = e1 := by
    cases hedit with
    | markParkApplying hp' hs => exact ⟨_, rfl, rfl, by simp [sharedPark, hp, hpfx, h1.lookup]⟩
  simp only [hshared]
  refine .step (T.reconcilePark h1 hq hqs (ha _ ⟨q, hq, hqs, rfl⟩) fun result w2 l2 h2 honly => ?_)
  split_ifs
  · exact .fail h2.inv
  refine .step (T.record (.markParkActive result.verified) (T.onPark trivial) h2
    (fun e' hedit row hrow hn => ?_) fun _ _ _ h3 _ => T.checkpoint h3 fun _ _ _ _ _ => trivial)
  cases row with
  | route i => exact hedit.names hn (by simp)
  | park i =>
    refine hedit.namesPark hn (fun observed ho => ?_) (by simp) (by simp)
    rw [honly i hrow]
    exact RecordTransition.markParkActive.inj ho
  | foreign text => exact hn

theorem preflightAndApplyPark (hp : e.park = some p) :
    T.Keeps pfx base (preflightAndApplyPark cfg role pfx d e) w l :=
  .step (T.reads trivial h fun _ _ _ _ h' _ _ _ => T.applyParkTransaction h' hp)

theorem reservePark {forcePending : Bool}
    (hs : ∀ p, e.park = some p → p.state = .pending ∨ p.state = .active)
    (hrest : ∀ e' p' w' l', T.Holds pfx base e' w' l' → e'.park = some p' →
      rest.Keeps (T.setting pfx base) Q (w', l')) :
    ((registry (·.reservePark role pfx d forcePending)).bind fun _ =>
      (Control.checkpoint cfg role).bind fun _ => rest).Keeps (T.setting pfx base) Q (w, l) := by
  refine T.stored h (.reservePark d forcePending) (T.onPark trivial) (fun e' hedit row _ hn => ?_)
    fun e' w' l' hedit h' _ _ => ?_
  · cases row with
    | route i => exact hedit.names hn (by simp)
    | park i =>
      refine hedit.namesPark hn (by simp) (fun _ _ _ p hp hu => ?_) (by simp)
      rcases hu.1 with ha | ⟨hr, _⟩ <;> rcases hs p hp with hs | hs <;> simp_all
    | foreign text => exact hn
  · cases hedit
    exact hrest _ _ w' l' h' rfl

theorem reserveParkAgain
    (hs : ∀ p, e.park = some p → p.state = .pending ∨ p.state = .active) :
    T.Keeps pfx base ((reserveParkAgain cfg role pfx d).bind
      (Control.preflightAndApplyPark cfg role pfx d)) w l :=
  .step (T.reservePark h hs fun _ _ _ _ h1 hp1 => T.deref h1 (T.preflightAndApplyPark h1 hp1))

theorem runParkTransaction {preflight : Bool} (hp : e.park = none) :
    T.Keeps pfx base (runParkTransaction cfg role pfx d preflight) w l := by
  refine T.reservePark h (by simp [hp]) fun e1 p1 w1 l1 h1 hp1 => .step (T.deref h1 ?_)
  have hrest : ∀ w' l', T.Holds pfx base e1 w' l' → T.Keeps pfx base
      ((registryEntryDeref role pfx).bind (Control.applyParkTransaction cfg role pfx d)) w' l' :=
    fun _ _ h' => .step (T.deref h' (T.applyParkTransaction h' hp1))
  split_ifs
  · exact .step (T.reads trivial h1 fun _ _ _ _ h' _ _ _ => hrest _ _ h')
  · exact hrest w1 l1 h1

theorem clearPark {Q : Unit → World × L → Prop} (hnone : ∀ i, ¬ T.Live pfx w.kernel l (.park i))
    (hQ : ∀ e' w' l', T.Holds pfx base e' w' l' → e'.park = none → Q () (w', l')) :
    ((registry (·.clearPark role pfx)).bind fun _ => Control.checkpoint cfg role).Keeps
      (T.setting pfx base) Q (w, l) := by
  refine .step (T.record .clearPark (T.onPark trivial) h (fun e' hedit row hrow hn => ?_)
    fun e' w' hedit h' _ => T.checkpoint h' fun w'' l'' h'' _ _ => hQ e' w'' l'' h'' ?_)
  · cases row with
    | route i => exact hedit.names hn (by simp)
    | park i => exact absurd hrow (hnone i)
    | foreign text => exact hn
  · cases hedit with
    | clearNoPark hp => exact hp
    | clearPark _ _ => rfl

theorem resumeParkRetirement {Q : Unit → World × L → Prop} (hp : e.park = some p)
    (hs : p.state = .retiring) (hu : T.Unparks pfx e w.kernel l)
    (hQ : ∀ e' w' l', T.Holds pfx base e' w' l' → e'.park = none → Q () (w', l')) :
    (resumeParkRetirement cfg role pfx p).Keeps (T.setting pfx base) Q (w, l) :=
  .step (T.removePark h hp hs hu fun _ _ h1 hnone => T.clearPark h1 hnone hQ)

-- === Reconciling a record ===

variable (hmay : ∀ t, T.May t)

include hmay

theorem driveTransaction (hahead : e.state = .applying → T.Ahead pfx w l (.route e.desired)) :
    T.Keeps pfx base (driveTransaction cfg role e) w l := by
  obtain rfl := T.pfx_eq h
  unfold Control.driveTransaction
  split_ifs with hs
  · exact .fail h.inv
  refine .step (T.reconcileRoute hmay h (not_not.mp hs) rfl (hahead (not_not.mp hs))
    fun result w1 l1 h1 honly => ?_)
  split_ifs
  · exact .fail h1.inv
  refine T.stored h1 (.markActive result.verified) (hmay _) (fun e' hedit row hrow hn => ?_)
    fun _ w2 l2 _ h2 _ _ => ?_
  · cases row with
    | route i =>
      refine hedit.names hn fun observed ho => ?_
      rw [honly i hrow]
      exact RecordTransition.markActive.inj ho
    | park i => exact hedit.namesPark hn (by simp) (by simp) (by simp)
    | foreign text => exact hn
  · have h3 := T.memory h2.inv (Memory.registry_mintToken _ role e)
    exact .step (keeps_memory h2.inv h3 (.ret h3 trivial))

/-- The Pending path writes its target ahead whatever was there before. -/
theorem reconcilePending {record : SelectedRoute} :
    T.Keeps pfx base (reconcilePending cfg role pfx record) w l := by
  refine .step (.tryCatch (T.reads trivial h fun _ w1 l1 _ h1 _ _ _ => ?_) fun err s hs => ?_)
  · exact T.plain h1 .markApplying (hmay _) trivial fun e2 w2 l2 _ h2 ha _ =>
      .step (T.deref h2 (T.driveTransaction h2 hmay fun hs => ha _ ⟨hs, rfl⟩))
  · split_ifs <;> exact .fail hs

end Steps

theorem reconcileRecordLocked (hmay : ∀ t, T.May t) (h : T.At pfx base w l)
    (hahead : ∀ e, w.registry.lookup ⟨role, pfx⟩ = some e → e.state = .applying →
      T.Ahead pfx w l (.route e.desired)) :
    T.Keeps pfx base (reconcileRecordLocked cfg role pfx) w l := by
  unfold Control.reconcileRecordLocked
  split_ifs
  · exact .fail h
  refine .step (keeps_read h ?_)
  rw [registryEntryOf_eq (T.wellFormed (T.done h))]
  cases hl : w.registry.lookup ⟨role, pfx⟩ with
  | none => exact .fail h
  | some e =>
    have he : T.Holds pfx base e w l := ⟨h, hl⟩
    dsimp only
    cases hs : e.state with
    | active =>
      exact T.plain he .beginRepair (hmay _) trivial fun _ _ _ _ h1 _ _ =>
        .step (T.deref h1 (T.reconcilePending h1 hmay))
    | pending => exact T.reconcilePending he hmay
    | applying => exact T.driveTransaction he hmay (hahead e hl)
    | retiring | other text => exact .fail h

theorem reconciled (hmay : ∀ t, T.May t) (h : T.At pfx base w l)
    (hahead : ∀ e, w.registry.lookup ⟨role, pfx⟩ = some e → e.state = .applying →
      T.Ahead pfx w l (.route e.desired)) :
    T.Keeps pfx base ((Control.reconcileRecordLocked cfg role pfx).bind fun _ => .ret ()) w l :=
  (T.reconcileRecordLocked hmay h hahead).seq fun _ _ hs => .ret hs trivial

-- === One record of a loop ===

section

variable (h : T.Holds e.pfx base e w l)

include h

theorem parkOne (hu : ∀ p, e.park = some p → p.state = .retiring → T.Unparks e.pfx e w.kernel l) :
    T.Keeps e.pfx base (parkOne cfg role e) w l := by
  refine .step (T.reads trivial h fun d w1 l1 _ h1 hk1 _ hu1 => ?_)
  cases hp : e.park with
  | none => exact T.runParkTransaction h1 hp
  | some p =>
    have hagain (hs : p.state = .pending ∨ p.state = .active) (proven : Bool) (w' l')
        (h' : T.Holds e.pfx base e w' l') : T.Keeps e.pfx base
          (if proven = true then .ret () else (Control.reserveParkAgain cfg role e.pfx d).bind
            (Control.preflightAndApplyPark cfg role e.pfx d)) w' l' := by
      cases proven with
      | true => exact .ret h'.inv trivial
      | false =>
        refine T.reserveParkAgain h' fun q hq => ?_
        rwa [← Option.some.inj (hp.symm.trans hq)]
    dsimp only
    cases hs : p.state with
    | pending =>
      split_ifs
      · exact T.preflightAndApplyPark h1 hp
      · exact hagain (.inl hs) false w1 l1 h1
    | applying => exact T.applyParkTransaction h1 hp
    | active =>
      refine .step ?_
      unfold parkOne.parkProven
      split
      · split_ifs
        · exact T.reads trivial h1 fun b w' l' _ h' _ _ _ => hagain (.inr hs) b w' l' h'
        · exact .ret h1.inv (hagain (.inr hs) false w1 l1 h1)
      · exact .ret h1.inv (hagain (.inr hs) false w1 l1 h1)
    | retiring =>
      -- the park is gone and cleared before the next transaction starts
      exact .step (T.resumeParkRetirement h1 hp hs (hk1 ▸ hu1 (hu p hp hs))
        fun _ _ _ h2 hp2 => T.runParkTransaction h2 hp2)
    | other text =>
      have hw := T.wellFormed (T.done h.inv) _ _ h.lookup
      exact absurd hs ((hw.2.park p hp).known text)

theorem unpark {owned : SelectedParkIdentity} (hp : e.park = some p)
    (hu : T.Unparks e.pfx e w.kernel l) : T.Keeps e.pfx base (unpark cfg role e owned) w l := by
  refine T.plain h .markParkRetiring (T.onPark trivial) trivial fun e1 w1 l1 hedit h1 _ hu1 => ?_
  refine .step (keeps_read h1.inv ?_)
  have hu1 := hu1 (T.retiring hedit hu)
  obtain ⟨q, hq, hqs, hshared⟩ : ∃ q, e1.park = some q ∧ q.state = .retiring ∧
      sharedPark w1.registry role e = e1 := by
    cases hedit with
    | markParkRetiring hp' hs => exact ⟨_, rfl, rfl, by simp [sharedPark, hp, h1.lookup]⟩
  simp only [hshared, hq]
  refine .step (T.removePark h1 hq hqs hu1 fun w2 l2 h2 hnone => ?_)
  refine .step (T.reads trivial h2 fun _ w3 l3 _ h3 hk3 hlive _ => ?_)
  refine .step (.ofExcept h3.inv fun _ _ => ?_)
  exact T.clearPark h3 (fun i hi => hnone i (hlive _ (hk3 ▸ hi))) fun _ _ _ _ _ => trivial

/-- The proof before the unpark changes nothing and has seen the selected row. -/
theorem proveRestored {park : SelectedParkIdentity} :
    (proveRestored e park).Keeps (T.setting e.pfx base)
      (fun _ s => T.Holds e.pfx base e s.1 s.2 ∧ .route e.desired ∈ s.1.kernel e.pfx) (w, l) := by
  refine .step (T.reads trivial h fun rows w1 l1 hrows h1 hk1 _ _ => ?_)
  obtain rfl : w.kernel = rows := Except.ok.inj hrows
  refine .step (.ofExcept h1.inv fun seen hseen => ?_)
  cases seen with
  | false => exact .fail h1.inv
  | true =>
    refine .step (T.reads trivial h1 fun wins w2 l2 _ h2 hk2 _ _ => ?_)
    split_ifs
    · exact .fail h2.inv
    · refine .ret h2.inv ⟨h2, ?_⟩
      rw [hk2, hk1]
      simpa using scanBeforeUnpark_eq_ok hseen

theorem retireProvenPark (hp : e.park = some p) :
    T.Keeps e.pfx base (retireProvenPark cfg role e p) w l := by
  unfold Control.retireProvenPark
  split_ifs with hroute hpark
  · exact .fail h.inv
  · exact .fail h.inv
  have hproven {k : Kernel} {l' : L}
      (hrow : .route e.desired ∈ k e.pfx ∨ .park p.desired ∉ k e.pfx) :
      T.Unparks e.pfx e k l' :=
    T.proven hp (not_not.mp hpark) (not_not.mp (not_or.mp hroute).2) hrow
  refine .step (T.reads trivial h fun present w1 l1 hpresent h1 hk1 _ _ => ?_)
  obtain rfl : decide (.park p.desired ∈ w.kernel e.pfx) = present := Except.ok.inj hpresent
  split_ifs with hb
  · refine .bind (T.proveRestored h1) ?_
    rintro _ s ⟨h2, hrow⟩
    exact T.unpark h2 hp (hproven (.inl hrow))
  · exact T.unpark h1 hp (hproven (.inr (by rw [hk1]; simpa using hb)))

theorem observeRestorationOne
    (hu : ∀ p, e.park = some p → p.state = .retiring → T.Unparks e.pfx e w.kernel l) :
    T.Keeps e.pfx base (observeRestorationOne cfg role e) w l := by
  unfold Control.observeRestorationOne
  cases hp : e.park with
  | none => exact .ret h.inv trivial
  | some p =>
    dsimp only
    cases hs : p.state with
    | pending | applying => exact .fail h.inv
    | active =>
      refine .tryCatch (T.retireProvenPark h hp) fun err s hs => ?_
      split_ifs
      · exact .ret hs trivial
      · exact .fail hs
    | retiring => exact T.resumeParkRetirement h hp hs (hu p hp hs) fun _ _ _ _ _ => trivial
    | other text => exact .ret h.inv trivial

end

-- === Loops over the records of the role ===

variable {A : World → SelectedRoute → Prop} {xs : List SelectedRoute}

/-- The records that a loop has not reached are as they were, and `A` still holds
    of them. -/
structure Loop (T : Tenure H G cfg role) (A : World → SelectedRoute → Prop)
    (xs : List SelectedRoute) (s : World × L) : Prop where
  inv : T.Inv s.1 s.2
  nodup : (xs.map SelectedRoute.pfx).Nodup
  current : ∀ e ∈ xs, s.1.registry.lookup ⟨role, e.pfx⟩ = some e
  ready : ∀ e ∈ xs, A s.1 e

def Stable (A : World → SelectedRoute → Prop) : Prop :=
  ∀ pfx w w' l' e, T.At pfx w w' l' → e.pfx ≠ pfx →
    w.registry.lookup ⟨role, e.pfx⟩ = some e → A w e → A w' e

theorem stable_const (A : SelectedRoute → Prop) : T.Stable fun _ => A :=
  fun _ _ _ _ _ _ _ _ h => h

theorem loop (h : T.Inv w l) (hxs : xs.Sublist (w.registry.snapshot role))
    (hA : ∀ e ∈ xs, w.registry.lookup ⟨role, e.pfx⟩ = some e → A w e) : T.Loop A xs (w, l) := by
  have hw := T.wellFormed h
  have hcur : ∀ e ∈ xs, w.registry.lookup ⟨role, e.pfx⟩ = some e :=
    fun e he => hw.mem_snapshot_iff.mp (hxs.subset he)
  exact ⟨h, (hw.nodup_pfx_snapshot role).sublist (hxs.map _), hcur, fun e he => hA e he (hcur e he)⟩

variable {T} {x : SelectedRoute} {s : World × L}

theorem Loop.holds (h : T.Loop A (x :: xs) (w, l)) : T.Holds x.pfx w x w l :=
  ⟨T.start x.pfx h.inv, h.current x List.mem_cons_self⟩

theorem Loop.tail (hA : T.Stable A) (h : T.Loop A (x :: xs) (w, l))
    (h' : T.At x.pfx w s.1 s.2) : T.Loop A xs s := by
  have hn := h.nodup
  rw [List.map_cons, List.nodup_cons] at hn
  have hne : ∀ e ∈ xs, e.pfx ≠ x.pfx := fun e he hpfx => hn.1 (hpfx ▸ List.mem_map_of_mem he)
  have hcur : ∀ e ∈ xs, w.registry.lookup ⟨role, e.pfx⟩ = some e :=
    fun e he => h.current e (List.mem_cons_of_mem x he)
  refine ⟨T.done h', hn.2, fun e he => ?_, fun e he => ?_⟩
  · rw [T.elsewhere h' fun hk => hne e he (congrArg SelectedRouteKey.pfx hk)]
    exact hcur e he
  · exact hA x.pfx w s.1 s.2 e h' (hne e he) (hcur e he) (h.ready e (List.mem_cons_of_mem x he))

theorem Loop.step {body : ManagerM α} (hA : T.Stable A) (h : T.Loop A (x :: xs) (w, l))
    (hbody : T.Keeps x.pfx w body w l) :
    body.Keeps (faulty H G T.Inv) (fun _ s => T.Loop A xs s) (w, l) :=
  (keeps_weaken hbody fun _ _ hf => T.done hf).mono fun _ _ hf => h.tail hA hf.1

theorem forEach {body : SelectedRoute → ManagerM Unit} (hA : T.Stable A)
    (hbody : ∀ e w l, T.Holds e.pfx w e w l → A w e → T.Keeps e.pfx w (body e) w l)
    (h : T.Loop A xs (w, l)) :
    (Prog.forEach body xs).Keeps (faulty H G T.Inv) (fun _ s => T.Inv s.1 s.2) (w, l) := by
  refine (Prog.Keeps.forEach (T.Loop A) (fun _ hs => hs.inv) ?_ xs h).mono fun _ _ hs => hs.inv
  rintro x xs ⟨w', l'⟩ hs
  exact hs.step hA (hbody x w' l' hs.holds (hs.ready x List.mem_cons_self))

-- === Operations ===

def KeepsRole (T : Tenure H G cfg role) (program : ManagerM α) (w : World) (l : L) : Prop :=
  program.Keeps (faulty H G T.Inv) (fun _ _ => True) (w, l)

variable {R : SelectedRoute → Prop} (hresumes : ∀ e w l, T.Inv w l → R e → ∀ p, e.park = some p →
  p.state = .retiring → T.Unparks e.pfx e w.kernel l)

include hresumes

theorem parkRegistered (h : T.Inv w l) (h' : T.Inv (w.touched role) l)
    (hR : ∀ e, w.registry.lookup ⟨role, e.pfx⟩ = some e → R e) :
    T.KeepsRole (parkRegistered cfg role) w l := by
  refine .step (keeps_memory h h' ?_)
  split_ifs
  · exact .fail h'
  · exact .fail h'
  refine .step (keeps_read h' ?_)
  refine (forEach (T.stable_const R) (fun e w' l' he hr => ?_)
    (T.loop h' (List.Sublist.refl _) fun e _ hl => hR e hl)).mono fun _ _ _ => trivial
  split_ifs
  · exact .ret he.inv trivial
  · exact T.parkOne he (hresumes e w' l' (T.done he.inv) hr)

theorem observeRestoration (h : T.Inv w l) (h' : T.Inv (w.touched role) l)
    (hR : ∀ e, w.registry.lookup ⟨role, e.pfx⟩ = some e → R e) :
    T.KeepsRole (observeRestoration cfg role) w l := by
  unfold Control.observeRestoration
  split_ifs
  · exact .fail h
  refine .step (keeps_memory h h' (.step (keeps_read h' ?_)))
  refine .seq (forEach (T.stable_const R) (fun e w' l' he hr =>
    T.observeRestorationOne he (hresumes e w' l' (T.done he.inv) hr))
    (T.loop h' (List.Sublist.refl _) fun e _ hl => hR e hl)) fun _ s hs => ?_
  refine .step (keeps_read hs ?_)
  split_ifs
  · exact .fail hs
  · exact .ret hs trivial

end Tenure

end Kikimora.Control

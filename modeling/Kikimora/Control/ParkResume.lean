import Kikimora.Control.Coverage
import Kikimora.Control.FaultFree

/-!
# Resuming park transactions

What `ParkRegistered` does without faults, from every state a park transaction
can be in. The one state it cannot continue is Applying: `MarkParkApplying` is
the first step of the resumption and rejects it.
-/

namespace Kikimora.Control

open Net Routing Platform Lib

def activePark (d : SelectedParkIdentity) : SelectedPark := ⟨.active, d, some d, false⟩

def ParkedRows (d : SelectedParkIdentity) (rows rows' : List SelectedKernelRow) : Prop :=
  ∀ row, row ∈ rows' ↔ row = .park d ∨ (row ∈ rows ∧ ∀ i, row ≠ .park i)

/-- A transaction that started in `w₀` with the record `e` and the rows `rows` has
    parked the prefix. -/
def Parked (role : String) (pfx : Prefix) (w₀ : World) (e : SelectedRoute)
    (d : SelectedParkIdentity) (rows : List SelectedKernelRow) (w : World) : Prop :=
  ∃ rows', At role pfx w₀ { e with park := some (activePark d) } rows' w ∧ ParkedRows d rows rows'

section Transactions

variable {cfg : Config} {role : String} {pfx : Prefix} {w₀ w : World} {e : SelectedRoute}
  {d : SelectedParkIdentity} {rows : List SelectedKernelRow} {X : ManagerError → World → Prop}
  {q : SelectedPark} {p : Option SelectedPark}

/-- A row stays accounted for when only the park of the record changes and still
    accounts for it. -/
theorem authorizedBy_withPark {row : SelectedKernelRow} (h : row.AuthorizedBy e)
    (hp : ∀ i, row = .park i → parkRowAuthorized i e = true →
      parkRowAuthorized i { e with park := p } = true) : row.AuthorizedBy { e with park := p } := by
  cases row with
  | route i | foreign text => exact h
  | park i => exact hp i rfl h

theorem runs_applyParkTransaction (h : At role pfx w₀ e rows w) (hp : e.park = some q)
    (hs : q.state = .pending) (hd : q.desired = d) (hrows : ∀ row ∈ rows, row.AuthorizedBy e) :
    (applyParkTransaction cfg role pfx d e).Safe clean (fun _ => Parked role pfx w₀ e d rows) X
      w := by
  obtain ⟨state, desired, owned, retireDesired⟩ := q
  obtain rfl : desired = d := hd
  obtain rfl : state = .pending := hs
  -- a Pending park carries no RetireDesired
  have hretire : retireDesired = false := by
    have := (h.wellFormed.park _ hp).retiring_of_retireDesired
    cases retireDesired with
    | false => rfl
    | true => exact absurd (this rfl) (by simp)
  subst hretire
  let applying : SelectedPark := ⟨.applying, desired, owned, false⟩
  refine .step (runs_record .markParkApplying (f := { e with park := some applying }) h
    trivial (by simp [RecordTransition.mutate, hp, applying]) fun w1 h1 => ?_)
  refine .step (runs_checkpoint fun w2 ha2 => ?_)
  have h2 := h1.agrees ha2
  refine .step (runs_read ?_)
  -- the record shows the Applying park through the shared park object
  have hshared : sharedPark w2.registry role e = { e with park := some applying } := by
    have hl := h2.lookup
    rw [← h.pfx_eq] at hl
    simp [sharedPark, hp, hl]
  have hrows2 : ∀ row ∈ w2.kernel pfx, row.AuthorizedBy { e with park := some applying } := by
    rw [h2.rows]
    refine fun row hrow => authorizedBy_withPark (hrows row hrow) fun i _ hi => ?_
    simp only [parkRowAuthorized, hp, SelectedPark.authorizesRow, decide_eq_true_eq] at hi
    simp [parkRowAuthorized, applying, SelectedPark.authorizesRow, hi]
  have hvalid : desired.validate pfx = .ok () := by
    rw [← h.pfx_eq]
    exact (h.wellFormed.park _ hp).desired_valid
  have hplan := reconcileManagedPark_ok (k := w2.kernel) (p := pfx)
    (r := { e with park := some applying }) rfl rfl hvalid hrows2
  simp only [hshared]
  refine .step (runs_writes h2 (congrArg Prod.fst hplan : _ = Except.ok _) ?_
    fun w3 h3 => ?_)
  · intro m hm
    rw [RouteCall.plan, hplan] at hm
    exact pfx_of_mem_parkMutations hm
  rw [if_neg (not_not.mpr rfl)]
  refine .step (runs_record (.markParkActive desired)
    (f := { e with park := some (activePark desired) }) h3 trivial
    (by simp [RecordTransition.mutate, applying, activePark]) fun w4 h4 => ?_)
  refine runs_checkpoint fun w5 ha5 => ⟨_, h4.agrees ha5, fun row => ?_⟩
  rw [RouteCall.plan, hplan, mem_parkMutations rfl rfl hrows2, h2.rows]

theorem runs_preflightAndApplyPark (h : At role pfx w₀ e rows w) (hp : e.park = some q)
    (hs : q.state = .pending) (hd : q.desired = d) (hrows : ∀ row ∈ rows, row.AuthorizedBy e) :
    (preflightAndApplyPark cfg role pfx d e).Safe clean (fun _ => Parked role pfx w₀ e d rows) X
      w := by
  refine .step (runs_reads (b := ()) ?_ (runs_applyParkTransaction h hp hs hd hrows))
  rw [RouteCall.plan, preflightManagedPark, classifyParkPrefixRows_eq_ok_iff.mpr]
  rw [h.rows]
  exact hrows

theorem Parked.of_withPark (h : Parked role pfx w₀ { e with park := p } d rows w) :
    Parked role pfx w₀ e d rows w := h

/-- A record whose park is Pending or Active is reserved again; what the park owns
    stays. -/
theorem runs_reserveParkAgain (h : At role pfx w₀ e rows w) (hp : e.park = some q)
    (hs : q.state = .pending ∨ q.state = .active) (hd : d.validate pfx = .ok ())
    (hrows : ∀ row ∈ rows, row.AuthorizedBy e) :
    ((reserveParkAgain cfg role pfx d).bind (preflightAndApplyPark cfg role pfx d)).Safe clean
      (fun _ => Parked role pfx w₀ e d rows) X w := by
  let pending : SelectedPark := ⟨.pending, d, q.owned, false⟩
  have hreserved : reservedPark (some q) d true = pending := by simp [reservedPark, pending]
  refine .step (.step (runs_record (.reservePark d true)
    (f := { e with park := some pending }) h hd (by simp [RecordTransition.mutate, hp, hreserved])
    fun w1 h1 => ?_))
  refine .step (runs_checkpoint fun w2 ha2 => ?_)
  refine runs_registryEntryDeref (h1.agrees ha2) ?_
  refine (runs_preflightAndApplyPark (h1.agrees ha2) rfl rfl rfl ?_).mono
    (fun _ _ => Parked.of_withPark) fun _ _ hx => hx
  refine fun row hrow => authorizedBy_withPark (hrows row hrow) fun i _ hi => ?_
  rcases hs with hs | hs <;>
    simpa [parkRowAuthorized, hp, SelectedPark.authorizesRow, hs, pending] using hi

theorem runs_runParkTransaction {preflight : Bool} (h : At role pfx w₀ e rows w)
    (hp : e.park = none) (hd : d.validate pfx = .ok ())
    (hrows : ∀ row ∈ rows, row.AuthorizedBy e) :
    (runParkTransaction cfg role pfx d preflight).Safe clean
      (fun _ => Parked role pfx w₀ e d rows) X w := by
  let pending : SelectedPark := ⟨.pending, d, none, false⟩
  refine .step (runs_record (.reservePark d false) (f := { e with park := some pending })
    h hd (by simp [RecordTransition.mutate, hp, reservedPark, pending]) fun w1 h1 => ?_)
  refine .step (runs_checkpoint fun w2 ha2 => ?_)
  have h2 := h1.agrees ha2
  -- without a park no park row was accounted for
  have hrows2 : ∀ row ∈ rows, row.AuthorizedBy { e with park := some pending } :=
    fun row hrow => authorizedBy_withPark (hrows row hrow) fun i _ hi => by
      simp [parkRowAuthorized, hp] at hi
  have hrest : ((registryEntryDeref role pfx).bind (applyParkTransaction cfg role pfx d)).Safe
      clean (fun _ => Parked role pfx w₀ e d rows) X w2 :=
    .step (runs_registryEntryDeref h2 ((runs_applyParkTransaction h2 rfl rfl rfl hrows2).mono
      (fun _ _ => Parked.of_withPark) fun _ _ hx => hx))
  refine .step (runs_registryEntryDeref h2 ?_)
  split_ifs
  · refine .step (runs_reads (b := ()) ?_ hrest)
    rw [RouteCall.plan, preflightManagedPark, classifyParkPrefixRows_eq_ok_iff.mpr]
    rw [h2.rows]
    exact hrows2
  · exact hrest

/-- The rows that a retiring park accounts for are its removal candidates. -/
theorem parkRemovalCandidates_retiring (pfx : Prefix) (hs : q.state = .retiring) :
    ∃ candidates, parkRemovalCandidates pfx q = .ok candidates ∧
      ∀ i, q.authorizesRow i = true → i ∈ candidates := by
  refine ⟨_, by simp only [parkRemovalCandidates, hs]; rfl, fun i hi => ?_⟩
  simp only [SelectedPark.authorizesRow, hs, Bool.or_eq_true, Bool.and_eq_true,
    decide_eq_true_eq] at hi
  rcases hi with hi | ⟨hr, rfl⟩
  · simp [hi]
  · by_cases ho : q.owned = some q.desired <;> simp [hr, ho]

theorem runs_resumeParkRetirement (h : At role pfx w₀ e rows w) (hp : e.park = some q)
    (hs : q.state = .retiring) (hrows : ∀ row ∈ rows, row.AuthorizedBy e) :
    (resumeParkRetirement cfg role pfx q).Safe clean
      (fun _ w' => ∃ rows', At role pfx w₀ { e with park := none } rows' w' ∧
        ∀ row, row ∈ rows' ↔ row ∈ rows ∧ ∀ i, row ≠ .park i) X w := by
  obtain ⟨candidates, hc, hall⟩ := parkRemovalCandidates_retiring pfx hs
  refine .step (runs_writes h (b := ()) ?_ ?_ fun w1 h1 => ?_)
  · simp [RouteCall.plan, removeManagedPark, hc]
  · intro m hm
    obtain ⟨ids, hids⟩ := removeManagedPark_writes w.kernel pfx q
    rw [RouteCall.plan, hids, List.map_map] at hm
    obtain ⟨_, _, rfl⟩ := List.mem_map.mp hm
    rfl
  · refine .step (runs_record .clearPark (f := { e with park := none }) h1 trivial
      (by simp [RecordTransition.mutate, hp, hs]) fun w2 h2 => ?_)
    refine runs_checkpoint fun w3 ha3 => ⟨_, h2.agrees ha3, fun row => ?_⟩
    rw [RouteCall.plan, mem_removeManagedPark hc, h.rows]
    refine and_congr_right fun hrow => ⟨?_, ?_⟩
    · rintro hkept i rfl
      have := hrows _ hrow
      simp only [SelectedKernelRow.AuthorizedBy, parkRowAuthorized, hp] at this
      exact hkept ⟨rfl, i, hall i this, rfl⟩
    · rintro hne ⟨_, i, _, rfl⟩
      exact hne i rfl

/-- One record is parked, whatever its park transaction has come to, unless it is
    Applying. -/
theorem runs_parkOne (h : At role e.pfx w₀ e rows w)
    (hd : w.platform.normalizeManagedPark e.pfx = .ok d) (hv : d.validate e.pfx = .ok ())
    (hrows : ∀ row ∈ rows, row.AuthorizedBy e)
    (hpark : ∀ q, e.park = some q → q.state ≠ .applying) :
    (parkOne cfg role e).Safe clean (fun _ => Parked role e.pfx w₀ e d rows) X w := by
  refine .step (runs_reads (b := d) (by rw [RouteCall.plan, hd]) ?_)
  cases hp : e.park with
  | none => exact runs_runParkTransaction h hp hv hrows
  | some q =>
    have hwf := h.wellFormed.park q hp
    dsimp only
    cases hs : q.state with
    | pending =>
      split_ifs with heq
      · exact runs_preflightAndApplyPark h hp hs heq hrows
      · exact runs_reserveParkAgain h hp (.inl hs) hv hrows
    | applying => exact absurd hs (hpark q hp)
    | active =>
      have ho : q.owned = some q.desired := hwf.owned_of_active hs
      refine .step ?_
      simp only [parkOne.parkProven, ho]
      split_ifs with heq
      · refine runs_reads (b := decide (.park q.desired ∈ w.kernel e.pfx)) rfl ?_
        split_ifs with hmem
        · -- the exact park is there already
          refine ⟨trivial, rows, ?_, fun row => ?_⟩
          · have hq : q = activePark d := by
              have hr : q.retireDesired = false := by
                by_contra hr
                have := hwf.retiring_of_retireDesired (by simpa using hr)
                rw [hs] at this
                cases this
              obtain ⟨state, desired, owned, retireDesired⟩ := q
              simp_all [activePark]
            rw [← hq, ← hp]
            exact h
          · simp only [decide_eq_true_eq, h.rows, heq] at hmem
            constructor
            · intro hrow
              refine or_iff_not_imp_left.mpr fun hne => ⟨hrow, ?_⟩
              rintro i rfl
              have := hrows _ hrow
              simp only [SelectedKernelRow.AuthorizedBy, parkRowAuthorized, hp,
                SelectedPark.authorizesRow, hs, ho, decide_eq_true_eq, Option.some.injEq] at this
              exact hne (by rw [← this, heq])
            · rintro (rfl | ⟨hrow, _⟩)
              · exact hmem
              · exact hrow
        · exact runs_reserveParkAgain h hp (.inr hs) hv hrows
      · exact ⟨trivial, runs_reserveParkAgain h hp (.inr hs) hv hrows⟩
    | retiring =>
      refine .step ((runs_resumeParkRetirement h hp hs hrows).mono ?_ fun _ _ hx => hx)
      rintro _ w1 ⟨rows1, h1, hmem⟩
      refine (runs_runParkTransaction h1 rfl hv fun row hrow => ?_).mono ?_ fun _ _ hx => hx
      · obtain ⟨hrow, hne⟩ := (hmem row).mp hrow
        have := hrows row hrow
        cases row with
        | route i | foreign text => exact this
        | park i => exact absurd rfl (hne i)
      · rintro _ w2 ⟨rows2, h2, hmem2⟩
        refine ⟨rows2, h2, fun row => ?_⟩
        rw [hmem2 row, hmem row]
        tauto
    | other text => exact absurd hs (hwf.known text)

end Transactions

-- === All records ===

def ParksNormalize (p : RoutePlatform) : Prop :=
  ∀ pfx, isCanonicalPrefix pfx = true →
    ∃ d, p.normalizeManagedPark pfx = .ok d ∧ d.validate pfx = .ok ()

/-- The kernel holds no rows under the prefixes of the role's records but those
    that the records account for. -/
def RowsAccounted (role : String) (r : MemorySelectedRegistry) (k : Kernel) : Prop :=
  ∀ pfx e, r.lookup ⟨role, pfx⟩ = some e → ∀ row ∈ k pfx, row.AuthorizedBy e

def ParksResumable (role : String) (r : MemorySelectedRegistry) : Prop :=
  ∀ pfx e q, r.lookup ⟨role, pfx⟩ = some e → e.state ≠ .retiring → e.park = some q →
    q.state ≠ .applying

/-- Every record that is not retiring is parked: its park is Active, is the one
    that the platform normalizes to at present, and is in the kernel. -/
def AllParked (role : String) (w : World) : Prop :=
  ∀ pfx e, w.registry.lookup ⟨role, pfx⟩ = some e → e.state ≠ .retiring →
    ∃ q d, e.park = some q ∧ q.state = .active ∧ q.owned = some d ∧ q.desired = d ∧
      w.platform.normalizeManagedPark pfx = .ok d ∧ .park d ∈ w.kernel pfx

def ParkRegisteredSucceeds (cfg : Config) (role : String) (w : World) : Prop :=
  ((parkRegistered cfg role).run handle w).1 = .ok () ∧
    AllParked role ((parkRegistered cfg role).run handle w).2

def ParkOutcome (p : RoutePlatform) : Outcomes := fun e rows e' rows' =>
  if e.state = .retiring then e' = e ∧ rows' = rows
  else ∃ d, p.normalizeManagedPark e.pfx = .ok d ∧ e' = { e with park := some (activePark d) } ∧
    ParkedRows d rows rows'

section Registered

variable {cfg : Config} {role : String} {w : World} {X : ManagerError → World → Prop} {w' : World}
  {e : SelectedRoute} {q : SelectedPark}

theorem Each.of_agrees {Post : Outcomes} {w₀ : World} (ha : Agrees w₀ w) (h : Each role Post w w') :
    Each role Post w₀ w' := by
  refine ⟨⟨by rw [← ha.registry]; exact h.wellFormed₀, h.wellFormed,
    h.platform.trans ha.platform, h.runtime.trans ha.runtime,
    fun id => (h.frozen id).trans (ha.frozen id), fun k hk => ?_, fun q hq => ?_⟩,
    fun pfx e hl => ?_⟩
  · rw [← ha.registry] at hk ⊢
    exact h.elsewhere k hk
  · rw [← ha.registry] at hq
    rw [← ha.kernel]
    exact h.kernel q hq
  · rw [← ha.registry] at hl
    rw [← ha.kernel]
    exact h.record pfx e hl

theorem runs_parkRegistered (hw : w.registry.WellFormed) (hroutes : cfg.routesResolved = true)
    (hfrozen : (w.memory.roleState role).frozen = true) (hpark : ParksNormalize w.platform)
    (hrows : RowsAccounted role w.registry w.kernel)
    (hresume : ParksResumable role w.registry) :
    (parkRegistered cfg role).Safe clean (fun _ => Each role (ParkOutcome w.platform) w) X w := by
  refine .step (runs_roleState fun w1 ha => ?_)
  simp only [hfrozen, hroutes, Bool.not_true, Bool.false_eq_true, if_false]
  refine .step (runs_read ?_)
  rw [← ha.registry] at hw hrows hresume
  rw [← ha.kernel] at hrows
  refine (runs_each hw fun e w' hl hp _ hat => ?_).mono (fun _ _ h => h.of_agrees ha)
    fun _ _ hx => hx
  unfold ParkOutcome
  split_ifs with hret
  · exact ⟨trivial, e, _, hat, rfl, rfl⟩
  obtain ⟨d, hd, hv⟩ := hpark e.pfx hat.canonical
  refine (runs_parkOne hat (by rw [hp, ha.platform]; exact hd) hv (hrows _ e hl)
    fun q hq => hresume _ e q hl hret hq).mono ?_ fun _ _ hx => hx
  rintro _ w'' ⟨rows', hat', hmem⟩
  exact ⟨_, rows', hat', d, hd, rfl, hmem⟩

theorem Each.allParked (h : Each role (ParkOutcome w.platform) w w') : AllParked role w' := by
  intro pfx e' hl' hret
  obtain ⟨e, hl, hpost⟩ := h.back hl'
  have hpfx : e.pfx = pfx := h.wellFormed₀.pfx_eq hl
  unfold ParkOutcome at hpost
  split_ifs at hpost with hs
  · exact absurd (hpost.1 ▸ hs) hret
  obtain ⟨d, hd, rfl, hrows⟩ := hpost
  refine ⟨activePark d, d, rfl, rfl, rfl, rfl, ?_, (hrows _).mpr (.inl rfl)⟩
  rw [h.platform, ← hpfx]
  exact hd

-- === The state that cannot be resumed ===

/-- `parkOne` never returns from an Applying park, with or without faults. -/
theorem Tenure.parkOne_stuck {L : Type} {H : History L}
    {G : ∀ ⦃β : Type⦄, RouteCall β → World → L → Prop} (T : Tenure H G cfg role) {base : World}
    {l : L} {Q : Unit → World × L → Prop} (h : T.Holds e.pfx base e w l) (hp : e.park = some q)
    (hs : q.state = .applying) :
    (Control.parkOne cfg role e).Keeps (T.setting e.pfx base) Q (w, l) := by
  have hno (e' : SelectedRoute) : ¬ RecordTransition.markParkApplying.Edits e e' := by
    intro hedit
    cases hedit with
    | markParkApplying hp' hs' =>
      cases hp.symm.trans hp'
      rw [hs] at hs'
      cases hs'
  refine .step (T.reads trivial h fun d w1 l1 _ h1 _ _ _ => ?_)
  simp only [hp, hs]
  exact .step (T.record .markParkApplying (T.onPark trivial) h1
    (fun e' hedit => absurd hedit (hno e')) fun e' _ hedit => absurd hedit (hno e'))

theorem parkRegistered_stuck (hw : w.registry.WellFormed)
    (hl : w.registry.lookup ⟨role, e.pfx⟩ = some e) (hret : e.state ≠ .retiring)
    (hp : e.park = some q) (hs : q.state = .applying) :
    (parkRegistered cfg role).Keeps (coverage role (Settled w.registry)) (fun _ _ => False)
      (w, w.registry) := by
  refine .step (covered_roleState hw fun state w1 hr => ?_)
  rw [← hr] at hw hl ⊢
  let T := coverageTenure cfg role w1.registry
  have h : T.Inv w1 w1.registry := ⟨rfl, hw⟩
  have hstable := T.stable_const (AtStart role w1.registry)
  split_ifs
  · exact .fail h
  · exact .fail h
  refine Prog.Keeps.step (keeps_read h ?_)
  refine (Prog.Keeps.forEach (fun xs s => T.Loop (fun _ => AtStart role w1.registry) xs s ∧ e ∈ xs)
    (fun s h => h.1.inv) ?_ _ ⟨T.loop h (List.Sublist.refl _) fun _ _ => id,
      hw.mem_snapshot_iff.mpr hl⟩).mono fun _ _ h => nomatch h.2
  rintro x xs ⟨w', l'⟩ ⟨h, hmem⟩
  by_cases hx : x = e
  · subst hx
    rw [if_neg hret]
    exact (keeps_weaken (T.parkOne_stuck (Q := fun _ _ => False) h.holds hp hs)
      fun _ _ hf => T.done hf).mono fun _ _ hf => hf.2.elim
  have he : e ∈ xs := (List.mem_cons.mp hmem).resolve_left (Ne.symm hx)
  refine (h.step hstable ?_).mono fun _ _ h' => ⟨h', he⟩
  split_ifs
  · exact .ret h.holds.inv trivial
  · exact T.parkOne h.holds fun _ => (h.ready x List.mem_cons_self).mayUnpark h.inv

/-- `ParkRegistered` resumes the park transactions of a frozen role exactly when
    none of them is Applying. -/
theorem parkRegisteredSucceeds_iff (hw : w.registry.WellFormed)
    (hroutes : cfg.routesResolved = true)
    (hfrozen : (w.memory.roleState role).frozen = true) (hpark : ParksNormalize w.platform)
    (hrows : RowsAccounted role w.registry w.kernel) :
    ParkRegisteredSucceeds cfg role w ↔ ParksResumable role w.registry := by
  constructor
  · rintro ⟨hok, _⟩ pfx e q hl hret hp hs
    obtain rfl : e.pfx = pfx := hw.pfx_eq hl
    have hexec := Prog.exec_run faultStep_handle (parkRegistered cfg role) w
    exact (coverage_sound (parkRegistered_stuck hw hl hret hp hs) hexec).2.2 () (by rw [hok]; rfl)
  intro hresume
  rcases (runs_parkRegistered (X := fun _ _ => False) hw hroutes hfrozen hpark hrows
    hresume).ofHandler with ⟨_, hok, h⟩ | ⟨_, _, h⟩
  · exact ⟨hok, h.allParked⟩
  · exact h.elim

end Registered

-- === Crashes ===

def Recoverable (cfg : Config) (role : String) (w : World) : Prop :=
  ∃ r generation, w.disk role = some (checkpointOf r role cfg.platform generation) ∧
    r.WellFormed ∧ r.Persistable role "" ∧ RowsAccounted role r w.kernel

/-- Both the registry and the last checkpoint account for the rows. -/
structure Durable (cfg : Config) (role : String) (w : World) : Prop where
  wellFormed : w.registry.WellFormed
  persistable : w.registry.Persistable role ""
  accounted : RowsAccounted role w.registry w.kernel
  recoverable : Recoverable cfg role w
  normalize : ParksNormalize w.platform

/-- A transaction on `pfx` keeps the world durable and leaves the other records of
    `base` alone. -/
structure DurableAt (cfg : Config) (role : String) (pfx : Prefix) (base : MemorySelectedRegistry)
    (w : World) : Prop extends Durable cfg role w where
  elsewhere : ∀ k, k ≠ ⟨role, pfx⟩ → w.registry.lookup k = base.lookup k

section Crashes

variable {cfg : Config} {role : String} {pfx : Prefix} {base : MemorySelectedRegistry} {w : World}
  {e : SelectedRoute} {Q : Unit → World × Unit → Prop} {q : SelectedPark}

theorem DurableAt.of_agrees {w' : World} (h : DurableAt cfg role pfx base w)
    (hr : w'.registry = w.registry) (hk : w'.kernel = w.kernel) (hp : w'.platform = w.platform)
    (hd : w'.disk = w.disk) : DurableAt cfg role pfx base w' := by
  obtain ⟨r, generation, h1, h2, h3, h4⟩ := h.recoverable
  exact ⟨⟨hr ▸ h.wellFormed, hr ▸ h.persistable, by rw [hr, hk]; exact h.accounted,
    ⟨r, generation, hd ▸ h1, h2, h3, hk ▸ h4⟩, hp ▸ h.normalize⟩, hr ▸ h.elsewhere⟩

theorem DurableAt.set {t : RecordTransition} {e' : SelectedRoute}
    (h : DurableAt cfg role pfx base w) (ha : t.Admissible pfx)
    (hl : w.registry.lookup ⟨role, pfx⟩ = some e) (hedit : t.Edits e e')
    (hkeep : ∀ row ∈ w.kernel pfx, row.AuthorizedBy e → row.AuthorizedBy e') :
    DurableAt cfg role pfx base (w.withRegistry (w.registry.set ⟨role, pfx⟩ e')) where
  wellFormed := h.wellFormed.edited ha hl hedit
  persistable := persistable_set h.persistable fun hrole =>
    (h.persistable _ _ hl (hedit.frame.1 ▸ hrole)).of_edits hedit
  accounted := by
    intro q e'' hl'' row hrow
    rw [World.registry_withRegistry, MemorySelectedRegistry.lookup_set] at hl''
    split_ifs at hl'' with hk
    · cases hl''
      obtain rfl : q = pfx := congrArg SelectedRouteKey.pfx hk
      exact hkeep row hrow (h.accounted q e hl row hrow)
    · exact h.accounted q e'' hl'' row hrow
  recoverable := h.recoverable
  normalize := h.normalize
  elsewhere k hk := (MemorySelectedRegistry.lookup_set_of_ne _ e' hk).trans (h.elsewhere k hk)

theorem durable_record (t : RecordTransition) (h : DurableAt cfg role pfx base w)
    (hl : w.registry.lookup ⟨role, pfx⟩ = some e)
    (hkeep : ∀ e', e'.WellFormed → t.Edits e e' → ∀ row ∈ w.kernel pfx, row.AuthorizedBy e →
      row.AuthorizedBy e')
    (hQ : ∀ e' w', t.Edits e e' → DurableAt cfg role pfx base w' →
      w'.registry.lookup ⟨role, pfx⟩ = some e' → w'.kernel = w.kernel → Q () (w', ())) :
    (registry fun r => t.apply r role pfx).Keeps (upholding (DurableAt cfg role pfx base)) Q
      (w, ()) := by
  refine keeps_record t h (fun r hs => ?_) ?_
  · obtain ⟨r', generation, h1, h2, h3, h4⟩ := h.recoverable
    exact ⟨⟨h.wellFormed.congr hs, fun k e he => h.persistable k e (hs k ▸ he),
      fun q e he => h.accounted q e (hs _ ▸ he), ⟨r', generation, h1, h2, h3, h4⟩, h.normalize⟩,
      fun k hk => (hs k).trans (h.elsewhere k hk)⟩
  intro entry edited ha hl' hedit
  cases hl.symm.trans hl'
  have hself := w.registry.lookup_set_self ⟨role, pfx⟩ edited
  have h' := h.set ha hl hedit
    (hkeep edited (h.wellFormed.edited ha hl hedit _ _ hself).2 hedit)
  exact ⟨h', hQ edited _ hedit h' hself rfl⟩

theorem durable_checkpoint (hdir : cfg.stateDir role = true) (h : DurableAt cfg role pfx base w)
    (hQ : ∀ w' generation, DurableAt cfg role pfx base w' → w'.registry = w.registry →
      w'.kernel = w.kernel →
      w'.disk role = some (checkpointOf w'.registry role cfg.platform generation) → Q () (w', ())) :
    (checkpoint cfg role).Keeps (upholding (DurableAt cfg role pfx base)) Q (w, ()) := by
  have h1 : DurableAt cfg role pfx base
      (w.touched role) := h.of_agrees rfl rfl rfl rfl
  refine .step (keeps_memory h h1 ?_)
  refine keeps_writeCheckpoint h1 (fun hno => ?_) fun _ => ?_
  · rw [hdir] at hno
    cases hno
  have hdisk := World.disk_written_self
    (w.touched role) role
    (checkpointOf w.registry role cfg.platform (w.memory.roleState role).routeGeneration)
  have h2 : DurableAt cfg role pfx base
      ((w.touched role).written role
        (checkpointOf w.registry role cfg.platform (w.memory.roleState role).routeGeneration)) :=
    ⟨⟨h.wellFormed, h.persistable, h.accounted,
      ⟨w.registry, _, hdisk, h.wellFormed, h.persistable, h.accounted⟩, h.normalize⟩, h.elsewhere⟩
  exact ⟨h2, hQ _ _ h2 rfl rfl hdisk⟩

/-- The rows of the prefix change, and the record accounts for every new one in
    the registry and on disk. -/
theorem DurableAt.withKernel {k : Kernel} (h : DurableAt cfg role pfx base w)
    (hrows : ∀ q row, row ∈ k q → row ∈ w.kernel q ∨
      (q = pfx ∧ (∀ e, w.registry.lookup ⟨role, pfx⟩ = some e → row.AuthorizedBy e) ∧
        ∃ generation, w.disk role =
          some (checkpointOf w.registry role cfg.platform generation))) :
    DurableAt cfg role pfx base (w.withKernel k) := by
  refine ⟨⟨h.wellFormed, h.persistable, fun q e hl row hrow => ?_, ?_, h.normalize⟩, h.elsewhere⟩
  · rcases hrows q row hrow with hrow | ⟨rfl, hnew, _⟩
    · exact h.accounted q e hl row hrow
    · exact hnew e hl
  by_cases hsync : ∃ generation,
      w.disk role = some (checkpointOf w.registry role cfg.platform generation)
  · obtain ⟨generation, hd⟩ := hsync
    refine ⟨w.registry, generation, hd, h.wellFormed, h.persistable, fun q e hl row hrow => ?_⟩
    rcases hrows q row hrow with hrow | ⟨rfl, hnew, _⟩
    · exact h.accounted q e hl row hrow
    · exact hnew e hl
  · obtain ⟨r, generation, h1, h2, h3, h4⟩ := h.recoverable
    refine ⟨r, generation, h1, h2, h3, fun q e hl row hrow => ?_⟩
    rcases hrows q row hrow with hrow | ⟨_, _, hs⟩
    · exact h4 q e hl row hrow
    · exact absurd hs hsync

/-- What a reconciliation of the Applying park of the registered record leaves. -/
theorem durable_reconcileManagedPark {generation : UInt64}
    {Q : SelectedParkReconcileResult → World × Unit → Prop} (h : DurableAt cfg role pfx base w)
    (hl : w.registry.lookup ⟨role, pfx⟩ = some e) (hp : e.park = some q) (hs : q.state = .applying)
    (hdisk : w.disk role = some (checkpointOf w.registry role cfg.platform generation))
    (hQ : ∀ result k, DurableAt cfg role pfx base (w.withKernel k) →
      (∀ i, .park i ∈ k pfx → i = result.verified) → Q result (w.withKernel k, ())) :
    (routes (.reconcileManagedPark role pfx e)).Keeps (upholding (DurableAt cfg role pfx base)) Q
      (w, ()) := by
  have hadded : ∀ ms, (∀ m ∈ ms, m ∈ (reconcileManagedPark w.kernel pfx e).2) →
      DurableAt cfg role pfx base (w.withKernel (applyAll ms w.kernel)) := by
    intro ms hms
    refine h.withKernel fun q' row hrow => ?_
    rcases mem_or_add_of_mem_applyAll hrow with hrow | hadd
    · exact .inl hrow
    rcases reconcileManagedPark_cases w.kernel pfx e with ⟨_, hc⟩ | ⟨park, hpark, _, _, hc⟩
    · have := hms _ hadd
      rw [hc] at this
      cases this
    have := hms _ hadd
    rw [hc] at this
    obtain ⟨rfl, rfl⟩ := add_mem_parkMutations this
    cases hp.symm.trans hpark
    refine .inr ⟨rfl, fun e' hl' => ?_, _, hdisk⟩
    cases hl.symm.trans hl'
    simp [SelectedKernelRow.AuthorizedBy, parkRowAuthorized, hp, SelectedPark.authorizesRow, hs]
  refine keeps_routes h trivial (fun result hb => ?_) fun n _ =>
    hadded _ fun m hm => List.mem_of_mem_take hm
  have h' := hadded _ fun m hm => hm
  refine ⟨h', hQ result _ h' fun i hi => ?_⟩
  rcases reconcileManagedPark_cases w.kernel pfx e with ⟨_, hc⟩ | ⟨park, hpark, hs', hrows, hc⟩
  · rw [RouteCall.plan, hc] at hb
    cases hb
  rw [RouteCall.plan, hc] at hb
  rw [RouteCall.plan, hc, mem_parkMutations hpark hs' hrows] at hi
  cases hb
  rcases hi with hi | ⟨_, hne⟩
  · exact SelectedKernelRow.park.inj hi
  · exact absurd rfl (hne i)

/-- A park that is retired loses every row that it accounts for. -/
theorem durable_removeManagedPark (h : DurableAt cfg role pfx base w)
    (hl : w.registry.lookup ⟨role, pfx⟩ = some e) (hp : e.park = some q) (hs : q.state = .retiring)
    (hQ : ∀ k, DurableAt cfg role pfx base (w.withKernel k) → (∀ i, .park i ∉ k pfx) →
      Q () (w.withKernel k, ())) :
    (routes (.removeManagedPark role pfx q)).Keeps (upholding (DurableAt cfg role pfx base)) Q
      (w, ()) := by
  obtain ⟨candidates, hc, hall⟩ := parkRemovalCandidates_retiring pfx hs
  obtain ⟨ids, hids⟩ := removeManagedPark_writes w.kernel pfx q
  have hfewer : ∀ ms, (∀ m ∈ ms, m ∈ (removeManagedPark w.kernel pfx q).2) →
      DurableAt cfg role pfx base (w.withKernel (applyAll ms w.kernel)) := by
    intro ms hms
    refine h.withKernel fun q' row hrow => (mem_or_add_of_mem_applyAll hrow).imp_right
      fun hadd => ?_
    have := hms _ hadd
    rw [hids] at this
    simp at this
  refine keeps_routes h trivial (fun _ _ => ?_) fun n _ =>
    hfewer _ fun m hm => List.mem_of_mem_take hm
  have h1 := hfewer _ fun m hm => hm
  refine ⟨h1, hQ _ h1 fun i hmem => ?_⟩
  rw [RouteCall.plan, mem_removeManagedPark hc] at hmem
  have hauth := h.accounted _ e hl _ hmem.1
  simp only [SelectedKernelRow.AuthorizedBy, parkRowAuthorized, hp] at hauth
  exact hmem.2 ⟨rfl, i, hall i hauth, rfl⟩

theorem namesPark_of_authorizedBy {i : SelectedParkIdentity}
    (h : (SelectedKernelRow.park i).AuthorizedBy e) : e.NamesPark i := by
  cases hp : e.park with
  | none => simp [SelectedKernelRow.AuthorizedBy, parkRowAuthorized, hp] at h
  | some p =>
    refine ⟨p, hp, ?_⟩
    simp only [SelectedKernelRow.AuthorizedBy, parkRowAuthorized, hp] at h
    unfold SelectedPark.Names
    cases hs : p.state <;> grind [SelectedPark.authorizesRow]

/-- A transition on the park keeps every row accounted for that the park names. -/
theorem authorizedBy_onPark {t : RecordTransition} {e' : SelectedRoute}
    {row : SelectedKernelRow} (ht : t.OnPark) (hedit : t.Edits e e') (hw : e'.WellFormed)
    (hkeep : ∀ i, row = .park i → e.NamesPark i → e'.NamesPark i) (h : row.AuthorizedBy e) :
    row.AuthorizedBy e' := by
  cases row with
  | park i =>
    have hn : e'.NamesRow (.park i) := hkeep i rfl (namesPark_of_authorizedBy h)
    exact hn.authorizedBy hw
  | foreign text => exact h
  | route i => cases hedit <;> first | exact h | cases ht

def durableTenure (hdir : cfg.stateDir role = true) :
    Tenure noHistory (fun _ _ _ _ => True) cfg role where
  Inv w _ := Durable cfg role w
  At pfx base w _ := DurableAt cfg role pfx base.registry w
  Live pfx k _ row := row ∈ k pfx ∧ ∃ i, row = .park i
  Ahead _ w _ _ :=
    ∃ generation, w.disk role = some (checkpointOf w.registry role cfg.platform generation)
  Unparks _ _ _ _ := True
  May := RecordTransition.OnPark
  onPark := id
  wellFormed h := h.wellFormed
  start _ h := ⟨h, fun _ _ => rfl⟩
  done h := h.toDurable
  elsewhere h hk := h.elsewhere _ hk
  memory h hr := h.of_agrees hr rfl rfl rfl
  record t ht h hkeep hQ := durable_record t h.inv h.lookup
    (fun e' hw hedit row hrow hauth => authorizedBy_onPark ht hedit hw
      (fun i hi hn => by subst hi; exact hkeep e' hedit _ ⟨hrow, i, rfl⟩ hn) hauth)
    fun e' w' hedit h' hl' _ => hQ e' w' hedit ⟨h', hl'⟩ fun _ => trivial
  checkpoint h hQ := durable_checkpoint hdir h.inv fun w' generation h' hr _ hd =>
    hQ w' () ⟨h', hr ▸ h.lookup⟩ (fun _ _ => ⟨generation, hd⟩) fun _ => trivial
  reads hc h hQ := upholds_reads h.inv (hc.plan _ _) fun b hb =>
    hQ b _ _ hb h rfl (fun _ => id) fun _ => trivial
  reconcilePark h hp hs ha hQ := by
    obtain ⟨generation, hd⟩ := ha
    exact durable_reconcileManagedPark h.inv h.lookup hp hs hd fun result k h' honly =>
      hQ result _ () ⟨h', h.lookup⟩ fun i hi => honly i hi.1
  removePark h hp hs _ hQ := durable_removeManagedPark h.inv h.lookup hp hs fun k h' hnone =>
    hQ _ () ⟨h', h.lookup⟩ fun i hi => hnone i hi.1
  reconcileRoute hmay := (hmay .markApplying).elim
  retiring _ _ := trivial
  proven _ _ _ _ := trivial

/-- Wherever `ParkRegistered` stops, whatever has failed, the last checkpoint
    accounts for the rows. -/
theorem parkRegistered_durable (hdir : cfg.stateDir role = true) (h : Durable cfg role w) :
    (parkRegistered cfg role).Keeps (upholding (Durable cfg role)) (fun _ _ => True) (w, ()) :=
  Tenure.parkRegistered (T := durableTenure hdir) (R := fun _ => True)
    (fun _ _ _ _ _ _ _ _ => trivial) h
    ⟨h.wellFormed, h.persistable, h.accounted, h.recoverable, h.normalize⟩ fun _ _ => trivial

def refrozen (role : String) (w : World) : World := ((freeze role).run handle w).2

/-- `ParkRegistered` on a frozen role whose kernel rows are all accounted for
    returns nil and leaves every live record parked exactly when no live record
    has an Applying park. Wherever it is cut off, whatever has failed, the last
    checkpoint is restored and `ParkRegistered` resumes under the same
    condition on what was restored. -/
theorem parkRegistered_resumes_iff (hw : w.registry.WellFormed)
    (hroutes : cfg.routesResolved = true) (hfrozen : (w.memory.roleState role).frozen = true)
    (hpark : ParksNormalize w.platform) (hrows : RowsAccounted role w.registry w.kernel) :
    (ParkRegisteredSucceeds cfg role w ↔ ParksResumable role w.registry) ∧
    (role ≠ "" → cfg.stateDir role = true →
      cfg.platform = checkpointPlatformLinux ∨ cfg.platform = checkpointPlatformWindows →
      w.registry.Persistable role "" → Recoverable cfg role w →
      ∀ trace o w', Exec FaultStep (parkRegistered cfg role) w trace o w' →
        ∃ w'', restart cfg role w' = .ok w'' ∧
          (ParkRegisteredSucceeds cfg role (refrozen role w'') ↔
            ParksResumable role w''.registry)) := by
  refine ⟨parkRegisteredSucceeds_iff hw hroutes hfrozen hpark hrows, ?_⟩
  intro hrole hdir hplat hp hrec trace o w' he
  have hdur := (upholding_sound (parkRegistered_durable hdir ⟨hw, hp, hrows, hrec, hpark⟩) he).1
  obtain ⟨r, generation, hd, hw', hp', hrows'⟩ := hdur.recoverable
  obtain ⟨w'', hr, hk, hplatform, hl⟩ := restart_checkpointOf hrole hdir hplat hw' hp' hd
  have hw₂ : w''.registry.WellFormed := wellFormed_restart hr
  have hw'' : (refrozen role w'').registry.WellFormed := hw₂
  refine ⟨w'', hr, parkRegisteredSucceeds_iff hw'' hroutes ?_ ?_ ?_⟩
  · simp [refrozen, freeze, memory, Prog.perform, Prog.run, handle, World.withMemory]
  · show ParksNormalize w''.platform
    rw [hplatform]
    exact hdur.normalize
  · intro pfx e hl' row hrow
    rw [show (refrozen role w'').kernel = w'.kernel from hk] at hrow
    exact hrows' pfx e ((hl pfx).symm.trans hl') row hrow

end Crashes

section

variable {role : String} {r : MemorySelectedRegistry}

theorem parksNormalize_samplePlatform : ParksNormalize samplePlatform := by
  intro pfx hc
  refine ⟨samplePark, rfl, ?_⟩
  simp only [SelectedParkIdentity.validate, isValid_of_isCanonicalPrefix hc, hc]
  rfl

theorem rowsAccounted_of_snapshot {k : Kernel} (hw : r.WellFormed)
    (h : ∀ e ∈ r.snapshot role, ∀ row ∈ k e.pfx, row.AuthorizedBy e) : RowsAccounted role r k := by
  intro pfx e hl
  obtain rfl : e.pfx = pfx := hw.pfx_eq hl
  exact h e (hw.mem_snapshot_iff.mpr hl)

theorem parksResumable_of_snapshot (hw : r.WellFormed)
    (h : ∀ e ∈ r.snapshot role, e.state ≠ .retiring → ∀ q ∈ e.park, q.state ≠ .applying) :
    ParksResumable role r := by
  intro pfx e q hl hret hp
  obtain rfl : e.pfx = pfx := hw.pfx_eq hl
  exact h e (hw.mem_snapshot_iff.mpr hl) hret q hp

end

theorem admitted_parkedOps (transitions : List RecordTransition) :
    ∀ op ∈ parkedOps transitions, op.Admitted "work" "" := by
  intro op hop
  rcases List.mem_append.mp hop with hop | hop
  · simp only [activeOps, List.mem_cons, List.not_mem_nil, or_false] at hop
    rcases hop with rfl | rfl | rfl
    · exact ⟨rfl, .inl rfl, fun _ => by decide, by simp [sampleReservation], by decide, by decide⟩
    · trivial
    · trivial
  · obtain ⟨_, _, rfl⟩ := List.mem_map.mp hop
    trivial

def checkpointedWorld (ops : List RegistryOp) (rows : List SelectedKernelRow) : World :=
  (sampleWorld ops rows 7).written "work" (checkpointOf (runOps ops .empty) "work" "linux" 1)

/-- A park that is being retired while its row is still there is retired and
    installed again, and a crash on the way can be restored. -/
theorem parkRegistered_resumes_iff_retiring :
    let w := checkpointedWorld
      (parkedOps [.markParkApplying, .markParkActive samplePark, .markParkRetiring])
      [.route (sampleIdentity 7), .park samplePark]
    ParkRegisteredSucceeds {} "work" w ∧
    ∀ trace o w', Exec FaultStep (parkRegistered {} "work") w trace o w' →
      ∃ w'', restart {} "work" w' = .ok w'' := by
  intro w
  have hw : w.registry.WellFormed := wellFormed_run _ MemorySelectedRegistry.wellFormed_empty
  have hp : w.registry.Persistable "work" "" := by
    refine persistable_run _ (admitted_parkedOps _) fun k e hl => ?_
    cases hl
  have hrows : RowsAccounted "work" w.registry w.kernel :=
    rowsAccounted_of_snapshot hw (by decide +kernel)
  have hrec : Recoverable {} "work" w :=
    ⟨w.registry, 1, World.disk_written_self _ _ _, hw, hp, hrows⟩
  have h := @parkRegistered_resumes_iff {} "work" w hw rfl rfl parksNormalize_samplePlatform hrows
  refine ⟨h.1.mpr (parksResumable_of_snapshot hw (by decide +kernel)), fun trace o w' he => ?_⟩
  obtain ⟨w'', hr, _⟩ := h.2 (by decide) rfl (.inl rfl) hp hrec trace o w' he
  exact ⟨w'', hr⟩

/-- A process that stopped between the Applying checkpoint and the reconciliation
    of a park: `ParkRegistered` rejects the state it has to resume. -/
theorem applying_park_is_rejected :
    let w := sampleWorld (parkedOps [.markParkApplying]) [.route (sampleIdentity 7)] 7
    w.registry.WellFormed ∧ (w.memory.roleState "work").frozen = true ∧
    ParksNormalize w.platform ∧ RowsAccounted "work" w.registry w.kernel ∧
    ¬ ParkRegisteredSucceeds {} "work" w := by
  intro w
  have hw : w.registry.WellFormed := wellFormed_sampleWorld _ _ _
  refine ⟨hw, rfl, parksNormalize_samplePlatform,
    rowsAccounted_of_snapshot hw (by decide +kernel), fun ⟨hok, _⟩ => ?_⟩
  have herr : ((parkRegistered {} "work").run handle w).1.isOk = false := by decide +kernel
  rw [hok] at herr
  cases herr

end Kikimora.Control

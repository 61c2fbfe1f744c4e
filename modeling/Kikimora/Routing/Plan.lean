import Kikimora.Routing.RegistryInvariant

/-!
# Kernel rows and the reconciliation plan

The neutral view of the same-prefix kernel rows and the ownership rules that
both platforms share: which rows a registry record authorizes, and what a
reconciliation has to do.
-/

namespace Kikimora.Routing

open Net

/-- The route intent that is normalized into an exact identity. -/
structure SelectedRouteDesired where
  role : String
  pfx : Prefix
  ifIndex : Int
  gateway : Addr := .zero
  deriving DecidableEq, Repr

/-- A same-prefix kernel row, projected into exactly one of three classes. A row
    that cannot be projected is foreign and keeps only a diagnostic. -/
inductive SelectedKernelRow
  | route (identity : SelectedRouteIdentity)
  | park (identity : SelectedParkIdentity)
  | foreign (text : String)
  deriving DecidableEq, Repr

def SelectedKernelRow.description : SelectedKernelRow → String
  | .route i =>
    "ifindex " ++ toString i.ifIndex ++ " gw " ++ (if i.nextHop = "" then "<nil>" else i.nextHop) ++
      " proto " ++ toString i.protocol ++ " metric " ++ toString i.metric.toNat ++ " scope " ++
      toString i.scope ++ " type 1"
  | .park i =>
    "ifindex " ++ toString i.ifIndex ++ " gw <nil> proto " ++ toString i.protocol ++ " metric " ++
      toString i.metric.toNat ++ " scope " ++ toString i.scope ++ " type 7"
  | .foreign text => text

structure SelectedReconcileResult where
  mutated : Bool
  verified : SelectedRouteIdentity
  deriving DecidableEq, Repr

structure SelectedParkReconcileResult where
  mutated : Bool
  verified : SelectedParkIdentity
  deriving DecidableEq, Repr

inductive SelectedReconcileAction
  | none
  | add
  | replace
  deriving DecidableEq, Repr

/-- `parkRowAuthorized` on a record that has a park: which park rows may be in
    the kernel under the persisted park transaction. -/
def SelectedPark.authorizesRow (park : SelectedPark) (row : SelectedParkIdentity) : Bool :=
  match park.state with
  | .pending => park.owned = some row
  | .applying => row = park.desired || park.owned = some row
  | .active => park.owned = some row
  | .retiring => park.owned = some row || (park.retireDesired && row = park.desired)
  | .other _ => false

def parkRowAuthorized (row : SelectedParkIdentity) (record : SelectedRoute) : Bool :=
  match record.park with
  | some park => park.authorizesRow row
  | none => false

def selectedRowAuthorizedForPark (row : SelectedRouteIdentity) (record : SelectedRoute) : Bool :=
  row = record.desired || record.owned = some row

/-- The classification loop of `PlanSelectedRoute`, with the number of desired
    and of previously owned rows so far. -/
def classifyRows (record : SelectedRoute) :
    List SelectedKernelRow → Nat → Nat → Except String (Nat × Nat)
  | [], desiredCount, ownedCount => .ok (desiredCount, ownedCount)
  | row :: rows, desiredCount, ownedCount =>
    match row with
    | .foreign text => .error ("prefix conflicts with a foreign row: " ++ text)
    | .park identity =>
      -- authorized parks coexist and count for nothing
      if parkRowAuthorized identity record then classifyRows record rows desiredCount ownedCount
      else .error ("prefix conflicts with an unauthorized park row: " ++ row.description)
    | .route identity =>
      if identity = record.desired then classifyRows record rows (desiredCount + 1) ownedCount
      else if record.owned = some identity then
        classifyRows record rows desiredCount (ownedCount + 1)
      else .error ("prefix conflicts with a foreign row: " ++ row.description)

def planSelectedRoute (rows : List SelectedKernelRow) (record : Option SelectedRoute) :
    Except String SelectedReconcileAction :=
  match record with
  | none =>
    if rows.isEmpty then .ok .add
    else .error ("prefix conflicts with " ++ toString rows.length ++
      " foreign row(s): no registry record owns it")
  | some record => do
    require (record.state ≠ .retiring)
      ("selected route " ++ record.pfx.toString ++ " is retiring; retirement owns its cleanup")
    let (desiredCount, ownedCount) ← classifyRows record rows 0 0
    require (desiredCount ≤ 1)
      ("prefix has " ++ toString desiredCount ++ " identical desired rows")
    -- without an Owned proof only a durable Applying record may adopt its target
    require (!(record.owned = none && ownedCount = 0 && 0 < desiredCount) ||
        record.state = .applying)
      ("prefix has an unauthorized existing row: " ++ quoted record.state.text ++
        " state may not adopt it")
    if desiredCount = 1 && ownedCount = 0 then .ok .none
    else if desiredCount = 0 && ownedCount = 0 then .ok .add
    else .ok .replace

-- === What the plan accepts ===

def SelectedKernelRow.AuthorizedBy (record : SelectedRoute) : SelectedKernelRow → Prop
  | .route i => i = record.desired ∨ record.owned = some i
  | .park i => parkRowAuthorized i record = true
  | .foreign _ => False

instance (record : SelectedRoute) : (row : SelectedKernelRow) → Decidable (row.AuthorizedBy record)
  | .route _ => inferInstanceAs (Decidable (_ ∨ _))
  | .park _ => inferInstanceAs (Decidable (_ = _))
  | .foreign _ => inferInstanceAs (Decidable False)

def ownedRows (record : SelectedRoute) (rows : List SelectedKernelRow) : Nat :=
  rows.countP fun row => match row with
    | .route i => i ≠ record.desired && record.owned = some i
    | _ => false

variable {record : SelectedRoute} {rows : List SelectedKernelRow}

theorem classifyRows_eq_ok_iff {d o d' o' : Nat} : classifyRows record rows d o = .ok (d', o') ↔
      (∀ row ∈ rows, row.AuthorizedBy record) ∧
      d' = d + rows.count (.route record.desired) ∧ o' = o + ownedRows record rows := by
  induction rows generalizing d o with
  | nil => simp [classifyRows, ownedRows, eq_comm]
  | cons row rows ih =>
    cases row with
    | foreign text => simp [classifyRows, SelectedKernelRow.AuthorizedBy]
    | park i =>
      by_cases h : parkRowAuthorized i record = true
      · simp [classifyRows, h, ih, SelectedKernelRow.AuthorizedBy, ownedRows]
      · simp [classifyRows, h, SelectedKernelRow.AuthorizedBy]
    | route i =>
      by_cases hd : i = record.desired
      · subst hd
        simp [classifyRows, ih, SelectedKernelRow.AuthorizedBy, ownedRows]
        omega
      by_cases ho : record.owned = some i
      · simp [classifyRows, hd, ho, ih, SelectedKernelRow.AuthorizedBy, ownedRows]
        omega
      · simp [classifyRows, hd, ho, SelectedKernelRow.AuthorizedBy]

def plannedAction (record : SelectedRoute) (rows : List SelectedKernelRow) :
    SelectedReconcileAction :=
  if rows.count (.route record.desired) = 1 && ownedRows record rows = 0 then .none
  else if rows.count (.route record.desired) = 0 && ownedRows record rows = 0 then .add
  else .replace

/-- The plan for a record succeeds when no retirement owns the record, every row
    is authorized, the target is there at most once, and a target without an
    Owned proof belongs to an authorized mutation. -/
theorem planSelectedRoute_eq_ok_iff {action : SelectedReconcileAction} :
    planSelectedRoute rows (some record) = .ok action ↔
      record.state ≠ .retiring ∧ (∀ row ∈ rows, row.AuthorizedBy record) ∧
      rows.count (.route record.desired) ≤ 1 ∧
      (record.owned = none → .route record.desired ∈ rows → record.state = .applying) ∧
      action = plannedAction record rows := by
  simp only [planSelectedRoute, bind_ok_iff, require_eq_ok, exists_const, decide_eq_true_eq,
    Prod.exists]
  constructor
  · rintro ⟨hs, d, o, hc, hd, had, hact⟩
    obtain ⟨hall, rfl, rfl⟩ := classifyRows_eq_ok_iff.mp hc
    simp only [Nat.zero_add] at hd had hact
    refine ⟨hs, hall, hd, fun ho hm => ?_, ?_⟩
    · have hpos : 0 < rows.count (.route record.desired) := List.count_pos_iff.mpr hm
      have hzero : ownedRows record rows = 0 := by
        refine List.countP_eq_zero.mpr fun row _ => ?_
        cases row <;> simp [ho]
      simpa [ho, hzero, hpos] using had
    · unfold plannedAction
      split_ifs at hact ⊢ <;> simp_all
  · rintro ⟨hs, hall, hd, had, rfl⟩
    refine ⟨hs, _, _, classifyRows_eq_ok_iff.mpr ⟨hall, rfl, rfl⟩, by simpa using hd, ?_, ?_⟩
    · by_cases ho : record.owned = none
      · by_cases hm : SelectedKernelRow.route record.desired ∈ rows
        · simp [had ho hm]
        · simp [List.count_eq_zero.mpr hm]
      · simp [ho]
    · simp only [Nat.zero_add, plannedAction]
      split_ifs <;> rfl

/-- A route row is the Owned one, or the Desired one where the record may adopt it:
    while a mutation is authorized, or beside an earlier proof of ownership. -/
def SelectedKernelRow.AdmittedBy (record : SelectedRoute) : SelectedKernelRow → Prop
  | .route i => record.owned = some i ∨
      i = record.desired ∧ (record.state = .applying ∨ record.owned ≠ none)
  | .park i => parkRowAuthorized i record = true
  | .foreign _ => False

def routeRows (rows : List SelectedKernelRow) : List SelectedRouteIdentity :=
  rows.filterMap fun row => match row with
    | .route i => some i
    | _ => none

theorem mem_routeRows {i : SelectedRouteIdentity} : i ∈ routeRows rows ↔ .route i ∈ rows := by
  simp only [routeRows, List.mem_filterMap]
  refine ⟨fun ⟨row, hrow, heq⟩ => ?_, fun h => ⟨_, h, rfl⟩⟩
  cases row with
  | route j => cases heq; exact hrow
  | park _ | foreign _ => cases heq

theorem length_routeRows (hall : ∀ row ∈ rows, row.AuthorizedBy record) :
    (routeRows rows).length = rows.count (.route record.desired) + ownedRows record rows := by
  induction rows with
  | nil => rfl
  | cons row rows ih =>
    rw [List.forall_mem_cons] at hall
    have ih := ih hall.2
    cases row with
    | foreign text => exact hall.1.elim
    | park i => simpa [routeRows, ownedRows] using ih
    | route i =>
      by_cases hd : i = record.desired
      · subst hd
        simp [routeRows, ownedRows] at ih ⊢
        omega
      · have ho : record.owned = some i := hall.1.resolve_left hd
        simp [routeRows, ownedRows, hd, ho] at ih ⊢
        omega

theorem ownedRows_pos_iff : 0 < ownedRows record rows ↔
      ∃ i, .route i ∈ rows ∧ record.owned = some i ∧ i ≠ record.desired := by
  rw [ownedRows, List.countP_pos_iff]
  constructor
  · rintro ⟨row, hrow, h⟩
    cases row with
    | route i => exact ⟨i, hrow, by simpa [and_comm] using h⟩
    | park _ | foreign _ => cases h
  · rintro ⟨i, hrow, ho, hd⟩
    exact ⟨_, hrow, by simp [ho, hd]⟩

/-- What the planned action says about the route rows. -/
theorem plannedAction_spec (hall : ∀ row ∈ rows, row.AuthorizedBy record)
    (hcount : rows.count (.route record.desired) ≤ 1) :
    (plannedAction record rows = .none ↔ routeRows rows = [record.desired]) ∧
    (plannedAction record rows = .add ↔ routeRows rows = []) ∧
    (plannedAction record rows = .replace ↔
      ∃ i, .route i ∈ rows ∧ record.owned = some i ∧ i ≠ record.desired) := by
  have hlen := length_routeRows hall
  have hnone : routeRows rows = [record.desired] ↔
      rows.count (.route record.desired) = 1 ∧ ownedRows record rows = 0 := by
    constructor
    · intro heq
      have hmem : SelectedKernelRow.route record.desired ∈ rows :=
        mem_routeRows.mp (heq ▸ List.mem_singleton_self _)
      have hpos := List.count_pos_iff.mpr hmem
      rw [heq, List.length_singleton] at hlen
      omega
    · rintro ⟨hone, hzero⟩
      rw [hone, hzero] at hlen
      obtain ⟨i, hi⟩ := List.length_eq_one_iff.mp hlen
      have hmem := mem_routeRows.mpr (List.count_pos_iff.mp (hone ▸ Nat.one_pos))
      rw [hi, List.mem_singleton] at hmem
      rw [hi, hmem]
  have hadd : routeRows rows = [] ↔
      rows.count (.route record.desired) = 0 ∧ ownedRows record rows = 0 := by
    rw [← List.length_eq_zero_iff, hlen, Nat.add_eq_zero_iff]
  rw [hnone, hadd, ← ownedRows_pos_iff]
  unfold plannedAction
  split_ifs with h1 h2
  · simp_all
  · simp_all
  · simp only [Bool.and_eq_true, decide_eq_true_eq] at h1 h2
    simp only [h1, h2, true_iff, true_and]
    omega

/-- The rows of an accepted view are the admitted ones: without an Owned proof only
    an authorized mutation admits the target. -/
theorem admittedBy_iff : (∀ row ∈ rows, row.AdmittedBy record) ↔
      (∀ row ∈ rows, row.AuthorizedBy record) ∧
      (record.owned = none → .route record.desired ∈ rows → record.state = .applying) := by
  constructor
  · refine fun h => ⟨fun row hrow => ?_, fun ho hmem => ?_⟩
    · have hadmitted := h row hrow
      cases row with
      | route i => exact hadmitted.elim .inr fun hd => .inl hd.1
      | park _ | foreign _ => exact hadmitted
    rcases h _ hmem with howned | ⟨-, hstate | howned⟩
    · rw [ho] at howned
      cases howned
    · exact hstate
    · exact absurd ho howned
  · rintro ⟨hall, hadopt⟩ row hrow
    have hauthorized := hall row hrow
    cases row with
    | route i =>
      rcases hauthorized with rfl | howned
      · refine .inr ⟨rfl, ?_⟩
        by_cases ho : record.owned = none
        · exact .inl (hadopt ho hrow)
        · exact .inr ho
      · exact .inl howned
    | park _ | foreign _ => exact hauthorized

/-- The views the plan accepts, what its action says, and that the order of the rows
    decides nothing. -/
theorem planSelectedRoute_accepts_iff (record : SelectedRoute) (rows : List SelectedKernelRow) :
    ((∃ action, planSelectedRoute rows (some record) = .ok action) ↔
      record.state ≠ .retiring ∧ (∀ row ∈ rows, row.AdmittedBy record) ∧
      rows.count (.route record.desired) ≤ 1) ∧
    (∀ action, planSelectedRoute rows (some record) = .ok action →
      (action = .none ↔ routeRows rows = [record.desired]) ∧
      (action = .add ↔ routeRows rows = []) ∧
      (action = .replace ↔
        ∃ i, .route i ∈ rows ∧ record.owned = some i ∧ i ≠ record.desired)) ∧
    ∀ rows', rows.Perm rows' → ∀ action, planSelectedRoute rows (some record) = .ok action ↔
      planSelectedRoute rows' (some record) = .ok action := by
  refine ⟨?_, ?_, ?_⟩
  · simp only [planSelectedRoute_eq_ok_iff, admittedBy_iff, exists_and_left, exists_eq, and_true]
    tauto
  · intro action h
    obtain ⟨-, hall, hcount, -, rfl⟩ := planSelectedRoute_eq_ok_iff.mp h
    exact plannedAction_spec hall hcount
  intro rows' hperm action
  have hcount := hperm.count_eq (.route record.desired)
  have howned : ownedRows record rows = ownedRows record rows' := hperm.countP_eq _
  simp only [planSelectedRoute_eq_ok_iff, plannedAction, hcount, howned, hperm.mem_iff]

/-- A record that owns its row on interface 7 and now wants interface 8, not yet
    applied, adopts a row on interface 8 that nobody authorized. -/
theorem pending_adopts_desired :
    ∃ record, (runOps
        [.reserve (sampleReservation 7), .record "work" samplePrefix .markApplying,
          .record "work" samplePrefix (.markActive (sampleIdentity 7)),
          .reserve (sampleReservation 8)] MemorySelectedRegistry.empty).lookup
            ⟨"work", samplePrefix⟩ = some record ∧
      record.state = .pending ∧ record.owned = some (sampleIdentity 7) ∧
      record.desired = sampleIdentity 8 ∧
      planSelectedRoute [.route (sampleIdentity 8)] (some record) = .ok .none :=
  ⟨_, rfl, by decide +kernel, by decide +kernel, by decide +kernel, by decide +kernel⟩

theorem planSelectedRoute_retiring (record : SelectedRoute) (rows : List SelectedKernelRow)
    (hs : record.state = .retiring) :
    ∃ message, planSelectedRoute rows (some record) = .error message := by
  cases hplan : planSelectedRoute rows (some record) with
  | error message => exact ⟨message, rfl⟩
  | ok action => exact absurd hs (planSelectedRoute_eq_ok_iff.mp hplan).1

theorem planSelectedRoute_unauthorized (record : SelectedRoute) (row : SelectedKernelRow)
    (hrow : row ∈ rows) (h : ¬ row.AuthorizedBy record) :
    ∃ message, planSelectedRoute rows (some record) = .error message := by
  cases hplan : planSelectedRoute rows (some record) with
  | error message => exact ⟨message, rfl⟩
  | ok action => exact absurd ((planSelectedRoute_eq_ok_iff.mp hplan).2.1 row hrow) h

end Kikimora.Routing

import Kikimora.Platform.RouteManager

/-!
# What the route manager's calls do

For every call that writes: when it succeeds, which writes it issues, and which
rows the prefix has afterwards. The rows of a prefix are read as a set.
-/

namespace Kikimora.Platform

open Net Routing

-- === Mutations ===

variable {k : Kernel} {q : Prefix} {row : SelectedKernelRow} {m : KernelMutation}
  {ms : List KernelMutation} {record : SelectedRoute} {action : SelectedReconcileAction}
  {park : SelectedPark} {row' : SelectedKernelRow} {rows : List SelectedKernelRow}
  {P : SelectedKernelRow → Prop} {candidates : List SelectedParkIdentity}

@[simp] theorem mem_apply_add {pfx : Prefix} :
    row ∈ (KernelMutation.add q row').apply k pfx ↔ row ∈ k pfx ∨ (q = pfx ∧ row = row') := by
  simp only [KernelMutation.apply]
  by_cases hq : pfx = q
  · subst hq
    rw [if_pos rfl]
    split_ifs with h
    · simp only [true_and, iff_self_or]
      rintro rfl
      exact h
    · simp
  · simp [hq, Ne.symm hq]

@[simp] theorem mem_apply_delete {pfx : Prefix} :
    row ∈ (KernelMutation.delete q row').apply k pfx ↔ row ∈ k pfx ∧ ¬ (q = pfx ∧ row = row') := by
  simp only [KernelMutation.apply]
  by_cases hq : pfx = q
  · subst hq
    simp
  · simp [hq, Ne.symm hq]

theorem mem_applyAll_delete {pfx : Prefix} :
    row ∈ applyAll (rows.map (.delete q)) k pfx ↔ row ∈ k pfx ∧ ¬ (q = pfx ∧ row ∈ rows) := by
  induction rows generalizing k with
  | nil => simp
  | cons r rows ih =>
    rw [List.map_cons, applyAll_cons, ih, mem_apply_delete, List.mem_cons]
    tauto

theorem mem_delete_present {ι : Type} {toRow : ι → SelectedKernelRow} {candidates : List ι}
    {pfx : Prefix} :
    row ∈ applyAll
        (((candidates.filter fun c => toRow c ∈ k pfx).map toRow).map (.delete pfx)) k q ↔
      row ∈ k q ∧ ¬ (q = pfx ∧ ∃ i ∈ candidates, row = toRow i) := by
  rw [mem_applyAll_delete]
  simp only [List.mem_map, List.mem_filter, decide_eq_true_eq]
  constructor
  · rintro ⟨hrow, hkept⟩
    refine ⟨hrow, ?_⟩
    rintro ⟨rfl, i, hi, rfl⟩
    exact hkept ⟨rfl, i, ⟨hi, hrow⟩, rfl⟩
  rintro ⟨hrow, hkept⟩
  refine ⟨hrow, ?_⟩
  rintro ⟨rfl, i, ⟨hi, _⟩, rfl⟩
  exact hkept ⟨rfl, i, hi, rfl⟩

def KernelMutation.pfx : KernelMutation → Prefix
  | .add q _ => q
  | .delete q _ => q

variable {pfx : Prefix}

theorem apply_of_ne (h : m.pfx ≠ pfx) (k : Kernel) : m.apply k pfx = k pfx := by
  cases m with
  | add q row | delete q row => exact if_neg (Ne.symm h)

theorem applyAll_of_ne (h : ∀ m ∈ ms, m.pfx ≠ pfx) (k : Kernel) :
    applyAll ms k pfx = k pfx := by
  induction ms generalizing k with
  | nil => rfl
  | cons m ms ih =>
    rw [List.forall_mem_cons] at h
    rw [applyAll_cons, ih h.2, apply_of_ne h.1]

/-- A row is old, or one of the mutations has added it. -/
theorem mem_or_add_of_mem_applyAll (h : row ∈ applyAll ms k q) : row ∈ k q ∨ .add q row ∈ ms := by
  induction ms generalizing k with
  | nil => exact .inl h
  | cons m ms ih =>
    rcases ih h with h | h
    · cases m with
      | add q' row' =>
        rcases mem_apply_add.mp h with h | ⟨rfl, rfl⟩
        · exact .inl h
        · exact .inr List.mem_cons_self
      | delete q' row' => exact .inl (mem_apply_delete.mp h).1
    · exact .inr (List.mem_cons_of_mem m h)

def KernelMutation.Deletes (pfx : Prefix) (P : SelectedKernelRow → Prop) (m : KernelMutation) :
    Prop :=
  ∃ row, P row ∧ m = .delete pfx row

theorem mem_of_mem_applyAll_deletes (hms : ∀ m ∈ ms, m.Deletes pfx P)
    (h : row ∈ applyAll ms k q) : row ∈ k q := by
  rcases mem_or_add_of_mem_applyAll h with h | hadd
  · exact h
  · obtain ⟨_, _, heq⟩ := hms _ hadd
    cases heq

theorem mem_applyAll_deletes_of_mem (hms : ∀ m ∈ ms, m.Deletes pfx P)
    (h : row ∈ k q) (hne : ¬ (q = pfx ∧ P row)) : row ∈ applyAll ms k q := by
  induction ms generalizing k with
  | nil => exact h
  | cons m ms ih =>
    rw [List.forall_mem_cons] at hms
    obtain ⟨⟨row', hrow', rfl⟩, hms⟩ := hms
    refine ih hms (mem_apply_delete.mpr ⟨h, ?_⟩)
    rintro ⟨rfl, rfl⟩
    exact hne ⟨rfl, hrow'⟩

-- === Selected routes ===

/-- A reconciliation fails without a write, or makes the writes of the plan. -/
theorem reconcileSelectedRoute_cases (k : Kernel) (desired : SelectedRouteDesired)
    (record : SelectedRoute) :
    (∃ e, reconcileSelectedRoute k desired record = (.error e, [])) ∨
      ∃ action, planSelectedRoute (k desired.pfx) (some record) = .ok action ∧
        reconcileSelectedRoute k desired record =
          (.ok ⟨decide (action ≠ .none), record.desired⟩,
            reconcileMutations desired.pfx record action) := by
  unfold reconcileSelectedRoute
  split_ifs
  · exact .inl ⟨_, rfl⟩
  · exact .inl ⟨_, rfl⟩
  · cases hp : planSelectedRoute (k desired.pfx) (some record) with
    | error e => exact .inl ⟨e, rfl⟩
    | ok action => exact .inr ⟨action, rfl, rfl⟩

/-- After a reconciliation the target is the only selected row of the prefix. -/
theorem mem_reconcileMutations
    (h : planSelectedRoute (k pfx) (some record) = .ok action) :
    row ∈ applyAll (reconcileMutations pfx record action) k pfx ↔
      row = .route record.desired ∨ (row ∈ k pfx ∧ ∀ i, row ≠ .route i) := by
  obtain ⟨_, hall, _, _, rfl⟩ := planSelectedRoute_eq_ok_iff.mp h
  -- a selected row is the target, or counts as a row of the previous identity
  have hroute : ∀ i, .route i ∈ k pfx → i ≠ record.desired →
      record.owned = some i ∧ ownedRows record (k pfx) ≠ 0 := by
    intro i hi hne
    have ho : record.owned = some i := (hall _ hi).resolve_left hne
    refine ⟨ho, fun hz => ?_⟩
    have := List.countP_eq_zero.mp hz _ hi
    simp [hne, ho] at this
  unfold plannedAction
  split_ifs with hnone hadd
  · simp only [Bool.and_eq_true, decide_eq_true_eq] at hnone
    have hmem : .route record.desired ∈ k pfx := List.count_pos_iff.mp (by omega)
    constructor
    · intro hrow
      refine or_iff_not_imp_left.mpr fun hne => ⟨hrow, ?_⟩
      rintro i rfl
      exact (hroute i hrow (by simpa using hne)).2 hnone.2
    · rintro (rfl | ⟨hrow, _⟩)
      · exact hmem
      · exact hrow
  · simp only [Bool.and_eq_true, decide_eq_true_eq] at hadd
    simp only [reconcileMutations, applyAll_cons, applyAll_nil, mem_apply_add, true_and]
    constructor
    · rintro (hrow | rfl)
      · refine or_iff_not_imp_left.mpr fun hne => ⟨hrow, ?_⟩
        rintro i rfl
        exact (hroute i hrow (by simpa using hne)).2 hadd.2
      · exact .inl rfl
    · rintro (rfl | ⟨hrow, _⟩)
      · exact .inr rfl
      · exact .inl hrow
  · have hstale : ((record.owned.toList.filter (· ≠ record.desired)).map fun o =>
        KernelMutation.delete pfx (.route o)) =
        ((record.owned.toList.filter (· ≠ record.desired)).map SelectedKernelRow.route).map
          (.delete pfx) := by
      rw [List.map_map]
      rfl
    rw [reconcileMutations, applyAll_cons, hstale, mem_applyAll_delete, mem_apply_add]
    simp only [true_and, List.mem_map, List.mem_filter, Option.mem_toList, decide_eq_true_eq]
    constructor
    · rintro ⟨hrow | rfl, hkept⟩
      · refine or_iff_not_imp_left.mpr fun hne => ⟨hrow, ?_⟩
        rintro i rfl
        have hne' : i ≠ record.desired := by simpa using hne
        exact hkept ⟨i, ⟨(hroute i hrow hne').1, hne'⟩, rfl⟩
      · exact .inl rfl
    · rintro (rfl | ⟨hrow, hne⟩)
      · exact ⟨.inr rfl, by rintro ⟨o, ⟨_, hne⟩, ho⟩; exact hne (SelectedKernelRow.route.inj ho)⟩
      · exact ⟨.inl hrow, by rintro ⟨o, _, rfl⟩; exact hne o rfl⟩

theorem add_mem_reconcileMutations
    (h : .add q row ∈ reconcileMutations pfx record action) :
    q = pfx ∧ row = .route record.desired := by
  cases action with
  | none => exact absurd h List.not_mem_nil
  | add | replace => simpa [reconcileMutations] using h

theorem pfx_of_mem_reconcileMutations (h : m ∈ reconcileMutations pfx record action) :
    m.pfx = pfx := by
  cases action with
  | none => exact absurd h List.not_mem_nil
  | add =>
    rw [List.mem_singleton.mp h]
    rfl
  | replace =>
    rcases List.mem_cons.mp h with rfl | h
    · rfl
    · obtain ⟨_, _, rfl⟩ := List.mem_map.mp h
      rfl

theorem removeSelectedRoute_writes (k : Kernel) (record : SelectedRoute) :
    ∃ ids : List SelectedRouteIdentity,
      (removeSelectedRoute k record).2 = (ids.map .route).map (.delete record.pfx) := by
  unfold removeSelectedRoute
  split_ifs
  · exact ⟨[], rfl⟩
  · split
    · exact ⟨[], rfl⟩
    · exact ⟨_, (List.map_map ..).symm⟩

theorem deletes_removeSelectedRoute (h : m ∈ (removeSelectedRoute k record).2) :
    m.Deletes record.pfx fun row => ∃ i ∈ removalCandidates record, row = .route i := by
  unfold removeSelectedRoute at h
  split_ifs at h
  · cases h
  split at h
  · cases h
  · obtain ⟨i, hi, rfl⟩ := List.mem_map.mp h
    exact ⟨_, ⟨i, (List.mem_filter.mp hi).1, rfl⟩, rfl⟩

/-- A removal takes the candidates and leaves all else. -/
theorem mem_removeSelectedRoute (h : (removeSelectedRoute k record).1 = .ok ()) :
    row ∈ applyAll (removeSelectedRoute k record).2 k q ↔
      row ∈ k q ∧ ¬ (q = record.pfx ∧ ∃ i ∈ removalCandidates record, row = .route i) := by
  have hwrites : (removeSelectedRoute k record).2 =
      (((removalCandidates record).filter fun c => .route c ∈ k record.pfx).map .route).map
        (.delete record.pfx) := by
    unfold removeSelectedRoute at h ⊢
    split_ifs at h ⊢
    · cases h
    split at h
    · cases h
    · rw [List.map_map]
      rfl
  rw [hwrites, mem_delete_present]

theorem removeSelectedRoute_ok (k : Kernel) (hc : isCanonicalPrefix record.pfx = true)
    (hs : ∀ text, record.state ≠ .other text) : (removeSelectedRoute k record).1 = .ok () := by
  have hc' : canonicalRoutePrefix record.pfx = true := hc
  unfold removeSelectedRoute
  rw [hc']
  cases h : record.state with
  | other text => exact absurd h (hs text)
  | pending | applying | active | retiring => rfl

-- === Managed parks ===

/-- The park classification accepts exactly the rows that the record accounts
    for. -/
theorem classifyParkPrefixRows_eq_ok_iff {context : String} :
    classifyParkPrefixRows pfx record context rows = .ok () ↔
      ∀ row ∈ rows, row.AuthorizedBy record := by
  induction rows with
  | nil => simp [classifyParkPrefixRows]
  | cons row rows ih =>
    rw [List.forall_mem_cons, ← ih]
    cases row with
    | foreign text => simp [classifyParkPrefixRows, SelectedKernelRow.AuthorizedBy]
    | route i =>
      by_cases h : selectedRowAuthorizedForPark i record = true
      · simp only [classifyParkPrefixRows, h, if_true]
        refine (and_iff_right ?_).symm
        simpa [selectedRowAuthorizedForPark, SelectedKernelRow.AuthorizedBy] using h
      · simp only [classifyParkPrefixRows, h]
        refine iff_of_false (by simp) fun h' => h ?_
        simpa [selectedRowAuthorizedForPark, SelectedKernelRow.AuthorizedBy] using h'.1
    | park i =>
      have heq : parkRowAuthorizedForPreflight i record = parkRowAuthorized i record := rfl
      by_cases h : parkRowAuthorized i record = true
      · simp [classifyParkPrefixRows, heq, h, SelectedKernelRow.AuthorizedBy]
      · simp [classifyParkPrefixRows, heq, h, SelectedKernelRow.AuthorizedBy]

/-- A park reconciliation fails without a write, or an Applying park over rows
    that are all accounted for makes its writes. -/
theorem reconcileManagedPark_cases (k : Kernel) (pfx : Prefix) (record : SelectedRoute) :
    (∃ e, reconcileManagedPark k pfx record = (.error e, [])) ∨
      ∃ park, record.park = some park ∧ park.state = .applying ∧
        (∀ row ∈ k pfx, row.AuthorizedBy record) ∧
        reconcileManagedPark k pfx record =
          (.ok ⟨!(parkMutations k pfx park).isEmpty, park.desired⟩, parkMutations k pfx park) := by
  unfold reconcileManagedPark
  cases record.park with
  | none => exact .inl ⟨_, rfl⟩
  | some park =>
    dsimp only
    split_ifs with hs
    · exact .inl ⟨_, rfl⟩
    · exact .inl ⟨_, rfl⟩
    cases park.desired.validate pfx with
    | error e => exact .inl ⟨e, rfl⟩
    | ok u =>
      cases hc : classifyParkPrefixRows pfx record "park reconcile" (k pfx) with
      | error e => exact .inl ⟨e, rfl⟩
      | ok u =>
        exact .inr ⟨park, rfl, not_not.mp hs, classifyParkPrefixRows_eq_ok_iff.mp hc, rfl⟩

theorem reconcileManagedPark_ok {p : Prefix} {r : SelectedRoute} (hp : r.park = some park)
    (hs : park.state = .applying) (hd : park.desired.validate p = .ok ())
    (hrows : ∀ row ∈ k p, row.AuthorizedBy r) : reconcileManagedPark k p r =
      (.ok ⟨!(parkMutations k p park).isEmpty, park.desired⟩, parkMutations k p park) := by
  have hc := SelectedParkIdentity.isCanonicalPrefix_of_validate hd
  simp [reconcileManagedPark, hp, hs, hc, isValid_of_isCanonicalPrefix hc, hd,
    classifyParkPrefixRows_eq_ok_iff.mpr hrows]

/-- After a park reconciliation the target is the only park row of the prefix. -/
theorem mem_parkMutations (hp : record.park = some park)
    (hs : park.state = .applying) (hrows : ∀ row ∈ k pfx, row.AuthorizedBy record) :
    row ∈ applyAll (parkMutations k pfx park) k pfx ↔
      row = .park park.desired ∨ (row ∈ k pfx ∧ ∀ i, row ≠ .park i) := by
  have hpark : ∀ i, .park i ∈ k pfx → i = park.desired ∨ park.owned = some i := by
    intro i hi
    have := hrows _ hi
    simpa [SelectedKernelRow.AuthorizedBy, parkRowAuthorized, hp, SelectedPark.authorizesRow, hs]
      using this
  let stale := (park.owned.toList.filter fun o => o ≠ park.desired && .park o ∈ k pfx).map
    SelectedKernelRow.park
  have hstale : ∀ r, r ∈ stale ↔ ∃ o, park.owned = some o ∧ o ≠ park.desired ∧ .park o ∈ k pfx ∧
      r = .park o := by
    intro r
    simp only [stale, List.mem_map, List.mem_filter, Option.mem_toList, Bool.and_eq_true,
      decide_eq_true_eq]
    constructor
    · rintro ⟨o, ⟨ho, hne, hk⟩, rfl⟩
      exact ⟨o, ho, hne, hk, rfl⟩
    · rintro ⟨o, ho, hne, hk, rfl⟩
      exact ⟨o, ⟨ho, hne, hk⟩, rfl⟩
  have hmem : ∀ k' : Kernel, (row ∈ k' pfx ↔ row = .park park.desired ∨ row ∈ k pfx) →
      (row ∈ applyAll (stale.map (.delete pfx)) k' pfx ↔
        row = .park park.desired ∨ (row ∈ k pfx ∧ ∀ i, row ≠ .park i)) := by
    intro k' hk'
    rw [mem_applyAll_delete, hk', hstale]
    constructor
    · rintro ⟨rfl | hrow, hkept⟩
      · exact .inl rfl
      refine or_iff_not_imp_left.mpr fun hne => ⟨hrow, ?_⟩
      rintro i rfl
      have hne' : i ≠ park.desired := by simpa using hne
      exact hkept ⟨rfl, i, (hpark i hrow).resolve_left hne', hne', hrow, rfl⟩
    · rintro (rfl | ⟨hrow, hne⟩)
      · refine ⟨.inl rfl, ?_⟩
        rintro ⟨_, o, _, hne, _, ho⟩
        exact hne (SelectedKernelRow.park.inj ho).symm
      · refine ⟨.inr hrow, ?_⟩
        rintro ⟨_, o, _, _, _, rfl⟩
        exact hne o rfl
  have hwrites : parkMutations k pfx park =
      (if .park park.desired ∈ k pfx then [] else [.add pfx (.park park.desired)]) ++
        stale.map (.delete pfx) := by
    simp only [parkMutations, stale, List.map_map]
    rfl
  rw [hwrites]
  split_ifs with hd
  · refine hmem k ⟨.inr, ?_⟩
    rintro (rfl | h)
    · exact hd
    · exact h
  · exact hmem _ (by simp [or_comm])

theorem add_mem_parkMutations (h : .add q row ∈ parkMutations k pfx park) :
    q = pfx ∧ row = .park park.desired := by
  rcases List.mem_append.mp h with h | h
  · split_ifs at h
    · exact absurd h List.not_mem_nil
    · simpa using h
  · simp at h

theorem pfx_of_mem_parkMutations (h : m ∈ parkMutations k pfx park) :
    m.pfx = pfx := by
  rcases List.mem_append.mp h with h | h
  · split_ifs at h
    · exact absurd h List.not_mem_nil
    · rw [List.mem_singleton.mp h]
      rfl
  · obtain ⟨_, _, rfl⟩ := List.mem_map.mp h
    rfl

theorem removeManagedPark_writes (k : Kernel) (pfx : Prefix) (park : SelectedPark) :
    ∃ ids : List SelectedParkIdentity,
      (removeManagedPark k pfx park).2 = (ids.map .park).map (.delete pfx) := by
  unfold removeManagedPark
  split
  · exact ⟨[], rfl⟩
  · exact ⟨_, (List.map_map ..).symm⟩

theorem deletes_removeManagedPark
    (hc : parkRemovalCandidates pfx park = .ok candidates)
    (h : m ∈ (removeManagedPark k pfx park).2) :
    m.Deletes pfx fun row => ∃ i ∈ candidates, row = .park i := by
  simp only [removeManagedPark, hc] at h
  obtain ⟨i, hi, rfl⟩ := List.mem_map.mp h
  exact ⟨_, ⟨i, (List.mem_filter.mp hi).1, rfl⟩, rfl⟩

/-- The same of a park. -/
theorem mem_removeManagedPark (h : parkRemovalCandidates pfx park = .ok candidates) :
    row ∈ applyAll (removeManagedPark k pfx park).2 k q ↔
      row ∈ k q ∧ ¬ (q = pfx ∧ ∃ i ∈ candidates, row = .park i) := by
  have hwrites : (removeManagedPark k pfx park).2 =
      ((candidates.filter fun c => .park c ∈ k pfx).map .park).map (.delete pfx) := by
    simp only [removeManagedPark, h, List.map_map]
    rfl
  rw [hwrites, mem_delete_present]

end Kikimora.Platform

import Kikimora.Control.Manager
import Kikimora.Platform.Contract

/-!
# Rules for runs without faults

The proof rules for the primitives of the manager when nothing fails, and what a
transaction on one prefix leaves alone.
-/

namespace Kikimora.Control

open Net Routing Platform Kikimora.Core Lib

abbrev clean : Setting Effect World := .ofHandler handle

/-- The worlds agree on everything but the disk, the notices and the verification
    tokens. -/
structure Agrees (w w' : World) : Prop where
  registry : w'.registry = w.registry
  kernel : w'.kernel = w.kernel
  platform : w'.platform = w.platform
  runtime : w'.runtime = w.runtime
  frozen : ∀ id, (w'.memory.roleState id).frozen = (w.memory.roleState id).frozen

/-- Only the record of one key and the rows of its prefix may differ. -/
structure Touches (role : String) (pfx : Prefix) (w w' : World) : Prop where
  wellFormed : w'.registry.WellFormed
  registry : ∀ k, k ≠ ⟨role, pfx⟩ → w'.registry.lookup k = w.registry.lookup k
  kernel : ∀ q, q ≠ pfx → w'.kernel q = w.kernel q
  platform : w'.platform = w.platform
  runtime : w'.runtime = w.runtime
  frozen : ∀ id, (w'.memory.roleState id).frozen = (w.memory.roleState id).frozen

section Rules

variable {role : String} {pfx : Prefix} {w w' w'' : World} {β : Type}
  {X : ManagerError → World → Prop} {Q : β → World → Prop} {c : RouteCall β} {b : β}

theorem Touches.refl (h : w.registry.WellFormed) : Touches role pfx w w :=
  ⟨h, fun _ _ => rfl, fun _ _ => rfl, rfl, rfl, fun _ => rfl⟩

theorem Touches.agrees (h : Touches role pfx w w') (ha : Agrees w' w'') :
    Touches role pfx w w'' :=
  ⟨by rw [ha.registry]; exact h.wellFormed, by rw [ha.registry]; exact h.registry,
    by rw [ha.kernel]; exact h.kernel, ha.platform.trans h.platform, ha.runtime.trans h.runtime,
    fun id => (ha.frozen id).trans (h.frozen id)⟩

theorem Touches.set (h : Touches role pfx w w') {e : SelectedRoute}
    (hw : (w'.registry.set ⟨role, pfx⟩ e).WellFormed) :
    Touches role pfx w (w'.withRegistry (w'.registry.set ⟨role, pfx⟩ e)) :=
  ⟨hw, fun k hk => (MemorySelectedRegistry.lookup_set_of_ne _ e hk).trans (h.registry k hk),
    h.kernel, h.platform, h.runtime, h.frozen⟩

theorem Touches.withKernel (h : Touches role pfx w w') {k : Kernel}
    (hk : ∀ q, q ≠ pfx → k q = w'.kernel q) : Touches role pfx w (w'.withKernel k) :=
  ⟨h.wellFormed, h.registry, fun q hq => (hk q hq).trans (h.kernel q hq), h.platform, h.runtime,
    h.frozen⟩

-- === Primitives ===

theorem runs_memory {f : Memory → β × Memory}
    (hQ : Q (f w.memory).1 (w.withMemory (f w.memory).2)) : (memory f).Safe clean Q X w :=
  ⟨trivial, by rintro _ _ ⟨rfl, rfl⟩; exact ⟨trivial, trivial, hQ⟩⟩

theorem runs_read {f : Memory → β} (hQ : Q (f w.memory) w) :
    (memory fun m => (f m, m)).Safe clean Q X w :=
  runs_memory hQ

theorem runs_roleRuntime {Q : Option RoleRuntime → World → Prop} (hQ : Q (w.runtime role) w) :
    (roleRuntime role).Safe clean Q X w :=
  ⟨trivial, by rintro _ _ ⟨rfl, rfl⟩; exact ⟨trivial, trivial, hQ⟩⟩

theorem agrees_roleState (w : World) (role : String) :
    Agrees w (w.touched role) := by
  refine ⟨rfl, rfl, rfl, rfl, fun id => ?_⟩
  by_cases hid : id = role
  · subst hid
    exact congrArg SelectedRoleState.frozen (w.memory.roleState_setRole id _)
  · simp [World.withMemory, Memory.roleState, Memory.setRole, hid]

theorem runs_roleState {Q : SelectedRoleState → World → Prop}
    (hQ : ∀ w', Agrees w w' → Q (w.memory.roleState role) w') :
    (roleState role).Safe clean Q X w :=
  runs_memory (hQ _ (agrees_roleState w role))

theorem runs_routes (hb : (c.plan w.platform w.kernel).1 = .ok b)
    (hQ : Q b (w.withKernel (applyAll (c.plan w.platform w.kernel).2 w.kernel))) :
    (routes c).Safe clean Q X w := by
  refine ⟨trivial, ?_⟩
  rintro _ _ ⟨rfl, rfl⟩
  simp only [handle, hb]
  exact ⟨trivial, trivial, hQ⟩

theorem runs_answer {answer : Except String β} (hc : c.plan w.platform w.kernel = (answer, []))
    (hQ : ∀ b, answer = .ok b → Q b w)
    (hX : ∀ message, answer = .error message → X (.text message) w) :
    (routes c).Safe clean Q X w := by
  refine ⟨trivial, ?_⟩
  rintro _ _ ⟨rfl, rfl⟩
  simp only [handle, hc, applyAll_nil]
  cases answer with
  | ok b => exact ⟨trivial, trivial, hQ b rfl⟩
  | error message => exact ⟨trivial, trivial, hX message rfl⟩

theorem runs_reads (hc : c.plan w.platform w.kernel = (.ok b, [])) (hQ : Q b w) :
    (routes c).Safe clean Q X w :=
  runs_routes (by rw [hc]) (by rw [hc]; exact hQ)

-- === One record and its rows ===

/-- A transaction on one prefix that started in `w₀` has come to the record `e`
    and the rows `rows`. -/
structure At (role : String) (pfx : Prefix) (w₀ : World) (e : SelectedRoute)
    (rows : List SelectedKernelRow) (w : World) : Prop where
  touches : Touches role pfx w₀ w
  lookup : w.registry.lookup ⟨role, pfx⟩ = some e
  rows : w.kernel pfx = rows

variable {w₀ : World} {e e' : SelectedRoute} {rows : List SelectedKernelRow}

theorem At.start (hw : w.registry.WellFormed) (hl : w.registry.lookup ⟨role, pfx⟩ = some e) :
    At role pfx w e (w.kernel pfx) w :=
  ⟨.refl hw, hl, rfl⟩

variable (h : At role pfx w₀ e rows w)

include h

theorem At.agrees (ha : Agrees w w') : At role pfx w₀ e rows w' :=
  ⟨h.touches.agrees ha, by rw [ha.registry]; exact h.lookup, by rw [ha.kernel]; exact h.rows⟩

theorem At.pfx_eq : e.pfx = pfx :=
  h.touches.wellFormed.pfx_eq h.lookup

theorem At.wellFormed : e.WellFormed :=
  (h.touches.wellFormed _ _ h.lookup).2

theorem At.canonical : isCanonicalPrefix pfx = true :=
  h.pfx_eq ▸ h.wellFormed.canonical

omit h

theorem runs_record (t : RecordTransition) {f : SelectedRoute} {Q : Unit → World → Prop}
    (h : At role pfx w₀ e rows w) (ha : t.Admissible pfx) (hm : t.mutate e = (.ok (), f))
    (hQ : ∀ w', At role pfx w₀ f rows w' → Q () w') :
    (registry fun r => t.apply r role pfx).Safe clean Q X w := by
  refine .step (runs_memory ?_)
  simp only [t.apply_of_mutate h.canonical ha h.lookup hm]
  have hw := h.touches.wellFormed.edited ha h.lookup (RecordTransition.edits_of_mutate hm)
  exact ⟨trivial, hQ _ ⟨h.touches.set hw, MemorySelectedRegistry.lookup_set_self .., h.rows⟩⟩

theorem agrees_written (w : World) (role : String) (c : SelectedRoutesCheckpoint) :
    Agrees w (w.written role c) :=
  ⟨rfl, rfl, rfl, rfl, fun _ => rfl⟩

theorem Agrees.trans (h : Agrees w w') (h' : Agrees w' w'') : Agrees w w'' :=
  ⟨h'.registry.trans h.registry, h'.kernel.trans h.kernel, h'.platform.trans h.platform,
    h'.runtime.trans h.runtime, fun id => (h'.frozen id).trans (h.frozen id)⟩

theorem Agrees.refl (w : World) : Agrees w w := ⟨rfl, rfl, rfl, rfl, fun _ => rfl⟩

theorem runs_writeCheckpoint {cfg : Config} {generation : UInt64} {Q : Unit → World → Prop}
    (hQ : ∀ w', Agrees w w' → Q () w') :
    (writeCheckpoint cfg role generation).Safe clean Q X w := by
  unfold writeCheckpoint
  split_ifs
  · exact ⟨trivial, hQ _ (.refl w)⟩
  · refine .step (runs_read ⟨trivial, ?_⟩)
    rintro _ _ ⟨rfl, rfl⟩
    exact ⟨trivial, trivial, hQ _ (agrees_written _ _ _)⟩

theorem runs_checkpoint {cfg : Config} {Q : Unit → World → Prop}
    (hQ : ∀ w', Agrees w w' → Q () w') : (checkpoint cfg role).Safe clean Q X w :=
  .step (runs_memory (runs_writeCheckpoint fun w' ha =>
    hQ w' ((agrees_roleState w role).trans ha)))

theorem runs_registryEntry {Q : Option SelectedRoute → World → Prop}
    (h : At role pfx w₀ e rows w) (hQ : Q (some e) w) :
    (registryEntry role pfx).Safe clean Q X w :=
  runs_read (by rw [registryEntryOf_eq h.touches.wellFormed, h.lookup]; exact hQ)

theorem runs_registryEntryDeref {Q : SelectedRoute → World → Prop}
    (h : At role pfx w₀ e rows w) (hQ : Q e w) :
    (registryEntryDeref role pfx).Safe clean Q X w :=
  .step (runs_registryEntry h ⟨trivial, hQ⟩)

theorem runs_writes (h : At role pfx w₀ e rows w) (hb : (c.plan w.platform w.kernel).1 = .ok b)
    (hpfx : ∀ m ∈ (c.plan w.platform w.kernel).2, m.pfx = pfx)
    (hQ : ∀ w', At role pfx w₀ e (applyAll (c.plan w.platform w.kernel).2 w.kernel pfx) w' →
      Q b w') : (routes c).Safe clean Q X w := by
  refine runs_routes hb (hQ _ ⟨h.touches.withKernel fun q hq => ?_, h.lookup, rfl⟩)
  exact applyAll_of_ne (fun m hm => by rw [hpfx m hm]; exact Ne.symm hq) w.kernel

-- === All records of a role ===

abbrev Outcomes :=
  SelectedRoute → List SelectedKernelRow → SelectedRoute → List SelectedKernelRow → Prop

/-- Nothing has changed but the records of the role and the rows of their
    prefixes. -/
structure Outside (role : String) (w₀ w : World) : Prop where
  wellFormed₀ : w₀.registry.WellFormed
  wellFormed : w.registry.WellFormed
  platform : w.platform = w₀.platform
  runtime : w.runtime = w₀.runtime
  frozen : ∀ id, (w.memory.roleState id).frozen = (w₀.memory.roleState id).frozen
  elsewhere : ∀ k, (k.role = role → w₀.registry.lookup k = none) →
    w.registry.lookup k = w₀.registry.lookup k
  kernel : ∀ q, w₀.registry.lookup ⟨role, q⟩ = none → w.kernel q = w₀.kernel q

/-- Every record of the role has come to its outcome. -/
structure Each (role : String) (Post : Outcomes) (w₀ w : World) : Prop
    extends Outside role w₀ w where
  record : ∀ pfx e, w₀.registry.lookup ⟨role, pfx⟩ = some e →
    ∃ e', w.registry.lookup ⟨role, pfx⟩ = some e' ∧ Post e (w₀.kernel pfx) e' (w.kernel pfx)

/-- The loop over the records of `w₀` has `xs` left to do. -/
structure Progress (role : String) (Post : Outcomes) (w₀ : World) (xs : List SelectedRoute)
    (w : World) : Prop extends Outside role w₀ w where
  nodup : (xs.map SelectedRoute.pfx).Nodup
  todo : ∀ e ∈ xs, w₀.registry.lookup ⟨role, e.pfx⟩ = some e ∧
    w.registry.lookup ⟨role, e.pfx⟩ = some e ∧ w.kernel e.pfx = w₀.kernel e.pfx
  done : ∀ pfx e, w₀.registry.lookup ⟨role, pfx⟩ = some e → e ∉ xs →
    ∃ e', w.registry.lookup ⟨role, pfx⟩ = some e' ∧ Post e (w₀.kernel pfx) e' (w.kernel pfx)

variable {Post : Outcomes}

theorem Outside.refl (hw : w.registry.WellFormed) : Outside role w w :=
  ⟨hw, hw, rfl, rfl, fun _ => rfl, fun _ _ => rfl, fun _ _ => rfl⟩

theorem Outside.touches (h : Outside role w₀ w) (hl : w₀.registry.lookup ⟨role, pfx⟩ = some e)
    (ht : Touches role pfx w w') : Outside role w₀ w' := by
  refine ⟨h.wellFormed₀, ht.wellFormed, ht.platform.trans h.platform, ht.runtime.trans h.runtime,
    fun id => (ht.frozen id).trans (h.frozen id), fun k hk => ?_, fun q hq => ?_⟩
  · refine (ht.registry k ?_).trans (h.elsewhere k hk)
    rintro rfl
    rw [hk rfl] at hl
    cases hl
  refine (ht.kernel q ?_).trans (h.kernel q hq)
  rintro rfl
  rw [hq] at hl
  cases hl

theorem Progress.start (hw : w.registry.WellFormed) :
    Progress role Post w (w.registry.snapshot role) w where
  toOutside := .refl hw
  nodup := hw.nodup_pfx_snapshot role
  todo _ he := ⟨hw.mem_snapshot_iff.mp he, hw.mem_snapshot_iff.mp he, rfl⟩
  done pfx e hl hne := by
    have hpfx : e.pfx = pfx := hw.pfx_eq hl
    exact absurd (hw.mem_snapshot_iff.mpr (hpfx ▸ hl)) hne

theorem Progress.tail {x : SelectedRoute} {xs : List SelectedRoute}
    (h : Progress role Post w₀ (x :: xs) w) (ha : At role x.pfx w e' rows w')
    (hp : Post x (w₀.kernel x.pfx) e' rows) : Progress role Post w₀ xs w' := by
  have hx := (h.todo x List.mem_cons_self).1
  have hn := h.nodup
  rw [List.map_cons, List.nodup_cons] at hn
  have hkey : ∀ q, q ≠ x.pfx → (⟨role, q⟩ : SelectedRouteKey) ≠ ⟨role, x.pfx⟩ := fun q hq hk =>
    hq (congrArg SelectedRouteKey.pfx hk)
  refine ⟨h.toOutside.touches hx ha.touches, hn.2, fun e he => ?_, fun pfx e hl hne => ?_⟩
  · have hq : e.pfx ≠ x.pfx := fun heq => hn.1 (heq ▸ List.mem_map_of_mem he)
    obtain ⟨h1, h2, h3⟩ := h.todo e (List.mem_cons_of_mem x he)
    exact ⟨h1, (ha.touches.registry _ (hkey _ hq)).trans h2, (ha.touches.kernel _ hq).trans h3⟩
  by_cases hq : pfx = x.pfx
  · subst hq
    cases hx.symm.trans hl
    exact ⟨e', ha.lookup, by rw [ha.rows]; exact hp⟩
  have hnx : e ≠ x := by
    rintro rfl
    exact hq (h.wellFormed₀.pfx_eq hl).symm
  obtain ⟨e'', h1, h2⟩ := h.done pfx e hl (by simp [hnx, hne])
  exact ⟨e'', (ha.touches.registry _ (hkey _ hq)).trans h1,
    by rw [ha.touches.kernel _ hq]; exact h2⟩

theorem Each.imp {Post' : Outcomes} (h : Each role Post w₀ w)
    (hpost : ∀ pfx e e', w₀.registry.lookup ⟨role, pfx⟩ = some e →
      Post e (w₀.kernel pfx) e' (w.kernel pfx) → Post' e (w₀.kernel pfx) e' (w.kernel pfx)) :
    Each role Post' w₀ w :=
  ⟨h.toOutside, fun pfx e hl =>
    let ⟨e', hl', hp⟩ := h.record pfx e hl
    ⟨e', hl', hpost pfx e e' hl hp⟩⟩

theorem Each.back (h : Each role Post w₀ w) (hl : w.registry.lookup ⟨role, pfx⟩ = some e') :
    ∃ e, w₀.registry.lookup ⟨role, pfx⟩ = some e ∧ Post e (w₀.kernel pfx) e' (w.kernel pfx) := by
  cases hl0 : w₀.registry.lookup ⟨role, pfx⟩ with
  | none =>
    rw [h.elsewhere _ fun _ => hl0, hl0] at hl
    cases hl
  | some e =>
    obtain ⟨e'', hl'', hp⟩ := h.record pfx e hl0
    cases hl.symm.trans hl''
    exact ⟨e, rfl, hp⟩

theorem Each.trans {Post' : Outcomes} (h : Each role Post w₀ w) (h' : Each role Post' w w') :
    Each role (fun e rows e' rows' => ∃ e1 rows1, Post e rows e1 rows1 ∧ Post' e1 rows1 e' rows')
      w₀ w' := by
  have hnone : ∀ k, (k.role = role → w₀.registry.lookup k = none) → k.role = role →
      w.registry.lookup k = none := fun k hk hr => (h.elsewhere k hk).trans (hk hr)
  refine ⟨⟨h.wellFormed₀, h'.wellFormed, h'.platform.trans h.platform,
    h'.runtime.trans h.runtime, fun id => (h'.frozen id).trans (h.frozen id),
    fun k hk => (h'.elsewhere k (hnone k hk)).trans (h.elsewhere k hk),
    fun q hq => (h'.kernel q (hnone ⟨role, q⟩ (fun _ => hq) rfl)).trans (h.kernel q hq)⟩,
    fun pfx e hl => ?_⟩
  obtain ⟨e1, hl1, hp⟩ := h.record pfx e hl
  obtain ⟨e', hl', hp'⟩ := h'.record pfx e1 hl1
  exact ⟨e', hl', e1, _, hp, hp'⟩

theorem runs_each {body : SelectedRoute → ManagerM Unit}
    {P : SelectedRoute → List SelectedKernelRow → SelectedRoute → List SelectedKernelRow → Prop}
    (hw : w₀.registry.WellFormed)
    (hbody : ∀ e w, w₀.registry.lookup ⟨role, e.pfx⟩ = some e → w.platform = w₀.platform →
      w.runtime = w₀.runtime → At role e.pfx w e (w₀.kernel e.pfx) w →
      (body e).Safe clean (fun _ w' => ∃ e' rows', At role e.pfx w e' rows' w' ∧
        P e (w₀.kernel e.pfx) e' rows') X w) :
    (Prog.forEach body (w₀.registry.snapshot role)).Safe clean (fun _ => Each role P w₀) X w₀ := by
  refine (Prog.Safe.forEach (Progress role P w₀) (fun _ _ => trivial) ?_ _
    (Progress.start hw)).mono (fun _ w h => ?_) fun _ _ hx => hx
  · intro x xs w h
    obtain ⟨hl, hl', hk⟩ := h.todo x List.mem_cons_self
    refine (hbody x w hl h.platform h.runtime ⟨.refl h.wellFormed, hl', hk⟩).mono ?_
      fun _ _ hx => hx
    rintro _ w' ⟨e', rows', ha, hp⟩
    exact h.tail ha hp
  · exact ⟨h.toOutside, fun pfx e hl => h.done pfx e hl List.not_mem_nil⟩

end Rules

end Kikimora.Control

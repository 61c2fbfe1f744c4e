import Kikimora.Control.Manager

/-!
# Rules for operations under faults

The proof rules for the primitives of the manager when the disk and the platform
may fail at any call and the process may stop between any two effects. A history
of the run may be kept beside the world.
-/

namespace Kikimora.Control

open Net Routing Platform Kikimora.Core Lib

/-- A history beside the world: what is noted after a checkpoint has been
    written, given the world it leaves, and after a platform call, given its
    answer and the worlds around it. -/
structure History (L : Type) where
  wrote : World → L → L
  called : ∀ ⦃β : Type⦄, RouteCall β → World → Except String β → World → L → L

/-- The history across one effect. A write that was lost is not noted, one that
    reached the disk and then failed is. -/
def History.Notes {L : Type} (H : History L) ⦃β : Type⦄ :
    Effect β → World → β → World → L → L → Prop
  | .writeCheckpoint role c, w, b, w', l, l' =>
    ((∃ e, b = .error e) ∧ w' = w ∧ l' = l) ∨ (w' = w.written role c ∧ l' = H.wrote w' l)
  | .routes c, w, b, w', l, l' => l' = H.called c w b w' l
  | _, _, _, _, l, l' => l' = l

/-- Runs under faults: `G` is demanded of every platform call in the world in
    which it is issued, and `I` of every world in which the process can stop. -/
def faulty {L : Type} (H : History L) (G : ∀ ⦃β : Type⦄, RouteCall β → World → L → Prop)
    (I : World → L → Prop) : Setting Effect (World × L) where
  Step _ c s b s' := FaultStep c s.1 b s'.1 ∧ H.Notes c s.1 b s'.1 s.2 s'.2
  Guarantee
    | ⟨.routes c, s, _, _⟩ => G c s.1 s.2
    | _ => True
  Crash s := I s.1 s.2

def eventWorld {L : Type} (ev : Event Effect (World × L)) : Event Effect World :=
  ⟨ev.call, ev.before.1, ev.answer, ev.after.1⟩

theorem History.exists_notes {L : Type} (H : History L) {β : Type} {c : Effect β} {w w' : World}
    {b : β} (h : FaultStep c w b w') (l : L) : ∃ l', H.Notes c w b w' l l' := by
  cases c with
  | writeCheckpoint role c =>
    rcases h with ⟨_, rfl⟩ | ⟨e, rfl, rfl | rfl⟩
    · exact ⟨_, .inr ⟨rfl, rfl⟩⟩
    · exact ⟨l, .inl ⟨⟨e, rfl⟩, rfl, rfl⟩⟩
    · exact ⟨_, .inr ⟨rfl, rfl⟩⟩
  | routes c => exact ⟨_, rfl⟩
  | _ => exact ⟨l, rfl⟩

theorem exec_noted {L : Type} (H : History L)
    {G : ∀ ⦃β : Type⦄, RouteCall β → World → L → Prop} {I : World → L → Prop} {α : Type}
    {p : ManagerM α} {w w' : World} {trace : List (Event Effect World)}
    {o : Outcome ManagerError α} (he : Exec FaultStep p w trace o w') (l : L) :
    ∃ trace' l', Exec (faulty H G I).Step p (w, l) trace' o (w', l') ∧
      trace'.map eventWorld = trace := by
  induction he generalizing l with
  | ret a w => exact ⟨[], l, .ret a _, rfl⟩
  | fail e w => exact ⟨[], l, .fail e _, rfl⟩
  | crash p w => exact ⟨[], l, .crash p _, rfl⟩
  | call hstep _ ih =>
    obtain ⟨l1, hl1⟩ := H.exists_notes hstep l
    obtain ⟨trace', l', he', rfl⟩ := ih l1
    exact ⟨_, l', .call ⟨hstep, hl1⟩ he', rfl⟩

section Rules

variable {L : Type} {H : History L} {G : ∀ ⦃β : Type⦄, RouteCall β → World → L → Prop}
  {I : World → L → Prop} {α β : Type} {Q : Unit → World × L → Prop} {w : World} {l : L}
  {role : String}

/-- A stronger demand on the worlds in between is known at the end as well. -/
theorem keeps_weaken {I' : World → L → Prop} {p : ManagerM α} {Q : α → World × L → Prop}
    {s : World × L} (h : p.Keeps (faulty H G I) Q s) (hI : ∀ w l, I w l → I' w l) :
    p.Keeps (faulty H G I') (fun a s => I s.1 s.2 ∧ Q a s) s :=
  Prog.Keeps.weaken h (fun _ _ _ _ _ hs => hs) (fun _ hg => hg) fun s hs => hI s.1 s.2 hs

theorem keeps_memory {f : Memory → β × Memory} {Q : β → World × L → Prop} (hI : I w l)
    (hI' : I (w.withMemory (f w.memory).2) l)
    (hQ : Q (f w.memory).1 (w.withMemory (f w.memory).2, l)) :
    (memory f).Keeps (faulty H G I) Q (w, l) := by
  refine ⟨hI, fun b s' hs => ⟨trivial, ?_⟩⟩
  obtain ⟨w', l'⟩ := s'
  obtain ⟨⟨rfl, rfl⟩ | h, rfl : l' = l⟩ := hs
  · exact ⟨hI', hQ⟩
  · exact h.elim

theorem keeps_read {f : Memory → β} {Q : β → World × L → Prop} (hI : I w l)
    (hQ : Q (f w.memory) (w, l)) : (memory fun m => (f m, m)).Keeps (faulty H G I) Q (w, l) :=
  keeps_memory hI hI hQ

theorem keeps_notify {notice : Notice} (hI : I w l)
    (hI' : I { w with notices := notice :: w.notices } l)
    (hQ : Q () ({ w with notices := notice :: w.notices }, l)) :
    (notify notice).Keeps (faulty H G I) Q (w, l) := by
  refine ⟨hI, fun b s' hs => ⟨trivial, ?_⟩⟩
  obtain ⟨w', l'⟩ := s'
  obtain ⟨⟨rfl, rfl⟩ | h, rfl : l' = l⟩ := hs
  · exact ⟨hI', hQ⟩
  · exact h.elim

theorem keeps_roleRuntime {Q : Option RoleRuntime → World × L → Prop} (hI : I w l)
    (hQ : Q (w.runtime role) (w, l)) : (roleRuntime role).Keeps (faulty H G I) Q (w, l) := by
  refine ⟨hI, fun b s' hs => ⟨trivial, ?_⟩⟩
  obtain ⟨w', l'⟩ := s'
  obtain ⟨⟨rfl, rfl⟩ | h, rfl : l' = l⟩ := hs
  · exact ⟨hI, hQ⟩
  · exact h.elim

/-- A platform call: it is issued under `G`; when it fails, any number of its
    mutations may have been made. -/
theorem keeps_routes {c : RouteCall β} {Q : β → World × L → Prop} (hI : I w l) (hG : G c w l)
    (hok : ∀ b, (c.plan w.platform w.kernel).1 = .ok b →
      let w' := w.withKernel (applyAll (c.plan w.platform w.kernel).2 w.kernel)
      I w' (H.called c w (.ok b) w' l) ∧ Q b (w', H.called c w (.ok b) w' l))
    (hfail : ∀ n e,
      let w' := w.withKernel (applyAll ((c.plan w.platform w.kernel).2.take n) w.kernel)
      I w' (H.called c w (.error e) w' l)) : (routes c).Keeps (faulty H G I) Q (w, l) := by
  refine ⟨hI, fun b s' hs => ⟨hG, ?_⟩⟩
  obtain ⟨w', l'⟩ := s'
  obtain ⟨hstep, hl⟩ := hs
  obtain rfl : l' = H.called c w b w' l := hl
  rcases hstep with ⟨rfl, rfl⟩ | ⟨n, e, rfl, rfl⟩
  · cases hb : (c.plan w.platform w.kernel).1 with
    | ok b =>
      simp only [handle, hb]
      exact hok b hb
    | error e =>
      -- the planned failure is the failure with all mutations made
      have := hfail (c.plan w.platform w.kernel).2.length e
      rw [List.take_length] at this
      simp only [handle, hb]
      exact ⟨this, this⟩
  · exact ⟨hfail n e, hfail n e⟩

/-- A registry operation; it leaves its registry behind also when it fails. -/
theorem keeps_registry {op : MemorySelectedRegistry → RegistryResult} (hI : I w l)
    (hI' : I (w.withRegistry (op w.registry).2) l)
    (hQ : (op w.registry).1 = .ok () → Q () (w.withRegistry (op w.registry).2, l)) :
    (registry op).Keeps (faulty H G I) Q (w, l) := by
  refine .bind (Q := fun r s => r = (op w.registry).1 ∧
    s = (w.withRegistry (op w.registry).2, l)) (keeps_memory hI hI' ⟨rfl, rfl⟩) ?_
  rintro r s' ⟨rfl, rfl⟩
  refine .ofExcept hI' fun u hu => hQ ?_
  cases hr : (op w.registry).1 with
  | ok u' => rfl
  | error e =>
    rw [hr] at hu
    cases hu

/-- A transition of one record: it fails and the content is as before, or it
    makes one of the edits. -/
theorem keeps_record (t : RecordTransition) {pfx : Prefix} (hI : I w l)
    (hfail : ∀ r, r.SameContent w.registry → I (w.withRegistry r) l)
    (hok : ∀ entry edited, t.Admissible pfx → w.registry.lookup ⟨role, pfx⟩ = some entry →
      t.Edits entry edited →
      let w' := w.withRegistry (w.registry.set ⟨role, pfx⟩ edited)
      I w' l ∧ Q () (w', l)) :
    (registry fun r => t.apply r role pfx).Keeps (faulty H G I) Q (w, l) := by
  rcases t.apply_spec w.registry role pfx with ⟨e, he, hs⟩ | ⟨entry, edited, _, ha, hl, he, hr⟩
  · refine keeps_registry hI (hfail _ hs) fun h => ?_
    rw [he] at h
    cases h
  · obtain ⟨hI', hQ⟩ := hok entry edited ha hl he
    exact keeps_registry hI (by rw [hr]; exact hI') fun _ => by rw [hr]; exact hQ

/-- `Reserve`: rejected, identical to what is there, or a write of the record. -/
theorem keeps_reserve {a : Reservation} (hI : I w l)
    (hsame : ∀ e, w.registry.lookup a.key = some e → a.matches e = true → Q () (w, l))
    (hset : a.desired.validate a.pfx = .ok () →
      let w' := w.withRegistry (w.registry.set a.key (a.next (w.registry.lookup a.key)))
      I w' l ∧ Q () (w', l)) : (registry (·.reserve a)).Keeps (faulty H G I) Q (w, l) := by
  rcases reserve_spec w.registry a with ⟨e, he⟩ | ⟨_, hv, ⟨e, hl, hm, he⟩ | he⟩
  · refine keeps_registry hI (by rw [he]; exact hI) fun h => ?_
    rw [he] at h
    cases h
  · exact keeps_registry hI (by rw [he]; exact hI) fun _ => by rw [he]; exact hsame e hl hm
  · obtain ⟨hI', hQ⟩ := hset hv
    exact keeps_registry hI (by rw [he]; exact hI') fun _ => by rw [he]; exact hQ

theorem keeps_writeCheckpoint {cfg : Config} {generation : UInt64} (hI : I w l)
    (hnone : cfg.stateDir role = false → Q () (w, l))
    (hwrite : cfg.stateDir role = true →
      let w' := w.written role (checkpointOf w.registry role cfg.platform generation)
      I w' (H.wrote w' l) ∧ Q () (w', H.wrote w' l)) :
    (writeCheckpoint cfg role generation).Keeps (faulty H G I) Q (w, l) := by
  unfold writeCheckpoint
  cases hd : cfg.stateDir role with
  | false => exact .ret hI (hnone hd)
  | true =>
    obtain ⟨hI', hQ⟩ := hwrite hd
    refine .bind (Q := fun c s =>
      c = checkpointOf w.registry role cfg.platform generation ∧ s = (w, l))
      (keeps_read hI ⟨rfl, rfl⟩) ?_
    rintro c s ⟨rfl, rfl⟩
    refine ⟨hI, fun b s' hs => ⟨trivial, ?_⟩⟩
    obtain ⟨w', l'⟩ := s'
    obtain ⟨_, hlost | ⟨hw, hl⟩⟩ := hs
    · obtain ⟨⟨e, rfl⟩, rfl : w' = w, rfl : l' = l⟩ := hlost
      exact ⟨hI, hI⟩
    dsimp only at hw hl
    subst hw hl
    cases b with
    | ok u => exact ⟨hI', hQ⟩
    | error e => exact ⟨hI', hI'⟩

end Rules

-- === Runs without a history ===

def noHistory : History Unit where
  wrote _ _ := ()
  called _ _ _ _ _ _ := ()

abbrev upholding (I : World → Prop) : Setting Effect (World × Unit) :=
  faulty noHistory (fun _ _ _ _ => True) fun w _ => I w

section

variable {I : World → Prop} {α β : Type} {w w' : World}

theorem upholds_reads {c : RouteCall β} {Q : β → World × Unit → Prop} (h : I w)
    (hc : (c.plan w.platform w.kernel).2 = [])
    (hQ : ∀ b, (c.plan w.platform w.kernel).1 = .ok b → Q b (w, ())) :
    (routes c).Keeps (upholding I) Q (w, ()) := by
  refine keeps_routes h trivial (fun b hb => ?_) fun n e => ?_
  · rw [hc]
    exact ⟨h, hQ b hb⟩
  · rw [hc, List.take_nil]
    exact h

/-- The condition holds wherever an execution ends, and the postcondition where it
    returns. -/
theorem upholding_sound {p : ManagerM α} {Q : α → World × Unit → Prop}
    {trace : List (Event Effect World)} {o : Outcome ManagerError α}
    (h : p.Keeps (upholding I) Q (w, ())) (he : Exec FaultStep p w trace o w') :
    I w' ∧ ∀ a, o = .returned a → Q a (w', ()) := by
  obtain ⟨_, _, he', _⟩ := exec_noted noHistory he ()
  obtain ⟨_, hI, hQ, _⟩ := Prog.Safe.sound h he'
  exact ⟨hI, hQ⟩

end

end Kikimora.Control

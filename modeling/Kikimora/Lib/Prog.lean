/-!
# Programs with effects, faults and crashes

A program is a tree of effect calls that returns a value or fails. Its meaning
is given by a step relation on a state: one call may have several outcomes, so
faults of the environment are outcomes like any other, and a program may stop
for good between any two calls.
-/

namespace Kikimora.Lib

/-- Programs that call effects of `E` and return an `α` or fail with an `ε`. -/
inductive Prog (ε : Type) (E : Type → Type 1) (α : Type) : Type 1
  | ret (a : α)
  | fail (e : ε)
  | call {β : Type} (c : E β) (k : β → Prog ε E α)

namespace Prog

variable {ε : Type} {E : Type → Type 1} {α β γ σ : Type}

def bind : Prog ε E α → (α → Prog ε E β) → Prog ε E β
  | ret a, f => f a
  | fail e, _ => fail e
  | call c k, f => call c fun b => (k b).bind f

instance : Monad (Prog ε E) where
  pure := ret
  bind := bind

def perform (c : E β) : Prog ε E β := call c ret

def ofExcept : Except ε α → Prog ε E α
  | .ok a => ret a
  | .error e => fail e

def tryCatch : Prog ε E α → (ε → Prog ε E α) → Prog ε E α
  | ret a, _ => ret a
  | fail e, handler => handler e
  | call c k, handler => call c fun b => (k b).tryCatch handler

def forEach (body : γ → Prog ε E Unit) : List γ → Prog ε E Unit
  | [] => ret ()
  | x :: xs => (body x).bind fun _ => forEach body xs

def run (handle : ∀ ⦃β : Type⦄, E β → σ → β × σ) : Prog ε E α → σ → Except ε α × σ
  | ret a, s => (.ok a, s)
  | fail e, s => (.error e, s)
  | call c k, s => (k (handle c s).1).run handle (handle c s).2

@[simp] theorem pure_eq_ret (a : α) : (pure a : Prog ε E α) = ret a := rfl

@[simp] theorem bind_eq (p : Prog ε E α) (f : α → Prog ε E β) : (p >>= f) = p.bind f := rfl

@[simp] theorem ret_bind (a : α) (f : α → Prog ε E β) : (ret a : Prog ε E α).bind f = f a := rfl

@[simp] theorem fail_bind (e : ε) (f : α → Prog ε E β) : (fail e : Prog ε E α).bind f = fail e :=
  rfl

@[simp] theorem call_bind (c : E γ) (k : γ → Prog ε E α) (f : α → Prog ε E β) :
    (call c k).bind f = call c fun b => (k b).bind f := rfl

theorem run_bind (handle : ∀ ⦃β : Type⦄, E β → σ → β × σ) (p : Prog ε E α)
    (f : α → Prog ε E β) (s : σ) :
    (p.bind f).run handle s =
      match p.run handle s with
      | (.ok a, s') => (f a).run handle s'
      | (.error e, s') => (.error e, s') := by
  induction p generalizing s with
  | ret a | fail e => rfl
  | call c k ih => exact ih _ _

theorem run_tryCatch (handle : ∀ ⦃β : Type⦄, E β → σ → β × σ) (p : Prog ε E α)
    (handler : ε → Prog ε E α) (s : σ) :
    (p.tryCatch handler).run handle s =
      match p.run handle s with
      | (.ok a, s') => (.ok a, s')
      | (.error e, s') => (handler e).run handle s' := by
  induction p generalizing s with
  | ret a | fail e => rfl
  | call c k ih => exact ih _ _

end Prog

-- === Executions ===

/-- How an execution ends: with a value, with a failure, or cut off. -/
inductive Outcome (ε α : Type)
  | returned (a : α)
  | failed (e : ε)
  | crashed

/-- One performed call: the states around it and the answer. -/
structure Event (E : Type → Type 1) (σ : Type) where
  {β : Type}
  call : E β
  before : σ
  answer : β
  after : σ

/-- A step relation on states together with what is demanded of every performed
    call and of every state in which the program can be cut off. -/
structure Setting (E : Type → Type 1) (σ : Type) where
  Step : ∀ ⦃β : Type⦄, E β → σ → β → σ → Prop
  Guarantee : Event E σ → Prop
  Crash : σ → Prop

def Setting.ofHandler {E : Type → Type 1} {σ : Type} (handle : ∀ ⦃β : Type⦄, E β → σ → β × σ) :
    Setting E σ where
  Step _ c s b s' := b = (handle c s).1 ∧ s' = (handle c s).2
  Guarantee _ := True
  Crash _ := True

section

variable {ε : Type} {E : Type → Type 1} {α σ : Type}

/-- The executions of a program under a step relation. An execution may be cut
    off before any call. -/
inductive Exec (Step : ∀ ⦃β : Type⦄, E β → σ → β → σ → Prop) :
    Prog ε E α → σ → List (Event E σ) → Outcome ε α → σ → Prop
  | ret (a : α) (s : σ) : Exec Step (.ret a) s [] (.returned a) s
  | fail (e : ε) (s : σ) : Exec Step (.fail e) s [] (.failed e) s
  | crash (p : Prog ε E α) (s : σ) : Exec Step p s [] .crashed s
  | call {β : Type} {c : E β} {k : β → Prog ε E α} {s s' s'' : σ} {b : β}
      {trace : List (Event E σ)} {o : Outcome ε α} (h : Step c s b s')
      (hk : Exec Step (k b) s' trace o s'') :
      Exec Step (.call c k) s (⟨c, s, b, s'⟩ :: trace) o s''

end

namespace Prog

section Events

variable {ε : Type} {E : Type → Type 1} {α σ : Type}

def events (handle : ∀ ⦃β : Type⦄, E β → σ → β × σ) : Prog ε E α → σ → List (Event E σ)
  | ret _, _ => []
  | fail _, _ => []
  | call c k, s => ⟨c, s, (handle c s).1, (handle c s).2⟩ ::
      (k (handle c s).1).events handle (handle c s).2

def Outcome.of : Except ε α → Outcome ε α
  | .ok a => .returned a
  | .error e => .failed e

variable {handle : ∀ ⦃β : Type⦄, E β → σ → β × σ} {Step : ∀ ⦃β : Type⦄, E β → σ → β → σ → Prop}

theorem answer_of_mem_events {p : Prog ε E α} {s : σ} {ev : Event E σ}
    (h : ev ∈ p.events handle s) : (handle ev.call ev.before) = (ev.answer, ev.after) := by
  induction p generalizing s with
  | ret a | fail e => cases h
  | call c k ih =>
    rcases List.mem_cons.mp h with rfl | h
    · rfl
    · exact ih _ h

theorem exec_events (p : Prog ε E α) (s : σ)
    (hstep : ∀ ev ∈ p.events handle s, Step ev.call ev.before ev.answer ev.after) :
    Exec Step p s (p.events handle s) (Outcome.of (p.run handle s).1) (p.run handle s).2 := by
  induction p generalizing s with
  | ret a => exact .ret a s
  | fail e => exact .fail e s
  | call c k ih =>
    rw [events, List.forall_mem_cons] at hstep
    exact .call hstep.1 (ih _ _ hstep.2)

theorem exec_run (hstep : ∀ ⦃β : Type⦄ (c : E β) s, Step c s (handle c s).1 (handle c s).2)
    (p : Prog ε E α) (s : σ) :
    Exec Step p s (p.events handle s) (Outcome.of (p.run handle s).1) (p.run handle s).2 :=
  exec_events p s fun ev hev => by
    have h := hstep ev.call ev.before
    rwa [answer_of_mem_events hev] at h

/-- A run whose calls all pass a check is an execution when the answers to such calls are
    steps that keep `J`. -/
theorem exec_checked {J : σ → Prop} {K : ∀ ⦃β : Type⦄, E β → Bool}
    (hstep : ∀ ⦃β : Type⦄ (c : E β) s, K c = true → J s →
      Step c s (handle c s).1 (handle c s).2 ∧ J (handle c s).2) {p : Prog ε E α} {s : σ}
    (hall : (p.events handle s).all (fun ev => K ev.call) = true) (hs : J s) :
    Exec Step p s (p.events handle s) (Outcome.of (p.run handle s).1) (p.run handle s).2 ∧
      J (p.run handle s).2 := by
  induction p generalizing s with
  | ret a => exact ⟨.ret a s, hs⟩
  | fail e => exact ⟨.fail e s, hs⟩
  | call c k ih =>
    rw [events, List.all_cons, Bool.and_eq_true] at hall
    obtain ⟨hc, hafter⟩ := hstep c s hall.1 hs
    obtain ⟨he, hJ⟩ := ih _ hall.2 hafter
    exact ⟨.call hc he, hJ⟩

def after (handle : ∀ ⦃β : Type⦄, E β → σ → β × σ) : Nat → Prog ε E α → σ → σ
  | n + 1, call c k, s => (k (handle c s).1).after handle n (handle c s).2
  | _, _, s => s

theorem exec_cut (hstep : ∀ ⦃β : Type⦄ (c : E β) s, Step c s (handle c s).1 (handle c s).2)
    (n : Nat) (p : Prog ε E α) (s : σ) :
    Exec Step p s ((p.events handle s).take n) .crashed (p.after handle n s) := by
  induction n generalizing p s with
  | zero => exact .crash p s
  | succ n ih =>
    cases p with
    | ret a | fail e => exact .crash _ s
    | call c k => exact .call (hstep c s) (ih _ _)

end Events

variable {ε : Type} {E : Type → Type 1} {α β γ σ : Type} {S : Setting E σ}

/-- The program keeps the demands of the setting from `s` on, and ends in a state
    that satisfies `Q` when it returns and `X` when it fails. -/
def Safe (S : Setting E σ) (Q : α → σ → Prop) (X : ε → σ → Prop) : Prog ε E α → σ → Prop
  | ret a, s => S.Crash s ∧ Q a s
  | fail e, s => S.Crash s ∧ X e s
  | call c k, s => S.Crash s ∧ ∀ b s', S.Step c s b s' →
      S.Guarantee ⟨c, s, b, s'⟩ ∧ (k b).Safe S Q X s'

/-- Safe, and the state at the end satisfies `J` however the program ends. -/
abbrev Upholds (S : Setting E σ) (J : σ → Prop) (p : Prog ε E α) (s : σ) : Prop :=
  p.Safe S (fun _ => J) (fun _ => J) s

variable {Q : α → σ → Prop} {X : ε → σ → Prop} {p : Prog ε E α} {s : σ} {f : α → Prog ε E β}
  {handle : ∀ ⦃β : Type⦄, E β → σ → β × σ} {Q' : α → σ → Prop} {X' : ε → σ → Prop} {x : Except ε α}
  {handler : ε → Prog ε E α} {body : γ → Prog ε E Unit} {S' : Setting E σ}

theorem Safe.crash (h : p.Safe S Q X s) : S.Crash s := by
  cases p <;> exact h.1

theorem Safe.mono (h : p.Safe S Q X s) (hQ : ∀ a s, Q a s → Q' a s) (hX : ∀ e s, X e s → X' e s) :
    p.Safe S Q' X' s := by
  induction p generalizing s with
  | ret a => exact ⟨h.1, hQ a s h.2⟩
  | fail e => exact ⟨h.1, hX e s h.2⟩
  | call c k ih => exact ⟨h.1, fun b s' hs => ⟨(h.2 b s' hs).1, ih b (h.2 b s' hs).2⟩⟩

theorem Safe.bind {Q' : β → σ → Prop} (h : p.Safe S Q X s)
    (hf : ∀ a s', Q a s' → (f a).Safe S Q' X s') : (p.bind f).Safe S Q' X s := by
  induction p generalizing s with
  | ret a => exact hf a s h.2
  | fail e => exact h
  | call c k ih => exact ⟨h.1, fun b s' hs => ⟨(h.2 b s' hs).1, ih b (h.2 b s' hs).2⟩⟩

theorem Safe.step {Q : β → σ → Prop} (h : p.Safe S (fun a s' => (f a).Safe S Q X s') X s) :
    (p.bind f).Safe S Q X s :=
  h.bind fun _ _ h => h

theorem Safe.perform {Q : β → σ → Prop} {c : E β} (hs : S.Crash s)
    (h : ∀ b s', S.Step c s b s' → S.Guarantee ⟨c, s, b, s'⟩ ∧ S.Crash s' ∧ Q b s') :
    (Prog.perform c : Prog ε E β).Safe S Q X s :=
  ⟨hs, fun b s' hstep => ⟨(h b s' hstep).1, (h b s' hstep).2⟩⟩

theorem Safe.ofExcept (hs : S.Crash s) (hok : ∀ a, x = .ok a → Q a s)
    (herr : ∀ e, x = .error e → X e s) : (Prog.ofExcept x : Prog ε E α).Safe S Q X s := by
  cases x with
  | ok a => exact ⟨hs, hok a rfl⟩
  | error e => exact ⟨hs, herr e rfl⟩

theorem Safe.tryCatch (h : p.Safe S Q X s) (hh : ∀ e s', X e s' → (handler e).Safe S Q X' s') :
    (p.tryCatch handler).Safe S Q X' s := by
  induction p generalizing s with
  | ret a => exact h
  | fail e => exact hh e s h.2
  | call c k ih => exact ⟨h.1, fun b s' hs => ⟨(h.2 b s' hs).1, ih b (h.2 b s' hs).2⟩⟩

theorem Safe.forEach (inv : List γ → σ → Prop) (hcrash : ∀ s, inv [] s → S.Crash s)
    (hbody : ∀ x xs s, inv (x :: xs) s → (body x).Safe S (fun _ => inv xs) X s) (xs : List γ)
    (h : inv xs s) : (Prog.forEach body xs).Safe S (fun _ => inv []) X s := by
  induction xs generalizing s with
  | nil => exact ⟨hcrash s h, h⟩
  | cons x xs ih => exact (hbody x xs s h).bind fun _ s' h' => ih h'

/-- A setting with more steps excluded and stronger demands; its states in
    between are known at the end as well. -/
theorem Safe.weaken (h : p.Safe S Q X s)
    (hstep : ∀ ⦃β : Type⦄ (c : E β) s b s', S'.Step c s b s' → S.Step c s b s')
    (hg : ∀ ev, S.Guarantee ev → S'.Guarantee ev) (hc : ∀ s, S.Crash s → S'.Crash s) :
    p.Safe S' (fun a s => S.Crash s ∧ Q a s) (fun e s => S.Crash s ∧ X e s) s := by
  induction p generalizing s with
  | ret a | fail e => exact ⟨hc s h.1, h⟩
  | call c k ih =>
    exact ⟨hc s h.1, fun b s' hs =>
      ⟨hg _ (h.2 b s' (hstep c s b s' hs)).1, ih b (h.2 b s' (hstep c s b s' hs)).2⟩⟩

theorem Safe.sound {s' : σ} {trace : List (Event E σ)} {o : Outcome ε α} (h : p.Safe S Q X s)
    (he : Exec S.Step p s trace o s') : (∀ ev ∈ trace, S.Guarantee ev) ∧ S.Crash s' ∧
      (∀ a, o = .returned a → Q a s') ∧ (∀ e, o = .failed e → X e s') := by
  induction he with
  | ret a s =>
    refine ⟨by simp, h.1, fun a' ha => ?_, by simp⟩
    cases ha
    exact h.2
  | fail e s =>
    refine ⟨by simp, h.1, by simp, fun e' he => ?_⟩
    cases he
    exact h.2
  | crash p s => exact ⟨by simp, h.crash, by simp, by simp⟩
  | call hstep _ ih =>
    obtain ⟨hg, hk⟩ := h.2 _ _ hstep
    obtain ⟨hall, hrest⟩ := ih hk
    refine ⟨fun ev hev => ?_, hrest⟩
    rcases List.mem_cons.mp hev with rfl | hev
    · exact hg
    · exact hall ev hev

/-- Safe with nothing promised about a failure beyond what every state promises:
    the condition for programs that may fail at any call. -/
def Keeps (S : Setting E σ) (Q : α → σ → Prop) (p : Prog ε E α) (s : σ) : Prop :=
  p.Safe S Q (fun _ => S.Crash) s

theorem Keeps.ret {a : α} (hs : S.Crash s) (h : Q a s) : (Prog.ret a : Prog ε E α).Keeps S Q s :=
  ⟨hs, h⟩

theorem Keeps.fail {e : ε} (hs : S.Crash s) : (Prog.fail e : Prog ε E α).Keeps S Q s :=
  ⟨hs, hs⟩

theorem Keeps.mono (h : p.Keeps S Q s) (hQ : ∀ a s, Q a s → Q' a s) : p.Keeps S Q' s :=
  Safe.mono h hQ fun _ _ hs => hs

theorem Keeps.bind {Q' : β → σ → Prop} (h : p.Keeps S Q s)
    (hf : ∀ a s', Q a s' → (f a).Keeps S Q' s') : (p.bind f).Keeps S Q' s :=
  Safe.bind h hf

/-- Sequencing, backwards: the rest is what the first program has to establish. -/
theorem Keeps.step {Q : β → σ → Prop} (h : p.Keeps S (fun a s' => (f a).Keeps S Q s') s) :
    (p.bind f).Keeps S Q s :=
  Keeps.bind h fun _ _ h => h

theorem Keeps.ofExcept (hs : S.Crash s) (h : ∀ a, x = .ok a → Q a s) :
    (Prog.ofExcept x : Prog ε E α).Keeps S Q s :=
  Safe.ofExcept hs h fun _ _ => hs

theorem Keeps.tryCatch (h : p.Keeps S Q s) (hh : ∀ e s', S.Crash s' → (handler e).Keeps S Q s') :
    (p.tryCatch handler).Keeps S Q s :=
  Safe.tryCatch h hh

theorem Keeps.forEach (inv : List γ → σ → Prop) (hcrash : ∀ s, inv [] s → S.Crash s)
    (hbody : ∀ x xs s, inv (x :: xs) s → (body x).Keeps S (fun _ => inv xs) s) (xs : List γ)
    (h : inv xs s) : (Prog.forEach body xs).Keeps S (fun _ => inv []) s :=
  Safe.forEach inv hcrash hbody xs h

theorem Keeps.weaken (h : p.Keeps S Q s)
    (hstep : ∀ ⦃β : Type⦄ (c : E β) s b s', S'.Step c s b s' → S.Step c s b s')
    (hg : ∀ ev, S.Guarantee ev → S'.Guarantee ev) (hc : ∀ s, S.Crash s → S'.Crash s) :
    p.Keeps S' (fun a s => S.Crash s ∧ Q a s) s :=
  (Safe.weaken h hstep hg hc).mono (fun _ _ h => h) fun _ s h => hc s h.1

/-- Sequencing, forwards: the rest starts from what the first program establishes and
    what every state promises. -/
theorem Keeps.andThen {Q' : β → σ → Prop} (h : p.Keeps S Q s)
    (hf : ∀ a s', S.Crash s' → Q a s' → (f a).Keeps S Q' s') : (p.bind f).Keeps S Q' s :=
  .bind (h.weaken (fun _ _ _ _ _ hs => hs) (fun _ hg => hg) fun _ hs => hs)
    fun a s' hs => hf a s' hs.1 hs.2

theorem Keeps.seq {Q' : β → σ → Prop} (h : p.Keeps S Q s)
    (hf : ∀ a s', S.Crash s' → (f a).Keeps S Q' s') : (p.bind f).Keeps S Q' s :=
  h.andThen fun a s' hs _ => hf a s' hs

theorem Keeps.forAll (hbody : ∀ x s, S.Crash s → (body x).Keeps S (fun _ _ => True) s)
    (xs : List γ) (h : S.Crash s) : (Prog.forEach body xs).Keeps S (fun _ _ => True) s := by
  induction xs generalizing s with
  | nil => exact ⟨h, trivial⟩
  | cons x xs ih => exact (hbody x s h).seq fun _ _ h' => ih h'

theorem Safe.of_run (hstep : ∀ {β : Type} (c : E β) s, S.Step c s (handle c s).1 (handle c s).2)
    (h : p.Safe S Q X s) : (∃ a, (p.run handle s).1 = .ok a ∧ Q a (p.run handle s).2) ∨
      (∃ e, (p.run handle s).1 = .error e ∧ X e (p.run handle s).2) := by
  induction p generalizing s with
  | ret a => exact .inl ⟨a, rfl, h.2⟩
  | fail e => exact .inr ⟨e, rfl, h.2⟩
  | call c k ih => exact ih _ (h.2 _ _ (hstep c s)).2

theorem Safe.ofHandler (h : p.Safe (.ofHandler handle) Q X s) :
    (∃ a, (p.run handle s).1 = .ok a ∧ Q a (p.run handle s).2) ∨
      (∃ e, (p.run handle s).1 = .error e ∧ X e (p.run handle s).2) :=
  Safe.of_run (S := .ofHandler handle) (fun _ _ => ⟨rfl, rfl⟩) h

theorem Safe.of_ends (hok : ∀ a, (p.run handle s).1 = .ok a → Q a (p.run handle s).2)
    (herr : ∀ e, (p.run handle s).1 = .error e → X e (p.run handle s).2) :
    p.Safe (.ofHandler handle) Q X s := by
  induction p generalizing s with
  | ret a => exact ⟨trivial, hok a rfl⟩
  | fail e => exact ⟨trivial, herr e rfl⟩
  | call c k ih =>
    refine ⟨trivial, fun b s' hb => ⟨trivial, ?_⟩⟩
    obtain ⟨rfl, rfl⟩ := hb
    exact ih _ hok herr

theorem Safe.unconstrained (handle : ∀ ⦃β : Type⦄, E β → σ → β × σ) (p : Prog ε E α) (s : σ) :
    p.Upholds (.ofHandler handle) (fun _ => True) s :=
  .of_ends (fun _ _ => trivial) fun _ _ => trivial

-- === Which calls a program can make ===

def Calls (P : ∀ ⦃β : Type⦄, E β → Prop) : Prog ε E α → Prop
  | ret _ => True
  | fail _ => True
  | call c k => P c ∧ ∀ b, (k b).Calls P

section Calls

variable {P : ∀ ⦃β : Type⦄, E β → Prop} {p : Prog ε E α} {J : σ → Prop} {s : σ}
  {Step : ∀ ⦃β : Type⦄, E β → σ → β → σ → Prop}

theorem Calls.ret (a : α) : (Prog.ret a : Prog ε E α).Calls P := trivial

theorem Calls.fail (e : ε) : (Prog.fail e : Prog ε E α).Calls P := trivial

theorem Calls.mono {P' : ∀ ⦃β : Type⦄, E β → Prop} (h : p.Calls P)
    (hP : ∀ ⦃β : Type⦄ (c : E β), P c → P' c) : p.Calls P' := by
  induction p with
  | ret a | fail e => trivial
  | call c k ih => exact ⟨hP c h.1, fun b => ih b (h.2 b)⟩

theorem Calls.perform {c : E β} (h : P c) : (Prog.perform c : Prog ε E β).Calls P :=
  ⟨h, fun _ => trivial⟩

theorem Calls.ofExcept (x : Except ε α) : (Prog.ofExcept x : Prog ε E α).Calls P := by
  cases x <;> trivial

theorem Calls.bind (h : p.Calls P) (hf : ∀ a, (f a).Calls P) : (p.bind f).Calls P := by
  induction p with
  | ret a => exact hf a
  | fail e => trivial
  | call c k ih => exact ⟨h.1, fun b => ih b (h.2 b)⟩

theorem Calls.tryCatch (h : p.Calls P) (hh : ∀ e, (handler e).Calls P) :
    (p.tryCatch handler).Calls P := by
  induction p with
  | ret a => trivial
  | fail e => exact hh e
  | call c k ih => exact ⟨h.1, fun b => ih b (h.2 b)⟩

/-- What every such call keeps is kept by the program, and every call starts from it. -/
theorem Calls.safe (h : p.Calls P) (hcrash : ∀ s, J s → S.Crash s)
    (hstep : ∀ ⦃β : Type⦄ (c : E β) s b s', P c → J s → S.Step c s b s' →
      S.Guarantee ⟨c, s, b, s'⟩ ∧ J s') (hs : J s) : p.Upholds S J s := by
  induction p generalizing s with
  | ret a | fail e => exact ⟨hcrash s hs, hs⟩
  | call c k ih =>
    refine ⟨hcrash s hs, fun b s' hb => ?_⟩
    obtain ⟨hg, hs'⟩ := hstep c s b s' h.1 hs hb
    exact ⟨hg, ih b (h.2 b) hs'⟩

theorem Calls.exec {s' : σ} {trace : List (Event E σ)} {o : Outcome ε α} (h : p.Calls P)
    (hstep : ∀ ⦃β : Type⦄ (c : E β) s b s', P c → J s → Step c s b s' → J s')
    (he : Exec Step p s trace o s') (hs : J s) : J s' := by
  induction he with
  | ret a s | fail e s | crash p s => exact hs
  | call hb _ ih => exact ih (h.2 _) (hstep _ _ _ _ h.1 hs hb)

/-- The run under a handler whose answers to such calls are steps is an execution. -/
theorem Calls.exec_run (h : p.Calls P)
    (hstep : ∀ ⦃β : Type⦄ (c : E β) s, P c → J s →
      Step c s (handle c s).1 (handle c s).2 ∧ J (handle c s).2) (hs : J s) :
    Exec Step p s (p.events handle s) (Outcome.of (p.run handle s).1) (p.run handle s).2 := by
  induction p generalizing s with
  | ret a => exact .ret a s
  | fail e => exact .fail e s
  | call c k ih => exact .call (hstep c s h.1 hs).1 (ih _ (h.2 _) (hstep c s h.1 hs).2)

end Calls

-- === Executions that return ===

def Returns (Step : ∀ ⦃β : Type⦄, E β → σ → β → σ → Prop) (p : Prog ε E α) (s : σ) (a : α)
    (s' : σ) : Prop :=
  ∃ trace, Exec Step p s trace (.returned a) s'

section Returns

variable {Step : ∀ ⦃β : Type⦄, E β → σ → β → σ → Prop} {s s' : σ} {a : α} {b : α}

@[simp] theorem returns_ret : (ret a : Prog ε E α).Returns Step s b s' ↔ b = a ∧ s' = s := by
  constructor
  · rintro ⟨_, ⟨⟩⟩
    exact ⟨rfl, rfl⟩
  · rintro ⟨rfl, rfl⟩
    exact ⟨_, .ret b s'⟩

@[simp] theorem returns_fail {e : ε} : ¬ (fail e : Prog ε E α).Returns Step s b s' := by
  rintro ⟨_, ⟨⟩⟩

theorem returns_call {c : E γ} {k : γ → Prog ε E α} : (call c k).Returns Step s a s' ↔
      ∃ b s1, Step c s b s1 ∧ (k b).Returns Step s1 a s' := by
  constructor
  · rintro ⟨_, he⟩
    cases he with
    | call h hk => exact ⟨_, _, h, _, hk⟩
  · rintro ⟨b, s1, h, _, hk⟩
    exact ⟨_, .call h hk⟩

@[simp] theorem returns_perform {c : E β} {b : β} :
    (perform c : Prog ε E β).Returns Step s b s' ↔ Step c s b s' := by
  rw [perform, returns_call]
  simp only [returns_ret]
  constructor
  · rintro ⟨_, _, h, rfl, rfl⟩
    exact h
  · exact fun h => ⟨b, s', h, rfl, rfl⟩

@[simp] theorem returns_ofExcept :
    (ofExcept x : Prog ε E α).Returns Step s a s' ↔ x = .ok a ∧ s' = s := by
  cases x with
  | error e => simp [ofExcept]
  | ok b => simp [ofExcept, eq_comm]

@[simp] theorem returns_bind {b : β} : (p.bind f).Returns Step s b s' ↔
      ∃ a s1, p.Returns Step s a s1 ∧ (f a).Returns Step s1 b s' := by
  induction p generalizing s with
  | ret a =>
    simp only [ret_bind, returns_ret]
    constructor
    · exact fun h => ⟨a, s, ⟨rfl, rfl⟩, h⟩
    · rintro ⟨_, _, ⟨rfl, rfl⟩, h⟩
      exact h
  | fail e => simp
  | call c k ih =>
    simp only [call_bind, returns_call, ih]
    constructor
    · rintro ⟨x, s1, hx, a, s2, hk, hf⟩
      exact ⟨a, s2, ⟨x, s1, hx, hk⟩, hf⟩
    · rintro ⟨a, s2, ⟨x, s1, hx, hk⟩, hf⟩
      exact ⟨x, s1, hx, a, s2, hk, hf⟩

/-- What a program with a handler returns is returned by it or by the handler. -/
theorem Returns.of_tryCatch (h : (p.tryCatch handler).Returns Step s a s') :
    p.Returns Step s a s' ∨ ∃ e s1, (handler e).Returns Step s1 a s' := by
  induction p generalizing s with
  | ret b => exact .inl h
  | fail e => exact .inr ⟨e, s, h⟩
  | call c k ih =>
    obtain ⟨b, s1, hb, hk⟩ := returns_call.mp h
    rcases ih b hk with hk | hh
    · exact .inl (returns_call.mpr ⟨b, s1, hb, hk⟩)
    · exact .inr hh

/-- A program whose error is kept as a value has returned when there is none. -/
theorem Returns.of_attempt {p : Prog ε E Unit}
    (h : ((p.bind fun _ => .ret none).tryCatch fun e => .ret (some e)).Returns Step s none s') :
    p.Returns Step s () s' := by
  rcases h.of_tryCatch with h | ⟨e, s1, h⟩
  · obtain ⟨⟨⟩, s1, hp, hret⟩ := returns_bind.mp h
    obtain ⟨_, rfl⟩ := returns_ret.mp hret
    exact hp
  · cases (returns_ret.mp h).1

end Returns

-- === Programs without failures ===

/-- No answers lead the program to a failure. -/
inductive Total : Prog ε E α → Prop
  | ret (a : α) : Total (.ret a)
  | call {β : Type} (c : E β) {k : β → Prog ε E α} (h : ∀ b, Total (k b)) : Total (.call c k)

theorem Total.perform (c : E β) : (Prog.perform c : Prog ε E β).Total := .call c fun _ => .ret _

theorem Total.bind (h : p.Total) (hf : ∀ a, (f a).Total) : (p.bind f).Total := by
  induction h with
  | ret a => exact hf a
  | call c _ ih => exact .call c ih

theorem Total.safe (h : p.Total) (hc : ∀ s, S.Crash s) (hg : ∀ ev, S.Guarantee ev) (s : σ) :
    p.Safe S (fun _ _ => True) X s := by
  induction h generalizing s with
  | ret a => exact ⟨hc s, trivial⟩
  | call c _ ih => exact ⟨hc s, fun b s' _ => ⟨hg _, ih b s'⟩⟩

end Prog

end Kikimora.Lib

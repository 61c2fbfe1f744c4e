import Mathlib.Logic.Function.Basic
import Mathlib.Tactic.SplitIfs

/-!
# Ownership

Things that exist are each in the hands of exactly one holder: one comes into
being in somebody's hands, passes from hand to hand, and ends where it is held.
-/

namespace Kikimora.Lib

/-- Everything that is live is held, once, and everything held is live. -/
structure Owns {α κ : Type} (held : α → Option κ) (live : κ → Prop) : Prop where
  unique : ∀ {x y k}, held x = some k → held y = some k → x = y
  sound : ∀ {x k}, held x = some k → live k
  complete : ∀ {k}, live k → ∃ x, held x = some k

namespace Owns

variable {α κ : Type} {held held' : α → Option κ} {live live' : κ → Prop} {x y : α} {k : κ}

theorem congr (h : Owns held live) (hheld : ∀ x, held' x = held x) (hlive : ∀ k, live' k ↔ live k) :
    Owns held' live' := by
  rw [funext hheld, funext fun k => propext (hlive k)]
  exact h

variable [DecidableEq α]

theorem acquire (h : Owns held live) (hx : held x = none) (hk : ¬ live k) :
    Owns (Function.update held x (some k)) fun k' => k' = k ∨ live k' := by
  refine ⟨fun {y z k'} hy hz => ?_, fun {y k'} hy => ?_, fun {k'} hk' => ?_⟩
  · simp only [Function.update_apply] at hy hz
    split_ifs at hy hz with hyx hzx hzx
    · exact hyx.trans hzx.symm
    · cases hy
      exact absurd (h.sound hz) hk
    · cases hz
      exact absurd (h.sound hy) hk
    · exact h.unique hy hz
  · simp only [Function.update_apply] at hy
    split_ifs at hy
    · cases hy
      exact .inl rfl
    · exact .inr (h.sound hy)
  · rcases hk' with rfl | hk'
    · exact ⟨x, Function.update_self ..⟩
    obtain ⟨y, hy⟩ := h.complete hk'
    refine ⟨y, ?_⟩
    rwa [Function.update_of_ne]
    rintro rfl
    cases hx.symm.trans hy

theorem release (h : Owns held live) (hx : held x = some k) :
    Owns (Function.update held x none) fun k' => k' ≠ k ∧ live k' := by
  refine ⟨fun {y z k'} hy hz => ?_, fun {y k'} hy => ?_, fun {k'} hk' => ?_⟩
  · simp only [Function.update_apply] at hy hz
    split_ifs at hy hz
    exact h.unique hy hz
  · simp only [Function.update_apply] at hy
    split_ifs at hy with hyx
    refine ⟨?_, h.sound hy⟩
    rintro rfl
    exact hyx (h.unique hy hx)
  · obtain ⟨y, hy⟩ := h.complete hk'.2
    refine ⟨y, ?_⟩
    rwa [Function.update_of_ne]
    rintro rfl
    exact hk'.1 (Option.some.inj (hy.symm.trans hx))

theorem transfer (h : Owns held live) (hx : held x = some k) (hy : held y = none) :
    Owns (Function.update (Function.update held x none) y (some k)) live := by
  have hgone : Function.update held x none y = none := by
    rw [Function.update_apply]
    split_ifs
    · rfl
    · exact hy
  refine ((h.release hx).acquire hgone fun hk => hk.1 rfl).congr (fun _ => rfl) fun k' => ?_
  by_cases hk : k' = k
  · subst hk
    exact iff_of_true (h.sound hx) (.inl rfl)
  · simp [hk]

end Owns

end Kikimora.Lib

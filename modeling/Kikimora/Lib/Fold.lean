import Mathlib.Data.List.Nodup
import Mathlib.Tactic.SplitIfs

/-!
# Folds over a list of steps

A loop over a list of distinct keys whose step changes the state at its own key
only: after the loop every visited key has seen its step once, and what no step
changes is as before. And histories, newest step first, with what holds throughout.
-/

namespace Kikimora.Lib

variable {σ α β : Type}

theorem foldl_preserves {step : σ → α → σ} (get : σ → β) (h : ∀ s a, get (step s a) = get s)
    (l : List α) (s : σ) : get (l.foldl step s) = get s := by
  induction l generalizing s with
  | nil => rfl
  | cons a l ih => rw [List.foldl_cons, ih, h]

/-- `get` reads the state at a key, and `g` is what the step of a key does there. -/
theorem foldl_at [DecidableEq α] {step : σ → α → σ} (get : σ → α → β) {g : α → β → β}
    (h : ∀ s a b, get (step s a) b = if b = a then g a (get s a) else get s b)
    {l : List α} (hl : l.Nodup) (s : σ) (b : α) :
    get (l.foldl step s) b = if b ∈ l then g b (get s b) else get s b := by
  induction l generalizing s with
  | nil => simp
  | cons a l ih =>
    obtain ⟨ha, hl⟩ := List.nodup_cons.mp hl
    rw [List.foldl_cons, ih hl, h]
    by_cases hb : b = a
    · subst hb
      simp [ha]
    · simp [hb]

/-- An invariant `I` that is kept by the steps that meet `C` gives `P` throughout a
    history, and exactly then if a step that does not meet `C` breaks `P`. -/
theorem throughout_iff {step : α → σ → σ} {s₀ : σ} {I P : σ → Prop} {C : σ → α → Prop}
    (h0 : I s₀) (hstep : ∀ s a, I s → C s a → I (step a s)) (hI : ∀ s, I s → P s)
    (hP : ∀ s a, P (step a s) → C s a) (history : List α) :
    (∀ earlier, earlier <:+ history → P (earlier.foldr step s₀)) ↔
      ∀ a earlier, a :: earlier <:+ history → C (earlier.foldr step s₀) a := by
  refine ⟨fun h a earlier hs => hP _ a (h (a :: earlier) hs), fun h earlier hs => hI _ ?_⟩
  induction earlier with
  | nil => exact h0
  | cons a earlier ih =>
    exact hstep _ a (ih ((List.suffix_cons a earlier).trans hs)) (h a earlier hs)

/-- Along a history two conditions on its steps agree, if they agree wherever an invariant
    holds that is kept by the steps that meet them. -/
theorem steps_iff {step : α → σ → σ} {s₀ : σ} {I : σ → Prop} {P C : σ → α → Prop} (h0 : I s₀)
    (hiff : ∀ s a, I s → (P s a ↔ C s a)) (hstep : ∀ s a, I s → P s a → I (step a s))
    (history : List α) :
    (∀ a earlier, a :: earlier <:+ history → P (earlier.foldr step s₀) a) ↔
      ∀ a earlier, a :: earlier <:+ history → C (earlier.foldr step s₀) a := by
  suffices h : ((∀ a earlier, a :: earlier <:+ history → P (earlier.foldr step s₀) a) →
      I (history.foldr step s₀)) ∧ (_ ↔ _) from h.2
  induction history with
  | nil => exact ⟨fun _ => h0, by simp⟩
  | cons a history ih =>
    have hcons : ∀ R : σ → α → Prop,
        (∀ b earlier, b :: earlier <:+ a :: history → R (earlier.foldr step s₀) b) ↔
        R (history.foldr step s₀) a ∧
          ∀ b earlier, b :: earlier <:+ history → R (earlier.foldr step s₀) b := by
      intro R
      simp [List.suffix_cons_iff, or_imp, forall_and]
    rw [hcons, hcons, ih.2]
    refine ⟨fun h => hstep _ a (ih.1 (ih.2.mpr h.2)) h.1, ?_⟩
    exact and_congr_left fun h => hiff _ a (ih.1 (ih.2.mpr h))

end Kikimora.Lib

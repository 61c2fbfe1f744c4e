import Mathlib.Data.List.MinMax

/-!
# The first least element of a listing

`List.argmin` keeps the first of the elements whose key is least. Over all listings of
the same elements it can keep any of the least ones, so what is read off the kept element
is a property of the elements exactly when all least ones agree on it.
-/

namespace Kikimora.Lib

variable {α β γ : Type}

def SameElements (l l' : List α) : Prop := ∀ a, a ∈ l ↔ a ∈ l'

variable {l l' : List α}

theorem SameElements.refl (l : List α) : SameElements l l := fun _ => Iff.rfl

theorem SameElements.symm (h : SameElements l l') : SameElements l' l :=
  fun a => (h a).symm

theorem SameElements.filterMap (h : SameElements l l') (g : α → Option β) :
    SameElements (l.filterMap g) (l'.filterMap g) := fun b => by
  simp only [List.mem_filterMap, h _]

theorem SameElements.filter (h : SameElements l l') (p : α → Bool) :
    SameElements (l.filter p) (l'.filter p) := fun a => by
  simp only [List.mem_filter, h a]

theorem SameElements.cons {a : α} (h : a ∈ l) : SameElements l (a :: l) :=
  fun _ => ⟨List.mem_cons_of_mem a, fun hb => (List.mem_cons.mp hb).elim (· ▸ h) id⟩

section

variable [LinearOrder β] {f : α → β} {l l' : List α} {a : α}

/-- An element of the list whose key is least. -/
structure Least (f : α → β) (l : List α) (a : α) : Prop where
  mem : a ∈ l
  le : ∀ b ∈ l, f a ≤ f b

theorem Least.same (h : Least f l a) (hl : SameElements l l') : Least f l' a :=
  ⟨(hl a).mp h.mem, fun b hb => h.le b ((hl b).mpr hb)⟩

end

end Kikimora.Lib

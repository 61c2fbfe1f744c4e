import Mathlib.Data.List.Infix

/-!
# Patterns and terminated pieces

The first occurrence of a pattern in a list, and the pieces into which a terminator cuts
a list.
-/

namespace Kikimora.Lib

variable {α : Type}

-- === Patterns ===

variable [DecidableEq α]

def index (pat l : List α) : Option Nat :=
  (List.range (l.length + 1)).find? fun i => pat.isPrefixOf (l.drop i)

variable {pat l : List α}

theorem index_eq_none_iff : index pat l = none ↔ ¬ pat <:+: l := by
  simp only [index, List.find?_range_eq_none, Nat.lt_succ_iff, Bool.not_eq_true',
    ← Bool.not_eq_true, List.isPrefixOf_iff_prefix, List.infix_iff_prefix_suffix, not_exists,
    not_and]
  constructor
  · rintro h t hpat hsuffix
    rw [List.suffix_iff_eq_drop.mp hsuffix] at hpat
    exact h _ (Nat.sub_le _ _) hpat
  · exact fun h i _ hpat => h _ hpat (List.drop_suffix i l)

-- === Terminated pieces ===

def splitLines (nl : α) : List α → List (List α) × List α
  | [] => ([], [])
  | c :: cs =>
    let (lines, rest) := splitLines nl cs
    if c = nl then ([c] :: lines, rest)
    else
      match lines with
      | [] => ([], c :: rest)
      | line :: lines => ((c :: line) :: lines, rest)

def Terminated (nl : α) (line : List α) : Prop := ∃ body, nl ∉ body ∧ line = body ++ [nl]

variable {nl : α} {lines : List (List α)} {rest : List α}

theorem splitLines_body {body : List α} (h : nl ∉ body) (l : List α) :
    splitLines nl (body ++ l) =
      match splitLines nl l with
      | ([], rest) => ([], body ++ rest)
      | (line :: lines, rest) => ((body ++ line) :: lines, rest) := by
  induction body with
  | nil =>
    rcases hcut : splitLines nl l with ⟨_ | ⟨line, lines⟩, rest⟩ <;> exact hcut
  | cons c body ih =>
    obtain ⟨hc, hbody⟩ := not_or.mp (mt List.mem_cons.mpr h)
    rw [List.cons_append, splitLines, ih hbody]
    rcases splitLines nl l with ⟨_ | ⟨line, lines⟩, rest⟩ <;> simp [Ne.symm hc]

theorem splitLines_terminated {line : List α} (h : Terminated nl line) (l : List α) :
    splitLines nl (line ++ l) = (line :: (splitLines nl l).1, (splitLines nl l).2) := by
  obtain ⟨body, hbody, rfl⟩ := h
  rw [List.append_assoc, splitLines_body hbody]
  simp [splitLines]

theorem splitLines_flatten (hlines : ∀ line ∈ lines, Terminated nl line) (l : List α) :
    splitLines nl (lines.flatten ++ l) = (lines ++ (splitLines nl l).1, (splitLines nl l).2) := by
  induction lines with
  | nil => rfl
  | cons line lines ih =>
    rw [List.flatten_cons, List.append_assoc,
      splitLines_terminated (hlines line List.mem_cons_self),
      ih fun x hx => hlines x (List.mem_cons_of_mem line hx)]
    rfl

theorem splitLines_of_not_mem (h : nl ∉ rest) : splitLines nl rest = ([], rest) := by
  have := splitLines_body h []
  simpa [splitLines] using this

theorem splitLines_join (hlines : ∀ line ∈ lines, Terminated nl line) (hrest : nl ∉ rest) :
    splitLines nl (lines.flatten ++ rest) = (lines, rest) := by
  rw [splitLines_flatten hlines, splitLines_of_not_mem hrest, List.append_nil]

theorem splitLines_spec (nl : α) (l : List α) :
    (∀ line ∈ (splitLines nl l).1, Terminated nl line) ∧ nl ∉ (splitLines nl l).2 ∧
      (splitLines nl l).1.flatten ++ (splitLines nl l).2 = l := by
  induction l with
  | nil => simp [splitLines]
  | cons c cs ih =>
    obtain ⟨hlines, hrest, hjoin⟩ := ih
    rcases hcut : splitLines nl cs with ⟨lines, rest⟩
    rw [hcut] at hlines hrest hjoin
    by_cases hc : c = nl
    · subst hc
      simp only [splitLines, hcut, if_true]
      refine ⟨fun line hline => ?_, hrest, by simpa using hjoin⟩
      rcases List.mem_cons.mp hline with rfl | hline
      · exact ⟨[], List.not_mem_nil, rfl⟩
      · exact hlines line hline
    · simp only [splitLines, hcut, hc, if_false]
      cases lines with
      | nil =>
        refine ⟨nofun, ?_, by simpa using hjoin⟩
        exact fun hmem => (List.mem_cons.mp hmem).elim (fun h => hc h.symm) hrest
      | cons line lines =>
        refine ⟨fun x hx => ?_, hrest, by simpa using hjoin⟩
        rcases List.mem_cons.mp hx with rfl | hx
        · obtain ⟨body, hbody, rfl⟩ := hlines line List.mem_cons_self
          refine ⟨c :: body, ?_, rfl⟩
          exact fun hmem => (List.mem_cons.mp hmem).elim (fun h => hc h.symm) hbody
        · exact hlines x (List.mem_cons_of_mem line hx)

/-- A list may be cut as it arrives: what was left over goes in front of what follows. -/
theorem splitLines_append (nl : α) (l l' : List α) :
    splitLines nl (l ++ l') =
      ((splitLines nl l).1 ++ (splitLines nl ((splitLines nl l).2 ++ l')).1,
        (splitLines nl ((splitLines nl l).2 ++ l')).2) := by
  obtain ⟨hlines, -, hjoin⟩ := splitLines_spec nl l
  conv_lhs => rw [← hjoin, List.append_assoc]
  exact splitLines_flatten hlines _

end Kikimora.Lib

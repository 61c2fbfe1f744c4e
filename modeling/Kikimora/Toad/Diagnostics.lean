import Kikimora.Lib.Fold
import Mathlib.Data.Finset.Interval
import Mathlib.Order.Interval.Finset.Nat

/-!
# Diagnostics capture

A run of the collector appends what is new in a log file to the spool, from the offset
that it remembers for the path, and prunes the spool. Where it is in the file is inferred
from sizes only, so the model has no contents: a byte is its position in the file that is
at the path now.
-/

namespace Kikimora.Toad.Diagnostics

def maxChunkBytes : Nat := 2 ^ 20

def maxSpoolBytes : Nat := 256 * 2 ^ 20

-- === Tailing a log ===

/-- From where `tailFile` has copied, and the offset that it leaves; nothing if the append
    to the spool fails. -/
def tailFile (writes : Bool) (size offset : Nat) : Option (Nat × Nat) :=
  let resume := if size < offset then 0 else offset
  if size = resume then some (size, offset)
  else if writes then
    some (if maxChunkBytes < size - resume then size - maxChunkBytes else resume, size)
  else none

/-- A log file, the offset of its path in the collector and in `offsets.json`, and the
    bytes of the file that are in the spool. -/
structure Capture where
  size : Nat := 0
  offset : Nat := 0
  saved : Nat := 0
  copied : Finset Nat := ∅

inductive Event
  | append (bytes : Nat)
  | truncate (size : Nat)
  | rotate
  | restart
  | collect (writes saves : Bool)

namespace Capture

def collect (s : Capture) (writes saves : Bool) : Capture :=
  let s := match tailFile writes s.size s.offset with
    | some (start, offset) => { s with offset, copied := s.copied ∪ .Ico start s.size }
    | none => s
  if saves then { s with saved := s.offset } else s

def step (s : Capture) : Event → Capture
  | .append bytes => { s with size := s.size + bytes }
  | .truncate size => { s with size := min s.size size, copied := s.copied.filter (· < size) }
  | .rotate => { s with size := 0, copied := ∅ }
  | .restart => { s with offset := s.saved }
  | .collect writes saves => s.collect writes saves

/-- The capture after some events, newest first. -/
def after (history : List Event) : Capture := history.foldr (fun e s => s.step e) {}

/-- A run that returns without an error copies exactly what was not copied before. -/
def Exact (s : Capture) : Event → Prop
  | .collect writes _ =>
    ∀ r ∈ tailFile writes s.size s.offset, Finset.Ico r.1 s.size = .range s.size \ s.copied
  | _ => True

/-- The offset is where the copied bytes end and at most 1 MiB follows; or none is copied
    of a file that is shorter than the offset and has at most 1 MiB; or exactly 1 MiB
    follows the copied bytes, and the file is shorter than the offset or the offset is
    before their end. -/
def Meets (s : Capture) : Event → Prop
  | .collect writes _ => writes = true ∨ s.size = s.offset →
    s.offset = s.copied.card ∧ s.size ≤ s.copied.card + maxChunkBytes ∨
    s.copied.card = 0 ∧ s.size < s.offset ∧ s.size ≤ maxChunkBytes ∨
    s.size = s.copied.card + maxChunkBytes ∧ (s.size < s.offset ∨ s.offset < s.copied.card)
  | _ => True

/-- The copied bytes are the first ones of the file. -/
def Leading (s : Capture) (d : Nat) : Prop := d ≤ s.size ∧ s.copied = .range d

variable {s : Capture} {writes saves : Bool} {d : Nat} {e : Event}

theorem start_of_tailFile {size offset : Nat} {r : Nat × Nat}
    (h : tailFile writes size offset = some r) :
    r.1 = max (if size < offset then 0 else offset) (size - maxChunkBytes) := by
  have hmax : maxChunkBytes = 1048576 := rfl
  simp only [tailFile] at h
  split_ifs at h ⊢
  all_goals
    simp only [Option.some.injEq, Prod.ext_iff] at h
    omega

theorem tailFile_eq_none_iff {size offset : Nat} : tailFile writes size offset = none ↔
    ¬ (writes = true ∨ size = offset) ∧ size ≠ 0 := by
  cases writes <;> simp [tailFile] <;> split_ifs <;> simp <;> omega

theorem Leading.exact_iff (h : s.Leading d) (e : Event) : s.Exact e ↔ s.Meets e := by
  cases e with
  | append | truncate | rotate | restart => exact Iff.rfl
  | collect writes saves =>
    obtain ⟨hd, hcopied⟩ := h
    have hmax : maxChunkBytes = 1048576 := rfl
    simp only [Exact, Meets, hcopied, Finset.card_range]
    cases htail : tailFile writes s.size s.offset with
    | none => simp [(tailFile_eq_none_iff.mp htail).1]
    | some r =>
      have hstart := start_of_tailFile htail
      have hcopies : Finset.Ico r.1 s.size = .range s.size \ .range d ↔ r.1 = d := by
        simp only [Finset.ext_iff, Finset.mem_Ico, Finset.mem_sdiff, Finset.mem_range]
        refine ⟨fun h => ?_, fun h p => by omega⟩
        have := h (min r.1 d)
        split_ifs at hstart <;> omega
      simp only [Option.mem_some, forall_eq', hcopies]
      by_cases hw : writes = true ∨ s.size = s.offset
      · simp only [hw, forall_const]
        split_ifs at hstart <;> omega
      · have hempty : s.size = 0 := by
          by_contra hne
          cases htail.symm.trans (tailFile_eq_none_iff.mpr ⟨hw, hne⟩)
        simp only [hw, false_imp_iff, iff_true]
        split_ifs at hstart <;> omega

theorem Leading.collect (h : s.Leading d) (hexact : s.Exact (.collect writes saves)) :
    ∃ d, (s.collect writes saves).Leading d := by
  have hsave : ∀ (s : Capture) d, s.Leading d →
      (if saves then { s with saved := s.offset } else s).Leading d := by
    intro s d h
    split_ifs <;> exact h
  unfold Capture.collect
  cases htail : tailFile writes s.size s.offset with
  | none => exact ⟨d, hsave s d h⟩
  | some r =>
    -- what was not copied before is copied now
    refine ⟨s.size, hsave _ _ ⟨Nat.le_refl _, ?_⟩⟩
    have hd : Finset.range d ⊆ .range s.size := Finset.range_subset_range.mpr h.1
    dsimp only
    rw [hexact r htail, Finset.union_sdiff_self_eq_union, h.2, Finset.union_eq_right.mpr hd]

theorem Leading.step (h : s.Leading d) (hexact : s.Exact e) : ∃ d, (s.step e).Leading d := by
  obtain ⟨hd, hcopied⟩ := h
  cases e with
  | append bytes => exact ⟨d, Nat.le_add_right_of_le hd, hcopied⟩
  | truncate size =>
    refine ⟨min d size, ?_, ?_⟩
    · simp only [Capture.step]
      omega
    · ext p
      simp [Capture.step, hcopied]
  | rotate => exact ⟨0, Nat.le_refl 0, rfl⟩
  | restart => exact ⟨d, hd, hcopied⟩
  | collect writes saves => exact Leading.collect ⟨hd, hcopied⟩ hexact

end Capture

-- === Pruning the spool ===

/-- An entry of the spool directory; `info` says whether its size and time can be read. -/
structure Entry where
  name : String
  isDir : Bool
  info : Bool
  size : Nat
  modTime : Int

def Entry.isLog (e : Entry) : Bool := !e.isDir && e.name.endsWith ".log"

def total (files : List Entry) : Nat := (files.map Entry.size).sum

/-- What is left of the files when they are removed in turn until the rest fits. -/
def removeOldest (removes : Entry → Bool) : Nat → List Entry → List Entry
  | _, [] => []
  | total, file :: files =>
    if total ≤ maxSpoolBytes then file :: files
    else if removes file then removeOldest removes (total - file.size) files
    else file :: removeOldest removes total files

/-- The log files that `prune` leaves in a spool that it can list. -/
def prune (now retention : Int) (removes : Entry → Bool) (entries : List Entry) : List Entry :=
  let logs := entries.filter (·.isLog)
  let old := fun e : Entry => decide (retention < now - e.modTime)
  let files := logs.filter fun e => e.info && !old e
  logs.filter (fun e => !e.info || (old e && !removes e)) ++
    if total files ≤ maxSpoolBytes then files
    else removeOldest removes (total files) (files.mergeSort fun a b => a.modTime ≤ b.modTime)

theorem total_removeOldest {removes : Entry → Bool} {files : List Entry} {n : Nat}
    (hn : total files = n) (h : ∀ e ∈ files, removes e = true) :
    total (removeOldest removes n files) ≤ maxSpoolBytes := by
  induction files generalizing n with
  | nil => exact Nat.zero_le _
  | cons file files ih =>
    rw [List.forall_mem_cons] at h
    rw [removeOldest, if_pos h.1]
    split_ifs with hfits
    · exact hn.trans_le hfits
    · exact ih (by simp [← hn, total]) h.2

theorem total_prune {now retention : Int} {removes : Entry → Bool} {entries : List Entry}
    (h : ∀ e ∈ entries, e.isLog = true → e.info = true ∧ removes e = true) :
    total (prune now retention removes entries) ≤ maxSpoolBytes := by
  have hlogs : ∀ e ∈ entries.filter (·.isLog), e.info = true ∧ removes e = true := by
    simpa using h
  unfold prune
  generalize entries.filter (·.isLog) = logs at hlogs ⊢
  dsimp only
  rw [List.filter_eq_nil_iff.mpr fun e he => by simp [hlogs e he], List.nil_append]
  split_ifs with hfits
  · exact hfits
  · have hperm := List.mergeSort_perm (logs.filter fun e => e.info &&
      !decide (retention < now - e.modTime)) fun a b => a.modTime ≤ b.modTime
    refine total_removeOldest (hperm.map Entry.size).sum_nat fun e he => ?_
    exact (hlogs e (List.mem_of_mem_filter (hperm.mem_iff.mp he))).2

open Capture

/-- In a history of a log every run without an error copies exactly what is new in the
    file exactly if every run finds the file as its offset says. And a run that can read
    the spool and removes what it wants to leaves at most 256 MiB of logs. -/
theorem capture_exact_iff (history : List Event) :
    ((∀ e earlier, e :: earlier <:+ history → (after earlier).Exact e) ↔
      ∀ e earlier, e :: earlier <:+ history → (after earlier).Meets e) ∧
    ∀ now retention removes entries,
      (∀ e ∈ entries, e.isLog = true → e.info = true ∧ removes e = true) →
      total (prune now retention removes entries) ≤ maxSpoolBytes := by
  refine ⟨Lib.steps_iff (I := fun s => ∃ d, s.Leading d) ⟨0, Nat.le_refl 0, rfl⟩ ?_ ?_ history,
    fun _ _ _ _ => total_prune⟩
  · rintro s e ⟨d, hd⟩
    exact hd.exact_iff e
  · rintro s e ⟨d, hd⟩
    exact hd.step

/-- A log of two bytes is captured; it grows by three, and the collector is started anew;
    then the log is rotated and the new one has a byte. -/
def captured : List Event :=
  [.collect true true, .append 1, .rotate, .collect true true, .restart, .append 3,
    .collect true true, .append 2]

/-- Three logs of 200 MiB, the last of them too old. -/
def fullSpool : List Entry :=
  [⟨"a.log", false, true, 200 * 2 ^ 20, 80⟩, ⟨"b.log", false, true, 200 * 2 ^ 20, 90⟩,
    ⟨"c.log", false, true, 200 * 2 ^ 20, 10⟩]

theorem capture_exact_iff_rotated :
    (∀ e earlier, e :: earlier <:+ captured → (after earlier).Exact e) ∧
    (after captured).copied = {0} ∧
    maxSpoolBytes < total fullSpool ∧
    total (prune 100 50 (fun _ => true) fullSpool) ≤ maxSpoolBytes := by
  refine ⟨(capture_exact_iff captured).1.mpr fun e earlier h => ?_, by decide +kernel,
    by decide +kernel, (capture_exact_iff captured).2 _ _ _ _ (by decide +kernel)⟩
  simp only [captured, List.suffix_cons_iff, List.suffix_nil, List.cons.injEq, reduceCtorEq,
    or_false] at h
  rcases h with ⟨rfl, rfl⟩ | ⟨rfl, rfl⟩ | ⟨rfl, rfl⟩ | ⟨rfl, rfl⟩ | ⟨rfl, rfl⟩ | ⟨rfl, rfl⟩ |
    ⟨rfl, rfl⟩ | ⟨rfl, rfl⟩
  all_goals
    unfold Meets
    decide +kernel

/-- A log of two bytes is replaced by another one of two bytes, or cut down to its first
    byte: nothing is copied of the new log, and the first byte is copied again. -/
theorem capture_loses_and_repeats :
    ¬ (Capture.after [.append 2, .rotate, .collect true true, .append 2]).Exact
      (.collect true true) ∧
    ¬ (Capture.after [.truncate 1, .collect true true, .append 2]).Exact (.collect true true) :=
  ⟨fun h => absurd (h _ rfl) (by decide +kernel), fun h => absurd (h _ rfl) (by decide +kernel)⟩

end Kikimora.Toad.Diagnostics

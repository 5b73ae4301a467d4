/-
Faults taken one after another.

The limit leaves room for so many more faults (`Diagnostics.room`).  Of the faults that come, those
that there is room for are kept in order, and the others are counted: `addAll_faults` and
`addAll_suppressed`.
-/
import Lexis.Diagnostic.Diagnostics

namespace Lexis.Diagnostics

/-- How many more faults are kept. -/
def room (d : Diagnostics) : Nat :=
  (d.limit - d.faults.size).toNat

/-- Takes faults one after another. -/
def addAll (d : Diagnostics) (fs : List Fault) : Diagnostics :=
  fs.foldl add d

/-- The diagnostics without their warnings. -/
def withoutWarnings (d : Diagnostics) : Diagnostics :=
  { d with warnings := #[] }

@[simp] theorem addAll_nil (d : Diagnostics) : d.addAll [] = d := rfl

@[simp] theorem addAll_cons (d : Diagnostics) (f : Fault) (fs : List Fault) :
    d.addAll (f :: fs) = (d.add f).addAll fs := rfl

theorem addAll_append (d : Diagnostics) (fs gs : List Fault) :
    d.addAll (fs ++ gs) = (d.addAll fs).addAll gs := List.foldl_append

theorem isFull_iff (d : Diagnostics) : d.isFull = true ↔ d.room = 0 := by
  rw [isFull, decide_eq_true_eq, room]
  omega

theorem add_of_room_eq_zero {d : Diagnostics} (h : d.room = 0) (f : Fault) :
    d.add f = { d with suppressed := d.suppressed + 1 } :=
  if_pos (d.isFull_iff.mpr h)

theorem add_of_room_ne_zero {d : Diagnostics} (h : d.room ≠ 0) (f : Fault) :
    d.add f = { d with faults := d.faults.push f } :=
  if_neg fun hf => h (d.isFull_iff.mp hf)

theorem room_add (d : Diagnostics) (f : Fault) : (d.add f).room = d.room - 1 := by
  by_cases h : d.room = 0
  · rw [add_of_room_eq_zero h]
    show d.room = d.room - 1
    omega
  · rw [add_of_room_ne_zero h]
    simp only [room, Array.size_push] at h ⊢
    omega

/-- The faults that there is room for are kept, in order. -/
theorem addAll_faults (d : Diagnostics) (fs : List Fault) :
    (d.addAll fs).faults.toList = d.faults.toList ++ fs.take d.room := by
  induction fs generalizing d with
  | nil => simp
  | cons f fs ih =>
    -- a fault that is kept takes one place of the room
    rw [addAll_cons, ih, room_add]
    by_cases h : d.room = 0
    · simp [add_of_room_eq_zero h, h]
    · obtain ⟨n, hn⟩ := Nat.exists_eq_add_one_of_ne_zero h
      simp [add_of_room_ne_zero h, hn]

/-- The faults that there is no room for are counted. -/
theorem addAll_suppressed (d : Diagnostics) (fs : List Fault) :
    (d.addAll fs).suppressed = d.suppressed + (fs.length - d.room) := by
  induction fs generalizing d with
  | nil => simp
  | cons f fs ih =>
    rw [addAll_cons, ih, room_add, List.length_cons]
    by_cases h : d.room = 0
    · rw [add_of_room_eq_zero h, h]
      show d.suppressed + 1 + _ = _
      omega
    · rw [add_of_room_ne_zero h]
      show d.suppressed + _ = _
      omega

/-- Every fault counts, kept or not. -/
theorem addAll_errorCount (d : Diagnostics) (fs : List Fault) :
    (d.addAll fs).errorCount = d.errorCount + fs.length := by
  rw [errorCount, ← Array.length_toList, addAll_faults, addAll_suppressed, List.length_append,
    List.length_take, Array.length_toList, errorCount]
  omega

theorem add_warnings (d : Diagnostics) (f : Fault) : (d.add f).warnings = d.warnings := by
  rw [add]
  split
  · rfl
  · rfl

/-- Warnings play no part in what becomes of a fault. -/
theorem withoutWarnings_addAll (d : Diagnostics) (fs : List Fault) :
    (d.addAll fs).withoutWarnings = d.withoutWarnings.addAll fs := by
  induction fs generalizing d with
  | nil => rfl
  | cons f fs ih =>
    rw [addAll_cons, addAll_cons, ih]
    congr 1
    by_cases h : d.room = 0
    · rw [add_of_room_eq_zero h, add_of_room_eq_zero (d := d.withoutWarnings) h]
      rfl
    · rw [add_of_room_ne_zero h, add_of_room_ne_zero (d := d.withoutWarnings) h]
      rfl

end Lexis.Diagnostics

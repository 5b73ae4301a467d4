/-
Lines of what is shown.

Texts that are shown one below the other have the lines of each of them, without their control
sequences, so that the lines that read alike are counted text by text (`lineCount_join_shown`).  A
text of one line without an escape character counts as itself (`shownCount_of_oneLine`).
-/
import Lexis.Proofs.Command.Shown
import Lexis.Proofs.Text.Lines

namespace Lexis

open Text

namespace Text.ControlSequence

theorem mem_of_mem_strip {c : Char} {s : List Char} (h : c ∈ strip s) : c ∈ s := by
  induction s using strip_induction with
  | nil => rwa [strip_nil] at h
  | sequence s t hs ih =>
    rw [strip_of_behind? hs] at h
    exact (behind?_suffix hs).subset (ih h)
  | cons d r hs ih =>
    rw [strip_cons_of_behind? hs] at h
    exact List.mem_cons.mpr ((List.mem_cons.mp h).imp_right ih)

/-- The lines of a text without its control sequences are its lines without theirs. -/
theorem splitOn_strip (s : List Char) :
    (strip s).splitOn '\n' = (s.splitOn '\n').map strip := by
  induction hn : s.length using Nat.strongRecOn generalizing s with
  | ind n ih =>
    by_cases hs : '\n' ∈ s
    · obtain ⟨a, t, rfl⟩ := List.append_of_mem hs
      rw [List.length_append, List.length_cons] at hn
      rw [strip_append_newline, List.splitOn_append_cons_self, List.splitOn_append_cons_self,
        ih a.length (by omega) a rfl, ih t.length (by omega) t rfl, List.map_append]
    · rw [splitOn_newline_of_notMem hs,
        splitOn_newline_of_notMem fun h => hs (mem_of_mem_strip h)]
      rfl

end Text.ControlSequence

/-- Is a text one line without an escape character? -/
def OneLine (s : List Char) : Prop :=
  '\n' ∉ s ∧ ControlSequence.escape ∉ s

instance (s : List Char) : Decidable (OneLine s) :=
  inferInstanceAs (Decidable (_ ∧ _))

theorem oneLine_append {s t : List Char} : OneLine (s ++ t) ↔ OneLine s ∧ OneLine t := by
  simp only [OneLine, List.mem_append, not_or]
  tauto

theorem not_isPrintable_newline : isPrintable '\n' = false := by decide +kernel

theorem Text.IsPrintable.oneLine {s : List Char} (h : IsPrintable s) : OneLine s :=
  ⟨h.notMem not_isPrintable_newline, h.notMem Command.not_isPrintable_escape⟩

theorem Text.IsAscii.oneLine {s : List Char} (h : IsAscii s) : OneLine s :=
  h.isPrintable.oneLine

namespace Command

/-- How many lines of a text read `w`. -/
def lineCount (w : List Char) (text : String) : Nat :=
  (text.toList.splitOn '\n').count w

/-- How many lines read `w` where a text is shown. -/
def shownCount (w : List Char) (text : String) : Nat :=
  ((text.toList.splitOn '\n').map ControlSequence.strip).count w

theorem lineCount_shown_append (w : List Char) (text rest : String) :
    lineCount w (shown text ++ rest) = shownCount w text + lineCount w rest := by
  have htext : (shown text ++ rest).toList =
      ControlSequence.strip text.toList ++ '\n' :: rest.toList := by
    simp [shown]
  rw [lineCount, htext, List.splitOn_append_cons_self, List.count_append,
    ControlSequence.splitOn_strip]
  rfl

/-- **The lines of what is shown are counted text by text.** -/
theorem lineCount_join_shown {w : List Char} (hw : w ≠ []) (texts : List String) :
    lineCount w (String.join (texts.map shown)) = (texts.map (shownCount w)).sum := by
  induction texts with
  | nil =>
    -- what is empty has one empty line
    exact List.count_eq_zero.mpr (by simpa [lineCount] using hw)
  | cons text texts ih =>
    rw [List.map_cons, String.join_cons, lineCount_shown_append, ih, List.map_cons, List.sum_cons]

theorem shownCount_append_newline (w : List Char) (s t : String) :
    shownCount w (s ++ "\n" ++ t) = shownCount w s + shownCount w t := by
  have htext : (s ++ "\n" ++ t).toList = s.toList ++ '\n' :: t.toList := by simp
  rw [shownCount, htext, List.splitOn_append_cons_self, List.map_append, List.count_append]
  rfl

theorem shownCount_of_oneLine {text : String} (h : OneLine text.toList) (w : List Char) :
    shownCount w text = if text.toList = w then 1 else 0 := by
  rw [shownCount, splitOn_newline_of_notMem h.1, List.map_singleton,
    ControlSequence.strip_of_notMem h.2, List.count_singleton]
  simp

/-- One line is not the other where their last characters are not the same. -/
theorem shownCount_eq_zero {text : String} {w : List Char} (h : OneLine text.toList)
    (hlast : text.toList.getLast? ≠ w.getLast?) : shownCount w text = 0 := by
  rw [shownCount_of_oneLine h, if_neg]
  rintro rfl
  exact hlast rfl

end Command

end Lexis

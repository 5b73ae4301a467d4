/-
Lines of a text.

A text is cut into lines at its line feeds, which are the only characters that end one.
`lastLine` is what follows the last of them.  The line that a text ends on, cut out of a longer
text, begins with it: `line_of_append`.
-/
import Mathlib.Algebra.GroupWithZero.Nat
import Mathlib.Data.List.Induction
import Mathlib.Data.List.TakeWhile

namespace Lexis

/-- What follows the last line feed of a text, or all of it where there is none. -/
def lastLine (t : List Char) : List Char :=
  (t.reverse.takeWhile (· ≠ '\n')).reverse

theorem forall_ne_newline {t : List Char} (h : '\n' ∉ t) :
    ∀ c ∈ t, decide (c ≠ '\n') = true := by
  intro c hc
  rw [decide_eq_true_eq]
  rintro rfl
  exact h hc

theorem lastLine_concat (t : List Char) (c : Char) :
    lastLine (t ++ [c]) = if c = '\n' then [] else lastLine t ++ [c] := by
  by_cases hc : c = '\n' <;> simp [lastLine, hc]

theorem lastLine_of_notMem {t : List Char} (h : '\n' ∉ t) : lastLine t = t := by
  have hall := forall_ne_newline (t := t.reverse) (by simpa using h)
  rw [lastLine, List.takeWhile_eq_self_iff.mpr hall, List.reverse_reverse]

/-- A text without line feeds goes on with the last line. -/
theorem lastLine_append_of_notMem (t : List Char) {u : List Char} (h : '\n' ∉ u) :
    lastLine (t ++ u) = lastLine t ++ u := by
  have hall := forall_ne_newline (t := u.reverse) (by simpa using h)
  rw [lastLine, List.reverse_append, List.takeWhile_append_of_pos hall, List.reverse_append,
    List.reverse_reverse, lastLine]

theorem notMem_lastLine (t : List Char) : '\n' ∉ lastLine t := by
  intro h
  simpa using List.mem_takeWhile_imp (List.mem_reverse.mp h)

theorem lastLine_suffix (t : List Char) : lastLine t <:+ t := by
  have h := List.takeWhile_prefix (fun c : Char => decide (c ≠ '\n')) (l := t.reverse)
  simpa [lastLine] using List.reverse_suffix.mpr h

/-- A text with a line feed ends with a line feed and its last line. -/
theorem exists_append_lastLine {t : List Char} (h : '\n' ∈ t) :
    ∃ a, t = a ++ '\n' :: lastLine t := by
  -- from the end: a character ends the last line or lengthens it
  induction t using List.reverseRecOn with
  | nil => cases h
  | append_singleton t c ih =>
    rw [lastLine_concat]
    by_cases hc : c = '\n'
    · exact ⟨t, by simp [hc]⟩
    · obtain ⟨a, ha⟩ := ih (by simpa [Ne.symm hc] using h)
      refine ⟨a, ?_⟩
      conv_lhs => rw [ha]
      simp [hc]

theorem length_splitOn_newline (t : List Char) :
    (t.splitOn '\n').length = t.count '\n' + 1 := by
  induction t with
  | nil => rfl
  | cons c t ih =>
    rw [List.splitOn_cons_eq_if_modifyHead]
    by_cases hc : c = '\n' <;> simp [hc, ih]

theorem head?_splitOn_newline (t : List Char) :
    (t.splitOn '\n')[0]? = some (t.takeWhile (· ≠ '\n')) := by
  induction t with
  | nil => rfl
  | cons c t ih =>
    rw [List.splitOn_cons_eq_if_modifyHead]
    by_cases hc : c = '\n'
    · simp [hc]
    · obtain ⟨l, ls, hl⟩ := List.exists_cons_of_ne_nil (List.splitOn_ne_nil '\n' t)
      rw [hl] at ih ⊢
      simpa [hc] using ih

/-- A text without line feeds is one line. -/
theorem splitOn_newline_of_notMem {t : List Char} (h : '\n' ∉ t) : t.splitOn '\n' = [t] := by
  have hone : (['\n'].intercalate [t]).splitOn '\n' = [t] :=
    List.splitOn_intercalate '\n' (by simpa using h) (List.cons_ne_nil t [])
  rwa [List.intercalate_singleton] at hone

/-- Texts that are set below each other have the lines of all of them. -/
theorem splitOn_newline_intercalate (text : String) (texts : List String) :
    ("\n".intercalate (text :: texts)).toList.splitOn '\n' =
      (text :: texts).flatMap fun t => t.toList.splitOn '\n' := by
  induction texts generalizing text with
  | nil => rw [String.intercalate_singleton, List.flatMap_singleton]
  | cons next texts ih =>
    have hnewline : "\n".toList = ['\n'] := rfl
    rw [String.intercalate_cons_cons, String.toList_append, String.toList_append, hnewline,
      List.append_assoc, List.singleton_append, List.splitOn_append_cons_self, ih]
    rfl

/-- The lines of a text, each with its line feed, are as long as the text and one line feed. -/
theorem sum_length_splitOn_newline (t : List Char) :
    ((t.splitOn '\n').map (·.length + 1)).sum = t.length + 1 := by
  induction t with
  | nil => rfl
  | cons c t ih =>
    rw [List.splitOn_cons_eq_if_modifyHead]
    by_cases hc : c = '\n'
    · simp [hc, ih, Nat.add_comm]
    · obtain ⟨l, ls, hl⟩ := List.exists_cons_of_ne_nil (List.splitOn_ne_nil '\n' t)
      rw [hl, List.map_cons, List.sum_cons] at ih
      rw [hl, if_neg (by simpa using hc), List.modifyHead_cons, List.map_cons, List.sum_cons,
        List.length_cons, List.length_cons]
      omega

/-- Where a text has a line feed, the lines in front of its last one are those of a text of their
own, whatever goes on behind. -/
theorem exists_lines_in_front {t : List Char} (h : '\n' ∈ t) (u : List Char) :
    ∃ a, t = a ++ '\n' :: lastLine t ∧ t.count '\n' = (a.splitOn '\n').length ∧
      (t ++ u).splitOn '\n' = a.splitOn '\n' ++ (lastLine t ++ u).splitOn '\n' := by
  obtain ⟨a, ha⟩ := exists_append_lastLine h
  refine ⟨a, ha, ?_, ?_⟩
  · rw [length_splitOn_newline, ha]
    simp [List.count_eq_zero.mpr (notMem_lastLine t)]
  · conv_lhs => rw [ha]
    rw [List.append_assoc, List.cons_append, List.splitOn_append_cons_self]

/-- The line that a text ends on, cut out of the text that goes on behind it. -/
theorem line_of_append (t u : List Char) :
    ((t ++ u).splitOn '\n')[t.count '\n']? = some (lastLine t ++ u.takeWhile (· ≠ '\n')) := by
  by_cases h : '\n' ∈ t
  · obtain ⟨a, -, hcount, hsplit⟩ := exists_lines_in_front h u
    rw [hsplit, hcount, List.getElem?_append_right le_rfl, Nat.sub_self, head?_splitOn_newline,
      List.takeWhile_append_of_pos (forall_ne_newline (notMem_lastLine t))]
  · rw [List.count_eq_zero.mpr h, head?_splitOn_newline, lastLine_of_notMem h,
      List.takeWhile_append_of_pos (forall_ne_newline h)]

/-- The length of a text is that of the lines in front of its last one, and that of the last. -/
theorem sum_length_lines_in_front (t u : List Char) :
    ((((t ++ u).splitOn '\n').take (t.count '\n')).map (·.length + 1)).sum +
      (lastLine t).length = t.length := by
  by_cases h : '\n' ∈ t
  · obtain ⟨a, ha, hcount, hsplit⟩ := exists_lines_in_front h u
    have hlength := congrArg List.length ha
    rw [List.length_append, List.length_cons] at hlength
    rw [hsplit, hcount, List.take_left, sum_length_splitOn_newline]
    omega
  · rw [List.count_eq_zero.mpr h, lastLine_of_notMem h]
    exact Nat.zero_add _

end Lexis

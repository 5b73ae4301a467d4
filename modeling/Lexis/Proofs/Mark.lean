/-
Places as counts over the text in front of them.

A mark is carried along character by character.  Seen from its end, the text that it went over
gives all of it at once: the offset is raised by the length, the line by the number of line feeds
(`Mark.moveOver_line`), and the column is one behind the last line (`Mark.moveOver_column`).  The
start of the line is where the last line begins (`Mark.moveOver_lineStart`), so that a cursor knows
its line (`Cursor.lineText_moveOver`).

Line and column are what a place is known by, and they go up along a text, first by line and then by
column (`Mark.place_lt_moveOver`).
-/
import Lexis.Cursor
import Lexis.Proofs.Text.Lines
import Mathlib.Data.Prod.Lex

namespace Lexis

namespace Mark

@[simp] theorem moveOver_nil (m : Mark) : m.moveOver [] = m := rfl

@[simp] theorem moveOver_cons (m : Mark) (c : Char) (t : List Char) :
    m.moveOver (c :: t) = (m.after c).moveOver t := rfl

theorem moveOver_append (m : Mark) (t u : List Char) :
    m.moveOver (t ++ u) = (m.moveOver t).moveOver u := List.foldl_append

@[simp] theorem after_offset (m : Mark) (c : Char) : (m.after c).offset = m.offset + 1 := by
  unfold after
  split <;> rfl

@[simp] theorem moveOver_offset (m : Mark) (t : List Char) :
    (m.moveOver t).offset = m.offset + t.length := by
  induction t generalizing m with
  | nil => simp
  | cons c t ih =>
    rw [moveOver_cons, ih, after_offset, List.length_cons]
    omega

/-- Line feeds raise the line. -/
theorem moveOver_line (m : Mark) (t : List Char) :
    (m.moveOver t).line = m.line + t.count '\n' := by
  induction t generalizing m with
  | nil => simp
  | cons c t ih =>
    rw [moveOver_cons, ih, after]
    by_cases hc : c = '\n'
    · simp only [hc, if_true, List.count_cons_self]
      omega
    · simp [hc]

/-- Over a text without line feeds the column goes along. -/
theorem moveOver_column_of_notMem (m : Mark) {t : List Char} (h : '\n' ∉ t) :
    (m.moveOver t).column = m.column + t.length := by
  induction t generalizing m with
  | nil => simp
  | cons c t ih =>
    obtain ⟨hc, ht⟩ := not_or.mp (mt List.mem_cons.mpr h)
    rw [moveOver_cons, ih _ ht, after, if_neg (Ne.symm hc), List.length_cons]
    push_cast
    omega

/-- Over a text without line feeds the line starts where it did. -/
theorem moveOver_lineStart_of_notMem (m : Mark) {t : List Char} (h : '\n' ∉ t) :
    (m.moveOver t).lineStart = m.lineStart := by
  induction t generalizing m with
  | nil => rfl
  | cons c t ih =>
    obtain ⟨hc, ht⟩ := not_or.mp (mt List.mem_cons.mpr h)
    rw [moveOver_cons, ih _ ht, after, if_neg (Ne.symm hc)]

/-- Behind a line feed, whatever was in front of it, a line starts and a text without line feeds
goes along it. -/
theorem moveOver_behind_newline (m : Mark) (a : List Char) {t : List Char} (h : '\n' ∉ t) :
    (m.moveOver (a ++ '\n' :: t)).lineStart = m.offset + a.length + 1 ∧
      (m.moveOver (a ++ '\n' :: t)).column = 1 + t.length := by
  rw [moveOver_append, moveOver_cons, moveOver_lineStart_of_notMem _ h,
    moveOver_column_of_notMem _ h, after, if_pos rfl, moveOver_offset]
  exact ⟨rfl, rfl⟩

/-- Behind a text that began a line, the column is one behind the text's last line. -/
theorem moveOver_column {m : Mark} (h : m.column = 1) (t : List Char) :
    (m.moveOver t).column = 1 + (lastLine t).length := by
  by_cases hn : '\n' ∈ t
  · obtain ⟨a, ha⟩ := exists_append_lastLine hn
    conv_lhs => rw [ha]
    exact (m.moveOver_behind_newline a (notMem_lastLine t)).2
  · rw [m.moveOver_column_of_notMem hn, h, lastLine_of_notMem hn]

/-- The line starts where the last line of the text begins. -/
theorem moveOver_lineStart {m : Mark} (h : m.lineStart = m.offset) (t : List Char) :
    (m.moveOver t).lineStart = m.offset + t.length - (lastLine t).length := by
  by_cases hn : '\n' ∈ t
  · obtain ⟨a, ha⟩ := exists_append_lastLine hn
    have hlength := congrArg List.length ha
    rw [List.length_append, List.length_cons] at hlength
    have hstart : (m.moveOver t).lineStart = m.offset + a.length + 1 := by
      rw [ha]
      exact (m.moveOver_behind_newline a (notMem_lastLine t)).1
    omega
  · rw [m.moveOver_lineStart_of_notMem hn, h, lastLine_of_notMem hn]
    omega

/-- The line and the column, in the order of reading. -/
def place (m : Mark) : ℤ ×ₗ ℤ :=
  toLex (m.line, m.column)

/-- The line and the column behind a text depend on those in front of it only. -/
theorem place_moveOver_congr {m n : Mark} (h : m.place = n.place) (t : List Char) :
    (m.moveOver t).place = (n.moveOver t).place := by
  induction t generalizing m n with
  | nil => exact h
  | cons c t ih =>
    obtain ⟨hline, hcolumn⟩ : m.line = n.line ∧ m.column = n.column := Prod.ext_iff.mp h
    have hc : (m.after c).place = (n.after c).place := by
      rw [place, place, after, after, hline, hcolumn]
      split
      · rfl
      · rfl
    rw [moveOver_cons, moveOver_cons, ih hc]

theorem place_lt_after (m : Mark) (c : Char) : m.place < (m.after c).place := by
  rw [place, place, Prod.Lex.toLex_lt_toLex, after]
  split
  · exact .inl (Int.lt_succ m.line)
  · exact .inr ⟨rfl, Int.lt_succ m.column⟩

theorem place_le_moveOver (m : Mark) (t : List Char) : m.place ≤ (m.moveOver t).place := by
  induction t generalizing m with
  | nil => exact le_rfl
  | cons c t ih => exact (m.place_lt_after c).le.trans (ih (m.after c))

theorem place_lt_moveOver (m : Mark) {t : List Char} (ht : t ≠ []) :
    m.place < (m.moveOver t).place := by
  obtain ⟨c, t, rfl⟩ := List.exists_cons_of_ne_nil ht
  exact (m.place_lt_after c).trans_le ((m.after c).place_le_moveOver t)

end Mark

/-- A cursor behind a text knows the line that the text ends on, as far as the source goes on. -/
theorem Cursor.lineText_moveOver (a r : List Char) (line column : Int) :
    ((start (a ++ r) line column).moveOver a).lineText =
      lastLine a ++ r.takeWhile (· ≠ '\n') := by
  obtain ⟨b, hb⟩ := lastLine_suffix a
  have hlen : b.length + (lastLine a).length = a.length := by
    rw [← List.length_append, hb]
  have hstart : ((start (a ++ r) line column).moveOver a).lineStart = (b.length : Int) := by
    have h : ((⟨0, line, column, 0⟩ : Mark).moveOver a).lineStart =
        0 + a.length - (lastLine a).length := Mark.moveOver_lineStart rfl a
    show ((⟨0, line, column, 0⟩ : Mark).moveOver a).lineStart = _
    omega
  have hdrop : (a ++ r).drop b.length = lastLine a ++ r := by
    conv_lhs => rw [← hb]
    rw [List.append_assoc, List.drop_left]
  rw [lineText, hstart, fromEnd, if_neg (by omega), Int.toNat_natCast]
  show ((a ++ r).drop b.length).takeWhile _ = _
  rw [hdrop, List.takeWhile_append_of_pos (forall_ne_newline (notMem_lastLine a))]

end Lexis

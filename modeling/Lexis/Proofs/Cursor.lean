/-
The four numbers of a cursor.

A cursor starts anywhere, takes one character after the other, and goes back to places that it has
been at.  Through all of it, its offset decides the line, the column and the start of the line: they
are what reading the characters in front of the offset gives (`Cursor.behind`).  Read off a text,
they are counts over it (`Cursor.InStep`).

* `Cursor.inStep_behind` — the four numbers behind a part of the source;
* `Trail.Kept.perform` — one move of the cursor leads to such a place, and gives what it goes over;
* `Trail.run_inStep` — all moves.
-/
import Lexis.Proofs.Mark
import Mathlib.Order.Bounds.Basic

namespace Lexis

namespace Cursor

/-- The characters in front of the cursor. -/
def passed (c : Cursor) : List Char :=
  c.source.take c.offset.toNat

/-- The four numbers of a cursor are in step: the cursor is in a source that was entered at a line
and a column, and the numbers are what can be counted in it. -/
structure InStep (source : List Char) (line column : Int) (c : Cursor) : Prop where
  source_eq : c.source = source
  offset_nonneg : 0 ≤ c.offset
  offset_le_length : c.offset ≤ source.length
  line_eq : c.line = line + c.passed.count '\n'
  /-- On the first line the column goes along from where it was at the start. -/
  on_first : '\n' ∉ c.passed → c.lineStart = 0 ∧ c.column = column + c.offset
  /-- On the others it is counted from the last line feed. -/
  on_later : '\n' ∈ c.passed → c.column = c.offset - c.lineStart + 1 ∧
    ∃ i : ℕ, IsGreatest {j | c.passed[j]? = some '\n'} i ∧ c.lineStart = i + 1
  lineText_eq : (source.splitOn '\n')[(c.line - line).toNat]? = some c.lineText

/-- The cursor behind the first `p` characters of a source that was entered at a line and a
column. -/
def behind (source : List Char) (line column : Int) (p : ℕ) : Cursor :=
  (start source line column).moveOver (source.take p)

variable {source : List Char} {line column : Int} {p : ℕ}

theorem behind_offset (hp : p ≤ source.length) : (behind source line column p).offset = p := by
  show ((⟨0, line, column, 0⟩ : Mark).moveOver (source.take p)).offset = p
  rw [Mark.moveOver_offset, List.length_take, Nat.min_eq_left hp, Int.zero_add]

theorem passed_behind (hp : p ≤ source.length) :
    (behind source line column p).passed = source.take p := by
  rw [passed, behind_offset hp, Int.toNat_natCast]
  rfl

theorem rest_behind (hp : p ≤ source.length) :
    (behind source line column p).rest = source.drop p := by
  rw [rest, behind_offset hp, Int.toNat_natCast]
  rfl

/-- In a text with a line feed in it, the last one stands in front of the last line. -/
theorem isGreatest_newline {a t : List Char} (h : '\n' ∉ t) :
    IsGreatest {j : ℕ | (a ++ '\n' :: t)[j]? = some '\n'} a.length := by
  constructor
  · show (a ++ '\n' :: t)[a.length]? = some '\n'
    rw [List.getElem?_append_right le_rfl, Nat.sub_self]
    rfl
  · intro j hj
    by_contra hlt
    -- behind the line feed there is none
    obtain ⟨k, hk⟩ : ∃ k, j - a.length = k + 1 := ⟨j - a.length - 1, by omega⟩
    have ht : t[k]? = some '\n' := by
      have hj : (a ++ '\n' :: t)[j]? = some '\n' := hj
      rwa [List.getElem?_append_right (by omega), hk, List.getElem?_cons_succ] at hj
    exact h (List.mem_of_getElem? ht)

/-- Behind a part with a line feed in it, the line starts behind the last one, and the column is
counted from there. -/
theorem behind_of_newline (line column : Int) (hp : p ≤ source.length)
    (h : '\n' ∈ source.take p) :
    ∃ i : ℕ, IsGreatest {j | (source.take p)[j]? = some '\n'} i ∧
      (behind source line column p).lineStart = i + 1 ∧
      (behind source line column p).column = p - i := by
  obtain ⟨a, l, ha, hl⟩ : ∃ a l, source.take p = a ++ '\n' :: l ∧ '\n' ∉ l := by
    obtain ⟨a, ha⟩ := exists_append_lastLine h
    exact ⟨a, _, ha, notMem_lastLine _⟩
  have hlength : p = a.length + l.length + 1 := by
    have := congrArg List.length ha
    rw [List.length_take, Nat.min_eq_left hp, List.length_append, List.length_cons] at this
    omega
  obtain ⟨hlineStart, hcolumn⟩ :
      (behind source line column p).lineStart = 0 + a.length + 1 ∧
        (behind source line column p).column = 1 + l.length := by
    rw [behind, ha]
    exact Mark.moveOver_behind_newline ⟨0, line, column, 0⟩ a hl
  refine ⟨a.length, ?_, ?_, ?_⟩
  · rw [ha]
    exact isGreatest_newline hl
  · rw [hlineStart, Int.zero_add]
  · rw [hcolumn]
    omega

theorem behind_line (source : List Char) (line column : Int) (p : ℕ) :
    (behind source line column p).line = line + (source.take p).count '\n' :=
  Mark.moveOver_line _ (source.take p)

/-- The line that the cursor is on is the one of its number. -/
theorem lineText_behind (source : List Char) (line column : Int) (p : ℕ) :
    (source.splitOn '\n')[((behind source line column p).line - line).toNat]? =
      some (behind source line column p).lineText := by
  have hnumber : ((behind source line column p).line - line).toNat =
      (source.take p).count '\n' := by
    rw [behind_line]
    omega
  have hlineText := lineText_moveOver (source.take p) (source.drop p) line column
  have hof := line_of_append (source.take p) (source.drop p)
  rw [List.take_append_drop] at hlineText hof
  rw [hnumber, hof, behind, hlineText]

/-- Reading a part of the source from its start keeps the numbers in step. -/
theorem inStep_behind (hp : p ≤ source.length) :
    (behind source line column p).InStep source line column where
  source_eq := rfl
  offset_nonneg := by rw [behind_offset hp]; exact Int.natCast_nonneg p
  offset_le_length := by rw [behind_offset hp]; exact Int.ofNat_le.mpr hp
  line_eq := by
    rw [passed_behind hp]
    exact behind_line source line column p
  on_first h := by
    rw [passed_behind hp] at h
    have hcolumn : (behind source line column p).column = column + (source.take p).length :=
      Mark.moveOver_column_of_notMem _ h
    rw [hcolumn, behind_offset hp, List.length_take, Nat.min_eq_left hp]
    exact ⟨Mark.moveOver_lineStart_of_notMem _ h, rfl⟩
  on_later h := by
    rw [passed_behind hp] at h ⊢
    obtain ⟨i, hi, hlineStart, hcolumn⟩ := behind_of_newline line column hp h
    refine ⟨?_, i, hi, hlineStart⟩
    rw [hcolumn, hlineStart, behind_offset hp]
    omega
  lineText_eq := lineText_behind source line column p

/-- A step goes over the next character, if there is one. -/
theorem advance_behind (hp : p ≤ source.length) :
    (behind source line column p).advance 1 =
      .ok ((source.drop p).take 1, behind source line column (min (p + 1) source.length)) := by
  have hoffset : ¬(behind source line column p).offset < 0 := by
    rw [behind_offset hp]
    omega
  have htake : source.take (min (p + 1) source.length) =
      source.take p ++ (source.drop p).take 1 := by
    rw [← List.take_add, ← List.take_take, List.take_length]
  rw [advance, fromEnd, if_neg hoffset, if_neg fun h => hoffset h.2, upcoming, if_neg hoffset,
    rest_behind hp]
  simp only [behind, htake, moveOver, Mark.moveOver_append]

end Cursor

/-! ### Moves of a cursor -/

/-- A move of a cursor. -/
inductive Move where
  /-- Takes a character. -/
  | advance
  /-- Keeps the place of the cursor. -/
  | save (name : String)
  /-- Puts the cursor at a place that was kept. -/
  | restore (name : String)
  deriving DecidableEq, Repr

/-- A cursor and the places that were kept on its way. -/
structure Trail where
  cursor : Cursor
  marks : List (String × Mark) := []
  deriving DecidableEq, Repr

namespace Trail

/-- Carries out a move, and gives the characters taken by it. -/
def perform (t : Trail) : Move → Except CursorError (List Char × Trail)
  | .advance => do
    let (text, c) ← t.cursor.advance 1
    return (text, { t with cursor := c })
  | .save name => return ([], { t with marks := (name, t.cursor.toMark) :: t.marks })
  | .restore name =>
    match t.marks.lookup name with
    | none => return ([], t)
    | some m => return ([], { t with cursor := t.cursor.restore m })

/-- Carries out moves in order, and gives the characters taken by each. -/
def run : Trail → List Move → Except CursorError (List (List Char) × Trail)
  | t, [] => return ([], t)
  | t, move :: moves => do
    let (text, u) ← t.perform move
    let (texts, v) ← u.run moves
    return (text :: texts, v)

/-- A cursor at the start of a source, with nothing kept. -/
def start (source : List Char) (line column : Int) : Trail where
  cursor := .start source line column

/-- The cursor and what was kept are behind parts of the source. -/
structure Kept (source : List Char) (line column : Int) (t : Trail) : Prop where
  cursor : ∃ p ≤ source.length, t.cursor = .behind source line column p
  marks : ∀ m ∈ t.marks, ∃ p ≤ source.length, m.2 = (Cursor.behind source line column p).toMark

/-- From one trail to another the cursor has taken `n` characters, or as many as there were, and
`text` is those. -/
structure GoesOver (source : List Char) (n : ℕ) (t u : Trail) (text : List Char) : Prop where
  offset_eq : u.cursor.offset = min (t.cursor.offset + n) source.length
  text_eq : text = (source.take u.cursor.offset.toNat).drop t.cursor.offset.toNat

namespace Kept

variable {source : List Char} {line column : Int} {t : Trail}

theorem start (source : List Char) (line column : Int) :
    (Trail.start source line column).Kept source line column where
  cursor := ⟨0, Nat.zero_le _, rfl⟩
  marks := by
    intro m hm
    cases hm

theorem inStep (h : t.Kept source line column) : t.cursor.InStep source line column := by
  obtain ⟨p, hp, hcursor⟩ := h.cursor
  rw [hcursor]
  exact Cursor.inStep_behind hp

/-- Nothing is gone over where the cursor stays. -/
theorem goesOver_nil (h : t.Kept source line column) {u : Trail} (hu : u.cursor = t.cursor) :
    GoesOver source 0 t u [] := by
  have hle := h.inStep.offset_le_length
  refine ⟨?_, ?_⟩
  · rw [hu]
    omega
  · rw [hu]
    exact (List.drop_eq_nil_of_le (List.length_take_le _ _)).symm

/-- One step takes the next character. -/
theorem advance (h : t.Kept source line column) :
    ∃ text u, t.perform .advance = .ok (text, u) ∧ u.Kept source line column ∧
      GoesOver source 1 t u text := by
  obtain ⟨p, hp, hcursor⟩ := h.cursor
  have hq : min (p + 1) source.length ≤ source.length := Nat.min_le_right _ _
  refine ⟨(source.drop p).take 1,
    { t with cursor := .behind source line column (min (p + 1) source.length) }, ?_, ?_, ?_, ?_⟩
  · rw [perform, hcursor, Cursor.advance_behind hp]
    rfl
  · exact ⟨⟨_, hq, rfl⟩, h.marks⟩
  · rw [hcursor, Cursor.behind_offset hp, Cursor.behind_offset hq]
    omega
  · rw [hcursor, Cursor.behind_offset hp, Cursor.behind_offset hq, Int.toNat_natCast,
      Int.toNat_natCast, ← List.take_take, List.take_length, List.drop_take,
      Nat.add_sub_cancel_left]

/-- A place that was kept is behind a part of the source, and so is a cursor that goes back to
it. -/
theorem restore (h : t.Kept source line column) {m : Mark} {name : String}
    (hm : t.marks.lookup name = some m) :
    { t with cursor := t.cursor.restore m : Trail }.Kept source line column := by
  obtain ⟨l₁, l₂, hl, -⟩ := List.lookup_eq_some_iff.mp hm
  obtain ⟨p, hp, hmark⟩ := h.marks (name, m) (by rw [hl]; simp)
  refine ⟨⟨p, hp, ?_⟩, h.marks⟩
  rw [Cursor.restore, Cursor.mk.injEq]
  exact ⟨hmark, h.inStep.source_eq⟩

/-- A move goes through, keeps to the parts of the source, and goes back only where it is told
to. -/
theorem perform (h : t.Kept source line column) (move : Move) :
    ∃ text u, t.perform move = .ok (text, u) ∧ u.Kept source line column ∧
      ((∀ name, move ≠ .restore name) → GoesOver source (List.count .advance [move]) t u text) := by
  match move with
  | .advance =>
    obtain ⟨text, u, hu, hkept, hover⟩ := h.advance
    exact ⟨text, u, hu, hkept, fun _ => hover⟩
  | .save name =>
    refine ⟨[], _, rfl, ⟨h.cursor, ?_⟩, fun _ => h.goesOver_nil rfl⟩
    obtain ⟨p, hp, hcursor⟩ := h.cursor
    exact List.forall_mem_cons.mpr ⟨⟨p, hp, congrArg Cursor.toMark hcursor⟩, h.marks⟩
  | .restore name =>
    cases hm : t.marks.lookup name with
    | none =>
      refine ⟨[], t, ?_, h, fun hr => absurd rfl (hr name)⟩
      rw [Trail.perform, hm]
      rfl
    | some m =>
      refine ⟨[], _, ?_, h.restore hm, fun hr => absurd rfl (hr name)⟩
      rw [Trail.perform, hm]
      rfl

end Kept

/-- The part of a source between two offsets, cut at one between them. -/
theorem slice_append (source : List Char) {p q r : ℕ} (hpq : p ≤ q) (hqr : q ≤ r) :
    (source.take q).drop p ++ (source.take r).drop q = (source.take r).drop p := by
  have hq : source.take q = (source.take r).take q := by rw [List.take_take, Nat.min_eq_left hqr]
  have hdrop : (source.take r).drop q = ((source.take r).drop p).drop (q - p) := by
    rw [List.drop_drop, Nat.add_sub_cancel' hpq]
  rw [hq, List.drop_take, hdrop, List.take_append_drop]

/-- What is gone over in two parts is both of them. -/
theorem GoesOver.trans {source : List Char} {n k : ℕ} {t u v : Trail} {a b : List Char}
    (ht : t.cursor.offset ≤ source.length) (h : GoesOver source n t u a)
    (h' : GoesOver source k u v b) : GoesOver source (n + k) t v (a ++ b) := by
  have hu := h.offset_eq
  have hv := h'.offset_eq
  refine ⟨by omega, ?_⟩
  rw [h.text_eq, h'.text_eq]
  exact slice_append source (by omega) (by omega)

/-- Moves go through as each of them does. -/
theorem Kept.run {source : List Char} {line column : Int} {t : Trail}
    (h : t.Kept source line column) (moves : List Move) :
    ∃ texts u, t.run moves = .ok (texts, u) ∧ u.Kept source line column ∧
      ((∀ name, .restore name ∉ moves) →
        GoesOver source (moves.count .advance) t u texts.flatten) := by
  induction moves generalizing t with
  | nil => exact ⟨[], t, rfl, h, fun _ => h.goesOver_nil rfl⟩
  | cons move moves ih =>
    obtain ⟨text, u, hu, hkept, hover⟩ := h.perform move
    obtain ⟨texts, v, hv, hkept', hover'⟩ := ih hkept
    refine ⟨text :: texts, v, ?_, hkept', ?_⟩
    · rw [Trail.run, hu]
      show (u.run moves >>= fun r => pure (text :: r.1, r.2)) = _
      rw [hv]
      rfl
    · intro hr
      have hfirst := hover fun name hname => hr name (hname ▸ List.mem_cons_self)
      have hothers := hover' fun name hname => hr name (List.mem_cons_of_mem move hname)
      rw [List.flatten_cons, ← List.singleton_append, List.count_append]
      exact hfirst.trans h.inStep.offset_le_length hothers

/-- **Offset, line, column and start of the line stay in step**: a cursor that starts at a line and
a column takes characters and goes back to places that it has been at, as often and in whatever
order, without fail.  After each of these moves, its numbers are what can be counted in front of it,
its line is the one of that number, and the characters that it takes from there on without going
back are those of the source up to where it gets. -/
theorem run_inStep (source : List Char) (line column : Int) (moves : List Move) :
    ∃ texts t, (Trail.start source line column).run moves = .ok (texts, t) ∧
      t.cursor.InStep source line column ∧
      ∀ ahead : List Move, (∀ name, .restore name ∉ ahead) →
        ∃ texts u, t.run ahead = .ok (texts, u) ∧ u.cursor.InStep source line column ∧
          GoesOver source (ahead.count .advance) t u texts.flatten := by
  obtain ⟨texts, t, ht, hkept, -⟩ := (Kept.start source line column).run moves
  refine ⟨texts, t, ht, hkept.inStep, ?_⟩
  intro ahead hahead
  obtain ⟨texts, u, hu, hkept', hover⟩ := hkept.run ahead
  exact ⟨texts, u, hu, hkept'.inStep, hover hahead⟩

end Trail

end Lexis

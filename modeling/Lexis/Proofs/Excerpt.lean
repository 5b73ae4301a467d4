/-
What a fault shows of its source.

A fault of a stray character is printed with the line that it stands on, set in by four spaces, and
with a caret below the character.  The place of the caret comes from the column, and the line from
the start of the line that the cursor remembers, so that both are right as long as offset, column
and start of the line are in step (`Mark.Reached`).

* `Fault.PointsAt.lines_print` — the lines of the printed form, and what is above the caret;
* `Lexer.Reads.perform` — a request keeps the cursor in step and the faults to the point;
* `faults_pointsAt_run` — the faults after any requests.
-/
import Lexis.Proofs.Accounts
import Lexis.Proofs.Lexer.Next
import Lexis.Proofs.Lookahead
import Lexis.Proofs.Position
import Lexis.Proofs.Session.Invariant

namespace Lexis

/-! ### The printed form -/

/-- A line as it is set in under a headline. -/
def indented (line : List Char) : List Char :=
  List.replicate 4 ' ' ++ line

/-- A line with a caret behind `k` spaces. -/
def caretLine (k : Nat) : List Char :=
  List.replicate k ' ' ++ ['^']

namespace Fault

/-- A fault points at a character: it blames the character that stands behind `k` others on the line
behind the first `n` lines of the source, and it quotes that line. -/
structure PointsAt (source : List Char) (f : Fault) (n k : Nat) (quote : List Char) (c : Char) :
    Prop where
  cause : f.cause = .invalidCharacter c
  location : ∃ filename, f.location = some ⟨filename, n + 1, k + 1⟩
  sourceLine : f.sourceLine = some (String.ofList quote)
  line : (source.splitOn '\n')[n]? = some quote
  no_newline : '\n' ∉ quote
  character : quote[k]? = some c

/-- A fault points at some character of the source. -/
def Points (source : List Char) (f : Fault) : Prop :=
  ∃ n k line c, f.PointsAt source n k line c

namespace PointsAt

variable {source : List Char} {f : Fault} {n k : Nat} {line : List Char} {c : Char}

theorem excerpt (h : f.PointsAt source n k line c) :
    f.excerpt = [String.ofList (indented line), String.ofList (caretLine (4 + k))] := by
  obtain ⟨filename, hlocation⟩ := h.location
  have hindent : "    " ++ String.ofList line = String.ofList (indented line) := by
    rw [indented, String.ofList_append]
    rfl
  have hspaces : (4 + ((k : Int) + 1) - 1).toNat = 4 + k := by omega
  have hcolumn : (0 : Int) < k + 1 := by omega
  rw [Fault.excerpt, h.sourceLine, hlocation]
  simp only [if_pos hcolumn, hindent, caret, hspaces, caretLine]

/-- The hint is one line. -/
theorem hint (h : f.PointsAt source n k line c) :
    f.hintLine.flatMap (fun s => s.toList.splitOn '\n') = f.hintLine.map String.toList := by
  rw [hintLine, h.cause]
  by_cases hc : c = '&'
  · subst hc
    rfl
  · rw [Cause.hint?, if_neg hc]
    rfl

theorem print_eq (h : f.PointsAt source n k line c) :
    f.print = "\n".intercalate (f.headline :: String.ofList (indented line) ::
      String.ofList (caretLine (4 + k)) :: f.hintLine) := by
  have hexcerpt := h.excerpt
  rw [Fault.print, h.cause]
  simp only [hexcerpt, List.cons_append, List.nil_append]

/-- Behind the headline come the source line, the caret line and the hint. -/
theorem lines_print (h : f.PointsAt source n k line c) :
    f.print.toList.splitOn '\n' =
      f.headline.toList.splitOn '\n' ++
        ([indented line, caretLine (4 + k)] ++ f.hintLine.map String.toList) := by
  have hindented : '\n' ∉ indented line := by simpa [indented] using h.no_newline
  have hcaret : '\n' ∉ caretLine (4 + k) := by simp [caretLine]
  rw [h.print_eq, splitOn_newline_intercalate, List.flatMap_cons, List.flatMap_cons,
    List.flatMap_cons, h.hint, String.toList_ofList, String.toList_ofList,
    splitOn_newline_of_notMem hindented, splitOn_newline_of_notMem hcaret]
  rfl

/-- The caret is below the character. -/
theorem above_caret (h : f.PointsAt source n k line c) : (indented line)[4 + k]? = some c := by
  rw [indented, List.getElem?_append_right (by simp), List.length_replicate,
    Nat.add_sub_cancel_left]
  exact h.character

end PointsAt

end Fault

/-! ### Cursors in step -/

/-- A mark that reading the source leads to. -/
def Mark.Reached (source : List Char) (m : Mark) : Prop :=
  ∃ a r, source = a ++ r ∧ m = placeBehind a

/-- A lexer at a place that reading the source leads to, with faults that point at characters. -/
structure Lexer.Reads (source : List Char) (x : Lexer) : Prop where
  cursor : x.cursor.source = source
  mark : x.cursor.toMark.Reached source
  faults : ∀ f ∈ x.diagnostics.faults.toList, f.Points source

namespace Lexer.Reads

variable {source : List Char} {x : Lexer}

theorem ofSource (source : String) (filename : Option String) (options : Options) :
    (Lexer.ofSource source filename options).Reads source.toList where
  cursor := rfl
  mark := ⟨[], source.toList, rfl, rfl⟩
  faults := by
    intro f hf
    cases hf

/-- The cursor is behind what has been read, and the rest is left. -/
theorem exists_eq (h : x.Reads source) :
    ∃ a, source = a ++ x.rest ∧ x.cursor = (Cursor.start source).moveOver a := by
  obtain ⟨a, r, rfl, hm⟩ := h.mark
  have hcursor : x.cursor = (Cursor.start (a ++ r)).moveOver a := by
    rw [Cursor.moveOver, Cursor.mk.injEq]
    exact ⟨hm, h.cursor⟩
  have hoffset : x.cursor.offset.toNat = a.length := by
    rw [hm, placeBehind_offset, Int.toNat_natCast]
  refine ⟨a, ?_, hcursor⟩
  rw [Lexer.rest, Cursor.rest, h.cursor, hoffset, List.drop_left]

theorem offset (h : x.Reads source) : 0 ≤ x.cursor.offset := by
  obtain ⟨a, r, -, hm⟩ := h.mark
  rw [hm, placeBehind_offset]
  exact Int.natCast_nonneg a.length

theorem reached_moveOver (h : x.Reads source) {t : List Char} (ht : t <+: x.rest) :
    (x.cursor.toMark.moveOver t).Reached source := by
  obtain ⟨a, hsource, hcursor⟩ := h.exists_eq
  obtain ⟨r, hr⟩ := ht
  refine ⟨a ++ t, r, ?_, ?_⟩
  · rw [List.append_assoc, hr]
    exact hsource
  · rw [hcursor, placeBehind, Mark.moveOver_append]
    rfl

theorem moveOver (h : x.Reads source) {t : List Char} (ht : t <+: x.rest) :
    (x.moveOver t).Reads source where
  cursor := h.cursor
  mark := h.reached_moveOver ht
  faults := h.faults

/-- The fault of a character that is next points at it. -/
theorem points_faultAt (h : x.Reads source) {c : Char} {r : List Char} (hr : x.rest = c :: r)
    (hc : c ≠ '\n') : (x.faultAt c).Points source := by
  obtain ⟨a, hsource, hcursor⟩ := h.exists_eq
  rw [hr] at hsource
  have hline : x.cursor.lineText = lastLine a ++ c :: r.takeWhile (· ≠ '\n') := by
    rw [hcursor, hsource, Cursor.lineText_moveOver, List.takeWhile_cons_of_pos (by simpa using hc)]
  -- the line goes on with the character behind what has been read of it
  refine ⟨a.count '\n', (lastLine a).length, x.cursor.lineText, c, rfl, ⟨x.filename, ?_⟩, rfl, ?_,
    ?_, ?_⟩
  · have hplace : x.cursor.line = 1 + a.count '\n' ∧ x.cursor.column = 1 + (lastLine a).length := by
      rw [hcursor]
      exact ⟨Mark.moveOver_line _ a, Mark.moveOver_column rfl a⟩
    rw [faultAt, here, Cursor.location, hplace.1, hplace.2, Int.add_comm 1, Int.add_comm 1]
  · rw [hsource, line_of_append, hline, List.takeWhile_cons_of_pos (by simpa using hc)]
  · rw [Cursor.lineText]
    intro hn
    simpa using List.mem_takeWhile_imp hn
  · rw [hline, List.getElem?_append_right le_rfl, Nat.sub_self]
    rfl

/-- An item that is next leaves one fault at most, and that one points at it. -/
theorem after (h : x.Reads source) {i : Item} (hi : i.text <+: x.rest)
    (hc : ∀ c, i = .invalid c → c ≠ '\n') : (x.after i).Reads source where
  cursor := by
    rw [after_cursor]
    exact h.cursor
  mark := by
    rw [after_cursor]
    exact h.reached_moveOver hi
  faults := by
    intro f hf
    have hfaults := congrArg (fun d => d.faults.toList) (x.after_diagnostics i)
    rw [Diagnostics.addAll_faults] at hfaults
    have hmem : f ∈ x.diagnostics.faults.toList ++
        (x.fault? i).toList.take x.diagnostics.withoutWarnings.room := hfaults ▸ hf
    -- what is kept was there before, or is the fault of the item
    rcases List.mem_append.mp hmem with hmem | hmem
    · exact h.faults f hmem
    · have hfault := Option.mem_toList.mp (List.mem_of_mem_take hmem)
      match i with
      | .trivia t => cases hfault
      | .lexeme l => cases hfault
      | .invalid c =>
        obtain rfl := Option.some.inj hfault
        obtain ⟨r, hr⟩ := hi
        exact h.points_faultAt hr.symm (hc c rfl)

theorem after_of_fits (h : x.Reads source) {i : Item} {r : List Char} (hr : x.rest = i.text ++ r)
    (hi : i.Fits r) : (x.after i).Reads source := by
  refine h.after ⟨r, hr.symm⟩ ?_
  rintro c rfl rfl
  have hspace := Form.not_isSpace_of_mem (f := .stray) hi (List.mem_singleton_self '\n')
  exact absurd hspace (by decide)

/-! ### Requests -/

theorem next (h : x.Reads source) : x.next.2.Reads source := by
  have hx := h.offset
  induction x, hx using rest_induction with
  | nil x hx hr =>
    rw [next_of_rest_nil hr]
    exact h
  | item x hx i hr hi ih =>
    have hafter := h.after_of_fits hr hi
    rw [next_of_fits hr hi]
    cases i.token? x.filename x.cursor.toMark with
    | none =>
      -- trivia: the token is searched for behind it
      exact ih hafter
    | some t => exact hafter

theorem finish (h : x.Reads source) : x.finish.Reads source := by
  have hx := h.offset
  induction x, hx using rest_induction with
  | nil x hx hr =>
    rw [finish_of_rest_nil hr]
    exact h
  | item x hx i hr hi ih =>
    rw [finish_of_fits hr hi]
    exact ih (h.after_of_fits hr hi)

theorem tokenize (h : x.Reads source) : x.tokenize.2.Reads source := by
  have hfinish := h.finish
  rw [tokenize_eq_recordCount]
  exact ⟨hfinish.cursor, hfinish.mark, hfinish.faults⟩

theorem peek (h : x.Reads source) : x.peek.2.Reads source := by
  rw [x.peek_snd]
  exact ⟨h.cursor, h.mark, h.faults⟩

theorem skips (h : x.Reads source) {y : Lexer} (hy : x.Skips y) : y.Reads source := by
  rcases hy with rfl | ⟨t, r, hr, hfits, rfl⟩
  · exact h
  · exact h.after_of_fits (i := .trivia t) hr hfits

theorem scanSymbol (h : x.Reads source) : x.scanSymbol.2.Reads source := by
  rw [Lexer.scanSymbol]
  split
  · rename_i l hl
    obtain ⟨r, hr, hfits⟩ := Lexeme.exists_fits_of_symbol? hl
    exact h.after_of_fits (i := .lexeme l) hr hfits
  · exact h

theorem perform (h : x.Reads source) {request : Step}
    (hm : ∀ m, request = .restore m → m.Reached source) : (x.perform request).2.Reads source := by
  match request with
  | .next => exact h.next
  | .peek => exact h.peek
  | .tokenize => exact h.tokenize
  | .skipSpaces => exact h.skips x.skips_skipSpaces
  | .skipComment => exact h.skips x.skips_skipComment
  | .scanInteger => exact h.moveOver (List.takeWhile_prefix _)
  | .scanWord => exact h.moveOver (List.takeWhile_prefix _)
  | .scanSymbol =>
    rw [perform_scanSymbol]
    exact h.scanSymbol
  | .advance n => exact h.moveOver (List.take_prefix n x.rest)
  | .restore m => exact ⟨h.cursor, hm m rfl, h.faults⟩
  | .lineText | .faults | .warnings | .report => exact h
  | .clear =>
    refine ⟨h.cursor, h.mark, ?_⟩
    intro f hf
    cases hf
  | .summary =>
    rw [perform_summary_snd]
    exact h
  | .setStrict on => exact ⟨h.cursor, h.mark, h.faults⟩
  | .setLimit limit => exact ⟨h.cursor, h.mark, h.faults⟩
  | .setFilename filename => exact ⟨h.cursor, h.mark, h.faults⟩

end Lexer.Reads

/-- What is known of a lexer that reads a source is kept up by requests. -/
theorem Session.invariant_reads (source : List Char) :
    Session.Invariant (Lexer.Reads source) (Mark.Reached source) where
  withoutLog h := ⟨h.cursor, h.mark, h.faults⟩
  perform h hm := h.perform hm
  mark h := h.mark

/-- **Every fault points at its character**: after any requests, among them the restoring of places
that the lexer has been at, a fault that is kept quotes the line of the source that its character
stands on, and in the printed form the line of the caret follows the quoted one directly, with the
caret below the character. -/
theorem faults_pointsAt_run (source : String) (filename : Option String) (options : Options)
    (actions : List Action) (h : ∀ m, .step (.restore m) ∈ actions → m.Reached source.toList) :
    ∀ x ∈ ((Session.ofLexer (.ofSource source filename options)).run actions).2.lexers,
      ∀ f ∈ x.diagnostics.faults.toList, ∃ n k line c, f.PointsAt source.toList n k line c ∧
        f.print.toList.splitOn '\n' =
          f.headline.toList.splitOn '\n' ++
            ([indented line, caretLine (4 + k)] ++ f.hintLine.map String.toList) ∧
        (indented line)[4 + k]? = some c := by
  intro x hx f hf
  have hstart : (Session.ofLexer (.ofSource source filename options)).Holds
      (Lexer.Reads source.toList) (Mark.Reached source.toList) := by
    refine ⟨?_, fun m hm => by cases hm⟩
    intro y hy
    obtain rfl := List.mem_singleton.mp hy
    exact .ofSource source filename options
  have hreads := (hstart.run (Session.invariant_reads source.toList) h).lexers x hx
  obtain ⟨n, k, line, c, hpoints⟩ := hreads.faults f hf
  exact ⟨n, k, line, c, hpoints, hpoints.lines_print, hpoints.above_caret⟩

/-- A lexer is read to the end, put back, and moved into a comment. -/
def rewinding : List Action :=
  [.save "start", .step .tokenize, .restore "start", .step (.advance 7), .step .next,
    .step (.restore (placeBehind "x\n".toList)), .step .next]

/-- Three faults: one character is found twice, and one inside of a comment. -/
theorem faults_pointsAt_run_rewinding :
    (∀ m, .step (.restore m) ∈ rewinding → m.Reached "x\n& /* # */ y".toList) ∧
      (∃ x ∈ ((Session.ofLexer (.ofSource "x\n& /* # */ y")).run rewinding).2.lexers,
        x.diagnostics.faults.toList.map Fault.site =
          [(some '&', some ⟨"<input>", 2, 1⟩), (some '#', some ⟨"<input>", 2, 6⟩),
            (some '&', some ⟨"<input>", 2, 1⟩)]) ∧
      ∀ x ∈ ((Session.ofLexer (.ofSource "x\n& /* # */ y")).run rewinding).2.lexers,
        ∀ f ∈ x.diagnostics.faults.toList, ∃ n k line c,
          f.PointsAt "x\n& /* # */ y".toList n k line c ∧
          f.print.toList.splitOn '\n' =
            f.headline.toList.splitOn '\n' ++
              ([indented line, caretLine (4 + k)] ++ f.hintLine.map String.toList) ∧
          (indented line)[4 + k]? = some c := by
  have hmarks : ∀ m, .step (.restore m) ∈ rewinding → m.Reached "x\n& /* # */ y".toList := by
    intro m hm
    obtain rfl : m = placeBehind "x\n".toList := by simpa [rewinding] using hm
    exact ⟨"x\n".toList, "& /* # */ y".toList, rfl, rfl⟩
  exact ⟨hmarks, by decide +kernel, faults_pointsAt_run _ none {} rewinding hmarks⟩

end Lexis

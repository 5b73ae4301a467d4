/-
Skipping a comment, said by searches in the source.

The step that skips a comment looks at two characters at a time as it goes.  What it comes to is the
first place behind the opener at which the end of the comment stands: the first line feed for a
comment that ends with its line, the first `*/` for one between delimiters.  `Lexer.CommentSkip`
says so with first occurrences (`occurrences`), and with single steps of the cursor up to the place
that is found (`Lexer.walkTo`).

* `exists_append_of_isLeast` — what stands in front of a first occurrence does not hold another one;
* `Lexer.CommentSkip.eq_skipComment` — what the searches lead to is what the step leads to;
* `Lexer.skipComment_search` — both, and the loop over single characters.
-/
import Lexis.Proofs.Lexer.Loop
import Mathlib.Order.Lattice.Nat

namespace Lexis

/-! ### First occurrences -/

/-- The offsets from `q` on at which a text stands in a source. -/
def occurrences (t source : List Char) (q : ℕ) : Set ℕ :=
  {i | q ≤ i ∧ t <+: source.drop i}

variable {t source w r : List Char} {q e : ℕ}

/-- A text that is in what follows an offset occurs from there on. -/
theorem mem_occurrences_of_drop_eq (h : source.drop q = w ++ t ++ r) :
    q + w.length ∈ occurrences t source q := by
  refine ⟨Nat.le_add_right q w.length, r, ?_⟩
  rw [← List.drop_drop, h, List.append_assoc, List.drop_left]

/-- A first occurrence cuts what follows the offset, and there is none in front of the cut. -/
theorem exists_append_of_isLeast (ht : t ≠ []) (h : IsLeast (occurrences t source q) e) :
    ∃ w r, source.drop q = w ++ t ++ r ∧ ¬ t <:+: w ∧ e = q + w.length := by
  obtain ⟨⟨hqe, r, hr⟩, hleast⟩ := h
  obtain ⟨k, rfl⟩ := Nat.exists_eq_add_of_le hqe
  have hk : k ≤ (source.drop q).length := by
    by_contra hlt
    have hnil : source.drop (q + k) = [] := by
      rw [← List.drop_drop]
      exact List.drop_eq_nil_of_le (by omega)
    exact ht (List.append_eq_nil_iff.mp (hr.trans hnil)).1
  have hlength : ((source.drop q).take k).length = k := List.length_take_of_le hk
  have hcut : source.drop q = (source.drop q).take k ++ t ++ r := by
    rw [List.append_assoc, hr, ← List.drop_drop, List.take_append_drop]
  refine ⟨(source.drop q).take k, r, hcut, ?_, by rw [hlength]⟩
  -- an occurrence in front of the cut would come before the first one
  rintro ⟨a, b, hab⟩
  have hearlier : q + a.length ∈ occurrences t source q := by
    refine mem_occurrences_of_drop_eq (w := a) (r := b ++ (t ++ r)) ?_
    rw [hcut, ← hab]
    simp only [List.append_assoc]
  have hle := hleast hearlier
  have hpos := List.length_pos_iff.mpr ht
  have hsum := congrArg List.length hab
  rw [hlength, List.length_append, List.length_append] at hsum
  omega

/-- Where there is no occurrence, what follows the offset does not hold the text. -/
theorem not_infix_of_occurrences_eq_empty (h : occurrences t source q = ∅) :
    ¬ t <:+: source.drop q := by
  rintro ⟨w, r, hwr⟩
  exact Set.eq_empty_iff_forall_notMem.mp h _ (mem_occurrences_of_drop_eq hwr.symm)

/-- A search finds a first occurrence, or there is none. -/
theorem occurrences_eq_empty_or_exists_isLeast (t source : List Char) (q : ℕ) :
    occurrences t source q = ∅ ∨ ∃ e, IsLeast (occurrences t source q) e := by
  rcases (occurrences t source q).eq_empty_or_nonempty with h | h
  · exact .inl h
  · exact .inr ⟨_, Nat.sInf_mem h, fun _ hi => Nat.sInf_le hi⟩

namespace Lexer

/-! ### Step by step -/

/-- Takes characters one by one, up to an offset. -/
def walkTo (x : Lexer) (e : ℕ) : Lexer :=
  (fun y : Lexer => (y.advance 1).2)^[e - x.cursor.offset.toNat] x

variable {x y : Lexer}

/-- Taking the characters of a text one by one goes over the text. -/
theorem iterate_advance (hx : 0 ≤ x.cursor.offset) (hr : x.rest = t ++ r) :
    (fun y : Lexer => (y.advance 1).2)^[t.length] x = x.moveOver t := by
  induction t generalizing x with
  | nil => rfl
  | cons c t ih =>
    have hone : (x.advance 1).2 = x.moveOver [c] := by
      rw [advance, hr]
      rfl
    have hrest : (x.moveOver [c]).rest = t ++ r := Cursor.rest_moveOver (t := [c]) hx hr
    rw [List.length_cons, Function.iterate_succ_apply, hone,
      ih (Cursor.offset_moveOver hx [c]) hrest]
    rfl

theorem walkTo_eq (hx : 0 ≤ x.cursor.offset) (hr : x.rest = t ++ r)
    (he : e = x.cursor.offset.toNat + t.length) : x.walkTo e = x.moveOver t := by
  rw [walkTo, he, Nat.add_sub_cancel_left]
  exact iterate_advance hx hr

/-- The walk to an offset goes over what is in front of it and comes to it. -/
theorem walkTo_spec (hx : 0 ≤ x.cursor.offset) (hp : x.cursor.offset.toNat ≤ e)
    (he : e ≤ x.cursor.source.length) :
    x.walkTo e = x.moveOver ((x.cursor.source.take e).drop x.cursor.offset.toNat) ∧
      (x.walkTo e).cursor.offset = e := by
  have hr : x.rest = (x.cursor.source.take e).drop x.cursor.offset.toNat ++
      x.cursor.source.drop e := by
    rw [← List.drop_append_of_le_length (by rw [List.length_take_of_le he]; exact hp),
      List.take_append_drop]
    rfl
  have hlength : ((x.cursor.source.take e).drop x.cursor.offset.toNat).length =
      e - x.cursor.offset.toNat := by
    rw [List.length_drop, List.length_take_of_le he]
  have hwalk := walkTo_eq (e := e) hx hr (by omega)
  refine ⟨hwalk, ?_⟩
  rw [hwalk]
  show (x.cursor.toMark.moveOver _).offset = e
  rw [Mark.moveOver_offset, hlength]
  omega

/-! ### The skip -/

/-- Two characters stand at the cursor. -/
def At (x : Lexer) (c d : Char) : Prop :=
  (x.cursor.source.drop x.cursor.offset.toNat).take 2 = [c, d]

/-- Where the search for the end of a comment starts. -/
def bodyStart (x : Lexer) : ℕ :=
  x.cursor.offset.toNat + 2

/-- The diagnostics behind a comment that starts at the cursor and is never closed: under strict
comments it is warned about, at the place where it starts. -/
def openDiagnostics (x : Lexer) : Diagnostics :=
  if x.options.strictComments then
    { x.diagnostics with
      warnings := x.diagnostics.warnings.push
        (Diagnostics.warningLine Cause.openComment.message (some x.here)) }
  else x.diagnostics

/-- What skipping a comment comes to: the offset, and the lexer there. -/
inductive CommentSkip (x : Lexer) : ℕ → Lexer → Prop where
  /-- A comment that ends with its line, in front of the first line feed. -/
  | line {e : ℕ} (h : x.At '/' '/')
      (he : IsLeast (occurrences ['\n'] x.cursor.source x.bodyStart) e) :
      CommentSkip x e (x.walkTo e)
  /-- A comment on the last line. -/
  | lineToEnd (h : x.At '/' '/')
      (hnone : occurrences ['\n'] x.cursor.source x.bodyStart = ∅) :
      CommentSkip x x.cursor.source.length (x.walkTo x.cursor.source.length)
  /-- A comment between delimiters, up to behind the first `*/`. -/
  | block {e : ℕ} (h : x.At '/' '*')
      (he : IsLeast (occurrences ['*', '/'] x.cursor.source x.bodyStart) e) :
      CommentSkip x (e + 2) (x.walkTo (e + 2))
  /-- A comment that is never closed: it takes all the rest, and is told of. -/
  | unclosed (h : x.At '/' '*')
      (hnone : occurrences ['*', '/'] x.cursor.source x.bodyStart = ∅) :
      CommentSkip x x.cursor.source.length { x.walkTo x.cursor.source.length with
        log := x.log.push (openRecord x.here)
        diagnostics := x.openDiagnostics }
  /-- Where there is no comment, nothing happens. -/
  | nothing (hline : ¬ x.At '/' '/') (hblock : ¬ x.At '/' '*') :
      CommentSkip x x.cursor.offset.toNat x

theorem skipComment_of_fits {t : Trivia} (hr : x.rest = t.text ++ r) (h : t.Fits r)
    (ht : ∀ w, t ≠ .spaces w) : x.skipComment = x.skip t := by
  rw [skipComment, hr, Trivia.comment?_of_fits h ht]

/-- The text of the source at two characters is those, and what is behind them. -/
theorem At.rest_eq {c d : Char} (h : x.At c d) :
    x.rest = c :: d :: x.cursor.source.drop x.bodyStart := by
  rw [bodyStart, ← List.drop_drop]
  exact (List.take_append_drop 2 x.rest).symm.trans (congrArg (· ++ x.rest.drop 2) h)

/-- The offset behind a text that stands behind the opener. -/
theorem At.offset_behind {c d : Char} {w r : List Char} (h : x.At c d)
    (hw : x.cursor.source.drop x.bodyStart = w ++ r) :
    x.rest = c :: d :: w ++ r ∧
      x.bodyStart + w.length = x.cursor.offset.toNat + (c :: d :: w).length := by
  refine ⟨by rw [h.rest_eq, hw]; rfl, ?_⟩
  rw [bodyStart, List.length_cons, List.length_cons]
  omega

/-- Behind the opener, the rest of the source is left. -/
theorem At.length_source {c d : Char} (h : x.At c d) :
    x.cursor.source.length =
      x.bodyStart + (x.cursor.source.drop x.bodyStart).length := by
  have hlength : 2 ≤ (x.cursor.source.drop x.cursor.offset.toNat).length := by
    have := congrArg List.length h
    rw [List.length_take] at this
    simp only [List.length_cons, List.length_nil] at this
    omega
  rw [List.length_drop] at hlength ⊢
  rw [bodyStart]
  omega

/-- The walk over a text that stands behind the opener. -/
theorem At.walkTo_offset {c d : Char} {w r : List Char} (hx : 0 ≤ x.cursor.offset)
    (h : x.At c d) (hw : x.cursor.source.drop x.bodyStart = w ++ r) :
    (x.walkTo (x.bodyStart + w.length)).cursor.offset = ↑(x.bodyStart + w.length) := by
  have hle : x.cursor.offset.toNat ≤ x.bodyStart + w.length := by
    rw [bodyStart]
    omega
  refine (walkTo_spec hx hle ?_).2
  rw [h.length_source, hw, List.length_append]
  omega

namespace CommentSkip

theorem skip_line (hx : 0 ≤ x.cursor.offset) (h : x.At '/' '/')
    (hw : x.cursor.source.drop x.bodyStart = w ++ r) (hn : ¬ ['\n'] <:+: w)
    (hstops : Stops (· ≠ '\n') r) : x.skipComment = x.walkTo (x.bodyStart + w.length) := by
  obtain ⟨hr, he⟩ := h.offset_behind hw
  have hfits : (Trivia.lineComment ('/' :: '/' :: w)).Fits r :=
    ⟨w, rfl, by rwa [List.singleton_infix_iff] at hn, hstops⟩
  rw [skipComment_of_fits hr hfits (fun v hv => by cases hv), walkTo_eq hx hr he]
  rfl

theorem skip_block (hx : 0 ≤ x.cursor.offset) (h : x.At '/' '*')
    (hw : x.cursor.source.drop x.bodyStart = (w ++ closer) ++ r) (hn : ¬ closer <:+: w) :
    x.skipComment = x.walkTo (x.bodyStart + (w ++ closer).length) := by
  obtain ⟨hr, he⟩ := h.offset_behind hw
  have hfits : (Trivia.blockComment ('/' :: '*' :: (w ++ closer))).Fits r := ⟨w, rfl, hn⟩
  rw [skipComment_of_fits hr hfits (fun v hv => by cases hv), walkTo_eq hx hr he]
  rfl

theorem skip_unclosed (hx : 0 ≤ x.cursor.offset) (h : x.At '/' '*')
    (hn : ¬ closer <:+: x.cursor.source.drop x.bodyStart) :
    x.skipComment = { x.walkTo x.cursor.source.length with
      log := x.log.push (openRecord x.here)
      diagnostics := x.openDiagnostics } := by
  obtain ⟨hr, he⟩ := h.offset_behind (List.append_nil _).symm
  have hfits : (Trivia.openComment ('/' :: '*' :: x.cursor.source.drop x.bodyStart)).Fits [] :=
    ⟨_, rfl, hn, rfl⟩
  rw [skipComment_of_fits hr hfits (fun v hv => by cases hv),
    walkTo_eq hx hr (h.length_source.trans he), skip, reportOpenComment, openDiagnostics]
  -- strict comments decide, and moving over the comment leaves them as they are
  have hoptions : (x.moveOver ('/' :: '*' :: x.cursor.source.drop x.bodyStart)).options =
      x.options := rfl
  by_cases hs : x.options.strictComments = true
  · simp only [hoptions, if_pos hs]
    rfl
  · simp only [hoptions, if_neg hs]
    rfl

/-- What the searches lead to is what the step leads to. -/
theorem eq_skipComment (hx : 0 ≤ x.cursor.offset) (h : x.CommentSkip e y) :
    y = x.skipComment ∧ y.cursor.offset = e := by
  cases h with
  | line h he =>
    obtain ⟨w, r, hw, hn, rfl⟩ := exists_append_of_isLeast (List.cons_ne_nil '\n' []) he
    rw [List.append_assoc] at hw
    have hskip := skip_line hx h hw hn (stops_cons.mpr (by decide))
    exact ⟨hskip.symm, h.walkTo_offset hx hw⟩
  | lineToEnd h hnone =>
    have hn := not_infix_of_occurrences_eq_empty hnone
    have hw := (List.append_nil (x.cursor.source.drop x.bodyStart)).symm
    have hskip := skip_line hx h hw hn (stops_nil _)
    rw [h.length_source]
    exact ⟨hskip.symm, h.walkTo_offset hx hw⟩
  | block h he =>
    obtain ⟨w, r, hw, hn, rfl⟩ := exists_append_of_isLeast (List.cons_ne_nil '*' ['/']) he
    have hskip := skip_block hx h hw hn
    have hlength : x.bodyStart + (w ++ closer).length = x.bodyStart + w.length + 2 := by
      rw [List.length_append, ← Nat.add_assoc]
      rfl
    rw [← hlength]
    exact ⟨hskip.symm, h.walkTo_offset hx hw⟩
  | unclosed h hnone =>
    have hskip := skip_unclosed hx h (not_infix_of_occurrences_eq_empty hnone)
    have hoffset := h.walkTo_offset hx (List.append_nil _).symm
    rw [← h.length_source] at hoffset
    exact ⟨hskip.symm, hoffset⟩
  | nothing hline hblock =>
    have hnone : Trivia.comment? x.rest = none :=
      Trivia.comment?_eq_none_iff.mpr ⟨hline, hblock⟩
    rw [skipComment, hnone]
    exact ⟨rfl, (Int.toNat_of_nonneg hx).symm⟩

/-- The searches come to something. -/
theorem exists_of_searches (x : Lexer) : ∃ e y, x.CommentSkip e y := by
  by_cases hline : x.At '/' '/'
  · rcases occurrences_eq_empty_or_exists_isLeast ['\n'] x.cursor.source x.bodyStart with
      hnone | ⟨e, he⟩
    · exact ⟨_, _, .lineToEnd hline hnone⟩
    · exact ⟨_, _, .line hline he⟩
  by_cases hblock : x.At '/' '*'
  · rcases occurrences_eq_empty_or_exists_isLeast ['*', '/'] x.cursor.source x.bodyStart with
      hnone | ⟨e, he⟩
    · exact ⟨_, _, .unclosed hblock hnone⟩
    · exact ⟨_, _, .block hblock he⟩
  · exact ⟨_, x, .nothing hline hblock⟩

end CommentSkip

/-- **Skipping a comment is a search**: from any place that is not in front of the source, the step
leads to what the searches for the end of the comment lead to, and to nothing else, and a loop over
single characters with fuel for all that is left does the same.  The walk to an offset goes over the
source up to there, one character at a time. -/
theorem skipComment_search (x : Lexer) (hx : 0 ≤ x.cursor.offset) :
    (∀ e y, x.CommentSkip e y ↔ y = x.skipComment ∧ y.cursor.offset = e) ∧
      (∀ n, x.rest.length < n → Loop.comment n x = .ok x.skipComment) ∧
      ∀ e, x.cursor.offset.toNat ≤ e → e ≤ x.cursor.source.length →
        x.walkTo e = x.moveOver ((x.cursor.source.take e).drop x.cursor.offset.toNat) := by
  refine ⟨?_, fun n hn => Loop.comment_eq hx hn, fun e hp he => (walkTo_spec hx hp he).1⟩
  intro e y
  constructor
  · exact CommentSkip.eq_skipComment hx
  · rintro ⟨rfl, he⟩
    obtain ⟨k, y, hy⟩ := CommentSkip.exists_of_searches x
    obtain ⟨rfl, hk⟩ := hy.eq_skipComment hx
    obtain rfl : k = e := Int.ofNat.inj (hk.symm.trans he)
    exact hy

/-- The delimiters of a comment overlap in its text, and a word stands in front of it. -/
def overlapping : Lexer :=
  ((Lexer.ofSource "a/*/ **/b").advance 1).2

theorem skipComment_search_overlapping :
    0 ≤ overlapping.cursor.offset ∧ overlapping.skipComment.cursor.offset = 8 ∧
      (∀ e y, overlapping.CommentSkip e y ↔
        y = overlapping.skipComment ∧ y.cursor.offset = e) ∧
      (∀ n, overlapping.rest.length < n →
        Loop.comment n overlapping = .ok overlapping.skipComment) ∧
      ∀ e, overlapping.cursor.offset.toNat ≤ e → e ≤ overlapping.cursor.source.length →
        overlapping.walkTo e = overlapping.moveOver
          ((overlapping.cursor.source.take e).drop overlapping.cursor.offset.toNat) :=
  ⟨by decide +kernel, by decide +kernel, skipComment_search overlapping (by decide +kernel)⟩

end Lexer

end Lexis

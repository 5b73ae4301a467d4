/-
Every lexer goes on, wherever it has been put.

A session may put a lexer at any place that was kept, its own or that of a lexer over another
source, so that the offset may be past the end, and line and column may have nothing to do with
the source.  All that holds of such places is that none of them is in front of the source
(`Session.InBounds`): each request keeps to that, and so does a run of them.

From such a place the search for a token ends, and no step of it fails; a token takes at least its
own text away; and at the end the end token is given, and nothing changes any more
(`Lexer.Progresses`).
-/
import Lexis.Proofs.Lexer.Loop
import Lexis.Proofs.Session.Invariant

namespace Lexis

namespace Lexer

/-! ### One lexer -/

/-- A lexer goes on, token by token, until it is at the end of its source and stays there. -/
structure Progresses (x : Lexer) : Prop where
  /-- The search for the next token ends, and nothing goes wrong in it. -/
  next : ∀ n, x.rest.length < n → Loop.next n x = .ok x.next
  offset_le : x.cursor.offset ≤ x.next.2.cursor.offset
  token : x.next.1.isEnd = false →
    x.next.1.text ≠ "" ∧ x.cursor.offset + x.next.1.text.length ≤ x.next.2.cursor.offset
  endToken : x.next.1.isEnd = true →
    x.next.1.text = "" ∧ x.next.2.cursor.atEnd = true ∧
      ∀ n, x.next.2.nexts n = (List.replicate n x.next.1, x.next.2)
  /-- The whole stream ends, and nothing goes wrong in it. -/
  stream : ∀ n, x.rest.length < n → Loop.tokenize n x = .ok x.tokenize
  end_last : ∃ ts e, x.tokenize.1 = ts ++ [e] ∧ e.isEnd = true ∧ ∀ t ∈ ts, t.isEnd = false
  length_le : (x.tokenize.1.length : Int) ≤ max 0 (x.cursor.source.length - x.cursor.offset) + 1

variable {x : Lexer}

theorem offset_next_of_passes {t : List Char} (h : x.Passes t) :
    x.next.2.cursor.offset = x.cursor.offset + t.length := by
  rw [h.cursor]
  exact x.cursor.toMark.moveOver_offset t

/-- An item has one token at most, and one character at least. -/
theorem length_tokens_le (hx : 0 ≤ x.cursor.offset) : x.tokens.length ≤ x.rest.length + 1 := by
  induction x, hx using rest_induction with
  | nil x hx hr =>
    rw [tokens_of_rest_nil hr]
    exact Nat.le_add_left _ _
  | item x hx i hr h ih =>
    have hpos := List.length_pos_iff.mpr h.text_ne_nil
    have htoken : (i.token? x.filename x.cursor.toMark).toList.length ≤ 1 :=
      Option.length_toList_le
    rw [tokens_of_fits hr h, hr, List.length_append, List.length_append]
    omega

theorem length_rest (x : Lexer) :
    (x.rest.length : Int) = max 0 (x.cursor.source.length - max 0 x.cursor.offset) := by
  rw [rest, Cursor.rest, List.length_drop]
  omega

/-- At the end token, the lexer is where nothing is left, and more calls give it again. -/
theorem nexts_of_isEnd (hx : 0 ≤ x.cursor.offset) (h : x.next.1.isEnd = true) (n : Nat) :
    x.next.2.nexts n = (List.replicate n x.next.1, x.next.2) := by
  rcases next_spec hx with ⟨hend, -⟩ | ⟨-, hnext⟩
  · rw [h] at hend
    cases hend
  · rw [hnext]
    induction n with
    | zero => rfl
    | succ n ih => rw [nexts, next_finish hx, ih, List.replicate_succ]

theorem progresses (hx : 0 ≤ x.cursor.offset) : x.Progresses := by
  obtain ⟨t, ht⟩ := exists_passes hx
  have hoffset := offset_next_of_passes ht
  refine ⟨fun n hn => Loop.next_eq hx hn, by omega, ?_, ?_, fun n hn => Loop.tokenize_eq hx hn,
    ?_, ?_⟩
  · intro hend
    obtain ⟨hne, hsuffix⟩ := ht.token hend
    have hle := hsuffix.length_le
    rw [String.length_toList] at hle
    exact ⟨hne, by omega⟩
  · intro hend
    obtain ⟨htext, hrest⟩ := ht.atEnd hend
    have hnext : 0 ≤ x.next.2.cursor.offset := by omega
    exact ⟨htext, (Cursor.atEnd_iff hnext).mpr hrest, nexts_of_isEnd hx hend⟩
  · rw [tokenize_fst]
    obtain ⟨ts, hts, hend⟩ := exists_tokens_eq hx
    exact ⟨ts, _, hts, rfl, hend⟩
  · have hlength := length_tokens_le hx
    have hrest := x.length_rest
    rw [tokenize_fst]
    omega

/-! ### Requests -/

/-- A request leads to no place in front of the source, unless it asks for one. -/
theorem offset_perform (hx : 0 ≤ x.cursor.offset) {request : Step}
    (h : ∀ m, request = .restore m → 0 ≤ m.offset) :
    0 ≤ (x.perform request).2.cursor.offset := by
  match request with
  | .next =>
    obtain ⟨t, ht⟩ := exists_passes hx
    have hoffset := offset_next_of_passes ht
    show 0 ≤ x.next.2.cursor.offset
    omega
  | .peek => exact hx
  | .tokenize =>
    show 0 ≤ x.tokenize.2.cursor.offset
    rw [tokenize_eq_recordCount]
    exact offset_finish hx
  | .skipSpaces => exact x.skips_skipSpaces.offset hx
  | .skipComment => exact x.skips_skipComment.offset hx
  | .scanInteger => exact offset_after hx (.lexeme (.integer x.rest))
  | .scanWord => exact offset_after hx (.lexeme (.word x.rest))
  | .scanSymbol =>
    have hsymbol : 0 ≤ x.scanSymbol.2.cursor.offset := by
      rw [scanSymbol]
      split
      · exact offset_after hx (.lexeme _)
      · exact hx
    rw [perform_scanSymbol]
    exact hsymbol
  | .advance n => exact Cursor.offset_moveOver hx _
  | .restore m => exact h m rfl
  | .lineText | .faults | .warnings | .report | .clear => exact hx
  | .summary =>
    rw [perform_summary_snd]
    exact hx
  | .setStrict on => exact hx
  | .setLimit limit => exact hx
  | .setFilename filename => exact hx

end Lexer

/-! ### Sessions -/

namespace Session

/-- A session on fresh lexers, each with its source, its name and its options. -/
def ofSources (sources : List (String × Option String × Options)) : Session where
  lexers := sources.map fun s => Lexer.ofSource s.1 s.2.1 s.2.2

/-- No lexer and no mark of a session is in front of the source. -/
structure InBounds (s : Session) : Prop where
  lexers : ∀ x ∈ s.lexers, 0 ≤ x.cursor.offset
  marks : ∀ m ∈ s.marks, 0 ≤ m.2.offset

theorem inBounds_ofSources (sources : List (String × Option String × Options)) :
    (ofSources sources).InBounds where
  lexers := by
    intro x hx
    obtain ⟨s, -, rfl⟩ := List.mem_map.mp hx
    exact le_rfl
  marks := by
    intro m hm
    cases hm

/-- What keeps a lexer off the places in front of its source keeps a session off them. -/
theorem invariant_inBounds :
    Invariant (fun x => 0 ≤ x.cursor.offset) (fun m => 0 ≤ m.offset) where
  withoutLog hx := hx
  perform hx hm := Lexer.offset_perform hx hm
  mark hx := hx

theorem InBounds.run {s : Session} (h : s.InBounds) {actions : List Action}
    (hm : ∀ m, .step (.restore m) ∈ actions → 0 ≤ m.offset) : (s.run actions).2.InBounds := by
  have hs : s.Holds (fun x => 0 ≤ x.cursor.offset) (fun m => 0 ≤ m.offset) := ⟨h.lexers, h.marks⟩
  have hrun := hs.run invariant_inBounds hm
  exact ⟨hrun.lexers, hrun.marks⟩

/-- **Every lexer of every session goes on**: after any requests, among them the restoring of marks
from other sources and of marks that are made up and not in front of the source, the search for a
token ends without failing, a token moves the cursor over its text at least, and the end token is
the last one and stays. -/
theorem progresses_run (sources : List (String × Option String × Options)) (actions : List Action)
    (h : ∀ m, .step (.restore m) ∈ actions → 0 ≤ m.offset) :
    ∀ x ∈ ((ofSources sources).run actions).2.lexers, x.Progresses := by
  intro x hx
  exact Lexer.progresses (((inBounds_ofSources sources).run h).lexers x hx)

/-- A lexer is put at a place that is made up, then at the end of a longer source. -/
def wandering : List Action :=
  [.use 1, .step .tokenize, .save "end", .use 0, .step (.restore ⟨1, 7, 3, 2⟩), .restore "end",
    .step .next]

/-- Past the end of its source, the lexer goes on as well. -/
theorem progresses_run_wandering :
    (∀ m, .step (.restore m) ∈ wandering → 0 ≤ m.offset) ∧
      (∃ x ∈ ((ofSources [("a", none, {}), ("/* b */ & c", none, {})]).run wandering).2.lexers,
        (x.cursor.source.length : Int) < x.cursor.offset) ∧
      ∀ x ∈ ((ofSources [("a", none, {}), ("/* b */ & c", none, {})]).run wandering).2.lexers,
        x.Progresses := by
  have hmarks : ∀ m, .step (.restore m) ∈ wandering → 0 ≤ m.offset := by simp [wandering]
  exact ⟨hmarks, by decide +kernel, progresses_run _ wandering hmarks⟩

end Session

end Lexis

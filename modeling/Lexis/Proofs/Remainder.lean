/-
What is left of a source decides what is found in it.

A lexer may be anywhere in its source, in the middle of a word or of a comment, and its mark may be
made up.  The tokens that it finds from there on are those of a source that has just the characters
that are left, with their places carried over: the first line of that source goes on where the
cursor is, and the lines below it begin at columns of their own (`Token.carryTo`).  The shape of that map
changes at the first line feed, so that places are compared by a relation that every character keeps
(`Carried`), and not by one shift.

The stray characters that are reported on the way depend on what is left, too; limits and what has
been kept before decide how many of them are kept, and never which ones there are
(`Lexer.Reports`).
-/
import Lexis.Lexer.Scan
import Lexis.Proofs.Lexer.Faults

namespace Lexis

/-! ### Places carried over -/

/-- The token of a text as it stands when the text begins at a mark. -/
def Token.carryTo (b : Mark) (t : Token) : Token :=
  if t.line = 1 then { t with line := b.line, column := b.column + t.column - 1 }
  else { t with line := b.line + t.line - 1 }

/-- The mark `m` in a text, and the mark `n` of the same place when the text begins at `b`. -/
structure Carried (b m n : Mark) : Prop where
  one_le_line : 1 ≤ m.line
  line : n.line = b.line + m.line - 1
  column : n.column = if m.line = 1 then b.column + m.column - 1 else m.column

namespace Carried

variable {b m n : Mark}

theorem start (b : Mark) : Carried b ⟨0, 1, 1, 0⟩ b where
  one_le_line := le_rfl
  line := (Int.add_sub_cancel b.line 1).symm
  column := (Int.add_sub_cancel b.column 1).symm

/-- A line feed leads to a line below the first, whose columns are the same in both. -/
theorem after (h : Carried b m n) (c : Char) : Carried b (m.after c) (n.after c) := by
  obtain ⟨hone, hline, hcolumn⟩ := h
  rw [Mark.after, Mark.after]
  by_cases hc : c = '\n'
  · -- from here on, both columns are counted from the same line feed
    rw [if_pos hc, if_pos hc]
    refine ⟨?_, ?_, ?_⟩
    · show 1 ≤ m.line + 1
      omega
    · show n.line + 1 = b.line + (m.line + 1) - 1
      omega
    · show 1 = if m.line + 1 = 1 then b.column + 1 - 1 else 1
      rw [if_neg (by omega)]
  · rw [if_neg hc, if_neg hc]
    refine ⟨hone, hline, ?_⟩
    show n.column + 1 = if m.line = 1 then b.column + (m.column + 1) - 1 else m.column + 1
    rw [hcolumn]
    split
    · omega
    · rfl

theorem moveOver (h : Carried b m n) (t : List Char) :
    Carried b (m.moveOver t) (n.moveOver t) := by
  induction t generalizing m n with
  | nil => exact h
  | cons c t ih => exact ih (h.after c)

/-- A token is carried over with its place, and takes on the name of the lexer. -/
theorem token (h : Carried b m n) (kind : Kind) (text name other : String) :
    (⟨kind, text, n.line, n.column, name⟩ : Token) =
      { Token.carryTo b ⟨kind, text, m.line, m.column, other⟩ with filename := name } := by
  rw [Token.carryTo, h.line, h.column]
  split
  · rename_i hline
    simp only [hline, Int.add_sub_cancel]
  · rfl

end Carried

/-- The tokens of a text that begins at a mark are those of the text alone, carried over. -/
theorem Item.tokens_carryTo (name other : String) (b : Mark) (r : List Char) :
    tokens name b (split r) =
      (tokens other ⟨0, 1, 1, 0⟩ (split r)).map fun t => { t.carryTo b with filename := name } := by
  have htoken : ∀ m n i, Carried b m n → token? name n i =
      (token? other m i).map fun t => { t.carryTo b with filename := name } := by
    intro m n i h
    rw [token?, token?, Option.map_map]
    congr 1
    funext l
    exact h.token l.kind (String.ofList l.text) name other
  rw [tokens_split, tokens_split, List.map_append,
    collect_map_of_rel (fun m n t h => h.moveOver t) htoken (Carried.start b)]
  congr 1
  exact congrArg (fun t => [t]) (((Carried.start b).moveOver r).token .endOfInput "" name other)

/-! ### Stray characters -/

/-- The character of an item that begins neither trivia nor a lexeme. -/
def Item.stray? : Item → Option Char
  | .invalid c => some c
  | _ => none

/-- On the way to the end of its source, a lexer reports some stray characters: it keeps the first
of them as faults, as far as there is room, and counts them all. -/
structure Lexer.Reports (x : Lexer) (cs : List Char) : Prop where
  kept : x.tokenize.2.diagnostics.faults.toList.map Fault.cause =
    x.diagnostics.faults.toList.map Fault.cause ++
      (cs.map Cause.invalidCharacter).take x.diagnostics.room
  counted : x.tokenize.2.diagnostics.errorCount = x.diagnostics.errorCount + cs.length

namespace Lexer

/-- The causes of the faults are the stray characters, wherever the items stand. -/
theorem map_cause_faults (x : Lexer) (is : List Item) :
    (x.faults is).map Fault.cause = (is.filterMap Item.stray?).map Cause.invalidCharacter := by
  induction is generalizing x with
  | nil => rfl
  | cons i is ih =>
    rw [faults, List.map_append, ih]
    cases i with
    | trivia t => rfl
    | lexeme l => rfl
    | invalid c => rfl

theorem reports (x : Lexer) : x.Reports ((Item.split x.rest).filterMap Item.stray?) := by
  have hcauses := x.map_cause_faults (Item.split x.rest)
  refine ⟨?_, ?_⟩
  · rw [toList_faults_tokenize, List.map_append, List.map_take, hcauses]
  · have hlength := congrArg List.length hcauses
    rw [List.length_map, List.length_map] at hlength
    rw [tokenize_errorCount, ← length_faults, hlength]

end Lexer

/-- **Only what is left counts**: from wherever a lexer is, it finds the tokens of a source that has
just the characters behind its offset, carried to its line and column, and it reports the same stray
characters on the way. -/
theorem tokenize_of_offset {x : Lexer} {p : Nat} (h : x.cursor.offset = p) :
    ∃ cs, x.Reports cs ∧ ∀ (filename : Option String) (options : Options),
      x.tokenize.1 =
        (tokenize (String.ofList (x.cursor.source.drop p)) filename options).map
          (fun t => { t.carryTo x.cursor.toMark with filename := x.filename }) ∧
      (Lexer.ofSource (String.ofList (x.cursor.source.drop p)) filename options).Reports cs := by
  have hrest : x.rest = x.cursor.source.drop p := by
    rw [Lexer.rest, Cursor.rest, h, Int.toNat_natCast]
  refine ⟨(Item.split (x.cursor.source.drop p)).filterMap Item.stray?, ?_, ?_⟩
  · rw [← hrest]
    exact x.reports
  · intro filename options
    refine ⟨?_, ?_⟩
    · rw [Lexer.tokenize_fst, Lexer.tokens, hrest, tokenize_eq, String.toList_ofList]
      exact Item.tokens_carryTo _ _ _ _
    · have hreports := (Lexer.ofSource (String.ofList (x.cursor.source.drop p)) filename
        options).reports
      rwa [Lexer.rest_ofSource, String.toList_ofList] at hreports

/-- A lexer that was moved into the middle of a comment, with a line feed ahead. -/
theorem tokenize_of_offset_in_comment :
    ((Lexer.ofSource "x /* # y\n& */ @").advance 5).2.cursor.offset = 5 ∧
      ((Lexer.ofSource "x /* # y\n& */ @").advance 5).2.tokenize.1 =
        (tokenize "# y\n& */ @").map fun t =>
          { t.carryTo ⟨5, 1, 6, 0⟩ with filename := "<input>" } := by
  have hoffset : ((Lexer.ofSource "x /* # y\n& */ @").advance 5).2.cursor.offset = (5 : Nat) := by
    decide
  obtain ⟨cs, -, htokens⟩ := tokenize_of_offset hoffset
  exact ⟨hoffset, (htokens none {}).1⟩

end Lexis

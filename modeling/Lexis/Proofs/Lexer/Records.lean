/-
What a run writes to the log.

An item leaves at most one record: a stray character and a comment that is never closed leave one,
and everything else leaves none.  Since such a comment takes the rest of the source, its record
comes behind those of all stray characters, and there is at most one (`Lexer.records_split`).  The
log of a whole stream ends with the counts of its tokens and errors (`Lexer.tokenize_log`).
-/
import Lexis.Proofs.Lexer.Run

namespace Lexis

/-- The record of a stray character, by its token. -/
def strayRecord (t : Token) : LogRecord :=
  ⟨.debug, t.location.print ++ ": invalid character " ++ Text.quoted t.text⟩

/-- The record of a comment that starts at a place and is never closed. -/
def openRecord (start : Location) : LogRecord :=
  ⟨.debug, start.print ++ ": block comment runs to end of input"⟩

/-- The record that closes a stream: how many tokens and errors there were. -/
def countRecord (filename : String) (tokens errors : Nat) : LogRecord :=
  ⟨.debug, filename ++ ": " ++ toString tokens ++ " tokens, " ++ toString errors ++ " errors"⟩

namespace Lexer

/-- The record of an item that stands at the cursor, if it leaves one. -/
def record? (x : Lexer) : Item → Option LogRecord
  | .trivia (.openComment _) => some (openRecord x.here)
  | .invalid c => some (strayRecord (x.token .invalid [c]))
  | _ => none

/-- The records of a list of items that begins at the cursor. -/
def records : Lexer → List Item → List LogRecord
  | _, [] => []
  | x, i :: is => (x.record? i).toList ++ (x.after i).records is

theorem after_log (x : Lexer) (i : Item) :
    (x.after i).log.toList = x.log.toList ++ (x.record? i).toList := by
  match i with
  | .trivia (.spaces t) => exact (List.append_nil _).symm
  | .trivia (.lineComment t) => exact (List.append_nil _).symm
  | .trivia (.blockComment t) => exact (List.append_nil _).symm
  | .trivia (.openComment t) =>
    -- strict or not, the record is the same
    have h : (x.after (.trivia (.openComment t))).log = x.log.push (openRecord x.here) := by
      simp only [after, skip, reportOpenComment]
      split <;> rfl
    rw [h, Array.toList_push]
    rfl
  | .lexeme l => exact (List.append_nil _).symm
  | .invalid c =>
    have h : (x.after (.invalid c)).log = x.log.push (strayRecord (x.token .invalid [c])) := rfl
    rw [h, Array.toList_push]
    rfl

theorem foldl_after_log (x : Lexer) (is : List Item) :
    (is.foldl after x).log.toList = x.log.toList ++ x.records is := by
  induction is generalizing x with
  | nil => exact (List.append_nil _).symm
  | cons i is ih => rw [List.foldl_cons, ih, after_log, records, List.append_assoc]

/-- The records of a text: one for every stray character, in order, and then at most one for a
comment that is never closed. -/
theorem records_split (x : Lexer) (r : List Char) :
    ∃ opened : Option Location,
      x.records (Item.split r) =
        ((Item.tokens x.filename x.cursor.toMark (Item.split r)).filter Token.isInvalid).map
            strayRecord ++ opened.toList.map openRecord := by
  induction r using Item.fits_induction generalizing x with
  | nil =>
    refine ⟨none, ?_⟩
    rw [Item.split_nil]
    rfl
  | item i r h ih =>
    obtain ⟨opened, ho⟩ := ih (x.after i)
    rw [after_cursor, after_filename] at ho
    rw [Item.split_append h, records]
    match i, h with
    | .trivia (.openComment w), ⟨y, _, _, hr⟩ =>
      -- nothing is left behind the comment
      refine ⟨some x.here, ?_⟩
      rw [hr, Item.split_nil]
      rfl
    | .trivia (.spaces w), _ => exact ⟨opened, ho⟩
    | .trivia (.lineComment w), _ => exact ⟨opened, ho⟩
    | .trivia (.blockComment w), _ => exact ⟨opened, ho⟩
    | .lexeme l, h =>
      refine ⟨opened, ?_⟩
      rw [Item.filter_tokens_lexeme h]
      exact ho
    | .invalid c, _ =>
      refine ⟨opened, ?_⟩
      rw [Item.filter_tokens_invalid, List.map_cons, List.cons_append]
      exact congrArg (strayRecord (x.token .invalid [c]) :: ·) ho

theorem foldl_after_filename (x : Lexer) (is : List Item) :
    (is.foldl after x).filename = x.filename := by
  induction is generalizing x with
  | nil => rfl
  | cons i is ih => rw [List.foldl_cons, ih, after_filename]

/-- The lexer with the counts of a stream in its log. -/
def recordCount (x : Lexer) (tokens : Nat) : Lexer :=
  { x with log := x.log.push (countRecord x.filename tokens x.diagnostics.errorCount) }

theorem tokenize_eq_recordCount (x : Lexer) :
    x.tokenize = (x.tokens, x.finish.recordCount x.tokens.length) := by
  rw [tokenize, allFrom_eq]
  rfl

/-- The log of a whole stream. -/
theorem tokenize_log (x : Lexer) :
    ∃ opened : Option Location,
      x.tokenize.2.log.toList =
        x.log.toList ++ (x.tokens.filter Token.isInvalid).map strayRecord ++
          opened.toList.map openRecord ++
          [countRecord x.filename x.tokens.length x.tokenize.2.diagnostics.errorCount] := by
  obtain ⟨opened, ho⟩ := x.records_split x.rest
  refine ⟨opened, ?_⟩
  have hlog : x.tokenize.2.log.toList = x.finish.log.toList ++
      [countRecord x.finish.filename x.tokens.length x.tokenize.2.diagnostics.errorCount] := by
    rw [tokenize_eq_recordCount]
    exact Array.toList_push
  rw [hlog, finish, foldl_after_log, foldl_after_filename, ho, tokens]
  simp only [List.append_assoc]

end Lexer

end Lexis

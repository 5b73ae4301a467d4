/-
The faults of a source.

Every stray character is a fault, and nothing else is.  The diagnostics take the faults in order
(`Lexer.finish_diagnostics`), so that limits decide how many are kept and never which ones there
are.  The faults tell the same characters and places as the tokens of the invalid kind
(`Lexer.map_faults`).
-/
import Lexis.Proofs.Diagnostics
import Lexis.Proofs.Lexer.Run

namespace Lexis

/-- The character that a fault blames, and where it stands. -/
def Fault.site (f : Fault) : Option Char × Option Location :=
  (f.cause.character?, f.location)

/-- The character that a token begins with, and where it stands. -/
def Token.site (t : Token) : Option Char × Option Location :=
  (t.text.toList.head?, some t.location)

namespace Lexer

/-- The fault of an item that stands at the cursor, if it has one. -/
def fault? (x : Lexer) : Item → Option Fault
  | .invalid c => some (x.faultAt c)
  | _ => none

/-- The faults of a list of items that begins at the cursor. -/
def faults : Lexer → List Item → List Fault
  | _, [] => []
  | x, i :: is => (x.fault? i).toList ++ (x.after i).faults is

/-- Beside warnings, an item leaves its fault in the diagnostics. -/
theorem after_diagnostics (x : Lexer) (i : Item) :
    (x.after i).diagnostics.withoutWarnings =
      x.diagnostics.withoutWarnings.addAll (x.fault? i).toList := by
  match i with
  | .trivia (.spaces t) => rfl
  | .trivia (.lineComment t) => rfl
  | .trivia (.blockComment t) => rfl
  | .trivia (.openComment t) =>
    simp only [after, skip, reportOpenComment]
    split <;> rfl
  | .lexeme l => rfl
  | .invalid c => exact x.diagnostics.withoutWarnings_addAll [x.faultAt c]

/-- Beside warnings, items leave their faults in the diagnostics, in order. -/
theorem foldl_after_diagnostics (x : Lexer) (is : List Item) :
    (is.foldl after x).diagnostics.withoutWarnings =
      x.diagnostics.withoutWarnings.addAll (x.faults is) := by
  induction is generalizing x with
  | nil => rfl
  | cons i is ih =>
    rw [List.foldl_cons, ih, after_diagnostics, faults, Diagnostics.addAll_append]

theorem tokenize_diagnostics (x : Lexer) :
    x.tokenize.2.diagnostics.withoutWarnings =
      x.diagnostics.withoutWarnings.addAll (x.faults (Item.split x.rest)) := by
  rw [← foldl_after_diagnostics, tokenize, allFrom_eq]
  rfl

/-! ### Faults by the tokens -/

/-- The fault of a stray character blames the text of its token. -/
theorem site_faultAt (x : Lexer) (c : Char) :
    (x.faultAt c).site = (Lexeme.token x.filename x.cursor.toMark ⟨.invalid, [c]⟩).site := by
  rw [Token.site, Lexeme.token, String.toList_ofList]
  rfl

/-- The faults of a text tell of its tokens of the invalid kind. -/
theorem map_faults (x : Lexer) (r : List Char) :
    (x.faults (Item.split r)).map Fault.site =
      ((Item.tokens x.filename x.cursor.toMark (Item.split r)).filter Token.isInvalid).map
        Token.site := by
  induction r using Item.fits_induction generalizing x with
  | nil =>
    rw [Item.split_nil]
    rfl
  | item i r h ih =>
    rw [Item.split_append h, faults, List.map_append, ih, after_cursor, after_filename]
    match i, h with
    | .trivia t, _ => rfl
    | .lexeme l, h =>
      rw [Item.filter_tokens_lexeme h]
      rfl
    | .invalid c, _ =>
      rw [Item.filter_tokens_invalid, List.map_cons, ← site_faultAt]
      rfl

/-- The faults that are kept of a whole stream. -/
theorem toList_faults_tokenize (x : Lexer) :
    x.tokenize.2.diagnostics.faults.toList =
      x.diagnostics.faults.toList ++ (x.faults (Item.split x.rest)).take x.diagnostics.room := by
  have h := congrArg (fun d => d.faults.toList) x.tokenize_diagnostics
  simp only [Diagnostics.addAll_faults] at h
  exact h

/-- The faults that are kept of a whole stream, by its tokens. -/
theorem tokenize_faults (x : Lexer) :
    x.tokenize.2.diagnostics.faults.toList.map Fault.site =
      x.diagnostics.faults.toList.map Fault.site ++
        ((x.tokens.filter Token.isInvalid).map Token.site).take x.diagnostics.room := by
  rw [toList_faults_tokenize, List.map_append, List.map_take, map_faults]
  rfl

/-- There are as many faults as tokens of the invalid kind. -/
theorem length_faults (x : Lexer) :
    (x.faults (Item.split x.rest)).length = (x.tokens.filter Token.isInvalid).length := by
  have h := congrArg List.length (x.map_faults x.rest)
  rwa [List.length_map, List.length_map] at h

/-- The number of faults that are not kept of a whole stream, by its tokens. -/
theorem tokenize_suppressed (x : Lexer) :
    x.tokenize.2.diagnostics.suppressed =
      x.diagnostics.suppressed +
        ((x.tokens.filter Token.isInvalid).length - x.diagnostics.room) := by
  have h := congrArg Diagnostics.suppressed x.tokenize_diagnostics
  rw [Diagnostics.addAll_suppressed, length_faults] at h
  exact h

/-- The number of faults seen in a whole stream, by its tokens. -/
theorem tokenize_errorCount (x : Lexer) :
    x.tokenize.2.diagnostics.errorCount =
      x.diagnostics.errorCount + (x.tokens.filter Token.isInvalid).length := by
  have h := congrArg Diagnostics.errorCount x.tokenize_diagnostics
  rw [Diagnostics.addAll_errorCount, length_faults] at h
  exact h

end Lexer

end Lexis

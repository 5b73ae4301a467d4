/-
Comments that are never closed, and the warnings about them.

A block comment without an end takes the rest of the text, so that a text has at most one, and
ends inside it (`EndsOpen`).  Under strict comments each one that is met is warned about at the
place where it starts, and nothing else is (`Lexer.tokenize_warnings`).
-/
import Lexis.Proofs.Diagnostics
import Lexis.Proofs.Lexer.Records

namespace Lexis

/-- Is it a comment that is never closed? -/
def Item.isOpen : Item → Bool
  | .trivia (.openComment _) => true
  | _ => false

/-- A text ends inside a block comment: its scan meets one that is never closed. -/
def EndsOpen (r : List Char) : Prop :=
  ∃ i ∈ Item.split r, i.isOpen = true

instance : DecidablePred EndsOpen := fun r =>
  inferInstanceAs (Decidable (∃ i ∈ Item.split r, i.isOpen = true))

theorem endsOpen_append {i : Item} {r : List Char} (h : i.Fits r) :
    EndsOpen (i.text ++ r) ↔ i.isOpen = true ∨ EndsOpen r := by
  simp only [EndsOpen, Item.split_append h, List.mem_cons, exists_eq_or_imp]

/-- The warning about an item that stands at a place, if there is one. -/
def Item.warning? (filename : String) (strict : Bool) (m : Mark) (i : Item) : Option String :=
  if i.isOpen && strict then
    some (Diagnostics.warningLine Cause.openComment.message (some ⟨filename, m.line, m.column⟩))
  else none

theorem Item.ignoresSpaces_warning? (filename : String) (strict : Bool) :
    IgnoresSpaces (warning? filename strict) :=
  fun _ _ => rfl

theorem Item.byKind_warning? (filename : String) (strict : Bool) :
    ByKind (warning? filename strict) := by
  intro m t w
  cases t <;> rfl

theorem Item.byPlace_warning? (filename : String) (strict : Bool) :
    ByPlace (warning? filename strict) := by
  intro m n h i
  obtain ⟨hline, hcolumn⟩ : m.line = n.line ∧ m.column = n.column := Prod.ext_iff.mp h
  rw [warning?, warning?, hline, hcolumn]

namespace Lexer

theorem after_options (x : Lexer) (i : Item) : (x.after i).options = x.options := by
  rw [after_eq]

theorem after_warnings (x : Lexer) (i : Item) :
    (x.after i).diagnostics.warnings.toList =
      x.diagnostics.warnings.toList ++
        (i.warning? x.filename x.options.strictComments x.cursor.toMark).toList := by
  match i with
  | .trivia (.spaces t) => exact (List.append_nil _).symm
  | .trivia (.lineComment t) => exact (List.append_nil _).symm
  | .trivia (.blockComment t) => exact (List.append_nil _).symm
  | .trivia (.openComment t) =>
    -- strict comments decide, and moving over the comment leaves them as they are
    have hoptions : (x.moveOver t).options = x.options := rfl
    by_cases hs : x.options.strictComments = true
    · have h : (x.after (.trivia (.openComment t))).diagnostics =
          x.diagnostics.warn Cause.openComment.message (some x.here) := by
        simp only [after, skip, reportOpenComment, hoptions, if_pos hs]
        rfl
      rw [h, Item.warning?, Item.isOpen, Bool.true_and, if_pos hs]
      exact Array.toList_push
    · have h : (x.after (.trivia (.openComment t))).diagnostics = x.diagnostics := by
        simp only [after, skip, reportOpenComment, hoptions, if_neg hs]
        rfl
      rw [h, Item.warning?, Item.isOpen, Bool.true_and, if_neg hs]
      exact (List.append_nil _).symm
  | .lexeme l => exact (List.append_nil _).symm
  | .invalid c =>
    have h : (x.after (.invalid c)).diagnostics = x.diagnostics.add (x.faultAt c) := rfl
    rw [h, Diagnostics.add_warnings]
    exact (List.append_nil _).symm

theorem foldl_after_warnings (x : Lexer) (is : List Item) :
    (is.foldl after x).diagnostics.warnings.toList =
      x.diagnostics.warnings.toList ++
        Item.collect (Item.warning? x.filename x.options.strictComments) x.cursor.toMark is := by
  induction is generalizing x with
  | nil => exact (List.append_nil _).symm
  | cons i is ih =>
    rw [List.foldl_cons, ih, after_warnings, after_filename, after_options, after_cursor,
      Item.collect, List.append_assoc]
    rfl

/-- The warnings that a whole stream leaves. -/
theorem tokenize_warnings (x : Lexer) :
    x.tokenize.2.diagnostics.warnings.toList =
      x.diagnostics.warnings.toList ++
        Item.collect (Item.warning? x.filename x.options.strictComments) x.cursor.toMark
          (Item.split x.rest) := by
  rw [tokenize_eq_recordCount]
  exact foldl_after_warnings x (Item.split x.rest)

end Lexer

end Lexis

/-
The log plays no part.

Two lexers that differ in their logs only (`Lexer.UpToLog`) give the same tokens and stay so, over
every item, every call for the next token and the whole stream.
-/
import Lexis.Proofs.Lexer.Next

namespace Lexis.Lexer

/-- Two lexers differ in their logs only. -/
def UpToLog (x y : Lexer) : Prop :=
  x.withoutLog = y.withoutLog

namespace UpToLog

variable {x y z : Lexer}

protected theorem refl (x : Lexer) : UpToLog x x := rfl

protected theorem symm (h : UpToLog x y) : UpToLog y x := Eq.symm h

protected theorem trans (h : UpToLog x y) (k : UpToLog y z) : UpToLog x z := Eq.trans h k

theorem record (x : Lexer) (level : Level) (message : String) :
    UpToLog (x.record level message) x := rfl

/-- What does not read the log cannot tell the two apart. -/
theorem congr {α : Type} (h : UpToLog x y) (f : Lexer → α) (hf : ∀ z, f z.withoutLog = f z) :
    f x = f y := by
  rw [← hf x, ← hf y, show x.withoutLog = y.withoutLog from h]

theorem cursor (h : UpToLog x y) : x.cursor = y.cursor := h.congr _ fun _ => rfl

theorem filename (h : UpToLog x y) : x.filename = y.filename := h.congr _ fun _ => rfl

theorem diagnostics (h : UpToLog x y) : x.diagnostics = y.diagnostics := h.congr _ fun _ => rfl

theorem endToken (h : UpToLog x y) : x.endToken = y.endToken := h.congr _ fun _ => rfl

theorem rest (h : UpToLog x y) : x.rest = y.rest := h.congr _ fun _ => rfl

theorem tokens (h : UpToLog x y) : x.tokens = y.tokens := h.congr _ fun _ => rfl

theorem after_withoutLog (x : Lexer) (i : Item) : UpToLog (x.after i) (x.withoutLog.after i) := by
  match i with
  | .trivia (.spaces t) => rfl
  | .trivia (.lineComment t) => rfl
  | .trivia (.blockComment t) => rfl
  | .trivia (.openComment t) =>
    simp only [UpToLog, Lexer.after, skip, reportOpenComment, apply_ite Lexer.withoutLog]
    rfl
  | .lexeme l => rfl
  | .invalid c => rfl

theorem after (h : UpToLog x y) (i : Item) : UpToLog (x.after i) (y.after i) := by
  have hx := after_withoutLog x i
  rw [show x.withoutLog = y.withoutLog from h] at hx
  exact hx.trans (after_withoutLog y i).symm

theorem finish (h : UpToLog x y) : UpToLog x.finish y.finish := by
  rw [Lexer.finish, Lexer.finish, h.rest]
  induction Item.split y.rest generalizing x y with
  | nil => exact h
  | cons i is ih => exact ih (h.after i)

theorem next (h : UpToLog x y) (hx : 0 ≤ x.cursor.offset) :
    x.next.1 = y.next.1 ∧ UpToLog x.next.2 y.next.2 := by
  induction x, hx using rest_induction generalizing y with
  | nil x hx hr =>
    rw [next_of_rest_nil hr, next_of_rest_nil (h.rest.symm.trans hr)]
    exact ⟨h.endToken, h⟩
  | item x hx i hr hi ih =>
    have hr' : y.rest = i.text ++ (y.after i).rest := by
      rw [← h.rest, ← (h.after i).rest]
      exact hr
    have hi' : i.Fits (y.after i).rest := by
      rw [← (h.after i).rest]
      exact hi
    -- both find the same item, and are alike behind it
    rw [next_of_fits hr hi, next_of_fits hr' hi', h.filename, h.cursor]
    cases i.token? y.filename y.cursor.toMark with
    | none => exact ih (h.after i)
    | some t => exact ⟨rfl, h.after i⟩

end UpToLog

/-- Beside the log, the whole stream leads to the lexer behind all items. -/
theorem tokenize_snd (x : Lexer) : UpToLog x.tokenize.2 x.finish := by
  rw [tokenize, allFrom_eq]
  exact UpToLog.record x.finish _ _

end Lexis.Lexer

/-
What becomes of a text that is shown.

A text without an escape character is shown as it is (`shown_of_notMem`), and several lines are
shown one by one (`shown_intercalate`).  Neither format of tokens ever has an escape character, so
that no character of a source gets lost on the way to the reader (`shown_print`).
-/
import Lexis.Command.Run
import Lexis.Proofs.Json.Value
import Lexis.Proofs.Text.ControlSequence
import Lexis.Proofs.Token.Listing

namespace Lexis.Command

open Text

theorem shown_of_notMem {text : String} (h : ControlSequence.escape ∉ text.toList) :
    shown text = text ++ "\n" := by
  rw [shown, ControlSequence.strip_of_notMem h, String.ofList_toList]

/-- What is shown on two lines is shown line by line. -/
theorem shown_append_newline (front text : String) :
    shown (front ++ "\n" ++ text) = shown front ++ shown text := by
  have hstrip : ControlSequence.strip (front ++ "\n" ++ text).toList =
      ControlSequence.strip front.toList ++ '\n' :: ControlSequence.strip text.toList := by
    rw [String.toList_append, String.toList_append, List.append_assoc]
    exact ControlSequence.strip_append_newline _ _
  apply String.toList_inj.mp
  rw [shown, hstrip, shown, shown]
  simp only [String.toList_append, String.toList_ofList, List.append_assoc]
  rfl

theorem shown_intercalate (line : String) (lines : List String) :
    shown ("\n".intercalate (line :: lines)) = String.join ((line :: lines).map shown) := by
  induction lines generalizing line with
  | nil =>
    rw [String.intercalate_singleton, List.map_cons, List.map_nil, String.join_cons,
      String.join_nil, String.append_empty]
  | cons next lines ih =>
    rw [String.intercalate_cons_cons, shown_append_newline, ih, ← String.join_cons]
    rfl

/-! ### Tokens -/

theorem not_isPrintable_escape : isPrintable ControlSequence.escape = false := by decide +kernel

theorem escape_notMem_listing (tokens : List Token) (showEnd : Bool) :
    ControlSequence.escape ∉ (listing tokens showEnd).toList := by
  intro h
  rcases isPrintable_of_mem_listing h with h | h
  · exact absurd h (by decide)
  · rw [not_isPrintable_escape] at h
    cases h

theorem escape_notMem_json (v : Json.Value) : ControlSequence.escape ∉ v.print.toList := by
  intro h
  rw [Json.Value.print, String.toList_ofList] at h
  exact absurd (v.isAsciiLines_write 0 _ h) (by decide)

/-- **Tokens are shown as they are printed**, whatever characters their texts hold. -/
theorem shown_print (format : Format) (showEnd : Bool) (tokens : List Token) :
    shown (format.print showEnd tokens) = format.print showEnd tokens ++ "\n" := by
  match format with
  | .text => exact shown_of_notMem (escape_notMem_listing tokens showEnd)
  | .json => exact shown_of_notMem (escape_notMem_json (tokensToJson tokens))

end Lexis.Command

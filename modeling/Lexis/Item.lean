/-
Items: the pieces that a source falls into.

Every nonempty text begins with exactly one item: a piece of trivia, a lexeme, or a single
character that begins neither. An item is never empty, so going from item to item comes to the
end.
-/
import Lexis.Lexeme
import Lexis.Trivia

namespace Lexis

/-- A piece of a source. -/
inductive Item where
  | trivia (t : Trivia)
  | lexeme (l : Lexeme)
  /-- A character that begins neither trivia nor a lexeme. -/
  | invalid (c : Char)
  deriving DecidableEq, Repr

namespace Item

/-- The characters of an item. -/
def text : Item → List Char
  | .trivia t => t.text
  | .lexeme l => l.text
  | .invalid c => [c]

/-- The item at the start of a text. -/
def first? : List Char → Option Item
  | [] => none
  | c :: r =>
    match Trivia.first? (c :: r) with
    | some t => some (.trivia t)
    | none =>
      match Lexeme.first? (c :: r) with
      | some l => some (.lexeme l)
      | none => some (.invalid c)

/-- A piece of trivia is not empty. -/
theorem trivia_text_ne_nil {r : List Char} {t : Trivia} (h : Trivia.first? r = some t) :
    t.text ≠ [] := by
  unfold Trivia.first? at h
  split at h
  · rename_i hs
    cases h
    unfold Trivia.spaces? at hs
    split at hs
    · cases hs
    · cases hs
      simp [Trivia.text]
  · unfold Trivia.comment? at h
    split at h
    · cases h
      simp [Trivia.text]
    · split at h <;> cases h <;> simp [Trivia.text]
    · cases h

/-- A lexeme is not empty. -/
theorem lexeme_text_ne_nil {r : List Char} {l : Lexeme} (h : Lexeme.first? r = some l) :
    l.text ≠ [] := by
  unfold Lexeme.first? at h
  split at h
  · cases h
  · rename_i c r
    split at h
    · rename_i hc
      cases h
      simp [Lexeme.integer, hc]
    · split at h
      · rename_i hc
        have hp : isWordPart c = true := by
          simp only [isWordStart, Bool.or_eq_true] at hc
          rcases hc with hc | hc <;> simp [isWordPart, hc]
        cases h
        simp [Lexeme.word, hp]
      · unfold Lexeme.symbol? at h
        split at h
        · cases h
          simp
        · obtain ⟨k, -, rfl⟩ := Option.map_eq_some_iff.mp h
          simp
        · cases h

theorem text_ne_nil {r : List Char} {i : Item} (h : first? r = some i) : i.text ≠ [] := by
  unfold first? at h
  split at h
  · cases h
  · split at h
    · cases h
      exact trivia_text_ne_nil (by assumption)
    · split at h
      · cases h
        exact lexeme_text_ne_nil (by assumption)
      · cases h
        simp [text]

/-- What follows the first item is shorter than the text. -/
theorem length_drop_lt {r : List Char} {i : Item} (h : first? r = some i) :
    (r.drop i.text.length).length < r.length := by
  have hr : r ≠ [] := by
    rintro rfl
    cases h
  have h₁ : 0 < i.text.length := List.length_pos_iff.mpr (text_ne_nil h)
  have h₂ : 0 < r.length := List.length_pos_iff.mpr hr
  simp only [List.length_drop]
  omega

end Item

end Lexis

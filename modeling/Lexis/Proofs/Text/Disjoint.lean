/-
The classes of characters are disjoint.

White space, letters and decimal digits are given by tables, and no code point is in two of them
(`not_isLetter_of_isSpace`, `not_isSpace_of_isDecimal`, `not_isLetter_of_isDecimal`).  A character
in none of them and other than the underscore is *plain*: it can be no part of a word, of a number
or of white space.  Every symbol of one character is plain (`Plain.of_ofSymbol?`).

Only membership of a range is used of a table, never its order: two tables are apart when every
range of one lies before or behind every range of the other.
-/
import Lexis.Item

namespace Lexis

namespace Text

/-- Does every range of the one class lie before or behind every range of the other? -/
def CharClass.apart (j k : CharClass) : Bool :=
  j.all fun r => k.all fun q => Nat.blt r.2 q.1 || Nat.blt q.2 r.1

theorem CharClass.apart_iff {j k : CharClass} :
    j.apart k = true ↔ ∀ r ∈ j, ∀ q ∈ k, r.2 < q.1 ∨ q.2 < r.1 := by
  simp [apart, Nat.blt_eq]

/-- A code point in a range of one class is in no range of a class apart from it. -/
theorem CharClass.not_contains_of_apart {j k : CharClass} (h : j.apart k = true) {r : Nat × Nat}
    (hr : r ∈ j) {c : Char} (h₁ : r.1 ≤ c.toNat) (h₂ : c.toNat ≤ r.2) : k.contains c = false := by
  rw [Bool.eq_false_iff]
  intro hc
  obtain ⟨q, hq, h₃, h₄⟩ := exists_of_contains hc
  rcases apart_iff.mp h r hr q hq with h₅ | h₅
  · omega
  · omega

/-- The runs of ten decimal digits, as a class. -/
def decimals : CharClass :=
  zeros.map fun z => (z, z + 9)

theorem exists_of_valueInRuns {n v : Nat} {zs : List Nat} (h : valueInRuns n zs = some v) :
    ∃ z ∈ zs, z ≤ n ∧ n ≤ z + 9 := by
  induction zs with
  | nil => cases h
  | cons z zs ih =>
    simp only [valueInRuns] at h
    split at h
    · cases h
    · split at h
      · exact ⟨z, by simp, by omega, by omega⟩
      · obtain ⟨y, hy, hn⟩ := ih h
        exact ⟨y, by simp [hy], hn⟩

theorem exists_of_isDecimal {c : Char} (h : isDecimal c = true) :
    ∃ r ∈ decimals, r.1 ≤ c.toNat ∧ c.toNat ≤ r.2 := by
  obtain ⟨v, hv⟩ := Option.isSome_iff_exists.mp h
  obtain ⟨z, hz, hn⟩ := exists_of_valueInRuns hv
  exact ⟨(z, z + 9), List.mem_map.mpr ⟨z, hz, rfl⟩, hn⟩

/-! ### The three tables -/

theorem spaces_apart_letters : spaces.apart letters = true := by decide +kernel

theorem decimals_apart_spaces : decimals.apart spaces = true := by decide +kernel

theorem decimals_apart_letters : decimals.apart letters = true := by decide +kernel

theorem not_isLetter_of_isSpace {c : Char} (h : isSpace c = true) : isLetter c = false := by
  obtain ⟨r, hr, h₁, h₂⟩ := CharClass.exists_of_contains h
  exact CharClass.not_contains_of_apart spaces_apart_letters hr h₁ h₂

theorem not_isSpace_of_isDecimal {c : Char} (h : isDecimal c = true) : isSpace c = false := by
  obtain ⟨r, hr, h₁, h₂⟩ := exists_of_isDecimal h
  exact CharClass.not_contains_of_apart decimals_apart_spaces hr h₁ h₂

theorem not_isLetter_of_isDecimal {c : Char} (h : isDecimal c = true) : isLetter c = false := by
  obtain ⟨r, hr, h₁, h₂⟩ := exists_of_isDecimal h
  exact CharClass.not_contains_of_apart decimals_apart_letters hr h₁ h₂

theorem not_isDecimal_of_isSpace {c : Char} (h : isSpace c = true) : isDecimal c = false := by
  rw [Bool.eq_false_iff]
  intro hd
  rw [not_isSpace_of_isDecimal hd] at h
  exact Bool.false_ne_true h

end Text

open Text

/-! ### Word characters and plain characters -/

theorem isWordPart_of_isWordStart {c : Char} (h : isWordStart c = true) : isWordPart c = true := by
  rcases Bool.or_eq_true_iff.mp h with h | h <;> simp [isWordPart, h]

theorem not_isDecimal_of_isWordStart {c : Char} (h : isWordStart c = true) :
    isDecimal c = false := by
  rcases Bool.or_eq_true_iff.mp h with h | h
  · rw [Bool.eq_false_iff]
    intro hd
    rw [not_isLetter_of_isDecimal hd] at h
    cases h
  · rw [of_decide_eq_true h]
    decide

theorem not_isWordPart_of_isSpace {c : Char} (h : isSpace c = true) : isWordPart c = false := by
  have hu : c ≠ '_' := by
    rintro rfl
    exact absurd h (by decide)
  simp [isWordPart, not_isLetter_of_isSpace h, not_isDecimal_of_isSpace h, hu]

/-- A character outside words, numbers and white space. -/
structure Plain (c : Char) : Prop where
  not_space : isSpace c = false
  not_letter : isLetter c = false
  not_decimal : isDecimal c = false
  ne_underscore : c ≠ '_'

namespace Plain

theorem not_wordStart {c : Char} (h : Plain c) : isWordStart c = false := by
  simp [isWordStart, h.not_letter, h.ne_underscore]

theorem not_wordPart {c : Char} (h : Plain c) : isWordPart c = false := by
  simp [isWordPart, h.not_letter, h.not_decimal, h.ne_underscore]

theorem slash : Plain '/' := ⟨by decide, by decide, by decide, by decide⟩

theorem ampersand : Plain '&' := ⟨by decide, by decide, by decide, by decide⟩

theorem of_ofSymbol? {c : Char} {k : Kind} (h : Kind.ofSymbol? c = some k) : Plain c := by
  unfold Kind.ofSymbol? at h
  split at h
  case h_16 => cases h
  all_goals exact ⟨by decide, by decide, by decide, by decide⟩

end Plain

end Lexis

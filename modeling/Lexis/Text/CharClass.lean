/-
Classes of characters given by a table.

A class is a list of inclusive code-point ranges in ascending order, so that a search may stop at
the first range that begins beyond the character. What a search finds is in one of the ranges
(`exists_of_contains`).
-/
namespace Lexis.Text

/-- Inclusive ranges of code points, in ascending order. -/
abbrev CharClass := List (Nat × Nat)

/-- Does one of the ascending ranges hold the code point? -/
def CharClass.holds (n : Nat) : CharClass → Bool
  | [] => false
  | (first, last) :: more => if n < first then false else n ≤ last || holds n more

/-- Is the character in the class? -/
def CharClass.contains (k : CharClass) (c : Char) : Bool :=
  k.holds c.toNat

theorem CharClass.exists_of_holds {n : Nat} {k : CharClass} (h : k.holds n = true) :
    ∃ r ∈ k, r.1 ≤ n ∧ n ≤ r.2 := by
  induction k with
  | nil => simp [holds] at h
  | cons r more ih =>
    obtain ⟨first, last⟩ := r
    simp only [holds] at h
    split at h
    · cases h
    · rcases Bool.or_eq_true_iff.mp h with h | h
      · exact ⟨(first, last), by simp, by omega, by simpa using h⟩
      · obtain ⟨r, hr, hn⟩ := ih h
        exact ⟨r, by simp [hr], hn⟩

theorem CharClass.exists_of_contains {c : Char} {k : CharClass} (h : k.contains c = true) :
    ∃ r ∈ k, r.1 ≤ c.toNat ∧ c.toNat ≤ r.2 :=
  exists_of_holds h

end Lexis.Text

/-
Suggestions for a mistyped name.

The similarity of two texts is twice the length of what they match, over their joint length. What
they match is the longest block of characters that both have, the earliest of equals, and what
matches to the left and to the right of it. Names at least three fifths similar are suggested, the
three best at most.
-/
namespace Lexis.Command

/-- How many characters two texts have in common at their starts. -/
def commonStart : List Char → List Char → Nat
  | a :: as, b :: bs => if a = b then commonStart as bs + 1 else 0
  | _, _ => 0

/-- A block that two texts have in common: where it starts in each, and its length. -/
structure Block where
  left : Nat
  right : Nat
  length : Nat
  deriving DecidableEq, Repr

/-- The longest common block, the first in the left text and then in the right among equals. -/
def longestBlock (as bs : List Char) : Block :=
  (List.range as.length).foldl (fun best i =>
    (List.range bs.length).foldl (fun best j =>
      let n := commonStart (as.drop i) (bs.drop j)
      if best.length < n then ⟨i, j, n⟩ else best) best) ⟨0, 0, 0⟩

/-- How many characters of two texts match. -/
def matching (as bs : List Char) : Nat :=
  let block := longestBlock as bs
  if _h : 0 < (longestBlock as bs).length ∧ (longestBlock as bs).left < as.length then
    matching (as.take block.left) (bs.take block.right) + block.length +
      matching (as.drop (block.left + block.length)) (bs.drop (block.right + block.length))
  else 0
termination_by as.length
decreasing_by
  all_goals
    simp only [List.length_take, List.length_drop]
    omega

/-- The similarity of two texts, as a fraction. -/
structure Similarity where
  numerator : Nat
  denominator : Nat

/-- The similarity of a name and a word. -/
def similarity (name word : String) : Similarity :=
  ⟨2 * matching name.toList word.toList, name.length + word.length⟩

/-- Is a similarity at least three fifths? -/
def Similarity.isClose (s : Similarity) : Bool :=
  3 * s.denominator ≤ 5 * s.numerator

/-- Can texts of these lengths be close, even if the shorter one matches as a whole? -/
def canBeClose (m n : Nat) : Bool :=
  3 * (m + n) ≤ 10 * min m n

/-- Does a suggestion go before another: by similarity, then by name, the greater first? -/
def goesBefore (a b : String × Similarity) : Bool :=
  let left := a.2.numerator * b.2.denominator
  let right := b.2.numerator * a.2.denominator
  right < left || (left = right && b.1 ≤ a.1)

/-- The names that a word may have been meant for, in alphabetical order. A name that is much
shorter or longer than the word is not compared with it. -/
def suggestions (names : List String) (word : String) : List String :=
  let candidates := names.filter fun n => canBeClose n.length word.length
  let close := (candidates.map fun n => (n, similarity n word)).filter (·.2.isClose)
  (((close.mergeSort goesBefore).take 3).map (·.1)).mergeSort fun a b => decide (a ≤ b)

end Lexis.Command

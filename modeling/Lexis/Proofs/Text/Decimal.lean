/-
Decimal numbers, read back.

A number is a sign or none, and digits without a leading zero (`takeInt?`).  A number in print is
one, and is read back where no digit stands behind it (`takeInt?_toString`).
-/
import Mathlib.Data.List.TakeWhile
import Mathlib.Tactic.SplitIfs

namespace Lexis.Text

/-- The number that digits show, where there is one and none is a leading zero. -/
def readNat? (digits : List Char) : Option Nat :=
  if digits = [] ∨ digits.head? = some '0' ∧ digits ≠ ['0'] then none
  else some (Nat.ofDigitChars 10 digits 0)

/-- The natural number that a text begins with, and what stands behind it. -/
def takeNat? (s : List Char) : Option (Nat × List Char) :=
  (readNat? (s.takeWhile Char.isDigit)).map (·, s.dropWhile Char.isDigit)

/-- The number that a text begins with, and what stands behind it. -/
def takeInt? : List Char → Option (Int × List Char)
  | '-' :: s => (takeNat? s).map (·.map (-Int.ofNat ·) id)
  | s => (takeNat? s).map (·.map Int.ofNat id)

/-- Does no digit stand in front of a text? -/
def NoDigit (s : List Char) : Prop :=
  ∀ c ∈ s.head?, c.isDigit = false

theorem takeWhile_isDigit {digits : List Char} (h : ∀ c ∈ digits, c.isDigit = true)
    {s : List Char} (hs : NoDigit s) : (digits ++ s).takeWhile Char.isDigit = digits := by
  rw [List.takeWhile_append_of_pos h]
  cases s with
  | nil => exact List.append_nil digits
  | cons c s => rw [List.takeWhile_cons_of_neg (by simp [hs c rfl]), List.append_nil]

theorem dropWhile_isDigit {digits : List Char} (h : ∀ c ∈ digits, c.isDigit = true)
    {s : List Char} (hs : NoDigit s) : (digits ++ s).dropWhile Char.isDigit = s := by
  rw [List.dropWhile_append_of_pos h]
  cases s with
  | nil => rfl
  | cons c s => rw [List.dropWhile_cons_of_neg (by simp [hs c rfl])]

theorem isDigit_of_mem_digits {n : Nat} : ∀ c ∈ Nat.toDigits 10 n, c.isDigit = true :=
  fun _ hc => Nat.isDigit_of_mem_toDigits (by decide) (by decide) hc

/-- Only zero is written with a zero in front. -/
theorem head?_toDigits {n : Nat} (h : n ≠ 0) : (Nat.toDigits 10 n).head? ≠ some '0' := by
  induction n using Nat.strongRecOn with
  | ind n ih =>
    rcases Nat.lt_or_ge n 10 with hn | hn
    · have hall : ∀ n < 10, n ≠ 0 → (Nat.toDigits 10 n).head? ≠ some '0' := by decide
      exact hall n hn h
    · have hfront := ih (n / 10) (by omega) (by omega)
      rw [Nat.toDigits_of_base_le (by decide) hn]
      cases hdigits : Nat.toDigits 10 (n / 10) with
      | nil => exact absurd hdigits Nat.toDigits_ne_nil
      | cons d ds => rwa [hdigits] at hfront

theorem readNat?_toDigits (n : Nat) : readNat? (Nat.toDigits 10 n) = some n := by
  rcases Nat.eq_zero_or_pos n with rfl | hn
  · rfl
  · have hform : ¬(Nat.toDigits 10 n = [] ∨
        (Nat.toDigits 10 n).head? = some '0' ∧ Nat.toDigits 10 n ≠ ['0']) := by
      rintro (h | h)
      · exact Nat.toDigits_ne_nil h
      · exact head?_toDigits hn.ne' h.1
    rw [readNat?, if_neg hform, Nat.ofDigitChars_ten_toDigits]

theorem takeNat?_toDigits (n : Nat) {s : List Char} (hs : NoDigit s) :
    takeNat? (Nat.toDigits 10 n ++ s) = some (n, s) := by
  rw [takeNat?, takeWhile_isDigit isDigit_of_mem_digits hs,
    dropWhile_isDigit isDigit_of_mem_digits hs, readNat?_toDigits, Option.map_some]

theorem takeInt?_toDigits (n : Nat) {s : List Char} (hs : NoDigit s) :
    takeInt? (Nat.toDigits 10 n ++ s) = some (Int.ofNat n, s) := by
  have hsign : ∀ t, Nat.toDigits 10 n ++ s ≠ '-' :: t := by
    intro t h
    cases hdigits : Nat.toDigits 10 n with
    | nil => exact absurd hdigits Nat.toDigits_ne_nil
    | cons d ds =>
      have hd : d.isDigit = true :=
        isDigit_of_mem_digits d (hdigits ▸ List.mem_cons_self ..)
      rw [hdigits] at h
      rw [List.head_eq_of_cons_eq h] at hd
      exact absurd hd (by decide)
  rw [takeInt?, takeNat?_toDigits n hs]
  · rfl
  · exact hsign

theorem toList_toString_negSucc (n : Nat) :
    (toString (Int.negSucc n)).toList = '-' :: Nat.toDigits 10 (n + 1) := by
  have hprint : toString (Int.negSucc n) = "-" ++ Nat.repr (n + 1) := rfl
  rw [hprint, String.toList_append, Nat.toList_repr]
  rfl

/-- **A number is read back from its print**, where no digit stands behind it. -/
theorem takeInt?_toString (n : Int) {s : List Char} (hs : NoDigit s) :
    takeInt? ((toString n).toList ++ s) = some (n, s) := by
  cases n with
  | ofNat n =>
    have hprint : (toString (Int.ofNat n)).toList = Nat.toDigits 10 n := Nat.toList_repr
    rw [hprint, takeInt?_toDigits n hs]
  | negSucc n =>
    rw [toList_toString_negSucc, List.cons_append, takeInt?, takeNat?_toDigits (n + 1) hs]
    rfl

theorem toString_int_injective : Function.Injective fun n : Int => (toString n).toList := by
  intro n m h
  have hend : NoDigit [] := fun _ hc => nomatch hc
  have hn := takeInt?_toString n hend
  rw [show (toString n).toList = (toString m).toList from h, takeInt?_toString m hend] at hn
  exact (congrArg Prod.fst (Option.some.inj hn)).symm

end Lexis.Text

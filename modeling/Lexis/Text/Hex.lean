/-
Hexadecimal digits, as escapes and code points write them.
-/
namespace Lexis.Text

/-- The last `width` hexadecimal digits of a number, in lower case. -/
def fixedHex : Nat → Nat → List Char
  | 0, _ => []
  | width + 1, n => fixedHex width (n / 16) ++ [Nat.digitChar (n % 16)]

@[simp] theorem length_fixedHex (width n : Nat) : (fixedHex width n).length = width := by
  induction width generalizing n with
  | zero => rfl
  | succ w ih => simp [fixedHex, ih]

/-- A code point in upper case, with at least two digits. -/
def codePoint (n : Nat) : List Char :=
  ((Nat.toDigits 16 n).map Char.toUpper).leftpad 2 '0'

end Lexis.Text

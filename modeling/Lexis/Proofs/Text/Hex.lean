/-
Hexadecimal digits, read back.

Digits in lower or upper case show a number (`readHex?`).  As many digits as a number needs show
that number again (`readHex?_fixedHex`), whatever stands behind them (`takeHex?_fixedHex`).
-/
import Lexis.Text.Hex
import Mathlib.Algebra.Order.Group.Nat

namespace Lexis.Text

/-- The value of a hexadecimal digit, in lower or upper case. -/
def hexValue? (c : Char) : Option Nat :=
  if c.isDigit then some (c.toNat - 0x30)
  else if 'a' ≤ c ∧ c ≤ 'f' then some (c.toNat - 0x57)
  else if 'A' ≤ c ∧ c ≤ 'F' then some (c.toNat - 0x37)
  else none

/-- The number that hexadecimal digits show. -/
def readHex? (digits : List Char) : Option Nat :=
  digits.foldlM (fun n c => (hexValue? c).map (16 * n + ·)) 0

/-- The number that the first `width` characters show, and what stands behind them. -/
def takeHex? (width : Nat) (s : List Char) : Option (Nat × List Char) :=
  if width ≤ s.length then (readHex? (s.take width)).map (·, s.drop width) else none

theorem hexValue?_digitChar {n : Nat} (h : n < 16) : hexValue? (Nat.digitChar n) = some n := by
  have hall : ∀ n < 16, hexValue? (Nat.digitChar n) = some n := by decide
  exact hall n h

theorem readHex?_concat (digits : List Char) (c : Char) :
    readHex? (digits ++ [c]) =
      (readHex? digits).bind fun n => (hexValue? c).map (16 * n + ·) := by
  simp [readHex?, List.foldlM_append]

theorem readHex?_fixedHex {width n : Nat} (h : n < 16 ^ width) :
    readHex? (fixedHex width n) = some n := by
  -- the last digit is the remainder by 16, the digits in front of it show the quotient
  induction width generalizing n with
  | zero =>
    obtain rfl : n = 0 := Nat.lt_one_iff.mp h
    rfl
  | succ width ih =>
    have hquotient : n / 16 < 16 ^ width := Nat.div_lt_of_lt_mul (by rwa [pow_succ'] at h)
    rw [fixedHex, readHex?_concat, ih hquotient, hexValue?_digitChar (Nat.mod_lt n (by decide)),
      Option.bind_some, Option.map_some, Nat.div_add_mod]

theorem takeHex?_fixedHex {width n : Nat} (h : n < 16 ^ width) (s : List Char) :
    takeHex? width (fixedHex width n ++ s) = some (n, s) := by
  have hlength : width ≤ (fixedHex width n ++ s).length := by simp
  rw [takeHex?, if_pos hlength, List.take_left' (length_fixedHex width n),
    List.drop_left' (length_fixedHex width n), readHex?_fixedHex h, Option.map_some]

end Lexis.Text

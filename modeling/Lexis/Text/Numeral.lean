/-
Signed numerals as people type them.

White space on either side is dropped. A numeral is an optional sign and decimal digits of any
scripts, with single underscores allowed between two digits. A numeral of more than
`Numeral.maxDigits` digits is refused, whatever its value.
-/
import Lexis.Text.DecimalDigit
import Lexis.Text.Space

namespace Lexis.Text

namespace Numeral

/-- The most digits that a numeral may have, leading zeros included. -/
def maxDigits : Nat := 4300

/-- May the character stand around a numeral? White space may, except for the four information
separators of ASCII. -/
def isMargin (c : Char) : Bool :=
  isSpace c && !('\x1c' ≤ c && c ≤ '\x1f')

/-- The values of the digits, where single underscores may stand between two digits. -/
def digits? : List Char → Option (List Nat)
  | [] => none
  | [c] => (digitValue? c).map ([·])
  | c :: '_' :: r => do return (← digitValue? c) :: (← digits? r)
  | c :: d :: r => do return (← digitValue? c) :: (← digits? (d :: r))

/-- The value of digits in base ten. -/
def ofDigits (ds : List Nat) : Nat :=
  ds.foldl (fun n d => 10 * n + d) 0

/-- The value of an unsigned numeral. -/
def magnitude? (s : List Char) : Option Nat := do
  let ds ← digits? s
  if ds.length ≤ maxDigits then return ofDigits ds else none

/-- The value of a numeral without margins. -/
def signed? : List Char → Option Int
  | '+' :: r => (magnitude? r).map Int.ofNat
  | '-' :: r => (magnitude? r).map fun n => -Int.ofNat n
  | s => (magnitude? s).map Int.ofNat

end Numeral

/-- The value of a numeral, if the text is one. -/
def numeral? (s : String) : Option Int :=
  Numeral.signed? (trim Numeral.isMargin s.toList)

end Lexis.Text

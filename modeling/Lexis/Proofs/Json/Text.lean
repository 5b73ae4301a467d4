/-
Strings of JSON, read back.

Between its quotes a string is read as UTF-16 units: those of a character that stands as it is, the
one of a short escape, or the one of four hexadecimal digits in lower or upper case (`readUnits`).
The units are then put together, two surrogates to one character (`combine`).  A control that
stands as it is makes the text no string, and so does a surrogate without its counterpart.

A string in print is read back unit by unit (`readUnits_escape`), hence as a whole
(`readString?_writeText`), whatever characters it holds.
-/
import Lexis.Json.Value
import Lexis.Proofs.Text.Hex
import Mathlib.Tactic.SplitIfs

namespace Lexis.Json

open Text

/-! ### UTF-16 units -/

/-- The UTF-16 units of a character. -/
def units (c : Char) : List Nat :=
  let n := c.toNat
  if n < 0x10000 then [n]
  else [0xD800 + (n - 0x10000) / 0x400, 0xDC00 + (n - 0x10000) % 0x400]

/-- Is a unit the first or the second half of a character? -/
def isHalf (u : Nat) : Bool :=
  0xD800 ≤ u ∧ u < 0xE000

/-- The characters of UTF-16 units. -/
def combine : List Nat → Option (List Char)
  | [] => some []
  | [u] => if isHalf u then none else some [Char.ofNat u]
  | u :: v :: us =>
    if (0xD800 ≤ u ∧ u < 0xDC00) ∧ 0xDC00 ≤ v ∧ v < 0xE000 then
      (combine us).map (Char.ofNat (0x10000 + (u - 0xD800) * 0x400 + (v - 0xDC00)) :: ·)
    else if isHalf u then none
    else (combine (v :: us)).map (Char.ofNat u :: ·)

theorem combine_of_pair {u v : Nat} (hu : 0xD800 ≤ u ∧ u < 0xDC00) (hv : 0xDC00 ≤ v ∧ v < 0xE000)
    (us : List Nat) :
    combine (u :: v :: us) =
      (combine us).map (Char.ofNat (0x10000 + (u - 0xD800) * 0x400 + (v - 0xDC00)) :: ·) := by
  rw [combine, if_pos ⟨hu, hv⟩]

theorem combine_of_single {u : Nat} (hu : u < 0xD800 ∨ 0xE000 ≤ u) (us : List Nat) :
    combine (u :: us) = (combine us).map (Char.ofNat u :: ·) := by
  have hhalf : ¬isHalf u = true := by
    rw [isHalf, decide_eq_true_eq]
    omega
  cases us with
  | nil => exact if_neg hhalf
  | cons v us => rw [combine, if_neg (by omega), if_neg hhalf]

/-- A character is put together of its units, whatever units stand behind them. -/
theorem combine_units (c : Char) (us : List Nat) :
    combine (units c ++ us) = (combine us).map (c :: ·) := by
  have hc : c.toNat < 0xD800 ∨ 0xDFFF < c.toNat ∧ c.toNat < 0x110000 := c.valid
  rw [units]
  split_ifs with hn
  · rw [List.singleton_append, combine_of_single (by omega), Char.ofNat_toNat]
  · have hsum : 0x10000 + (0xD800 + (c.toNat - 0x10000) / 0x400 - 0xD800) * 0x400 +
        (0xDC00 + (c.toNat - 0x10000) % 0x400 - 0xDC00) = c.toNat := by omega
    rw [List.cons_append, List.singleton_append, combine_of_pair (by omega) (by omega), hsum,
      Char.ofNat_toNat]

theorem combine_flatMap_units (s : List Char) : combine (s.flatMap units) = some s := by
  induction s with
  | nil => rfl
  | cons c s ih => rw [List.flatMap_cons, combine_units, ih, Option.map_some]

/-! ### Between the quotes -/

/-- The unit of a short escape, by the character behind the backslash. -/
def shortEscape? : Char → Option Nat
  | '\x22' => some 0x22
  | '\\' => some 0x5C
  | '/' => some 0x2F
  | 'b' => some 0x8
  | 'f' => some 0xC
  | 'n' => some 0xA
  | 'r' => some 0xD
  | 't' => some 0x9
  | _ => none

/-- The units of a string up to its closing quote, and what stands behind the quote. -/
def readUnits : List Char → Option (List Nat × List Char)
  | '\x22' :: s => some ([], s)
  | '\\' :: 'u' :: a :: b :: c :: d :: s => do
    let u ← readHex? [a, b, c, d]
    (readUnits s).map (·.map (u :: ·) id)
  | '\\' :: c :: s => do
    let u ← shortEscape? c
    (readUnits s).map (·.map (u :: ·) id)
  | c :: s =>
    if c = '\\' ∨ c.toNat < 0x20 then none else (readUnits s).map (·.map (units c ++ ·) id)
  | [] => none

/-- The string in front of a closing quote, and what stands behind the quote. -/
def readString? (s : List Char) : Option (String × List Char) :=
  (readUnits s).bind fun r => (combine r.1).map fun cs => (String.ofList cs, r.2)

theorem readUnits_unitEscape {u : Nat} (h : u < 0x10000) (s : List Char) :
    readUnits (unitEscape u ++ s) = (readUnits s).map (·.map (u :: ·) id) := by
  have h₄ : u < 16 ^ 4 := h
  have hread := readHex?_fixedHex h₄
  obtain ⟨a, b, c, d, hdigits⟩ : ∃ a b c d, fixedHex 4 u = [a, b, c, d] := ⟨_, _, _, _, rfl⟩
  rw [hdigits] at hread
  rw [unitEscape, hdigits, List.cons_append, List.cons_append, List.cons_append, List.cons_append,
    List.cons_append, List.singleton_append, readUnits, hread]
  rfl

theorem readUnits_of_plain {c : Char} (hquote : c ≠ '\x22') (hback : c ≠ '\\')
    (hc : 0x20 ≤ c.toNat) (s : List Char) :
    readUnits (c :: s) = (readUnits s).map (·.map (units c ++ ·) id) := by
  rw [readUnits, if_neg (by simp [hback, hc])]
  all_goals simp [hquote, hback]

/-- A character in print is read back as its units. -/
theorem readUnits_escape (c : Char) (s : List Char) :
    readUnits (escape c ++ s) = (readUnits s).map (·.map (units c ++ ·) id) := by
  have hcode : ∀ n, c.toNat = n → c = Char.ofNat n := fun n h => h ▸ c.ofNat_toNat.symm
  -- seven short escapes, the character as it stands, one unit, and two of them
  rw [escape]
  split_ifs with hquote hback hfeed hreturn htab hb hf hplain hn
  · subst hquote
    rfl
  · subst hback
    rfl
  · subst hfeed
    rfl
  · subst hreturn
    rfl
  · subst htab
    rfl
  · obtain rfl := hcode _ hb
    rfl
  · obtain rfl := hcode _ hf
    rfl
  · exact readUnits_of_plain hquote hback hplain.1 s
  · rw [readUnits_unitEscape hn, units, if_pos hn]
    rfl
  · have hc : c.toNat < 0xD800 ∨ 0xDFFF < c.toNat ∧ c.toNat < 0x110000 := c.valid
    rw [List.append_assoc, readUnits_unitEscape (by omega), readUnits_unitEscape (by omega), units,
      if_neg hn, Option.map_map]
    rfl

/-- **A string in print is read back**, whatever characters it holds and whatever stands behind
it. -/
theorem readString?_writeText (t : String) (s : List Char) :
    readString? (t.toList.flatMap escape ++ '\x22' :: s) = some (t, s) := by
  have hunits : ∀ cs : List Char, readUnits (cs.flatMap escape ++ '\x22' :: s) =
      some (cs.flatMap units, s) := by
    intro cs
    induction cs with
    | nil => rfl
    | cons c cs ih =>
      rw [List.flatMap_cons, List.append_assoc, readUnits_escape, ih]
      rfl
  rw [readString?, hunits, Option.bind_some, combine_flatMap_units, Option.map_some,
    String.ofList_toList]

end Lexis.Json

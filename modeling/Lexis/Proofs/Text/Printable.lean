/-
What is printed is printable.

Digits and numbers are printable ASCII (`IsAscii`), whatever number they show.  Quoted texts are
printable (`IsPrintable`), whatever text they show: an unprintable character is always written by
an escape (`isPrintable_quoted`).  No control character, and no terminal control sequence, can get
through.
-/
import Lexis.Proofs.Text.Disjoint
import Lexis.Text.Quoted
import Mathlib.Tactic.SplitIfs

namespace Lexis.Text

/-- Are all characters of a text from the space to the tilde? -/
def IsAscii (s : List Char) : Prop :=
  ∀ c ∈ s, 0x20 ≤ c.toNat ∧ c.toNat ≤ 0x7E

/-- Are all characters of a text printable? -/
def IsPrintable (s : List Char) : Prop :=
  ∀ c ∈ s, isPrintable c = true

instance (s : List Char) : Decidable (IsAscii s) :=
  List.decidableBAll (fun c : Char => 0x20 ≤ c.toNat ∧ c.toNat ≤ 0x7E) s

theorem isAscii_append {s t : List Char} : IsAscii (s ++ t) ↔ IsAscii s ∧ IsAscii t :=
  List.forall_mem_append

theorem isPrintable_append {s t : List Char} :
    IsPrintable (s ++ t) ↔ IsPrintable s ∧ IsPrintable t :=
  List.forall_mem_append

/-- What is not printable does not stand in a printable text. -/
theorem IsPrintable.notMem {s : List Char} (h : IsPrintable s) {c : Char}
    (hc : isPrintable c = false) : c ∉ s := by
  intro hmem
  rw [h c hmem] at hc
  cases hc

theorem ascii_apart_unprintables :
    CharClass.apart [(0x20, 0x7E)] unprintables = true := by decide +kernel

theorem IsAscii.isPrintable {s : List Char} (h : IsAscii s) : IsPrintable s := by
  intro c hc
  obtain ⟨hlow, hhigh⟩ := h c hc
  rw [Text.isPrintable, CharClass.not_contains_of_apart ascii_apart_unprintables
    (List.mem_singleton_self _) hlow hhigh]
  rfl

/-! ### Numbers -/

theorem isAscii_fixedHex (width n : Nat) : IsAscii (fixedHex width n) := by
  have hdigits : ∀ n ∈ List.range 16, IsAscii [Nat.digitChar n] := by decide
  induction width generalizing n with
  | zero => exact List.forall_mem_nil _
  | succ width ih =>
    have hdigit := hdigits (n % 16) (List.mem_range.mpr (Nat.mod_lt n (by decide)))
    exact isAscii_append.mpr ⟨ih _, hdigit⟩

theorem isAscii_upperHex (n : Nat) : IsAscii ((Nat.toDigits 16 n).map Char.toUpper) := by
  have hdigits : ∀ n < 16, IsAscii [(Nat.digitChar n).toUpper] := by decide
  induction n using Nat.strongRecOn with
  | ind n ih =>
    rcases Nat.lt_or_ge n 16 with hn | hn
    · rw [Nat.toDigits_of_lt_base hn]
      exact hdigits n hn
    · rw [Nat.toDigits_of_base_le (by decide) hn, List.map_append]
      exact isAscii_append.mpr ⟨ih _ (by omega), hdigits _ (Nat.mod_lt n (by decide))⟩

theorem isAscii_codePoint (n : Nat) : IsAscii (codePoint n) := by
  have hzeros : ∀ k, IsAscii (List.replicate k '0') := by
    intro k c hc
    rw [List.eq_of_mem_replicate hc]
    decide
  rw [codePoint, List.leftpad]
  exact isAscii_append.mpr ⟨hzeros _, isAscii_upperHex n⟩

theorem isAscii_nat (n : Nat) : IsAscii (toString n).toList := by
  intro c hc
  rw [Nat.toString_eq_repr, Nat.toList_repr] at hc
  obtain ⟨hlow, hhigh⟩ := Char.isDigit_iff_toNat.mp
    (Nat.isDigit_of_mem_toDigits (by decide) (by decide) hc)
  exact ⟨Nat.le_trans (by decide) hlow, Nat.le_trans hhigh (by decide)⟩

theorem isAscii_int (n : Int) : IsAscii (toString n).toList := by
  rw [Int.toString_eq_repr, Int.repr_eq_if]
  split
  · exact isAscii_nat _
  · rw [String.toList_append]
    exact isAscii_append.mpr ⟨by decide, isAscii_nat _⟩

/-! ### Quoted text -/

theorem isAscii_mark (s : List Char) : IsAscii [Quoted.mark s] := by
  rw [Quoted.mark]
  split <;> decide

theorem isAscii_escaped {letter : Char} (h : IsAscii [letter]) {digits : List Char}
    (hd : IsAscii digits) : IsAscii ('\\' :: letter :: digits) :=
  isAscii_append (s := ['\\']).mpr ⟨by decide, isAscii_append (s := [letter]).mpr ⟨h, hd⟩⟩

theorem isAscii_codeEscape (c : Char) : IsAscii (Quoted.codeEscape c) := by
  rw [Quoted.codeEscape]
  split_ifs
  · exact isAscii_escaped (by decide) (isAscii_fixedHex 2 _)
  · exact isAscii_escaped (by decide) (isAscii_fixedHex 4 _)
  · exact isAscii_escaped (by decide) (isAscii_fixedHex 8 _)

/-- Between two printable marks, every character is written by printable ones. -/
theorem isPrintable_escape {q : Char} (hq : IsAscii [q]) (c : Char) :
    IsPrintable (Quoted.escape q c) := by
  rw [Quoted.escape]
  split_ifs with hmark hfeed hreturn htab hc
  · rcases hmark with rfl | rfl
    · exact (isAscii_escaped hq (List.forall_mem_nil _)).isPrintable
    · exact IsAscii.isPrintable (by decide)
  · exact IsAscii.isPrintable (by decide)
  · exact IsAscii.isPrintable (by decide)
  · exact IsAscii.isPrintable (by decide)
  · exact List.forall_mem_singleton.mpr hc
  · exact (isAscii_codeEscape c).isPrintable

theorem isPrintable_quoted (s : String) : IsPrintable (quoted s).toList := by
  have hmark := (isAscii_mark s.toList).isPrintable
  have hinside : IsPrintable (s.toList.flatMap (Quoted.escape (Quoted.mark s.toList))) := by
    intro c hc
    obtain ⟨d, -, hd⟩ := List.mem_flatMap.mp hc
    exact isPrintable_escape (isAscii_mark _) d c hd
  rw [quoted, String.toList_ofList, Quoted.encode]
  exact isPrintable_append.mpr ⟨hmark, isPrintable_append.mpr ⟨hinside, hmark⟩⟩

end Lexis.Text

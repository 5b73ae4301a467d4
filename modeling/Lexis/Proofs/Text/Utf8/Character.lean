/-
Characters and their bytes.

The table of leads is spelled out row by row (`Utf8.Lead`): a lead byte, the bits that it carries,
and the ranges of the bytes behind it.  Bytes that a row admits are the encoding of a character
(`Lead.exists_char`), and the encoding of every character is admitted by a row
(`exists_admits`), so that the table admits exactly the well-formed sequences.  The narrowed
ranges are what rules out overlong forms, surrogates and code points beyond the last.
-/
import Lexis.Text.Utf8
import Mathlib.Data.List.Forall2

namespace Lexis.Text.Utf8

/-! ### Leads -/

/-- The rows of the table: a lead byte, its bits, and the ranges of the bytes behind it. -/
inductive Lead : Nat → Nat → List ByteRange → Prop where
  | one {b : Nat} (h : b ≤ 0x7F) : Lead b b []
  | two {b : Nat} (h : 0xC2 ≤ b) (h' : b ≤ 0xDF) : Lead b (b - 0xC0) [tail]
  | e0 : Lead 0xE0 0 [(0xA0, 0xBF), tail]
  | ed : Lead 0xED 0xD [(0x80, 0x9F), tail]
  | three {b : Nat} (h : 0xE1 ≤ b) (h' : b ≤ 0xEF) (hed : b ≠ 0xED) :
    Lead b (b - 0xE0) [tail, tail]
  | f0 : Lead 0xF0 0 [(0x90, 0xBF), tail, tail]
  | four {b : Nat} (h : 0xF1 ≤ b) (h' : b ≤ 0xF3) : Lead b (b - 0xF0) [tail, tail, tail]
  | f4 : Lead 0xF4 4 [(0x80, 0x8F), tail, tail]

theorem Lead.of_lead? {b n : Nat} {ranges : List ByteRange} (h : lead? b = some (n, ranges)) :
    Lead b n ranges := by
  unfold lead? at h
  split_ifs at h <;> simp only [Option.some.injEq, Prod.mk.injEq] at h <;> obtain ⟨rfl, rfl⟩ := h
  · exact .one (by assumption)
  · exact .two (by omega) (by assumption)
  · subst b; exact .e0
  · subst b; exact .ed
  · exact .three (by omega) (by assumption) (by assumption)
  · subst b; exact .f0
  · exact .four (by omega) (by assumption)
  · subst b; exact .f4

theorem Lead.lead?_eq {b n : Nat} {ranges : List ByteRange} (h : Lead b n ranges) :
    lead? b = some (n, ranges) := by
  unfold lead?
  cases h with
  | one h => rw [if_pos h]
  | two h h' => rw [if_neg (by omega), if_neg (by omega), if_pos h']
  | e0 | ed | f0 | f4 => rfl
  | three h h' hed =>
    rw [if_neg (by omega), if_neg (by omega), if_neg (by omega), if_neg (by omega), if_neg hed,
      if_pos h']
  | four h h' =>
    rw [if_neg (by omega), if_neg (by omega), if_neg (by omega), if_neg (by omega),
      if_neg (by omega), if_neg (by omega), if_neg (by omega), if_pos h']

/-! ### Characters -/

/-- Is a byte in a range? -/
def InRange (b : UInt8) (range : ByteRange) : Prop :=
  range.1 ≤ b.toNat ∧ b.toNat ≤ range.2

/-- The bits of continuation bytes behind those already read. -/
def value (n : Nat) (t : List UInt8) : Nat :=
  t.foldl (fun n b => n * 64 + (b.toNat - 0x80)) n

theorem ofNat_eq {n : Nat} {b : UInt8} (h : n = b.toNat) : UInt8.ofNat n = b := by
  rw [h, UInt8.ofNat_toNat]

theorem exists_char {n : Nat} (h : n.isValidChar) : ∃ c : Char, c.toNat = n :=
  ⟨Char.ofNatAux n h, rfl⟩

theorem encodeChar_eq (c : Char) :
    String.utf8EncodeChar c =
      if c.toNat ≤ 0x7F then [UInt8.ofNat c.toNat]
      else if c.toNat ≤ 0x7FF then
        [UInt8.ofNat (c.toNat / 64 % 0x20 + 0xC0), UInt8.ofNat (c.toNat % 0x40 + 0x80)]
      else if c.toNat ≤ 0xFFFF then
        [UInt8.ofNat (c.toNat / 4096 % 0x10 + 0xE0), UInt8.ofNat (c.toNat / 64 % 0x40 + 0x80),
          UInt8.ofNat (c.toNat % 0x40 + 0x80)]
      else
        [UInt8.ofNat (c.toNat / 262144 % 0x8 + 0xF0), UInt8.ofNat (c.toNat / 4096 % 0x40 + 0x80),
          UInt8.ofNat (c.toNat / 64 % 0x40 + 0x80), UInt8.ofNat (c.toNat % 0x40 + 0x80)] := rfl

variable {b w x y : UInt8} {n : Nat} {ranges : List ByteRange} {t : List UInt8}

theorem value_cons (n : Nat) (b : UInt8) (t : List UInt8) :
    value n (b :: t) = value (n * 64 + (b.toNat - 0x80)) t := List.foldl_cons ..

@[simp] theorem value_one : value n [x] = n * 64 + (x.toNat - 0x80) := rfl

@[simp] theorem value_two :
    value n [x, y] = (n * 64 + (x.toNat - 0x80)) * 64 + (y.toNat - 0x80) := rfl

@[simp] theorem value_three :
    value n [w, x, y] =
      ((n * 64 + (w.toNat - 0x80)) * 64 + (x.toNat - 0x80)) * 64 + (y.toNat - 0x80) := rfl

theorem exists_char_two (hb : b.toNat = n + 0xC0) (hn : 2 ≤ n ∧ n ≤ 0x1F)
    (hx : 0x80 ≤ x.toNat ∧ x.toNat ≤ 0xBF) :
    ∃ c : Char, c.toNat = value n [x] ∧ String.utf8EncodeChar c = [b, x] := by
  rw [value_one]
  obtain ⟨c, hc⟩ := exists_char (n := n * 64 + (x.toNat - 0x80)) (.inl (by omega))
  refine ⟨c, hc, ?_⟩
  rw [encodeChar_eq, if_neg (by omega), if_pos (by omega), ofNat_eq (b := b) (by omega),
    ofNat_eq (b := x) (by omega)]

theorem exists_char_three (hb : b.toNat = n + 0xE0) (hn : n ≤ 0xF)
    (hx : 0x80 ≤ x.toNat ∧ x.toNat ≤ 0xBF) (hy : 0x80 ≤ y.toNat ∧ y.toNat ≤ 0xBF)
    (hlow : 0x800 ≤ value n [x, y])
    (hsurrogate : value n [x, y] < 0xD800 ∨ 0xDFFF < value n [x, y]) :
    ∃ c : Char, c.toNat = value n [x, y] ∧ String.utf8EncodeChar c = [b, x, y] := by
  rw [value_two] at *
  obtain ⟨c, hc⟩ := exists_char (hsurrogate.imp_right fun h => ⟨h, by omega⟩)
  refine ⟨c, hc, ?_⟩
  rw [encodeChar_eq, if_neg (by omega), if_neg (by omega), if_pos (by omega),
    ofNat_eq (b := b) (by omega), ofNat_eq (b := x) (by omega), ofNat_eq (b := y) (by omega)]

theorem exists_char_four (hb : b.toNat = n + 0xF0) (hw : 0x80 ≤ w.toNat ∧ w.toNat ≤ 0xBF)
    (hx : 0x80 ≤ x.toNat ∧ x.toNat ≤ 0xBF) (hy : 0x80 ≤ y.toNat ∧ y.toNat ≤ 0xBF)
    (hlow : 0x10000 ≤ value n [w, x, y]) (hhigh : value n [w, x, y] ≤ 0x10FFFF) :
    ∃ c : Char, c.toNat = value n [w, x, y] ∧ String.utf8EncodeChar c = [b, w, x, y] := by
  rw [value_three] at *
  obtain ⟨c, hc⟩ := exists_char (.inr ⟨by omega, by omega⟩ : Nat.isValidChar
    (((n * 64 + (w.toNat - 0x80)) * 64 + (x.toNat - 0x80)) * 64 + (y.toNat - 0x80)))
  refine ⟨c, hc, ?_⟩
  rw [encodeChar_eq, if_neg (by omega), if_neg (by omega), if_neg (by omega),
    ofNat_eq (b := b) (by omega), ofNat_eq (b := w) (by omega), ofNat_eq (b := x) (by omega),
    ofNat_eq (b := y) (by omega)]

theorem forall₂_one {r₁ : ByteRange} (h : List.Forall₂ InRange t [r₁]) :
    ∃ x, t = [x] ∧ InRange x r₁ := by
  obtain ⟨x, t, hx, ht, rfl⟩ := List.forall₂_cons_right_iff.mp h
  exact ⟨x, by rw [List.forall₂_nil_right_iff.mp ht], hx⟩

theorem forall₂_two {r₁ r₂ : ByteRange} (h : List.Forall₂ InRange t [r₁, r₂]) :
    ∃ x y, t = [x, y] ∧ InRange x r₁ ∧ InRange y r₂ := by
  obtain ⟨x, t, hx, ht, rfl⟩ := List.forall₂_cons_right_iff.mp h
  obtain ⟨y, rfl, hy⟩ := forall₂_one ht
  exact ⟨x, y, rfl, hx, hy⟩

theorem forall₂_three {r₁ r₂ r₃ : ByteRange} (h : List.Forall₂ InRange t [r₁, r₂, r₃]) :
    ∃ w x y, t = [w, x, y] ∧ InRange w r₁ ∧ InRange x r₂ ∧ InRange y r₃ := by
  obtain ⟨w, t, hw, ht, rfl⟩ := List.forall₂_cons_right_iff.mp h
  obtain ⟨x, y, rfl, hx, hy⟩ := forall₂_two ht
  exact ⟨w, x, y, rfl, hw, hx, hy⟩

/-- Bytes that a row of the table admits are the encoding of a character. -/
theorem Lead.exists_char (h : Lead b.toNat n ranges) (ht : List.Forall₂ InRange t ranges) :
    ∃ c : Char, c.toNat = value n t ∧ String.utf8EncodeChar c = b :: t := by
  generalize hb : b.toNat = m at h
  cases h with
  | one h =>
    obtain rfl := List.forall₂_nil_right_iff.mp ht
    obtain ⟨c, hc⟩ := Utf8.exists_char (.inl (by omega) : n.isValidChar)
    refine ⟨c, hc, ?_⟩
    rw [encodeChar_eq, if_pos (by omega), ofNat_eq (b := b) (by omega)]
  | two h h' =>
    obtain ⟨x, rfl, hx⟩ := forall₂_one ht
    exact exists_char_two (by omega) (by omega) hx
  | e0 | ed | three h h' hed =>
    obtain ⟨x, y, rfl, hx, hy⟩ := forall₂_two ht
    simp only [InRange, tail] at hx hy
    refine exists_char_three (by omega) (by omega) (by omega) hy ?_ ?_
    · rw [value_two]
      omega
    · rw [value_two]
      omega
  | f0 | four h h' | f4 =>
    obtain ⟨w, x, y, rfl, hw, hx, hy⟩ := forall₂_three ht
    simp only [InRange, tail] at hw hx hy
    refine exists_char_four (by omega) (by omega) hx hy ?_ ?_
    · rw [value_three]
      omega
    · rw [value_three]
      omega

theorem toNat_ofNat {n : Nat} (h : n < 256) : (UInt8.ofNat n).toNat = n :=
  UInt8.toNat_ofNat_of_lt' h

/-- A row of the table admits some bytes, and they carry a value. -/
def Admits (b : UInt8) (t : List UInt8) (v : Nat) : Prop :=
  ∃ n ranges, Lead b.toNat n ranges ∧ List.Forall₂ InRange t ranges ∧ value n t = v

theorem inRange_tail (h : b.toNat = n % 0x40 + 0x80) : InRange b tail := by
  simp only [InRange, tail]
  omega

theorem admits_two {v : Nat} (hb : b.toNat = v / 64 + 0xC0) (hx : x.toNat = v % 0x40 + 0x80)
    (hv : 0x80 ≤ v ∧ v ≤ 0x7FF) : Admits b [x] v := by
  refine ⟨b.toNat - 0xC0, [tail], .two (by omega) (by omega), .cons (inRange_tail hx) .nil, ?_⟩
  rw [value_one]
  omega

theorem admits_three {v : Nat} (hb : b.toNat = v / 4096 + 0xE0)
    (hx : x.toNat = v / 64 % 0x40 + 0x80) (hy : y.toNat = v % 0x40 + 0x80)
    (hv : 0x800 ≤ v ∧ v ≤ 0xFFFF) (hsurrogate : v < 0xD800 ∨ 0xDFFF < v) :
    Admits b [x, y] v := by
  have hvalue : value (b.toNat - 0xE0) [x, y] = v := by
    rw [value_two]
    omega
  have hrest : List.Forall₂ InRange [y] [tail] := .cons (inRange_tail hy) .nil
  -- two of the leads narrow the byte behind them
  by_cases h₁ : b.toNat = 0xE0
  · have hlead : Lead b.toNat 0 [(0xA0, 0xBF), tail] := h₁ ▸ Lead.e0
    have hx' : InRange x (0xA0, 0xBF) := by
      simp only [InRange]
      omega
    rw [h₁] at hvalue
    exact ⟨0, _, hlead, .cons hx' hrest, hvalue⟩
  · by_cases h₂ : b.toNat = 0xED
    · have hlead : Lead b.toNat 0xD [(0x80, 0x9F), tail] := h₂ ▸ Lead.ed
      have hx' : InRange x (0x80, 0x9F) := by
        simp only [InRange]
        omega
      rw [h₂] at hvalue
      exact ⟨0xD, _, hlead, .cons hx' hrest, hvalue⟩
    · exact ⟨_, _, .three (by omega) (by omega) h₂, .cons (inRange_tail hx) hrest, hvalue⟩

theorem admits_four {v : Nat} (hb : b.toNat = v / 262144 + 0xF0)
    (hw : w.toNat = v / 4096 % 0x40 + 0x80) (hx : x.toNat = v / 64 % 0x40 + 0x80)
    (hy : y.toNat = v % 0x40 + 0x80) (hv : 0x10000 ≤ v ∧ v ≤ 0x10FFFF) :
    Admits b [w, x, y] v := by
  have hvalue : value (b.toNat - 0xF0) [w, x, y] = v := by
    rw [value_three]
    omega
  have hrest : List.Forall₂ InRange [x, y] [tail, tail] :=
    .cons (inRange_tail hx) (.cons (inRange_tail hy) .nil)
  by_cases h₁ : b.toNat = 0xF0
  · have hlead : Lead b.toNat 0 [(0x90, 0xBF), tail, tail] := h₁ ▸ Lead.f0
    have hw' : InRange w (0x90, 0xBF) := by
      simp only [InRange]
      omega
    rw [h₁] at hvalue
    exact ⟨0, _, hlead, .cons hw' hrest, hvalue⟩
  · by_cases h₂ : b.toNat = 0xF4
    · have hlead : Lead b.toNat 4 [(0x80, 0x8F), tail, tail] := h₂ ▸ Lead.f4
      have hw' : InRange w (0x80, 0x8F) := by
        simp only [InRange]
        omega
      rw [h₂] at hvalue
      exact ⟨4, _, hlead, .cons hw' hrest, hvalue⟩
    · exact ⟨_, _, .four (by omega) (by omega), .cons (inRange_tail hw) hrest, hvalue⟩

/-- The encoding of a character is admitted, and carries it. -/
theorem exists_admits (c : Char) :
    ∃ b t, String.utf8EncodeChar c = b :: t ∧ Admits b t c.toNat := by
  have hc : c.toNat < 0xD800 ∨ 0xDFFF < c.toNat ∧ c.toNat < 0x110000 := c.valid
  rw [encodeChar_eq]
  split_ifs with h₁ h₂ h₃
  · have hlead : Lead (UInt8.ofNat c.toNat).toNat c.toNat [] := by
      rw [toNat_ofNat (by omega)]
      exact .one h₁
    exact ⟨_, [], rfl, c.toNat, [], hlead, .nil, rfl⟩
  · refine ⟨_, _, rfl, admits_two ?_ ?_ (by omega)⟩ <;> rw [toNat_ofNat (by omega)]
    omega
  · refine ⟨_, _, rfl, admits_three ?_ ?_ ?_ (by omega) (by omega)⟩ <;>
      rw [toNat_ofNat (by omega)]
    omega
  · refine ⟨_, _, rfl, admits_four ?_ ?_ ?_ ?_ (by omega)⟩ <;> rw [toNat_ofNat (by omega)]
    omega

/-- What begins with a lead and is the encoding of a character is admitted by the lead's row. -/
theorem Lead.of_encodeChar {c : Char} (h : Lead b.toNat n ranges)
    (hc : String.utf8EncodeChar c = b :: t) :
    List.Forall₂ InRange t ranges ∧ value n t = c.toNat := by
  obtain ⟨b', t', ht', m, ranges', hlead, hfits, hvalue⟩ := exists_admits c
  obtain ⟨rfl, rfl⟩ := List.cons_eq_cons.mp (hc.symm.trans ht')
  obtain ⟨rfl, rfl⟩ : n = m ∧ ranges = ranges' := by
    simpa using h.lead?_eq.symm.trans hlead.lead?_eq
  exact ⟨hfits, hvalue⟩

end Lexis.Text.Utf8

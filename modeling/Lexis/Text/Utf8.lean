/-
UTF-8.

A lead byte fixes the first bits of the character and, byte for byte, the range of each
continuation byte. The table of leads leaves out every byte that starts no character, and narrows
the first continuation where the general range would admit an overlong form, a surrogate or a
code point beyond the last. Decoding stops at the first sequence that is not well formed, and says
which bytes of it were read and what was wrong.
-/
namespace Lexis.Text.Utf8

/-- What is wrong with a sequence of bytes. -/
inductive Flaw where
  /-- The first byte starts no character. -/
  | start
  /-- A byte within the sequence does not continue it. -/
  | continuation
  /-- The input ends within the sequence. -/
  | ending
  deriving DecidableEq, Repr

/-- The first ill-formed sequence of an input: where it starts, the lead byte, how many of its
bytes are well formed as far as they go (at least the lead counts), and its flaw. -/
structure IllFormed where
  start : Nat
  lead : UInt8
  length : Nat
  flaw : Flaw
  deriving DecidableEq, Repr

/-- A range of bytes. -/
abbrev ByteRange := Nat × Nat

/-- The range of a continuation byte where nothing narrows it. -/
def tail : ByteRange := (0x80, 0xBF)

/-- The bits that a lead byte carries and the ranges of the bytes it asks for. -/
def lead? (b : Nat) : Option (Nat × List ByteRange) :=
  if b ≤ 0x7F then some (b, [])
  else if b < 0xC2 then none
  else if b ≤ 0xDF then some (b - 0xC0, [tail])
  else if b = 0xE0 then some (0, [(0xA0, 0xBF), tail])
  else if b = 0xED then some (0xD, [(0x80, 0x9F), tail])
  else if b ≤ 0xEF then some (b - 0xE0, [tail, tail])
  else if b = 0xF0 then some (0, [(0x90, 0xBF), tail, tail])
  else if b ≤ 0xF3 then some (b - 0xF0, [tail, tail, tail])
  else if b = 0xF4 then some (4, [(0x80, 0x8F), tail, tail])
  else none

/-- Reads the continuation bytes of a sequence of which `seen` bytes are read and have the value
`n`. Gives the value of the whole and the bytes after it, or the count of good bytes and the
flaw. -/
def continue? (n seen : Nat) :
    List ByteRange → List UInt8 → Except (Nat × Flaw) (Nat × List UInt8)
  | [], r => .ok (n, r)
  | _ :: _, [] => .error (seen, .ending)
  | (low, high) :: more, b :: r =>
    if low ≤ b.toNat ∧ b.toNat ≤ high then
      continue? (n * 64 + (b.toNat - 0x80)) (seen + 1) more r
    else .error (seen, .continuation)

/-- Reads one character: the character, the count of its bytes and the bytes after it, or the count
of good bytes and the flaw. -/
def character (b : UInt8) (r : List UInt8) :
    Except (Nat × Flaw) (Char × Nat × List UInt8) :=
  match lead? b.toNat with
  | none => .error (1, .start)
  | some (n, ranges) =>
    (continue? n 1 ranges r).map fun (n, rest) => (Char.ofNat n, ranges.length + 1, rest)

theorem length_continue? {n seen : Nat} {ranges : List ByteRange} {r rest : List UInt8} {m : Nat}
    (h : continue? n seen ranges r = .ok (m, rest)) : rest.length + ranges.length = r.length := by
  induction ranges generalizing n seen r with
  | nil => cases h; rfl
  | cons range more ih =>
    obtain ⟨low, high⟩ := range
    cases r with
    | nil => cases h
    | cons b r =>
      simp only [continue?] at h
      split at h
      · have := ih h
        simp only [List.length_cons]
        omega
      · cases h

theorem length_character {b : UInt8} {r rest : List UInt8} {c : Char} {k : Nat}
    (h : character b r = .ok (c, k, rest)) : rest.length + k = r.length + 1 ∧ 0 < k := by
  unfold character at h
  split at h
  · cases h
  · rename_i n ranges _
    cases hc : continue? n 1 ranges r with
    | error e => rw [hc] at h; cases h
    | ok p =>
      obtain ⟨m, rest'⟩ := p
      rw [hc] at h
      cases h
      have := length_continue? hc
      omega

/-- Decodes the bytes from position `start` on, behind the characters already read, which are in
reverse. -/
def decodeFrom (start : Nat) (done : List Char) : List UInt8 → Except IllFormed (List Char)
  | [] => .ok done.reverse
  | b :: r =>
    match _h : character b r with
    | .ok (c, k, rest) => decodeFrom (start + k) (c :: done) rest
    | .error (length, flaw) => .error ⟨start, b, length, flaw⟩
termination_by bytes => bytes.length
decreasing_by
  have := length_character _h
  simp only [List.length_cons]
  omega

/-- Decodes an input as a whole. -/
def decode (bytes : List UInt8) : Except IllFormed (List Char) :=
  decodeFrom 0 [] bytes

end Lexis.Text.Utf8

/-
Decoding UTF-8.

The bytes of a text are decoded to that text, and nothing else is decoded (`decode_eq_ok_iff`).
Any other input is refused for its first ill-formed sequence (`decode_eq_error_iff`), which is
described without the decoder: behind the bytes of some text stand bytes that begin no character,
or that stop beginning one at the next byte, or that the input ends in (`IllFormed.FirstIn`).
There is only one such sequence, and one way to blame it (`Flaw.Holds.unique`).
-/
import Lexis.Proofs.Text.Utf8.Character

namespace Lexis.Text.Utf8

variable {b x : UInt8} {n : Nat} {ranges : List ByteRange} {t : List UInt8}

/-! ### Texts and their bytes -/

/-- The bytes of a text. -/
def encode (s : List Char) : List UInt8 :=
  s.flatMap String.utf8EncodeChar

theorem encode_cons (c : Char) (s : List Char) :
    encode (c :: s) = String.utf8EncodeChar c ++ encode s := rfl

theorem encode_toList (s : String) : encode s.toList = s.toUTF8.data.toList := by
  rw [String.toUTF8_eq_toByteArray, ← String.utf8Encode_toList, List.utf8Encode,
    List.data_toByteArray, encode]

/-! ### Reading a character -/

theorem continue?_of_inRange {range : ByteRange} (h : InRange b range) (n seen : Nat)
    (more : List ByteRange) (r : List UInt8) :
    continue? n seen (range :: more) (b :: r) =
      continue? (n * 64 + (b.toNat - 0x80)) (seen + 1) more r := if_pos h

theorem continue?_append (h : List.Forall₂ InRange t ranges) (n seen : Nat) (r : List UInt8) :
    continue? n seen ranges (t ++ r) = .ok (value n t, r) := by
  induction h generalizing n seen with
  | nil => rfl
  | cons hb _ ih =>
    rw [List.cons_append, continue?_of_inRange hb, ih, value_cons]

/-- The continuation bytes are read as long as they are in their ranges: all of them, or up to the
end of the input, or up to a byte that is in none. -/
theorem continue?_cases (ranges : List ByteRange) (n seen : Nat) (r : List UInt8) :
    (∃ t rest, r = t ++ rest ∧ List.Forall₂ InRange t ranges) ∨
    (∃ front range more, ranges = front ++ range :: more ∧ List.Forall₂ InRange r front ∧
      continue? n seen ranges r = .error (seen + r.length, .ending)) ∨
    (∃ t b rest front range more, r = t ++ b :: rest ∧ ranges = front ++ range :: more ∧
      List.Forall₂ InRange t front ∧ ¬ InRange b range ∧
      continue? n seen ranges r = .error (seen + t.length, .continuation)) := by
  induction ranges generalizing n seen r with
  | nil => exact .inl ⟨[], r, rfl, .nil⟩
  | cons range more ih =>
    cases r with
    | nil => exact .inr (.inl ⟨[], range, more, rfl, .nil, rfl⟩)
    | cons b r =>
      by_cases hb : InRange b range
      · rw [continue?_of_inRange hb]
        rcases ih (n * 64 + (b.toNat - 0x80)) (seen + 1) r with
          ⟨t, rest, rfl, ht⟩ | ⟨front, range', more', rfl, ht, he⟩ |
          ⟨t, c, rest, front, range', more', rfl, rfl, ht, hc, he⟩
        · exact .inl ⟨b :: t, rest, rfl, .cons hb ht⟩
        · refine .inr (.inl ⟨range :: front, range', more', rfl, .cons hb ht, ?_⟩)
          rw [he, List.length_cons, Nat.add_right_comm, Nat.add_assoc]
        · refine .inr (.inr ⟨b :: t, c, rest, range :: front, range', more', rfl, rfl,
            .cons hb ht, hc, ?_⟩)
          rw [he, List.length_cons, Nat.add_right_comm, Nat.add_assoc]
      · exact .inr (.inr ⟨[], b, r, [], range, more, rfl, rfl, .nil, hb, if_neg hb⟩)

theorem character_of_lead (h : Lead b.toNat n ranges) (r : List UInt8) :
    character b r =
      (continue? n 1 ranges r).map fun (n, rest) => (Char.ofNat n, ranges.length + 1, rest) := by
  rw [character, h.lead?_eq]

theorem character_append {c : Char} (h : String.utf8EncodeChar c = b :: t) (r : List UInt8) :
    character b (t ++ r) = .ok (c, t.length + 1, r) := by
  obtain ⟨b', t', ht', n, ranges, hlead, hfits, hvalue⟩ := exists_admits c
  obtain ⟨rfl, rfl⟩ := List.cons_eq_cons.mp (h.symm.trans ht')
  rw [character_of_lead hlead, continue?_append hfits, hvalue, hfits.length_eq]
  show Except.ok (Char.ofNat c.toNat, ranges.length + 1, r) = _
  rw [Char.ofNat_toNat]

/-! ### Ill-formed sequences -/

/-- The encoding of some character begins with these bytes. -/
def Begins (bs : List UInt8) : Prop :=
  ∃ c, bs <+: String.utf8EncodeChar c

/-- The encoding of some character begins with these bytes and goes on behind them. -/
def Unfinished (bs : List UInt8) : Prop :=
  ∃ c, bs <+: String.utf8EncodeChar c ∧ bs ≠ String.utf8EncodeChar c

/-- The first `length` bytes of an input begin no character, or one that does not go on as the
input does, or one that the input ends in. -/
def Flaw.Holds (length : Nat) (bytes : List UInt8) : Flaw → Prop
  | .start => length = 1 ∧ ¬ Begins (bytes.take 1)
  | .continuation => 0 < length ∧ length < bytes.length ∧ Unfinished (bytes.take length) ∧
      ¬ Begins (bytes.take (length + 1))
  | .ending => length = bytes.length ∧ Unfinished bytes

/-- Behind some text, which is well formed, the rest of an input begins with an ill-formed
sequence. -/
def IllFormed.FirstIn (e : IllFormed) (bytes : List UInt8) : Prop :=
  ∃ s rest, bytes = encode s ++ e.lead :: rest ∧ e.start = (encode s).length ∧
    e.flaw.Holds e.length (e.lead :: rest)

theorem Lead.range_spec {m : Nat} (h : Lead m n ranges) :
    ∀ range ∈ ranges, range.1 ≤ range.2 ∧ range.2 < 256 := by
  cases h <;> simp [tail]

theorem exists_forall₂ (h : ∀ range ∈ ranges, range.1 ≤ range.2 ∧ range.2 < 256) :
    ∃ t, List.Forall₂ InRange t ranges := by
  induction ranges with
  | nil => exact ⟨[], .nil⟩
  | cons range more ih =>
    obtain ⟨hrange, hmore⟩ := List.forall_mem_cons.mp h
    obtain ⟨t, ht⟩ := ih hmore
    have hb : InRange (UInt8.ofNat range.1) range := by
      rw [InRange, toNat_ofNat (by omega)]
      exact ⟨Nat.le_refl _, hrange.1⟩
    exact ⟨_, .cons hb ht⟩

/-- Bytes that a row of the table admits as far as they go are unfinished. -/
theorem Lead.unfinished {front more : List ByteRange} {range : ByteRange}
    (h : Lead b.toNat n (front ++ range :: more)) (ht : List.Forall₂ InRange t front) :
    Unfinished (b :: t) := by
  obtain ⟨u, hu⟩ := exists_forall₂ fun r hr => h.range_spec r (List.mem_append_right front hr)
  obtain ⟨c, -, hc⟩ := h.exists_char (List.rel_append ht hu)
  refine ⟨c, ⟨u, hc.symm⟩, fun heq => ?_⟩
  obtain rfl : u = [] := by simpa using heq.trans hc
  cases hu

theorem Lead.not_begins {front more : List ByteRange} {range : ByteRange}
    (h : Lead b.toNat n (front ++ range :: more)) (ht : List.Forall₂ InRange t front)
    (hx : ¬ InRange x range) : ¬ Begins (b :: (t ++ [x])) := by
  rintro ⟨c, u, hc⟩
  have hc' : String.utf8EncodeChar c = b :: (t ++ x :: u) := by
    rw [← hc, List.cons_append, List.append_assoc]
    rfl
  obtain ⟨hfits, -⟩ := h.of_encodeChar hc'
  have hdrop := List.forall₂_drop_append _ _ _ hfits
  rw [← ht.length_eq, List.drop_left] at hdrop
  cases hdrop with
  | cons hr _ => exact hx hr

/-- Bytes begin with the encoding of a character, or with an ill-formed sequence. -/
theorem character_cases (b : UInt8) (r : List UInt8) :
    (∃ c t rest, String.utf8EncodeChar c = b :: t ∧ r = t ++ rest) ∨
      ∃ length flaw, character b r = .error (length, flaw) ∧
        Flaw.Holds length (b :: r) flaw := by
  cases hlead : lead? b.toNat with
  | none =>
    have hbegins : ¬ Begins [b] := by
      rintro ⟨c, u, hc⟩
      obtain ⟨b', t', ht', n, ranges, h, -⟩ := exists_admits c
      obtain ⟨rfl, -⟩ := List.cons_eq_cons.mp (hc.trans ht')
      cases hlead.symm.trans h.lead?_eq
    refine .inr ⟨1, .start, ?_, rfl, hbegins⟩
    rw [character, hlead]
  | some p =>
    obtain ⟨n, ranges⟩ := p
    have h := Lead.of_lead? hlead
    rw [character_of_lead h]
    rcases continue?_cases ranges n 1 r with
      ⟨t, rest, rfl, ht⟩ | ⟨front, range, more, rfl, ht, he⟩ |
      ⟨t, x, rest, front, range, more, rfl, rfl, ht, hx, he⟩
    · obtain ⟨c, -, hc⟩ := h.exists_char ht
      exact .inl ⟨c, t, rest, hc, rfl⟩
    · rw [he]
      refine .inr ⟨_, _, rfl, Nat.add_comm _ _, h.unfinished ht⟩
    · rw [he]
      refine .inr ⟨_, _, rfl, by omega, ?_, ?_, ?_⟩
      · simp
        omega
      · rw [Nat.add_comm, List.take_succ_cons, List.take_left]
        exact h.unfinished ht
      · have htake : (b :: (t ++ x :: rest)).take (1 + t.length + 1) = b :: (t ++ [x]) := by
          rw [Nat.add_comm 1, List.take_succ_cons, List.take_length_add_append]
          rfl
        rw [htake]
        exact h.not_begins ht hx

/-! ### Whole inputs -/

theorem decodeFrom_encode (start : Nat) (done s : List Char) (r : List UInt8) :
    decodeFrom start done (encode s ++ r) =
      decodeFrom (start + (encode s).length) (s.reverse ++ done) r := by
  induction s generalizing start done with
  | nil => rfl
  | cons c s ih =>
    obtain ⟨b, t, ht, -⟩ := exists_admits c
    rw [encode_cons, ht, List.append_assoc, List.cons_append, decodeFrom]
    split
    · rename_i c' k rest hk
      rw [character_append ht] at hk
      cases hk
      rw [ih, List.length_append, List.reverse_cons, List.append_assoc]
      simp only [List.length_cons, Nat.add_assoc]
      rfl
    · rename_i hk
      rw [character_append ht] at hk
      cases hk

/-- Every input is the encoding of a text, or has an ill-formed sequence behind one. -/
theorem exists_encode (bytes : List UInt8) :
    ∃ s, bytes = encode s ∨ ∃ b r length flaw, bytes = encode s ++ b :: r ∧
      character b r = .error (length, flaw) ∧ flaw.Holds length (b :: r) := by
  induction hn : bytes.length using Nat.strongRecOn generalizing bytes with
  | ind n ih =>
    cases bytes with
    | nil => exact ⟨[], .inl rfl⟩
    | cons b r =>
      rcases character_cases b r with ⟨c, t, rest, hc, rfl⟩ | ⟨length, flaw, he, hflaw⟩
      · have hlt : rest.length < n := by
          rw [← hn, List.length_cons, List.length_append]
          omega
        have hfront : b :: (t ++ rest) = String.utf8EncodeChar c ++ rest := by
          rw [hc, List.cons_append]
        obtain ⟨s, hs⟩ := ih _ hlt rest rfl
        refine ⟨c :: s, ?_⟩
        rw [hfront, encode_cons]
        rcases hs with rfl | ⟨b, r, length, flaw, rfl, he, hflaw⟩
        · exact .inl rfl
        · refine .inr ⟨b, r, length, flaw, ?_, he, hflaw⟩
          rw [List.append_assoc]
      · exact ⟨[], .inr ⟨b, r, length, flaw, rfl, he, hflaw⟩⟩

theorem decode_encode (s : List Char) : decode (encode s) = .ok s := by
  have h := decodeFrom_encode 0 [] s []
  rw [List.append_nil, List.append_nil, decodeFrom, List.reverse_reverse] at h
  exact h

theorem decode_of_error {s : List Char} {b : UInt8} {r : List UInt8} {length : Nat} {flaw : Flaw}
    (h : character b r = .error (length, flaw)) :
    decode (encode s ++ b :: r) = .error ⟨(encode s).length, b, length, flaw⟩ := by
  rw [decode, decodeFrom_encode, decodeFrom, Nat.zero_add]
  split
  · rename_i hk
    cases h.symm.trans hk
  · rename_i hk
    cases h.symm.trans hk
    rfl

/-- **An input is decoded exactly if it is the encoding of a text**, and then to that text. -/
theorem decode_eq_ok_iff {bytes : List UInt8} {s : List Char} :
    decode bytes = .ok s ↔ bytes = encode s := by
  constructor
  · intro h
    obtain ⟨s', rfl | ⟨b, r, length, flaw, rfl, he, -⟩⟩ := exists_encode bytes
    · rw [decode_encode] at h
      cases h
      rfl
    · rw [decode_of_error he] at h
      cases h
  · rintro rfl
    exact decode_encode s

theorem Begins.of_prefix {bs cs : List UInt8} (h : Begins cs) (hp : bs <+: cs) : Begins bs := by
  obtain ⟨c, hc⟩ := h
  exact ⟨c, hp.trans hc⟩

theorem Unfinished.begins {bs : List UInt8} (h : Unfinished bs) : Begins bs := by
  obtain ⟨c, hc, -⟩ := h
  exact ⟨c, hc⟩

/-- No encoding goes on behind another one. -/
theorem not_unfinished_append (c : Char) (u : List UInt8) :
    ¬ Unfinished (String.utf8EncodeChar c ++ u) := by
  rintro ⟨c', ⟨v, hv⟩, hne⟩
  obtain ⟨b, t, ht, -⟩ := exists_admits c
  rw [ht, List.cons_append, List.cons_append, List.append_assoc] at hv
  -- both are read from the same bytes
  have h' := character_append hv.symm []
  rw [List.append_nil, character_append ht] at h'
  obtain ⟨rfl, rfl, -⟩ : c = c' ∧ u = [] ∧ v = [] := by simpa using h'
  exact hne (List.append_nil _)

theorem Flaw.not_holds_append (c : Char) (r : List UInt8) (length : Nat) (flaw : Flaw) :
    ¬ flaw.Holds length (String.utf8EncodeChar c ++ r) := by
  cases flaw with
  | start =>
    rintro ⟨-, hbegins⟩
    obtain ⟨b, t, ht, -⟩ := exists_admits c
    refine hbegins ⟨c, ?_⟩
    rw [ht]
    exact ⟨t, rfl⟩
  | continuation =>
    rintro ⟨-, -, hfront, hbegins⟩
    by_cases hlength : length < (String.utf8EncodeChar c).length
    · refine hbegins ⟨c, ?_⟩
      rw [List.take_append_of_le_length hlength]
      exact List.take_prefix _ _
    · rw [List.take_append, List.take_of_length_le (by omega)] at hfront
      exact not_unfinished_append c _ hfront
  | ending =>
    rintro ⟨-, hrest⟩
    exact not_unfinished_append c r hrest

namespace Flaw.Holds

variable {bytes : List UInt8} {length length' k : Nat} {flaw flaw' : Flaw}

theorem begins_of_continuation (h : Flaw.continuation.Holds length bytes) (hk : k ≤ length) :
    Begins (bytes.take k) :=
  h.2.2.1.begins.of_prefix (List.take_prefix_take_left hk)

theorem begins_of_ending (h : Flaw.ending.Holds length bytes) (k : Nat) :
    Begins (bytes.take k) :=
  h.2.begins.of_prefix (List.take_prefix k bytes)

theorem le_of_continuation (h : Flaw.continuation.Holds length bytes)
    (h' : Flaw.continuation.Holds length' bytes) : length ≤ length' := by
  by_contra hlt
  exact h'.2.2.2 (h.begins_of_continuation (by omega))

/-- An input has one flaw, of one length. -/
theorem unique (h : flaw.Holds length bytes) (h' : flaw'.Holds length' bytes) :
    length = length' ∧ flaw = flaw' := by
  match flaw, flaw', h, h' with
  | .start, .start, h, h' => exact ⟨h.1.trans h'.1.symm, rfl⟩
  | .start, .continuation, h, h' => exact absurd (h'.begins_of_continuation h'.1) h.2
  | .start, .ending, h, h' => exact absurd (h'.begins_of_ending 1) h.2
  | .continuation, .start, h, h' => exact absurd (h.begins_of_continuation h.1) h'.2
  | .continuation, .continuation, h, h' =>
    exact ⟨Nat.le_antisymm (h.le_of_continuation h') (h'.le_of_continuation h), rfl⟩
  | .continuation, .ending, h, h' => exact absurd (h'.begins_of_ending (length + 1)) h.2.2.2
  | .ending, .start, h, h' => exact absurd (h.begins_of_ending 1) h'.2
  | .ending, .continuation, h, h' => exact absurd (h.begins_of_ending (length' + 1)) h'.2.2.2
  | .ending, .ending, h, h' => exact ⟨h.1.trans h'.1.symm, rfl⟩

end Flaw.Holds

/-- **Any other input is refused for its first ill-formed sequence**, of which there is one. -/
theorem decode_eq_error_iff {bytes : List UInt8} {e : IllFormed} :
    decode bytes = .error e ↔ e.FirstIn bytes := by
  constructor
  · intro h
    obtain ⟨s, rfl | ⟨b, r, length, flaw, rfl, he, hflaw⟩⟩ := exists_encode bytes
    · rw [decode_encode] at h
      cases h
    · rw [decode_of_error he] at h
      cases h
      exact ⟨s, r, rfl, rfl, hflaw⟩
  · rintro ⟨s, rest, rfl, hstart, hflaw⟩
    rcases character_cases e.lead rest with ⟨c, t, r, hc, rfl⟩ | ⟨length, flaw, he, hflaw'⟩
    · rw [← List.cons_append, ← hc] at hflaw
      exact absurd hflaw (e.flaw.not_holds_append c r e.length)
    · obtain ⟨rfl, rfl⟩ := hflaw.unique hflaw'
      rw [decode_of_error he, ← hstart]

end Lexis.Text.Utf8

/-
The numerals that are read.

A numeral is decimal digits of any scripts, which may stand in groups with one underscore between
each two, behind a sign or none, and with white space around it.  All of it is said here without the
reader (`IsNumeral`): the groups are put together, and never looked for.  The reader accepts a text
if and only if it is a numeral, and gives its value in base ten (`numeral?_eq_some_iff`).

* `digits?_eq_some_iff` — the digits, group by group;
* `signed?_eq_some_iff` — the sign, and how many digits there may be;
* `trim_eq` — what is trimmed off at both ends.
-/
import Lexis.Proofs.Text.Disjoint
import Lexis.Text.Numeral
import Mathlib.Data.List.Basic
import Mathlib.Data.List.TakeWhile
import Mathlib.Data.Nat.Digits.Defs

namespace Lexis.Text

/-! ### Both ends of a text -/

section trim

variable {p : Char → Bool} {front body back : List Char}

/-- What is trimmed off is of the class. -/
theorem exists_eq_trim (p : Char → Bool) (s : List Char) :
    ∃ front back, s = front ++ trim p s ++ back ∧ (∀ c ∈ front, p c = true) ∧
      ∀ c ∈ back, p c = true := by
  have hback := (s.dropWhile p).reverse.takeWhile_append_dropWhile (p := p)
  have hrest : trim p s ++ ((s.dropWhile p).reverse.takeWhile p).reverse = s.dropWhile p := by
    rw [trim, ← List.reverse_append, hback, List.reverse_reverse]
  refine ⟨s.takeWhile p, ((s.dropWhile p).reverse.takeWhile p).reverse, ?_, ?_, ?_⟩
  · rw [List.append_assoc, hrest, List.takeWhile_append_dropWhile]
  · exact fun c hc => List.mem_takeWhile_imp hc
  · exact fun c hc => List.mem_takeWhile_imp (List.mem_reverse.mp hc)

/-- What has nothing of the class is all that is left. -/
theorem trim_eq (hfront : ∀ c ∈ front, p c = true) (hback : ∀ c ∈ back, p c = true)
    (hne : body ≠ []) (hbody : ∀ c ∈ body, p c = false) :
    trim p (front ++ body ++ back) = body := by
  -- a text that is not empty keeps all of its characters from the one at its end on
  have hkeep : ∀ t u, t ≠ [] → (∀ c ∈ t, p c = false) → (t ++ u).dropWhile p = t ++ u := by
    intro t u ht hp
    obtain ⟨c, t, rfl⟩ := List.exists_cons_of_ne_nil ht
    rw [List.cons_append, List.dropWhile_cons_of_neg (by simp [hp c List.mem_cons_self])]
  have hend : body.reverse.dropWhile p = body.reverse := by
    have h := hkeep body.reverse [] (by simpa using hne) (by simpa using hbody)
    rwa [List.append_nil] at h
  have hreverse : ∀ c ∈ back.reverse, p c = true := fun c hc => hback c (List.mem_reverse.mp hc)
  rw [trim, List.append_assoc, List.dropWhile_append_of_pos hfront, hkeep body back hne hbody,
    List.reverse_append, List.dropWhile_append_of_pos hreverse, hend, List.reverse_reverse]

end trim

namespace Numeral

/-! ### Digits -/

/-- The value of a decimal digit. -/
def digit (c : Char) : Nat :=
  (digitValue? c).getD 0

/-- A text is made of groups of decimal digits, with one underscore between each two. -/
structure Grouped (groups : List (List Char)) (s : List Char) : Prop where
  ne_nil : groups ≠ []
  decimal : ∀ g ∈ groups, g ≠ [] ∧ ∀ c ∈ g, isDecimal c = true
  text : s = ['_'].intercalate groups

variable {c : Char} {s g : List Char} {groups : List (List Char)} {ds : List Nat} {n : Nat}

theorem digitValue?_eq (hc : isDecimal c = true) : digitValue? c = some (digit c) := by
  obtain ⟨v, hv⟩ := Option.isSome_iff_exists.mp hc
  rw [digit, hv, Option.getD_some]

theorem ne_underscore (hc : isDecimal c = true) : c ≠ '_' := by
  rintro rfl
  exact absurd hc (by decide)

namespace Grouped

theorem singleton (hc : isDecimal c = true) : Grouped [[c]] [c] := by
  refine ⟨List.cons_ne_nil _ _, ?_, List.intercalate_singleton.symm⟩
  simpa using hc

/-- A digit makes a group of its own in front of an underscore. -/
theorem separate (hc : isDecimal c = true) (h : Grouped groups s) :
    Grouped ([c] :: groups) (c :: '_' :: s) := by
  refine ⟨List.cons_ne_nil _ _, List.forall_mem_cons.mpr ⟨by simpa using hc, h.decimal⟩, ?_⟩
  rw [List.intercalate_cons_of_ne_nil h.ne_nil, ← h.text]
  rfl

/-- A digit joins the group that it stands in front of. -/
theorem join (hc : isDecimal c = true) (h : Grouped (g :: groups) s) :
    Grouped ((c :: g) :: groups) (c :: s) := by
  obtain ⟨hg, hgroups⟩ := List.forall_mem_cons.mp h.decimal
  have hcg : c :: g ≠ [] ∧ ∀ d ∈ c :: g, isDecimal d = true :=
    ⟨List.cons_ne_nil _ _, List.forall_mem_cons.mpr ⟨hc, hg.2⟩⟩
  refine ⟨List.cons_ne_nil _ _, List.forall_mem_cons.mpr ⟨hcg, hgroups⟩, ?_⟩
  rw [h.text]
  cases groups with
  | nil => rw [List.intercalate_singleton, List.intercalate_singleton]
  | cons g' groups =>
    rw [List.intercalate_cons_cons, List.intercalate_cons_cons]
    rfl

theorem ne_nil_text (h : Grouped groups s) : s ≠ [] := by
  obtain ⟨hne, hgroups, rfl⟩ := h
  obtain ⟨g, groups, rfl⟩ := List.exists_cons_of_ne_nil hne
  obtain ⟨⟨hg, -⟩, -⟩ := List.forall_mem_cons.mp hgroups
  cases groups with
  | nil => rwa [List.intercalate_singleton]
  | cons g' groups =>
    rw [List.intercalate_cons_cons]
    simp

/-- Only digits and underscores stand in groups. -/
theorem isDecimal_or_eq (h : Grouped groups s) (hc : c ∈ s) : isDecimal c = true ∨ c = '_' := by
  obtain ⟨hne, hgroups, rfl⟩ := h
  induction groups with
  | nil => exact absurd rfl hne
  | cons g groups ih =>
    obtain ⟨⟨-, hg⟩, hgroups⟩ := List.forall_mem_cons.mp hgroups
    cases groups with
    | nil =>
      rw [List.intercalate_singleton] at hc
      exact .inl (hg c hc)
    | cons g' groups =>
      rw [List.intercalate_cons_cons, List.append_assoc, List.mem_append] at hc
      rcases hc with hc | hc
      · exact .inl (hg c hc)
      · rcases List.mem_cons.mp hc with rfl | hc
        · exact .inr rfl
        · exact ih (List.cons_ne_nil g' groups) hgroups hc

end Grouped

/-- Digits that are read stand in groups. -/
theorem exists_grouped (h : digits? s = some ds) :
    ∃ groups, Grouped groups s ∧ ds = groups.flatten.map digit := by
  fun_induction digits? s generalizing ds with
  | case1 => cases h
  | case2 c =>
    obtain ⟨v, hv, rfl⟩ := Option.map_eq_some_iff.mp h
    have hc : isDecimal c = true := Option.isSome_of_eq_some hv
    refine ⟨[[c]], .singleton hc, ?_⟩
    simp [digit, hv]
  | case3 c r ih =>
    obtain ⟨v, hv, h⟩ := Option.bind_eq_some_iff.mp h
    obtain ⟨vs, hvs, h⟩ := Option.bind_eq_some_iff.mp h
    obtain rfl := Option.some.inj h
    obtain ⟨groups, hgroups, rfl⟩ := ih hvs
    have hc : isDecimal c = true := Option.isSome_of_eq_some hv
    refine ⟨[c] :: groups, hgroups.separate hc, ?_⟩
    simp [digit, hv]
  | case4 c d r hd ih =>
    obtain ⟨v, hv, h⟩ := Option.bind_eq_some_iff.mp h
    obtain ⟨vs, hvs, h⟩ := Option.bind_eq_some_iff.mp h
    obtain rfl := Option.some.inj h
    obtain ⟨groups, hgroups, rfl⟩ := ih hvs
    obtain ⟨g, gs, rfl⟩ := List.exists_cons_of_ne_nil hgroups.ne_nil
    have hc : isDecimal c = true := Option.isSome_of_eq_some hv
    refine ⟨(c :: g) :: gs, hgroups.join hc, ?_⟩
    simp [digit, hv]

/-- A digit in front of one more digit, or of what goes on with one, is read by itself. -/
theorem digits?_cons_cons (hc : isDecimal c = true) {d : Char} (hd : isDecimal d = true)
    (s : List Char) : digits? (c :: d :: s) = (digits? (d :: s)).map (digit c :: ·) := by
  rw [digits?, digitValue?_eq hc]
  · cases digits? (d :: s) <;> rfl
  · exact ne_underscore hd

/-- One group is read digit by digit. -/
theorem digits?_group (hne : g ≠ []) (hg : ∀ c ∈ g, isDecimal c = true) :
    digits? g = some (g.map digit) := by
  induction g with
  | nil => exact absurd rfl hne
  | cons c g ih =>
    obtain ⟨hc, hg⟩ := List.forall_mem_cons.mp hg
    cases g with
    | nil => rw [digits?, digitValue?_eq hc, Option.map_some, List.map_singleton]
    | cons d g =>
      rw [digits?_cons_cons hc (hg d List.mem_cons_self), ih (List.cons_ne_nil d g) hg]
      rfl

/-- A group in front of an underscore is read before what stands behind it. -/
theorem digits?_group_append (hne : g ≠ []) (hg : ∀ c ∈ g, isDecimal c = true)
    (hs : digits? s = some ds) : digits? (g ++ '_' :: s) = some (g.map digit ++ ds) := by
  induction g with
  | nil => exact absurd rfl hne
  | cons c g ih =>
    obtain ⟨hc, hg⟩ := List.forall_mem_cons.mp hg
    cases g with
    | nil =>
      rw [List.singleton_append, digits?, digitValue?_eq hc, hs]
      rfl
    | cons d g =>
      rw [List.cons_append, List.cons_append, digits?_cons_cons hc (hg d List.mem_cons_self),
        ← List.cons_append, ih (List.cons_ne_nil d g) hg]
      rfl

/-- **Digits are read group by group**: what is read as digits is groups of them with one underscore
between each two, and nothing else is. -/
theorem digits?_eq_some_iff :
    digits? s = some ds ↔ ∃ groups, Grouped groups s ∧ ds = groups.flatten.map digit := by
  refine ⟨exists_grouped, ?_⟩
  rintro ⟨groups, ⟨hne, hgroups, rfl⟩, rfl⟩
  induction groups with
  | nil => exact absurd rfl hne
  | cons g groups ih =>
    obtain ⟨⟨hg, hdecimal⟩, hgroups⟩ := List.forall_mem_cons.mp hgroups
    cases groups with
    | nil =>
      rw [List.intercalate_singleton, digits?_group hg hdecimal]
      simp
    | cons g' groups =>
      have hrest := ih (List.cons_ne_nil g' groups) hgroups
      rw [List.intercalate_cons_cons, List.append_assoc, List.singleton_append,
        digits?_group_append hg hdecimal hrest]
      simp

/-- The value of digits is theirs in base ten, the last one counting least. -/
theorem ofDigits_eq (ds : List Nat) : ofDigits ds = Nat.ofDigits 10 ds.reverse := by
  rw [ofDigits, Nat.ofDigits_eq_foldr, List.foldr_reverse]
  simp only [Nat.cast_id, Nat.add_comm]

/-! ### Signs -/

/-- A text is digits, in groups or not, of a value in base ten. -/
def IsMagnitude (s : List Char) (n : Nat) : Prop :=
  ∃ groups, Grouped groups s ∧ groups.flatten.length ≤ 4300 ∧
    n = Nat.ofDigits 10 (groups.flatten.map digit).reverse

/-- A text is a sign or none, and digits. -/
inductive IsSigned : List Char → Int → Prop
  | unsigned {s : List Char} {n : Nat} (h : IsMagnitude s n) : IsSigned s n
  | plus {s : List Char} {n : Nat} (h : IsMagnitude s n) : IsSigned ('+' :: s) n
  | minus {s : List Char} {n : Nat} (h : IsMagnitude s n) : IsSigned ('-' :: s) (-n)

theorem magnitude?_eq_some_iff : magnitude? s = some n ↔ IsMagnitude s n := by
  simp only [magnitude?, Option.bind_eq_bind, Option.bind_eq_some_iff,
    Option.ite_none_right_eq_some, digits?_eq_some_iff, IsMagnitude]
  constructor
  · rintro ⟨ds, ⟨groups, hgroups, rfl⟩, hlength, hn⟩
    rw [List.length_map] at hlength
    exact ⟨groups, hgroups, hlength, (Option.some.inj hn).symm.trans (ofDigits_eq _)⟩
  · rintro ⟨groups, hgroups, hlength, rfl⟩
    refine ⟨_, ⟨groups, hgroups, rfl⟩, ?_, ?_⟩
    · rwa [List.length_map]
    · rw [ofDigits_eq]
      rfl

theorem IsMagnitude.ne_nil (h : IsMagnitude s n) : s ≠ [] := by
  obtain ⟨groups, hgroups, -⟩ := h
  exact hgroups.ne_nil_text

theorem IsMagnitude.isDecimal_or_eq (h : IsMagnitude s n) (hc : c ∈ s) :
    isDecimal c = true ∨ c = '_' := by
  obtain ⟨groups, hgroups, -⟩ := h
  exact hgroups.isDecimal_or_eq hc

/-- Digits do not begin with a sign. -/
theorem IsMagnitude.not_sign (h : IsMagnitude (c :: s) n) : c ≠ '+' ∧ c ≠ '-' := by
  rcases h.isDecimal_or_eq List.mem_cons_self with hc | rfl
  · constructor
    · rintro rfl
      exact absurd hc (by decide)
    · rintro rfl
      exact absurd hc (by decide)
  · decide

/-- A sign is read as such, and nothing else in front of digits is. -/
theorem signed?_eq_some_iff {m : Int} : signed? s = some m ↔ IsSigned s m := by
  unfold signed?
  split
  · rename_i r
    simp only [Option.map_eq_some_iff, magnitude?_eq_some_iff]
    constructor
    · rintro ⟨n, hn, rfl⟩
      exact .plus hn
    · intro h
      cases h with
      | unsigned h => exact absurd rfl h.not_sign.1
      | plus h => exact ⟨_, h, rfl⟩
  · rename_i r
    simp only [Option.map_eq_some_iff, magnitude?_eq_some_iff]
    constructor
    · rintro ⟨n, hn, rfl⟩
      exact .minus hn
    · intro h
      cases h with
      | unsigned h => exact absurd rfl h.not_sign.2
      | minus h => exact ⟨_, h, rfl⟩
  · rename_i s hplus hminus
    simp only [Option.map_eq_some_iff, magnitude?_eq_some_iff]
    constructor
    · rintro ⟨n, hn, rfl⟩
      exact .unsigned hn
    · intro h
      cases h with
      | unsigned h => exact ⟨_, h, rfl⟩
      | plus h => exact absurd rfl (hplus _)
      | minus h => exact absurd rfl (hminus _)

/-! ### White space around -/

/-- The white space of ASCII that may stand around a numeral. -/
def asciiMargins : List Char :=
  ['\t', '\n', '\x0b', '\x0c', '\r', ' ']

/-- A character may stand around a numeral: it is one of those of ASCII, or white space beyond. -/
def IsAround (c : Char) : Prop :=
  c ∈ asciiMargins ∨ 0x7F < c.toNat ∧ isSpace c = true

theorem mem_asciiMargins_iff : c ∈ asciiMargins ↔ c.toNat ∈ asciiMargins.map Char.toNat :=
  (List.mem_map_of_injective fun _ _ h => Char.toNat_inj.mp h).symm

theorem isMargin_iff : isMargin c = true ↔ IsAround c := by
  have hascii : ∀ n < 0x80, (spaces.holds n = true ∧ ¬ (0x1C ≤ n ∧ n ≤ 0x1F) ↔
      n ∈ asciiMargins.map Char.toNat) := by decide
  have hmargin : isMargin c = true ↔
      isSpace c = true ∧ ¬ (0x1C ≤ c.toNat ∧ c.toNat ≤ 0x1F) := by
    have hle : '\x1c' ≤ c ∧ c ≤ '\x1f' ↔ 0x1C ≤ c.toNat ∧ c.toNat ≤ 0x1F := Iff.rfl
    rw [← hle]
    simp only [isMargin, Bool.and_eq_true, Bool.not_eq_true', Bool.eq_false_iff, ne_eq,
      decide_eq_true_eq]
  rw [hmargin, IsAround, mem_asciiMargins_iff]
  rcases Nat.lt_or_ge c.toNat 0x80 with hc | hc
  · -- among the first characters, the table decides
    rw [or_iff_left (by omega)]
    exact hascii c.toNat hc
  · have hnot : c.toNat ∉ asciiMargins.map Char.toNat := by
      intro h
      have hsmall : ∀ n ∈ asciiMargins.map Char.toNat, n < 0x80 := by decide
      exact absurd (hsmall _ h) (by omega)
    rw [or_iff_right hnot, and_comm]
    exact and_congr_left fun _ => by omega

theorem IsSigned.ne_nil {m : Int} (h : IsSigned s m) : s ≠ [] := by
  cases h with
  | unsigned h => exact h.ne_nil
  | plus h => exact List.cons_ne_nil _ _
  | minus h => exact List.cons_ne_nil _ _

/-- No white space stands in a numeral. -/
theorem IsSigned.not_isMargin {m : Int} (h : IsSigned s m) (hc : c ∈ s) : isMargin c = false := by
  have hmagnitude {t : List Char} {n : Nat} (h : IsMagnitude t n) (hc : c ∈ t) :
      isMargin c = false := by
    rcases h.isDecimal_or_eq hc with hc | rfl
    · rw [isMargin, not_isSpace_of_isDecimal hc, Bool.false_and]
    · decide
  cases h with
  | unsigned h => exact hmagnitude h hc
  | plus h | minus h =>
    rcases List.mem_cons.mp hc with rfl | hc
    · decide
    · exact hmagnitude h hc

end Numeral

/-- A text is a numeral of a value. -/
def IsNumeral (s : List Char) (n : Int) : Prop :=
  ∃ front body back, s = front ++ body ++ back ∧ (∀ c ∈ front, Numeral.IsAround c) ∧
    (∀ c ∈ back, Numeral.IsAround c) ∧ Numeral.IsSigned body n

theorem IsNumeral.ne_nil {s : List Char} {n : Int} (h : IsNumeral s n) : s ≠ [] := by
  obtain ⟨front, body, back, rfl, -, -, hbody⟩ := h
  simp [hbody.ne_nil]

/-- **The numerals are the texts that are read**, each with its value. -/
theorem numeral?_eq_some_iff {s : String} {n : Int} :
    numeral? s = some n ↔ IsNumeral s.toList n := by
  rw [numeral?, Numeral.signed?_eq_some_iff]
  constructor
  · intro h
    obtain ⟨front, back, hs, hfront, hback⟩ := exists_eq_trim Numeral.isMargin s.toList
    exact ⟨front, _, back, hs, fun c hc => Numeral.isMargin_iff.mp (hfront c hc),
      fun c hc => Numeral.isMargin_iff.mp (hback c hc), h⟩
  · rintro ⟨front, body, back, hs, hfront, hback, h⟩
    have htrim : trim Numeral.isMargin s.toList = body := by
      rw [hs]
      refine trim_eq (fun c hc => Numeral.isMargin_iff.mpr (hfront c hc))
        (fun c hc => Numeral.isMargin_iff.mpr (hback c hc)) h.ne_nil
        fun c hc => h.not_isMargin hc
    rwa [htrim]

end Lexis.Text

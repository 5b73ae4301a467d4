/-
Text without its control sequences.

Text without an escape character stays as it is (`strip_of_notMem`).  What is left out elsewhere is
one whole control sequence at a time (`IsSequence`, `strip_induction`).  None of them goes beyond
the end of a line, so that the lines of a text lose theirs one by one (`strip_append_newline`).

Characters behind a control sequence move up.  `kept` keeps account of where those that are left
have been before: a character stays at its place exactly if no control sequence begins there or in
front of it (`getElem?_kept_eq_some_iff`).
-/
import Lexis.Text.ControlSequence
import Mathlib.Data.List.TakeWhile

namespace Lexis.Text.ControlSequence

variable {c : Char} {r s t : List Char}

theorem strip_nil : strip [] = [] := by
  rw [strip]
  rfl

theorem strip_cons_of_ne (h : c ≠ escape) (s : List Char) : strip (c :: s) = c :: strip s := by
  have htake : (c :: s).takeWhile (· ≠ escape) = c :: s.takeWhile (· ≠ escape) :=
    List.takeWhile_cons_of_pos (by simpa using h)
  have hdrop : (c :: s).dropWhile (· ≠ escape) = s.dropWhile (· ≠ escape) :=
    List.dropWhile_cons_of_pos (by simpa using h)
  rw [strip, strip.eq_def s, htake, hdrop, List.cons_append]

theorem strip_escape_of_some (h : after? r = some t) : strip (escape :: r) = strip t := by
  rw [strip]
  split
  · rename_i hd
    simp at hd
  · rename_i hd
    obtain ⟨rfl, rfl⟩ := List.cons_eq_cons.mp (by simpa using hd)
    split
    · rename_i hr
      obtain rfl := Option.some.inj (h.symm.trans hr)
      simp
    · rename_i hr
      cases h.symm.trans hr

theorem strip_escape_of_none (h : after? r = none) :
    strip (escape :: r) = escape :: strip r := by
  rw [strip]
  split
  · rename_i hd
    simp at hd
  · rename_i hd
    obtain ⟨rfl, rfl⟩ := List.cons_eq_cons.mp (by simpa using hd)
    split
    · rename_i hr
      cases h.symm.trans hr
    · simp

/-- A text without escape characters, in front of any other text, stays as it is. -/
theorem strip_append_of_notMem (h : escape ∉ s) (t : List Char) : strip (s ++ t) = s ++ strip t := by
  induction s with
  | nil => rfl
  | cons c s ih =>
    rw [List.mem_cons, not_or] at h
    rw [List.cons_append, strip_cons_of_ne (Ne.symm h.1), ih h.2, List.cons_append]

theorem strip_of_notMem (h : escape ∉ s) : strip s = s := by
  have happend := strip_append_of_notMem h []
  rwa [strip_nil, List.append_nil] at happend

/-! ### The sequence that a text begins with -/

/-- The text behind the control sequence that a text begins with. -/
def behind? : List Char → Option (List Char)
  | [] => none
  | c :: r => if c = escape then after? r else none

/-- A control sequence: an escape and a bracket, parameters, intermediates and a final character. -/
def IsSequence (u : List Char) : Prop :=
  ∃ ps is f, u = escape :: '[' :: (ps ++ (is ++ [f])) ∧ (∀ c ∈ ps, isParameter c = true) ∧
    (∀ c ∈ is, isIntermediate c = true) ∧ isFinal f = true

theorem dropWhile_append_cons {p : Char → Bool} {u r : List Char} (hu : ∀ c ∈ u, p c = true)
    (hc : p c = false) : (u ++ c :: r).dropWhile p = c :: r := by
  rw [List.dropWhile_append_of_pos hu,
    List.dropWhile_cons_of_neg (by rw [hc]; exact Bool.false_ne_true)]

/-- An intermediate or a final character is no parameter. -/
theorem not_isParameter (h : isIntermediate c = true ∨ isFinal c = true) :
    isParameter c = false := by
  simp only [isIntermediate, isFinal, isParameter, Bool.and_eq_true, decide_eq_true_eq,
    Bool.and_eq_false_iff, decide_eq_false_iff_not, Char.le_def, UInt32.le_iff_toNat_le] at h ⊢
  simp only [Char.reduceVal, UInt32.reduceToNat] at h ⊢
  omega

theorem not_isIntermediate (h : isFinal c = true) : isIntermediate c = false := by
  simp only [isFinal, isIntermediate, Bool.and_eq_true, decide_eq_true_eq,
    Bool.and_eq_false_iff, decide_eq_false_iff_not, Char.le_def, UInt32.le_iff_toNat_le] at h ⊢
  simp only [Char.reduceVal, UInt32.reduceToNat] at h ⊢
  omega

theorem behind?_append (h : IsSequence s) (t : List Char) : behind? (s ++ t) = some t := by
  obtain ⟨ps, is, f, rfl, hps, his, hf⟩ := h
  have hparameters : (ps ++ (is ++ [f]) ++ t).dropWhile isParameter = is ++ f :: t := by
    rw [List.append_assoc, List.append_assoc, List.singleton_append]
    cases is with
    | nil => exact dropWhile_append_cons hps (not_isParameter (.inr hf))
    | cons c is =>
      have hc := his c List.mem_cons_self
      exact dropWhile_append_cons hps (not_isParameter (.inl hc))
  have hintermediates : (is ++ f :: t).dropWhile isIntermediate = f :: t :=
    dropWhile_append_cons his (not_isIntermediate hf)
  rw [List.cons_append, List.cons_append, behind?, if_pos rfl, after?, hparameters, hintermediates]
  exact if_pos hf

theorem exists_of_after? (h : after? r = some t) : ∃ u, IsSequence (escape :: u) ∧ r = u ++ t := by
  unfold after? at h
  split at h
  · rename_i r
    split at h
    · rename_i f rest hrest
      split at h
      · rename_i hf
        obtain rfl := Option.some.inj h
        have hr := List.takeWhile_append_dropWhile (p := isParameter) (l := r)
        have hr' := List.takeWhile_append_dropWhile (p := isIntermediate)
          (l := r.dropWhile isParameter)
        rw [hrest] at hr'
        refine ⟨_, ⟨r.takeWhile isParameter, (r.dropWhile isParameter).takeWhile isIntermediate, f,
          rfl, fun c => List.mem_takeWhile_imp, fun c => List.mem_takeWhile_imp, hf⟩, ?_⟩
        rw [List.cons_append, List.append_assoc, List.append_assoc, List.singleton_append, hr', hr]
      · cases h
    · cases h
  · cases h

/-- What is passed is a control sequence, and the only one that the text begins with. -/
theorem behind?_eq_some_iff : behind? s = some t ↔ ∃ u, IsSequence u ∧ s = u ++ t := by
  constructor
  · intro h
    match s with
    | [] => cases h
    | c :: r =>
      rw [behind?] at h
      split at h
      · rename_i hc
        subst hc
        obtain ⟨u, hu, rfl⟩ := exists_of_after? h
        exact ⟨_, hu, rfl⟩
      · cases h
  · rintro ⟨u, hu, rfl⟩
    exact behind?_append hu t

theorem behind?_eq_none_iff : behind? s = none ↔ ∀ u, IsSequence u → ¬ u <+: s := by
  rw [Option.eq_none_iff_forall_ne_some]
  constructor
  · rintro h u hu ⟨t, rfl⟩
    exact h t (behind?_append hu t)
  · intro h t ht
    obtain ⟨u, hu, rfl⟩ := behind?_eq_some_iff.mp ht
    exact h u hu (List.prefix_append u t)

theorem exists_eq_escape_cons (h : behind? s = some t) :
    ∃ r, s = escape :: r ∧ after? r = some t := by
  match s with
  | [] => cases h
  | c :: r =>
    rw [behind?] at h
    split at h
    · rename_i hc
      exact ⟨r, by rw [hc], h⟩
    · cases h

theorem behind?_suffix (h : behind? s = some t) : t <:+ s := by
  obtain ⟨u, -, rfl⟩ := behind?_eq_some_iff.mp h
  exact List.suffix_append u t

theorem length_behind? (h : behind? s = some t) : t.length < s.length := by
  obtain ⟨r, rfl, ha⟩ := exists_eq_escape_cons h
  exact (length_after? ha).trans (Nat.lt_succ_self _)

theorem strip_of_behind? (h : behind? s = some t) : strip s = strip t := by
  obtain ⟨r, rfl, ha⟩ := exists_eq_escape_cons h
  exact strip_escape_of_some ha

theorem strip_cons_of_behind? (h : behind? (c :: r) = none) : strip (c :: r) = c :: strip r := by
  by_cases hc : c = escape
  · subst hc
    rw [behind?, if_pos rfl] at h
    exact strip_escape_of_none h
  · exact strip_cons_of_ne hc r

/-- Induction over a text, where a control sequence is passed as a whole. -/
theorem strip_induction {motive : List Char → Prop} (nil : motive [])
    (sequence : ∀ s t, behind? s = some t → motive t → motive s)
    (cons : ∀ c r, behind? (c :: r) = none → motive r → motive (c :: r)) (s : List Char) :
    motive s := by
  induction hn : s.length using Nat.strongRecOn generalizing s with
  | ind n ih =>
    subst hn
    cases hs : behind? s with
    | some t => exact sequence s t hs (ih _ (length_behind? hs) t rfl)
    | none =>
      match s with
      | [] => exact nil
      | c :: r => exact cons c r hs (ih _ (Nat.lt_succ_self _) r rfl)

/-! ### Lines -/

theorem dropWhile_append_newline {p : Char → Bool} (hp : p '\n' = false) (s t : List Char) :
    (s ++ '\n' :: t).dropWhile p = s.dropWhile p ++ '\n' :: t := by
  have hnewline : ('\n' :: t).dropWhile p = '\n' :: t := by
    rw [List.dropWhile_cons_of_neg (by rw [hp]; exact Bool.false_ne_true)]
  rw [List.dropWhile_append, hnewline]
  split
  · rename_i h
    rw [List.isEmpty_iff.mp h, List.nil_append]
  · rfl

theorem after?_of_ne (h : c ≠ '[') (r : List Char) : after? (c :: r) = none := by
  rw [after?]
  rintro r ⟨⟩
  exact h rfl

/-- A control sequence ends on its line, or there is none. -/
theorem after?_append_newline (s t : List Char) :
    after? (s ++ '\n' :: t) = (after? s).map (· ++ '\n' :: t) := by
  match s with
  | [] => rfl
  | c :: s =>
    by_cases hc : c = '['
    · subst hc
      simp only [List.cons_append, after?, dropWhile_append_newline (p := isParameter) (by decide),
        dropWhile_append_newline (p := isIntermediate) (by decide)]
      cases (s.dropWhile isParameter).dropWhile isIntermediate with
      | nil => rfl
      | cons d u =>
        simp only [List.cons_append]
        split <;> rfl
    · rw [List.cons_append, after?_of_ne hc, after?_of_ne hc]
      rfl

theorem behind?_append_newline (s t : List Char) :
    behind? (s ++ '\n' :: t) = (behind? s).map (· ++ '\n' :: t) := by
  match s with
  | [] => rfl
  | c :: r =>
    rw [List.cons_append, behind?, behind?]
    split
    · exact after?_append_newline r t
    · rfl

/-- A text loses the control sequences of each of its lines. -/
theorem strip_append_newline (s t : List Char) :
    strip (s ++ '\n' :: t) = strip s ++ '\n' :: strip t := by
  induction s using strip_induction with
  | nil => rw [List.nil_append, strip_cons_of_ne (by decide), strip_nil, List.nil_append]
  | sequence s u hs ih =>
    have hbehind := behind?_append_newline s t
    rw [hs, Option.map_some] at hbehind
    rw [strip_of_behind? hbehind, strip_of_behind? hs, ih]
  | cons c r hs ih =>
    have hbehind := behind?_append_newline (c :: r) t
    rw [hs, Option.map_none, List.cons_append] at hbehind
    rw [List.cons_append, strip_cons_of_behind? hbehind, strip_cons_of_behind? hs, ih,
      List.cons_append]

/-! ### What is left of a text -/

/-- The indices of the characters that are left of a text, whose first index is `n`. -/
def keptFrom (n : Nat) : List Char → List Nat
  | [] => []
  | c :: r =>
    match _h : behind? (c :: r) with
    | some t => keptFrom (n + ((c :: r).length - t.length)) t
    | none => n :: keptFrom (n + 1) r
termination_by s => s.length
decreasing_by
  · exact length_behind? _h
  · exact Nat.lt_succ_self _

/-- The indices of the characters that are left of a text. -/
def kept (s : List Char) : List Nat :=
  keptFrom 0 s

theorem keptFrom_nil (n : Nat) : keptFrom n [] = [] := by
  rw [keptFrom]

theorem keptFrom_of_behind? (h : behind? s = some t) (n : Nat) :
    keptFrom n s = keptFrom (n + (s.length - t.length)) t := by
  match s with
  | [] => cases h
  | c :: r =>
    rw [keptFrom]
    split
    · rename_i hr
      obtain rfl := Option.some.inj (h.symm.trans hr)
      rfl
    · rename_i hr
      cases h.symm.trans hr

theorem keptFrom_cons_of_behind? (h : behind? (c :: r) = none) (n : Nat) :
    keptFrom n (c :: r) = n :: keptFrom (n + 1) r := by
  rw [keptFrom]
  split
  · rename_i hr
    cases h.symm.trans hr
  · rfl

/-- An index that is kept is not smaller than the one where the character comes to stand. -/
theorem le_of_getElem?_keptFrom {n i j : Nat} (h : (keptFrom n s)[i]? = some j) : n + i ≤ j := by
  induction s using strip_induction generalizing n i with
  | nil =>
    rw [keptFrom_nil] at h
    cases h
  | sequence s t hs ih =>
    rw [keptFrom_of_behind? hs] at h
    have hle := ih h
    omega
  | cons c r hs ih =>
    rw [keptFrom_cons_of_behind? hs] at h
    cases i with
    | zero =>
      obtain rfl := Option.some.inj h
      exact le_rfl
    | succ i =>
      have hle := ih h
      omega

/-- The kept indices lead to what is left. -/
theorem map_keptFrom (n : Nat) (s : List Char) :
    (keptFrom n s).map (fun i => s[i - n]?) = (strip s).map some := by
  induction s using strip_induction generalizing n with
  | nil =>
    rw [keptFrom_nil, strip_nil]
    rfl
  | sequence s t hs ih =>
    have hlength := length_behind? hs
    obtain ⟨u, rfl⟩ := behind?_suffix hs
    rw [List.length_append] at hlength
    rw [keptFrom_of_behind? hs, strip_of_behind? hs, ← ih, List.length_append,
      Nat.add_sub_cancel]
    refine List.map_congr_left fun i hi => ?_
    -- the sequence is in front of all that is kept
    obtain ⟨k, hk⟩ := List.getElem?_of_mem hi
    have hle := le_of_getElem?_keptFrom hk
    rw [List.getElem?_append_right (by omega), Nat.sub_add_eq]
  | cons c r hs ih =>
    rw [keptFrom_cons_of_behind? hs, strip_cons_of_behind? hs, List.map_cons, List.map_cons,
      Nat.sub_self, ← ih (n + 1)]
    refine congrArg _ (List.map_congr_left fun i hi => ?_)
    obtain ⟨k, hk⟩ := List.getElem?_of_mem hi
    have hle := le_of_getElem?_keptFrom hk
    have hi' : i - n = i - (n + 1) + 1 := by omega
    rw [hi', List.getElem?_cons_succ]

theorem getElem?_keptFrom_eq_some_iff {n i : Nat} :
    (keptFrom n s)[i]? = some (n + i) ↔
      i < s.length ∧ ∀ j ≤ i, behind? (s.drop j) = none := by
  induction s using strip_induction generalizing n i with
  | nil =>
    rw [keptFrom_nil]
    simp
  | sequence s t hs ih =>
    have hlength := length_behind? hs
    constructor
    · intro h
      -- all that is kept has moved up by the length of the sequence, at least
      rw [keptFrom_of_behind? hs] at h
      have hle := le_of_getElem?_keptFrom h
      omega
    · rintro ⟨-, h⟩
      cases hs.symm.trans (h 0 (Nat.zero_le i))
  | cons c r hs ih =>
    rw [keptFrom_cons_of_behind? hs]
    cases i with
    | zero =>
      refine ⟨fun _ => ⟨Nat.succ_pos _, ?_⟩, fun _ => rfl⟩
      intro j hj
      obtain rfl := Nat.le_zero.mp hj
      exact hs
    | succ i =>
      have hi : n + (i + 1) = n + 1 + i := by omega
      rw [List.getElem?_cons_succ, hi, ih, List.length_cons, Nat.succ_lt_succ_iff]
      refine and_congr_right fun _ => ⟨?_, ?_⟩
      · intro h j hj
        cases j with
        | zero => exact hs
        | succ j => exact h j (Nat.le_of_succ_le_succ hj)
      · exact fun h j hj => h (j + 1) (Nat.succ_le_succ hj)

/-- What is left of a text comes from the kept indices. -/
theorem map_kept (s : List Char) : (kept s).map (fun i => s[i]?) = (strip s).map some :=
  map_keptFrom 0 s

theorem getElem?_strip_of_kept {i j : Nat} (h : (kept s)[i]? = some j) :
    (strip s)[i]? = s[j]? := by
  have hmap := congrArg (fun l => l[i]?) (map_kept s)
  rw [List.getElem?_map, List.getElem?_map, h] at hmap
  cases hi : (strip s)[i]? with
  | none =>
    rw [hi] at hmap
    cases hmap
  | some c =>
    rw [hi] at hmap
    exact (Option.some.inj hmap).symm

/-- A character keeps its place if no control sequence begins there or in front of it, and else it
does not. -/
theorem getElem?_kept_eq_some_iff {i : Nat} :
    (kept s)[i]? = some i ↔
      i < s.length ∧ ∀ j ≤ i, ∀ u, IsSequence u → ¬ u <+: s.drop j := by
  have h := getElem?_keptFrom_eq_some_iff (s := s) (n := 0) (i := i)
  rw [Nat.zero_add] at h
  simp only [kept, h, behind?_eq_none_iff]

end Lexis.Text.ControlSequence

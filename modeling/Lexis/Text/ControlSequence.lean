/-
Terminal control sequences.

A control sequence is an escape character and `[`, then parameter characters, then intermediate
characters, then one final character. Text that goes to something other than a terminal loses its
complete control sequences; an escape that starts none stays.
-/
namespace Lexis.Text.ControlSequence

/-- The escape character. -/
def escape : Char := '\x1b'

/-- Parameters: digits and the signs from `:` to `?`. -/
def isParameter (c : Char) : Bool :=
  '0' ≤ c && c ≤ '?'

/-- Intermediates: the space and the signs up to `/`. -/
def isIntermediate (c : Char) : Bool :=
  ' ' ≤ c && c ≤ '/'

/-- Final characters: from `@` to `~`. -/
def isFinal (c : Char) : Bool :=
  '@' ≤ c && c ≤ '~'

/-- The text after the control sequence whose escape has just been read, if there is one. -/
def after? : List Char → Option (List Char)
  | '[' :: r =>
    match (r.dropWhile isParameter).dropWhile isIntermediate with
    | c :: rest => if isFinal c then some rest else none
    | [] => none
  | _ => none

theorem length_dropWhile_le (p : Char → Bool) (r : List Char) :
    (r.dropWhile p).length ≤ r.length :=
  (List.dropWhile_sublist p).length_le

theorem length_after? {r rest : List Char} (h : after? r = some rest) :
    rest.length < r.length := by
  unfold after? at h
  split at h
  · rename_i r
    have h₁ := length_dropWhile_le isParameter r
    have h₂ := length_dropWhile_le isIntermediate (r.dropWhile isParameter)
    split at h
    · rename_i c rest' heq
      split at h
      · simp only [heq, List.length_cons] at h₂
        cases h
        simp only [List.length_cons]
        omega
      · cases h
    · cases h
  · cases h

/-- A text without its control sequences. -/
def strip (s : List Char) : List Char :=
  s.takeWhile (· ≠ escape) ++
    match _h : s.dropWhile (· ≠ escape) with
    | [] => []
    | e :: r =>
      match _hr : after? r with
      | some rest => strip rest
      | none => e :: strip r
termination_by s.length
decreasing_by
  all_goals
    have h₁ := length_dropWhile_le (· ≠ escape) s
    simp only [_h, List.length_cons] at h₁
  · have h₂ := length_after? _hr
    omega
  · omega

end Lexis.Text.ControlSequence

/-
A reader of JSON.

A text is cut into pieces (brackets, commas, colons, strings and numbers, with blanks between them),
and the pieces drive a stack machine.  A state of the machine says what has been read in each block
that is open, from the innermost to the outermost, and what may come next.  What the machine has
read when the pieces end, with no block open, is the value of the text.

The reader knows the values that a list of tokens needs: strings, whole numbers, lists and objects.
The fields of an object keep their order.
-/
import Lexis.Proofs.Json.Text
import Lexis.Proofs.Text.Decimal

namespace Lexis.Json

open Text

/-! ### Pieces -/

/-- The smallest parts of a text that mean something. -/
inductive Piece where
  | listOpen | listClose | objectOpen | objectClose | comma | colon
  | text (s : String)
  | number (n : Int)
  deriving DecidableEq

/-- May a character stand between two pieces? -/
def isBlank (c : Char) : Bool :=
  c = ' ' || c = '\n' || c = '\r' || c = '\t'

/-- The piece that a text begins with, and what stands behind it. -/
def piece? : List Char → Option (Piece × List Char)
  | '[' :: s => some (.listOpen, s)
  | ']' :: s => some (.listClose, s)
  | '\x7b' :: s => some (.objectOpen, s)
  | '\x7d' :: s => some (.objectClose, s)
  | ',' :: s => some (.comma, s)
  | ':' :: s => some (.colon, s)
  | '\x22' :: s => (readString? s).map (·.map .text id)
  | s => (takeInt? s).map (·.map .number id)

theorem exists_of_map_eq_some {α β : Type} {f : α → β} {o : Option (α × List Char)} {b : β}
    {r : List Char} (h : o.map (·.map f id) = some (b, r)) : ∃ a, o = some (a, r) := by
  obtain ⟨⟨a, r'⟩, ho, hr⟩ := Option.map_eq_some_iff.mp h
  obtain rfl : r' = r := congrArg Prod.snd hr
  exact ⟨a, ho⟩

theorem length_lt_of_readUnits {s r : List Char} {us : List Nat} (h : readUnits s = some (us, r)) :
    r.length < s.length := by
  fun_induction readUnits s generalizing us with
  | case1 s =>
    obtain rfl : s = r := congrArg Prod.snd (Option.some.inj h)
    exact Nat.lt_succ_self _
  | case2 a b c d s ih =>
    obtain ⟨u, -, h⟩ := Option.bind_eq_some_iff.mp h
    obtain ⟨us, hs⟩ := exists_of_map_eq_some h
    have hlt := ih hs
    simp only [List.length_cons]
    omega
  | case3 c s _ ih =>
    obtain ⟨u, -, h⟩ := Option.bind_eq_some_iff.mp h
    obtain ⟨us, hs⟩ := exists_of_map_eq_some h
    have hlt := ih hs
    simp only [List.length_cons]
    omega
  | case4 => cases h
  | case5 c s _ _ _ _ ih =>
    obtain ⟨us, hs⟩ := exists_of_map_eq_some h
    exact (ih hs).trans (Nat.lt_succ_self _)
  | case6 => cases h

theorem length_lt_of_takeNat? {s r : List Char} {n : Nat} (h : takeNat? s = some (n, r)) :
    r.length < s.length := by
  obtain ⟨m, hm, hr⟩ := Option.map_eq_some_iff.mp h
  obtain rfl : s.dropWhile Char.isDigit = r := congrArg Prod.snd hr
  have hdigits : s.takeWhile Char.isDigit ≠ [] := by
    intro hnone
    rw [hnone] at hm
    cases hm
  have hsum := congrArg List.length (s.takeWhile_append_dropWhile (p := Char.isDigit))
  have hpos := List.length_pos_iff.mpr hdigits
  rw [List.length_append] at hsum
  omega

theorem length_lt_of_takeInt? {s r : List Char} {n : Int} (h : takeInt? s = some (n, r)) :
    r.length < s.length := by
  rw [takeInt?.eq_def] at h
  split at h
  · obtain ⟨m, hm⟩ := exists_of_map_eq_some h
    exact (length_lt_of_takeNat? hm).trans (Nat.lt_succ_self _)
  · obtain ⟨m, hm⟩ := exists_of_map_eq_some h
    exact length_lt_of_takeNat? hm

/-- Every piece takes up some of the text. -/
theorem length_lt_of_piece? {s r : List Char} {p : Piece} (h : piece? s = some (p, r)) :
    r.length < s.length := by
  have hmark : ∀ {q : Piece} {c : Char} {s : List Char}, some (q, s) = some (p, r) →
      r.length < (c :: s).length := by
    intro q c s h
    obtain rfl : s = r := congrArg Prod.snd (Option.some.inj h)
    exact Nat.lt_succ_self _
  rw [piece?.eq_def] at h
  split at h
  · exact hmark h
  · exact hmark h
  · exact hmark h
  · exact hmark h
  · exact hmark h
  · exact hmark h
  · obtain ⟨t, ht⟩ := exists_of_map_eq_some h
    obtain ⟨⟨us, r'⟩, hus, hcs⟩ := Option.bind_eq_some_iff.mp ht
    obtain ⟨cs, -, hr⟩ := Option.map_eq_some_iff.mp hcs
    obtain rfl : r' = r := congrArg Prod.snd hr
    exact (length_lt_of_readUnits hus).trans (Nat.lt_succ_self _)
  · obtain ⟨n, hn⟩ := exists_of_map_eq_some h
    exact length_lt_of_takeInt? hn

/-- The pieces of a text. -/
def pieces : List Char → Option (List Piece)
  | [] => some []
  | c :: s =>
    if isBlank c then pieces s
    else
      match _h : piece? (c :: s) with
      | none => none
      | some (p, r) => (pieces r).map (p :: ·)
termination_by s => s.length
decreasing_by
  · exact Nat.lt_succ_self _
  · exact length_lt_of_piece? ‹_›

/-! ### The stack machine -/

/-- An open block: what it holds so far, and the name that the value to come will have. -/
inductive Frame where
  | list (items : List Value)
  | object (fields : List (String × Value)) (name : String)

/-- What comes next, in which blocks. -/
inductive State where
  /-- A value, or the end of a list that has no elements yet. -/
  | value (frames : List Frame)
  /-- A name, or the end of an object that has no fields yet. -/
  | name (fields : List (String × Value)) (frames : List Frame)
  /-- The colon behind a name. -/
  | colon (fields : List (String × Value)) (name : String) (frames : List Frame)
  /-- What stands behind a value: a comma or the end of the block. -/
  | done (v : Value) (frames : List Frame)

/-- The state behind a piece. -/
def step : State → Piece → Option State
  | .value fs, .text s => some (.done (.text s) fs)
  | .value fs, .number n => some (.done (.number n) fs)
  | .value fs, .listOpen => some (.value (.list [] :: fs))
  | .value fs, .objectOpen => some (.name [] fs)
  | .value (.list [] :: fs), .listClose => some (.done (.list []) fs)
  | .name fields fs, .text s => some (.colon fields s fs)
  | .name [] fs, .objectClose => some (.done (.object []) fs)
  | .colon fields s fs, .colon => some (.value (.object fields s :: fs))
  | .done v (.list items :: fs), .comma => some (.value (.list (items ++ [v]) :: fs))
  | .done v (.list items :: fs), .listClose => some (.done (.list (items ++ [v])) fs)
  | .done v (.object fields s :: fs), .comma => some (.name (fields ++ [(s, v)]) fs)
  | .done v (.object fields s :: fs), .objectClose =>
    some (.done (.object (fields ++ [(s, v)])) fs)
  | _, _ => none

/-- The state behind a row of pieces. -/
def run (state : State) (ps : List Piece) : Option State :=
  ps.foldlM step state

/-- The value that has been read, if all blocks are closed. -/
def State.result? : State → Option Value
  | .done v [] => some v
  | _ => none

/-- **The value of a text.** -/
def read (s : List Char) : Option Value :=
  (pieces s).bind fun ps => (run (.value []) ps).bind State.result?

/-- Blanks may stand anywhere, and a string may have escapes that no value in print has. -/
example : read " [ \"\\/\\u00E9\\uD83D\\uDE00\", -10 ]\n".toList =
    some (.list [.text "/é😀", .number (-10)]) := by cbv

/-- A comma at the end of a list makes it no value. -/
example : (read "[1, 2,]".toList).isNone = true := by cbv

end Lexis.Json

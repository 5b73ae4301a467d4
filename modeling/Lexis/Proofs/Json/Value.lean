/-
JSON values in print.

Every text between its quotes is printable ASCII, and so is every number.  A value on several lines
has line feeds beside that, and nothing else (`Value.isAsciiLines_write`).
-/
import Lexis.Json.Value
import Lexis.Proofs.Text.Printable

namespace Lexis.Json

open Text

/-- Are all characters of a text line feeds or printable ASCII? -/
def IsAsciiLines (s : List Char) : Prop :=
  ∀ c ∈ s, c = '\n' ∨ 0x20 ≤ c.toNat ∧ c.toNat ≤ 0x7E

instance (s : List Char) : Decidable (IsAsciiLines s) :=
  List.decidableBAll (fun c : Char => c = '\n' ∨ 0x20 ≤ c.toNat ∧ c.toNat ≤ 0x7E) s

theorem isAsciiLines_append {s t : List Char} :
    IsAsciiLines (s ++ t) ↔ IsAsciiLines s ∧ IsAsciiLines t :=
  List.forall_mem_append

theorem isAsciiLines_of_isAscii {s : List Char} (h : IsAscii s) : IsAsciiLines s :=
  fun c hc => .inr (h c hc)

/-! ### Texts -/

theorem isAscii_unitEscape (u : Nat) : IsAscii (unitEscape u) :=
  isAscii_escaped (by decide) (isAscii_fixedHex 4 u)

theorem isAscii_escape (c : Char) : IsAscii (escape c) := by
  rw [escape]
  split_ifs with _ _ _ _ _ _ _ hc
  · decide
  · decide
  · decide
  · decide
  · decide
  · decide
  · decide
  · exact List.forall_mem_singleton.mpr hc
  · exact isAscii_unitEscape _
  · exact isAscii_append.mpr ⟨isAscii_unitEscape _, isAscii_unitEscape _⟩

theorem isAscii_writeText (s : String) : IsAscii (writeText s) := by
  have hinside : IsAscii (s.toList.flatMap escape) := by
    intro c hc
    obtain ⟨d, -, hd⟩ := List.mem_flatMap.mp hc
    exact isAscii_escape d c hd
  have hquote : IsAscii ['\x22'] := by decide
  rw [writeText]
  exact isAscii_append.mpr ⟨hquote, isAscii_append.mpr ⟨hinside, hquote⟩⟩

/-! ### Blocks -/

theorem isAsciiLines_newLine (depth : Nat) : IsAsciiLines (newLine depth) := by
  intro c hc
  rcases List.mem_cons.mp hc with rfl | hc
  · exact .inl rfl
  · rw [List.eq_of_mem_replicate hc]
    exact .inr (by decide)

theorem mem_of_mem_intersperse {α : Type} {a x : α} {l : List α} (h : a ∈ l.intersperse x) :
    a = x ∨ a ∈ l := by
  induction l with
  | nil => cases h
  | cons b l ih =>
    cases l with
    | nil => exact .inr h
    | cons c l =>
      rw [List.intersperse_cons_cons, List.mem_cons, List.mem_cons] at h
      rcases h with rfl | rfl | h
      · exact .inr (List.mem_cons_self ..)
      · exact .inl rfl
      · exact (ih h).imp_right (List.mem_cons_of_mem b)

theorem isAsciiLines_writeBlock {opening closing : Char} (ho : IsAsciiLines [opening])
    (hc : IsAsciiLines [closing]) (depth : Nat) {elements : List (List Char)}
    (h : ∀ e ∈ elements, IsAsciiLines e) :
    IsAsciiLines (writeBlock opening closing depth elements) := by
  have hinside : IsAsciiLines
      ((elements.map (newLine (depth + 1) ++ ·)).intersperse [',']).flatten := by
    intro c hc
    obtain ⟨piece, hpiece, hc⟩ := List.mem_flatten.mp hc
    rcases mem_of_mem_intersperse hpiece with rfl | hpiece
    · exact isAsciiLines_of_isAscii (by decide) c hc
    · obtain ⟨e, he, rfl⟩ := List.mem_map.mp hpiece
      exact isAsciiLines_append.mpr ⟨isAsciiLines_newLine _, h e he⟩ c hc
  cases elements with
  | nil => exact isAsciiLines_append.mpr ⟨ho, hc⟩
  | cons e es =>
    refine isAsciiLines_append.mpr ⟨isAsciiLines_append.mpr ⟨?_, isAsciiLines_newLine _⟩, hc⟩
    exact isAsciiLines_append.mpr ⟨ho, hinside⟩

/-- **A value is written in printable ASCII and line feeds**, whatever texts it holds. -/
theorem Value.isAsciiLines_write (depth : Nat) (v : Value) : IsAsciiLines (v.write depth) := by
  induction depth, v using Value.write.induct with
  | case1 depth s =>
    rw [write]
    exact isAsciiLines_of_isAscii (isAscii_writeText s)
  | case2 depth n =>
    rw [write]
    exact isAsciiLines_of_isAscii (isAscii_int n)
  | case3 depth items ih =>
    rw [write]
    refine isAsciiLines_writeBlock (by decide) (by decide) depth ?_
    intro e he
    obtain ⟨item, hitem, rfl⟩ := List.mem_map.mp he
    exact ih item hitem
  | case4 depth fields ih =>
    rw [write]
    refine isAsciiLines_writeBlock (by decide) (by decide) depth ?_
    intro e he
    obtain ⟨field, hfield, rfl⟩ := List.mem_map.mp he
    have hname := isAsciiLines_of_isAscii (isAscii_writeText field.1)
    have hcolon : IsAsciiLines [':', ' '] := by decide
    exact isAsciiLines_append.mpr ⟨hname, isAsciiLines_append.mpr ⟨hcolon, ih field hfield⟩⟩

end Lexis.Json

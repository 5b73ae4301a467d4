/-
A quoted text tells the text.

The form of a character between two marks is read back by `unescape?`, which needs no mark and no
sight of what stands behind (`unescape?_escape`).  The first mark that no backslash stands in front
of ends the text, so that a quoted text tells both the text and where it ends
(`Quoted.encode_append_inj`), whatever marks, backslashes and escapes the text itself holds.
-/
import Lexis.Proofs.Text.Hex
import Lexis.Text.Quoted
import Mathlib.Tactic.SplitIfs

namespace Lexis.Text.Quoted

/-- The character that a text between two marks begins with, and what stands behind it. -/
def unescape? : List Char → Option (Char × List Char)
  | '\\' :: 'n' :: s => some ('\n', s)
  | '\\' :: 'r' :: s => some ('\r', s)
  | '\\' :: 't' :: s => some ('\t', s)
  | '\\' :: 'x' :: s => (takeHex? 2 s).map (·.map Char.ofNat id)
  | '\\' :: 'u' :: s => (takeHex? 4 s).map (·.map Char.ofNat id)
  | '\\' :: 'U' :: s => (takeHex? 8 s).map (·.map Char.ofNat id)
  | '\\' :: c :: s => some (c, s)
  | c :: s => some (c, s)
  | [] => none

theorem mark_eq (s : List Char) : mark s = '\x27' ∨ mark s = '\x22' := by
  rw [mark]
  split_ifs
  · exact .inr rfl
  · exact .inl rfl

theorem unescape?_of_ne {c : Char} (h : c ≠ '\\') (s : List Char) :
    unescape? (c :: s) = some (c, s) := by
  rw [unescape?]
  all_goals simp [h]

theorem map_takeHex?_toNat {width : Nat} {c : Char} (h : c.toNat < 16 ^ width) (s : List Char) :
    (takeHex? width (fixedHex width c.toNat ++ s)).map (·.map Char.ofNat id) = some (c, s) := by
  rw [takeHex?_fixedHex h, Option.map_some, Prod.map, Char.ofNat_toNat, id]

theorem exists_codeEscape_eq_cons (c : Char) : ∃ ds, codeEscape c = '\\' :: ds := by
  rw [codeEscape]
  split_ifs <;> exact ⟨_, rfl⟩

theorem unescape?_codeEscape (c : Char) (s : List Char) :
    unescape? (codeEscape c ++ s) = some (c, s) := by
  rw [codeEscape]
  split_ifs with h₂ h₄
  · exact map_takeHex?_toNat h₂ s
  · exact map_takeHex?_toNat h₄ s
  · have hrange : c.toNat < 0xD800 ∨ 0xDFFF < c.toNat ∧ c.toNat < 0x110000 := c.valid
    have h₈ : c.toNat < 16 ^ 8 := by omega
    exact map_takeHex?_toNat h₈ s

/-- A character is read back from its form between two marks, whatever stands behind it. -/
theorem unescape?_escape {q : Char} (hq : q = '\x27' ∨ q = '\x22') (c : Char) (s : List Char) :
    unescape? (escape q c ++ s) = some (c, s) := by
  rw [escape]
  split_ifs with hmark hfeed hreturn htab
  · rcases hmark with rfl | rfl
    · rcases hq with rfl | rfl <;> rfl
    · rfl
  · rw [hfeed]
    rfl
  · rw [hreturn]
    rfl
  · rw [htab]
    rfl
  · exact unescape?_of_ne (fun h => hmark (.inr h)) s
  · exact unescape?_codeEscape c s

/-- No character is written with the mark in front. -/
theorem exists_escape_eq_cons {q : Char} (hq : q = '\x27' ∨ q = '\x22') (c : Char) :
    ∃ d ds, escape q c = d :: ds ∧ d ≠ q := by
  have hbackslash : '\\' ≠ q := by rcases hq with rfl | rfl <;> decide
  rw [escape]
  split_ifs with hmark
  · exact ⟨_, _, rfl, hbackslash⟩
  · exact ⟨_, _, rfl, hbackslash⟩
  · exact ⟨_, _, rfl, hbackslash⟩
  · exact ⟨_, _, rfl, hbackslash⟩
  · exact ⟨_, _, rfl, fun h => hmark (.inl h)⟩
  · obtain ⟨ds, hds⟩ := exists_codeEscape_eq_cons c
    exact ⟨_, ds, hds, hbackslash⟩

/-- The first mark that is not escaped ends the text. -/
theorem flatMap_escape_inj {q : Char} (hq : q = '\x27' ∨ q = '\x22') {s t r u : List Char}
    (h : s.flatMap (escape q) ++ q :: r = t.flatMap (escape q) ++ q :: u) : s = t ∧ r = u := by
  -- a character is read off both sides at once, and none of them reads as the mark
  induction s generalizing t with
  | nil =>
    cases t with
    | nil => exact ⟨rfl, List.tail_eq_of_cons_eq h⟩
    | cons d t =>
      obtain ⟨e, es, hd, he⟩ := exists_escape_eq_cons hq d
      rw [List.flatMap_cons, hd] at h
      exact absurd (List.head_eq_of_cons_eq h).symm he
  | cons c s ih =>
    cases t with
    | nil =>
      obtain ⟨e, es, hc, he⟩ := exists_escape_eq_cons hq c
      rw [List.flatMap_cons, hc] at h
      exact absurd (List.head_eq_of_cons_eq h) he
    | cons d t =>
      have hread := congrArg unescape? h
      rw [List.flatMap_cons, List.flatMap_cons, List.append_assoc, List.append_assoc,
        unescape?_escape hq, unescape?_escape hq, Option.some.injEq, Prod.mk.injEq] at hread
      obtain ⟨rfl, hrest⟩ := hread
      obtain ⟨rfl, hr⟩ := ih hrest
      exact ⟨rfl, hr⟩

/-- **A quoted text tells the text, and where it ends.** -/
theorem encode_append_inj {s t r u : List Char} (h : encode s ++ r = encode t ++ u) :
    s = t ∧ r = u := by
  rw [encode, encode, List.cons_append, List.cons_append, List.cons.injEq, List.append_assoc,
    List.append_assoc] at h
  obtain ⟨hmark, h⟩ := h
  -- the opening mark says which one closes the text
  rw [← hmark] at h
  exact flatMap_escape_inj (mark_eq s) h

end Lexis.Text.Quoted

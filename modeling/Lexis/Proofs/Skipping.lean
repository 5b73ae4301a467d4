/-
Skipping by hand.

A caller may skip white space and comments by hand, at any place and as often as it likes, before it
asks for a token.  Each skip either does nothing or takes the very piece of trivia that the search
for a token would go over first, and both leave the same behind it, be it a warning or a record in
the log.  So the search goes on as if it had come there by itself (`Lexer.GoesOnAs`).

* `Lexer.GoesOnAs.after_trivia` — one piece of trivia, gone over by hand;
* `Lexer.skipAll_next_tokenize` — any skips, and the same for the loops over single characters.
-/
import Lexis.Proofs.Lexer.Loop
import Lexis.Session.Step

namespace Lexis

/-- A skip that a caller may ask for. -/
inductive Skip where
  | spaces
  | comment
  deriving DecidableEq, Repr

/-- The request for a skip. -/
def Skip.request : Skip → Step
  | .spaces => .skipSpaces
  | .comment => .skipComment

/-- Carries out skips in order. -/
def Lexer.skipAll (x : Lexer) (skips : List Skip) : Lexer :=
  skips.foldl (fun y s => (y.perform s.request).2) x

namespace Loop

/-- One skip by its loop. -/
def skip (n : Nat) (x : Lexer) : Skip → Except Mishap Lexer
  | .spaces => spaces n x
  | .comment => comment n x

/-- Carries out skips in order by their loops. -/
def skipAll (n : Nat) (x : Lexer) (skips : List Skip) : Except Mishap Lexer :=
  skips.foldlM (skip n) x

/-- A skip by its loop does what is asked for. -/
theorem skip_eq {x : Lexer} {n : Nat} (hx : 0 ≤ x.cursor.offset) (hn : x.rest.length < n)
    (s : Skip) : skip n x s = .ok (x.perform s.request).2 := by
  cases s with
  | spaces => exact spaces_eq hx hn
  | comment => exact comment_eq hx hn

end Loop

namespace Lexer

/-- From one lexer the search for tokens goes on as from another one, which may have more to go
over. -/
structure GoesOnAs (x y : Lexer) : Prop where
  offset_nonneg : 0 ≤ x.cursor.offset
  length_rest_le : x.rest.length ≤ y.rest.length
  next_eq : x.next = y.next
  tokenize_eq : x.tokenize = y.tokenize

namespace GoesOnAs

variable {x y z : Lexer}

theorem refl (hx : 0 ≤ x.cursor.offset) : x.GoesOnAs x :=
  ⟨hx, le_rfl, rfl, rfl⟩

theorem trans (h : x.GoesOnAs y) (h' : y.GoesOnAs z) : x.GoesOnAs z where
  offset_nonneg := h.offset_nonneg
  length_rest_le := h.length_rest_le.trans h'.length_rest_le
  next_eq := h.next_eq.trans h'.next_eq
  tokenize_eq := h.tokenize_eq.trans h'.tokenize_eq

/-- The search goes over a piece of trivia in any case. -/
theorem after_trivia (hx : 0 ≤ x.cursor.offset) {t : Trivia} {r : List Char}
    (hr : x.rest = t.text ++ r) (ht : t.Fits r) : (x.after (.trivia t)).GoesOnAs x := by
  have hbehind : (x.after (.trivia t)).rest = r := rest_after_of_eq (i := .trivia t) hx hr
  have hfits : (Item.trivia t).Fits (x.after (.trivia t)).rest := hbehind ▸ ht
  have hrest : x.rest = (Item.trivia t).text ++ (x.after (.trivia t)).rest := by
    rw [hbehind]
    exact hr
  have htokens : x.tokens = (x.after (.trivia t)).tokens := tokens_of_fits hrest hfits
  refine ⟨offset_after hx _, ?_, (next_of_fits hrest hfits).symm, ?_⟩
  · rw [hbehind, hr, List.length_append]
    exact Nat.le_add_left _ _
  · rw [tokenize_eq_recordCount, tokenize_eq_recordCount, htokens, finish_of_fits hrest hfits]

theorem of_skips (hx : 0 ≤ x.cursor.offset) (h : x.Skips y) : y.GoesOnAs x := by
  rcases h with rfl | ⟨t, r, hr, ht, rfl⟩
  · exact refl hx
  · exact after_trivia hx hr ht

theorem perform (hx : 0 ≤ x.cursor.offset) (s : Skip) : (x.perform s.request).2.GoesOnAs x := by
  cases s with
  | spaces => exact of_skips hx x.skips_skipSpaces
  | comment => exact of_skips hx x.skips_skipComment

theorem skipAll (hx : 0 ≤ x.cursor.offset) (skips : List Skip) :
    (x.skipAll skips).GoesOnAs x := by
  induction skips generalizing x with
  | nil => exact refl hx
  | cons s skips ih =>
    have hskip := perform hx s
    exact (ih hskip.offset_nonneg).trans hskip

end GoesOnAs

/-- The loops carry out skips without fail. -/
theorem loop_skipAll {x : Lexer} {n : Nat} (hx : 0 ≤ x.cursor.offset) (hn : x.rest.length < n)
    (skips : List Skip) : Loop.skipAll n x skips = .ok (x.skipAll skips) := by
  induction skips generalizing x with
  | nil => rfl
  | cons s skips ih =>
    have hskip := GoesOnAs.perform hx s
    rw [Loop.skipAll, List.foldlM_cons, Loop.skip_eq hx hn, Mishap.ok_bind]
    exact ih hskip.offset_nonneg (hskip.length_rest_le.trans_lt hn)

/-- **Skipping by hand is not noticed**: from any place that is not in front of the source, whatever
white space and comments are skipped there, in whatever order and number, the next token is the same
as without, and so are all tokens that are left; and the lexer behind them is the same in
everything, in what it has kept and in what it has logged.  The loops over single characters, with fuel for all
that is left, come to this too. -/
theorem skipAll_next_tokenize (x : Lexer) (hx : 0 ≤ x.cursor.offset) (skips : List Skip) :
    (x.skipAll skips).next = x.next ∧ (x.skipAll skips).tokenize = x.tokenize ∧
      ∀ n, x.rest.length < n →
        (Loop.skipAll n x skips >>= Loop.next n) = .ok x.next ∧
        (Loop.skipAll n x skips >>= Loop.tokenize n) = .ok x.tokenize := by
  have h := GoesOnAs.skipAll hx skips
  refine ⟨h.next_eq, h.tokenize_eq, fun n hn => ?_⟩
  have hmore := h.length_rest_le.trans_lt hn
  rw [loop_skipAll hx hn, Mishap.ok_bind, Mishap.ok_bind, Loop.next_eq h.offset_nonneg hmore,
    Loop.tokenize_eq h.offset_nonneg hmore, h.next_eq, h.tokenize_eq]
  exact ⟨rfl, rfl⟩

/-- A lexer between a word and a comment that is never closed, with strict comments. -/
def beforeOpenComment : Lexer :=
  ((Lexer.ofSource "x  // y\n /*/ z" none { strictComments := true }).advance 1).2

/-- Skips that do nothing, and others that come to the end of the source. -/
def manySkips : List Skip :=
  [.comment, .spaces, .comment, .spaces, .comment, .comment]

/-- The open comment is warned about once, be it by a skip or by the search. -/
theorem skipAll_next_tokenize_beforeOpenComment :
    0 ≤ beforeOpenComment.cursor.offset ∧
      (beforeOpenComment.skipAll manySkips).diagnostics.warnings.size = 1 ∧
      beforeOpenComment.next.2.diagnostics.warnings.size = 1 ∧
      (beforeOpenComment.skipAll manySkips).next = beforeOpenComment.next ∧
      (beforeOpenComment.skipAll manySkips).tokenize = beforeOpenComment.tokenize ∧
      ∀ n, beforeOpenComment.rest.length < n →
        (Loop.skipAll n beforeOpenComment manySkips >>= Loop.next n) =
          .ok beforeOpenComment.next ∧
        (Loop.skipAll n beforeOpenComment manySkips >>= Loop.tokenize n) =
          .ok beforeOpenComment.tokenize :=
  ⟨by decide +kernel, by decide +kernel, by decide +kernel,
    skipAll_next_tokenize beforeOpenComment (by decide +kernel) manySkips⟩

end Lexer

end Lexis

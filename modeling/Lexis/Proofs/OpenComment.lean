/-
Sources that end inside a block comment.

Which block comment a text ends inside, if any, can be told without looking for tokens: a pass over
the raw characters keeps track of code, line comments and block comments, and remembers where the
last block comment began (`openBlock?`).  The scan meets a comment that is never closed exactly
there (`opensBehind_or`), and the text in front of it is scanned as if the source ended with it
(`OpensBehind`).

So three runs can be compared: one over the source, one over the part in front of the opener, and
one over the source with the missing closer behind it.  They have the same tokens but for the end
token, and the first is the only one with a warning, which names the opener's place
(`tokenize_openBlock`).
-/
import Lexis.Proofs.Lexer.Next
import Lexis.Proofs.Lexer.Warnings
import Lexis.Proofs.Position

namespace Lexis

open Text

/-! ### The pass over raw characters -/

/-- What the pass is within, and where the block comment began that it is in. -/
inductive Within where
  | code
  | line
  | block (opener : Nat)
  deriving DecidableEq, Repr

/-- The offset of the opener of the block comment that a text ends inside, if it does.  The number
counts the characters in front of the text. -/
def openerFrom? : Nat → Within → List Char → Option Nat
  | n, .code, '/' :: '/' :: r => openerFrom? (n + 2) .line r
  | n, .code, '/' :: '*' :: r => openerFrom? (n + 2) (.block n) r
  | n, .code, _ :: r => openerFrom? (n + 1) .code r
  | n, .line, '\n' :: r => openerFrom? (n + 1) .code r
  | n, .line, _ :: r => openerFrom? (n + 1) .line r
  | n, .block _, '*' :: '/' :: r => openerFrom? (n + 2) .code r
  | n, .block q, _ :: r => openerFrom? (n + 1) (.block q) r
  | _, .block q, [] => some q
  | _, _, [] => none

/-- The offset of the opener of the block comment that a source ends inside, if it does. -/
def openBlock? (s : List Char) : Option Nat :=
  openerFrom? 0 .code s

theorem openerFrom?_code_cons {c : Char} {r : List Char}
    (h : c = '/' → r.head? ≠ some '/' ∧ r.head? ≠ some '*') (n : Nat) :
    openerFrom? n .code (c :: r) = openerFrom? (n + 1) .code r := by
  rw [openerFrom?]
  · rintro s rfl rfl
    exact (h rfl).1 rfl
  · rintro s rfl rfl
    exact (h rfl).2 rfl

theorem openerFrom?_code_append {t : List Char} (h : '/' ∉ t) (r : List Char) (n : Nat) :
    openerFrom? n .code (t ++ r) = openerFrom? (n + t.length) .code r := by
  induction t generalizing n with
  | nil => rfl
  | cons c t ih =>
    obtain ⟨hc, ht⟩ : '/' ≠ c ∧ '/' ∉ t := by simpa using h
    have hcons := openerFrom?_code_cons (c := c) (r := t ++ r) (fun hs => absurd hs.symm hc) n
    rw [List.cons_append, hcons, ih ht, List.length_cons]
    congr 1
    omega

theorem openerFrom?_line_append {x r : List Char} (hx : '\n' ∉ x) (hr : Stops (· ≠ '\n') r)
    (n : Nat) : openerFrom? n .line (x ++ r) = openerFrom? (n + x.length) .code r := by
  induction x generalizing n with
  | nil =>
    cases r with
    | nil => rfl
    | cons c r =>
      obtain rfl : c = '\n' := by simpa using hr
      rfl
  | cons c x ih =>
    obtain ⟨hc, hx⟩ : '\n' ≠ c ∧ '\n' ∉ x := by simpa using hx
    have hcons : openerFrom? n .line (c :: (x ++ r)) = openerFrom? (n + 1) .line (x ++ r) := by
      rw [openerFrom?]
      exact hc.symm
    rw [List.cons_append, hcons, ih hx, List.length_cons]
    congr 1
    omega

theorem openerFrom?_block_append {x s : List Char} (hx : ¬ closer <:+: x)
    (hs : s.head? ≠ some '/') (n q : Nat) :
    openerFrom? n (.block q) (x ++ s) = openerFrom? (n + x.length) (.block q) s := by
  induction x generalizing n with
  | nil => rfl
  | cons c x ih =>
    have hcons : openerFrom? n (.block q) (c :: (x ++ s)) =
        openerFrom? (n + 1) (.block q) (x ++ s) := by
      rw [openerFrom?]
      rintro r rfl hr
      exact head?_ne_slash hx hs rfl (by rw [hr]; rfl)
    rw [List.cons_append, hcons, ih fun h => hx (List.infix_cons h), List.length_cons]
    congr 1
    omega

/-- The pass goes over a piece with a token as over any code. -/
theorem openerFrom?_piece {f : Form} {l : Lexeme} {r : List Char} (h : f.Fits l r) (n : Nat) :
    openerFrom? n .code (l.text ++ r) = openerFrom? (n + l.text.length) .code r := by
  by_cases hs : '/' ∈ l.text
  · obtain ⟨ht, hr⟩ := f.slash_of_mem h hs
    rw [ht]
    exact openerFrom?_code_cons (fun _ => hr) n
  · exact openerFrom?_code_append hs r n

/-- Behind every item but a comment that is never closed, the pass is back in code. -/
theorem openerFrom?_item {i : Item} {r : List Char} (h : i.Fits r) (hclosed : ¬ i.isOpen = true)
    (n : Nat) : openerFrom? n .code (i.text ++ r) = openerFrom? (n + i.text.length) .code r := by
  match i, h with
  | .trivia (.spaces t), ⟨_, ht, _⟩ =>
    have hslash : '/' ∉ t := fun hm => absurd (ht '/' hm) (by decide)
    exact openerFrom?_code_append hslash r n
  | .trivia (.lineComment t), h =>
    obtain ⟨x, rfl, hx, hr⟩ := h
    show openerFrom? (n + 2) .line (x ++ r) = openerFrom? (n + (x.length + 2)) .code r
    rw [openerFrom?_line_append hx hr]
    congr 1
    omega
  | .trivia (.blockComment t), h =>
    obtain ⟨x, rfl, hx⟩ := h
    have hstar : (closer ++ r).head? ≠ some '/' := by simp [closer]
    show openerFrom? (n + 2) (.block n) (x ++ closer ++ r) =
      openerFrom? (n + ((x ++ closer).length + 2)) .code r
    rw [List.append_assoc, openerFrom?_block_append hx hstar, List.length_append]
    show openerFrom? (n + 2 + x.length + 2) .code r = openerFrom? (n + (x.length + 2 + 2)) .code r
    congr 1
    omega
  | .trivia (.openComment t), _ => exact absurd rfl hclosed
  | .lexeme l, ⟨f, _, hf⟩ => exact openerFrom?_piece hf n
  | .invalid c, hc => exact openerFrom?_piece (f := .stray) hc n

/-- A block comment without a closer stays open to the end. -/
theorem openerFrom?_open {x : List Char} (hx : ¬ closer <:+: x) (n : Nat) :
    openerFrom? n .code ('/' :: '*' :: x) = some n := by
  show openerFrom? (n + 2) (.block n) x = some n
  have happend := openerFrom?_block_append (s := []) hx (by simp) (n + 2) n
  rw [List.append_nil] at happend
  rw [happend]
  rfl

/-! ### The text in front of the opener -/

theorem Item.exists_of_isOpen {i : Item} (h : i.isOpen = true) :
    ∃ t, i = .trivia (.openComment t) := by
  unfold isOpen at h
  split at h
  · exact ⟨_, rfl⟩
  · cases h

/-- The end of the text may follow every item. -/
theorem Item.Fits.at_end {i : Item} {r : List Char} (h : i.Fits r) : i.Fits [] := by
  match i, h with
  | .trivia (.spaces t), ⟨hne, ht, _⟩ => exact ⟨hne, ht, stops_nil _⟩
  | .trivia (.lineComment t), ⟨x, ht, hx, _⟩ => exact ⟨x, ht, hx, stops_nil _⟩
  | .trivia (.blockComment t), h => exact h
  | .trivia (.openComment t), ⟨x, ht, hx, _⟩ => exact ⟨x, ht, hx, rfl⟩
  | .lexeme l, ⟨f, hf, h⟩ => exact ⟨f, hf, Form.Fits.at_end h⟩
  | .invalid c, h => exact Form.Fits.at_end (f := .stray) h

/-- Behind a front `a`, a block comment with the body `x` begins and is never closed. -/
structure OpensBehind (a x : List Char) : Prop where
  no_closer : ¬ closer <:+: x
  opener : ∀ n, openerFrom? n .code (a ++ '/' :: '*' :: x) = some (n + a.length)
  front : ¬ EndsOpen a
  /-- The front has items of its own, as long as a slash follows it. -/
  split : ∀ w, w.head? = some '/' → Item.split (a ++ w) = Item.split a ++ Item.split w

namespace OpensBehind

variable {a x : List Char}

theorem nil (hx : ¬ closer <:+: x) : OpensBehind [] x where
  no_closer := hx
  opener := openerFrom?_open hx
  front := by simp [EndsOpen]
  split w _ := by simp

theorem item (h : OpensBehind a x) {i : Item} (hi : i.Fits (a ++ '/' :: '*' :: x))
    (hclosed : ¬ i.isOpen = true) : OpensBehind (i.text ++ a) x := by
  -- the item fits in front of the front alone, which may be empty
  have hfront : i.Fits a := by
    cases a with
    | nil => exact hi.at_end
    | cons c a => exact hi.congr rfl
  refine ⟨h.no_closer, ?_, ?_, ?_⟩
  · intro n
    rw [List.append_assoc, openerFrom?_item hi hclosed, h.opener, List.length_append, Nat.add_assoc]
  · rw [endsOpen_append hfront, not_or]
    exact ⟨hclosed, h.front⟩
  · intro w hw
    have hbefore : i.Fits (a ++ w) := by
      refine hi.congr ?_
      rw [List.head?_append, List.head?_append, hw]
      rfl
    rw [List.append_assoc, Item.split_append hbefore, h.split w hw, Item.split_append hfront,
      List.cons_append]

/-- What is found in the front and in one more item behind it. -/
theorem collect {β : Type} (h : OpensBehind a x) (f : Mark → Item → Option β) (m : Mark)
    {t : Trivia} (ht : t.Fits []) (hhead : t.text.head? = some '/') :
    Item.collect f m (Item.split (a ++ t.text)) =
      Item.collect f m (Item.split a) ++ (f (m.moveOver a) (.trivia t)).toList := by
  have hlast : Item.split t.text = [.trivia t] := Item.split_text (i := .trivia t) ht
  rw [h.split _ hhead, hlast, Item.collect_append, Item.flatMap_text_split, Item.collect,
    Item.collect, List.append_nil]

theorem endsOpen (h : OpensBehind a x) : EndsOpen (a ++ '/' :: '*' :: x) := by
  have hlast : Item.split ('/' :: '*' :: x) = [.trivia (.openComment ('/' :: '*' :: x))] :=
    Item.split_text (i := .trivia (.openComment _)) ⟨x, rfl, h.no_closer, rfl⟩
  refine ⟨.trivia (.openComment ('/' :: '*' :: x)), ?_, rfl⟩
  rw [h.split _ rfl, hlast]
  exact List.mem_append_right _ List.mem_cons_self

end OpensBehind

/-- A text is scanned without meeting an open comment, and the pass ends outside of block comments,
or both find the same opener. -/
theorem opensBehind_or (r : List Char) :
    (¬ EndsOpen r ∧ ∀ n, openerFrom? n .code r = none) ∨
      ∃ a x, r = a ++ '/' :: '*' :: x ∧ OpensBehind a x := by
  induction r using Item.fits_induction with
  | nil =>
    left
    refine ⟨by simp [EndsOpen], fun n => rfl⟩
  | item i r h ih =>
    by_cases hopen : i.isOpen = true
    · -- an open comment takes all that is left
      right
      obtain ⟨t, rfl⟩ := Item.exists_of_isOpen hopen
      obtain ⟨x, rfl, hx, rfl⟩ := h
      exact ⟨[], x, List.append_nil _, .nil hx⟩
    · rcases ih with ⟨hclosed, hnone⟩ | ⟨a, x, rfl, hbehind⟩
      · left
        refine ⟨?_, ?_⟩
        · rw [endsOpen_append h, not_or]
          exact ⟨hopen, hclosed⟩
        · intro n
          rw [openerFrom?_item h hopen, hnone]
      · right
        exact ⟨i.text ++ a, x, (List.append_assoc _ _ _).symm, hbehind.item h hopen⟩

/-- The opener of the comment that a source ends inside, with what is in front and behind. -/
theorem exists_of_openBlock? {s : List Char} {q : Nat} (h : openBlock? s = some q) :
    ∃ a x, s = a ++ '/' :: '*' :: x ∧ a.length = q ∧ OpensBehind a x := by
  rcases opensBehind_or s with ⟨-, hnone⟩ | ⟨a, x, rfl, hbehind⟩
  · rw [openBlock?, hnone] at h
    cases h
  · rw [openBlock?, hbehind.opener, Nat.zero_add] at h
    exact ⟨a, x, rfl, Option.some.inj h, hbehind⟩

/-- The scan meets a comment that is never closed exactly if the pass ends inside one. -/
theorem openBlock?_eq_none_iff {s : List Char} : openBlock? s = none ↔ ¬ EndsOpen s := by
  rcases opensBehind_or s with ⟨hclosed, hnone⟩ | ⟨a, x, rfl, hbehind⟩
  · exact ⟨fun _ => hclosed, fun _ => hnone 0⟩
  · have hopen : EndsOpen (a ++ '/' :: '*' :: x) := hbehind.endsOpen
    rw [openBlock?, hbehind.opener]
    refine ⟨?_, fun h => absurd hopen h⟩
    intro h
    cases h

/-! ### Three runs -/

/-- The warnings that a run over a source leaves. -/
def runWarnings (source : String) (filename : Option String) (options : Options) : List String :=
  (Lexer.ofSource source filename options).tokenize.2.diagnostics.warnings.toList

/-- The warning about the block comment that begins at an offset of a source. -/
def openBlockWarning (filename : String) (s : List Char) (q : Nat) : String :=
  filename ++ ":" ++ toString (1 + (s.take q).count '\n') ++ ":" ++
    toString (1 + (lastLine (s.take q)).length) ++ ": warning: unterminated block comment"

/-- The tokens of a run, without the end token. -/
def pieceTokens (source : String) (filename : Option String) (options : Options) : List Token :=
  (tokenize source filename options).filter (!·.isEnd)

theorem Item.collect_warning?_of_closed {is : List Item} (h : ¬ ∃ i ∈ is, i.isOpen = true)
    (filename : String) (strict : Bool) (m : Mark) :
    collect (warning? filename strict) m is = [] := by
  induction is generalizing m with
  | nil => rfl
  | cons i is ih =>
    simp only [List.mem_cons, exists_eq_or_imp, not_or] at h
    obtain ⟨hi, his⟩ := h
    have hnone : warning? filename strict m i = none := by
      rw [warning?, Bool.eq_false_iff.mpr hi, Bool.false_and, if_neg Bool.false_ne_true]
    rw [collect, hnone, ih his]
    rfl

/-- A warning names the place behind the text in front of the comment. -/
theorem warning?_openComment (filename : String) (a x : List Char) (t : List Char) :
    Item.warning? filename true (placeBehind a) (.trivia (.openComment t)) =
      some (openBlockWarning filename (a ++ x) a.length) := by
  have hline : (placeBehind a).line = ((1 + a.count '\n' : Nat) : Int) := by
    rw [placeBehind, Mark.moveOver_line]
    push_cast
    rfl
  have hcolumn : (placeBehind a).column = ((1 + (lastLine a).length : Nat) : Int) := by
    rw [placeBehind, Mark.moveOver_column rfl]
    push_cast
    rfl
  have hmessage : ": warning: " ++ Cause.openComment.message =
      ": warning: unterminated block comment" := rfl
  rw [Item.warning?, Item.isOpen, Bool.true_and, if_pos rfl, hline, hcolumn, openBlockWarning,
    List.take_left, ← hmessage, ← String.append_assoc]
  rfl

theorem runWarnings_eq (source : String) (filename : Option String) (options : Options) :
    runWarnings source filename options =
      Item.collect (Item.warning? (filename.getD options.filename) options.strictComments)
        (placeBehind []) (Item.split source.toList) :=
  Lexer.tokenize_warnings _

/-- Beside the end token, the tokens are those that are collected from the items. -/
theorem pieceTokens_eq (source : String) (filename : Option String) (options : Options) :
    pieceTokens source filename options =
      Item.collect (Item.token? (filename.getD options.filename)) (placeBehind [])
        (Item.split source.toList) := by
  set x := Lexer.ofSource source filename options with hx
  have htokens : x.tokens = Item.collect (Item.token? x.filename) (placeBehind [])
      (Item.split source.toList) ++ [endTokenAt x.filename (placeBehind source.toList)] :=
    Item.tokens_split x.filename (placeBehind []) source.toList
  have hpieces : ∀ t ∈ x.tokens.dropLast, (!t.isEnd) = true := by
    intro t ht
    have hoffset : 0 ≤ x.cursor.offset := le_rfl
    rw [Lexer.isEnd_of_mem_dropLast hoffset ht]
    rfl
  rw [htokens, List.dropLast_concat] at hpieces
  rw [pieceTokens, tokenize, Lexer.tokenize_fst, htokens, List.filter_append,
    List.filter_eq_self.mpr hpieces]
  exact List.append_nil _

/-- The end token of a run stands at the end of its source. -/
theorem exists_getLast?_tokenize (source : String) (filename : Option String) (options : Options) :
    ∃ e, (tokenize source filename options).getLast? = some e ∧ e.isEnd = true ∧
      e.StandsAt source.toList source.length := by
  refine ⟨endTokenAt (filename.getD options.filename) (placeBehind source.toList), ?_, rfl, ?_⟩
  · rw [tokenize_eq, Item.tokens_split, List.getLast?_concat]
    rfl
  · rw [← String.length_toList]
    exact standsAt_endTokenAt _ _

namespace OpensBehind

variable {a x : List Char}

/-- A comment that is never closed is warned about once. -/
theorem runWarnings_eq (h : OpensBehind a x) {source : String}
    (hs : source.toList = a ++ '/' :: '*' :: x) (filename : Option String) {options : Options}
    (hstrict : options.strictComments = true) :
    runWarnings source filename options =
      [openBlockWarning (filename.getD options.filename) source.toList a.length] := by
  have hfits : (Trivia.openComment ('/' :: '*' :: x)).Fits [] := ⟨x, rfl, h.no_closer, rfl⟩
  have hcollect := h.collect (Item.warning? (filename.getD options.filename) true) (placeBehind [])
    hfits rfl
  rw [Item.collect_warning?_of_closed h.front, List.nil_append] at hcollect
  rw [Lexis.runWarnings_eq, hstrict, hs]
  exact hcollect.trans (congrArg Option.toList (warning?_openComment _ a _ _))

/-- A comment behind the front has no token, closed or not. -/
theorem pieceTokens_eq (h : OpensBehind a x) {t : Trivia} (ht : t.Fits [])
    (hhead : t.text.head? = some '/') {source : String} (hs : source.toList = a ++ t.text)
    (filename : Option String) (options : Options) :
    pieceTokens source filename options = pieceTokens (String.ofList a) filename options := by
  have hcollect :=
    h.collect (Item.token? (filename.getD options.filename)) (placeBehind []) ht hhead
  rw [Lexis.pieceTokens_eq, Lexis.pieceTokens_eq, hs, String.toList_ofList, hcollect]
  exact List.append_nil _

/-- With its closer, the comment is not warned about. -/
theorem runWarnings_closed (h : OpensBehind a x) {t : List Char}
    (ht : (Trivia.blockComment t).Fits []) (hhead : t.head? = some '/') {source : String}
    (hs : source.toList = a ++ t) (filename : Option String) (options : Options) :
    runWarnings source filename options = [] := by
  have hcollect :=
    h.collect (Item.warning? (filename.getD options.filename) options.strictComments)
      (placeBehind []) ht hhead
  rw [Item.collect_warning?_of_closed h.front, List.nil_append] at hcollect
  rw [Lexis.runWarnings_eq, hs]
  exact hcollect

end OpensBehind

/-- Lenient runs have no warnings. -/
theorem runWarnings_of_lenient (source : String) (filename : Option String) {options : Options}
    (h : options.strictComments = false) : runWarnings source filename options = [] := by
  have hnone : ∀ m i, Item.warning? (filename.getD options.filename) false m i = none := by
    intro m i
    rw [Item.warning?, Bool.and_false, if_neg Bool.false_ne_true]
  rw [runWarnings_eq, h]
  induction Item.split source.toList using List.reverseRecOn with
  | nil => rfl
  | append_singleton is i ih =>
    rw [Item.collect_append, ih, Item.collect, hnone]
    rfl

/-- **A comment that is never closed is warned about once, and hides nothing else.**  Under strict
comments, a run has one warning exactly if its source ends inside a block comment, and else none;
and a lenient run has none.  The warning names the place of the opener.  The tokens are those of the
text in front of the opener, and the end token at the end of the source; and with the missing
closer, the tokens stay and the warning is gone. -/
theorem tokenize_openBlock (source : String) (filename : Option String) (options : Options) :
    ((openBlock? source.toList).isSome = true ↔
      (runWarnings source filename { options with strictComments := true }).length = 1) ∧
    (openBlock? source.toList = none →
      runWarnings source filename { options with strictComments := true } = []) ∧
    runWarnings source filename { options with strictComments := false } = [] ∧
    ∀ q, openBlock? source.toList = some q →
      (∃ x, source.toList = source.toList.take q ++ '/' :: '*' :: x ∧ ¬ closer <:+: x) ∧
      runWarnings source filename { options with strictComments := true } =
        [openBlockWarning (filename.getD options.filename) source.toList q] ∧
      pieceTokens source filename options =
        pieceTokens (String.ofList (source.toList.take q)) filename options ∧
      (∃ e, (tokenize source filename options).getLast? = some e ∧ e.isEnd = true ∧
        e.StandsAt source.toList source.length) ∧
      pieceTokens (source ++ "*/") filename options = pieceTokens source filename options ∧
      runWarnings (source ++ "*/") filename { options with strictComments := true } = [] := by
  have hclosed : openBlock? source.toList = none →
      runWarnings source filename { options with strictComments := true } = [] := by
    intro hnone
    rw [runWarnings_eq]
    exact Item.collect_warning?_of_closed (openBlock?_eq_none_iff.mp hnone) _ _ _
  have hopen : ∀ q, openBlock? source.toList = some q →
      runWarnings source filename { options with strictComments := true } =
        [openBlockWarning (filename.getD options.filename) source.toList q] := by
    intro q hq
    obtain ⟨a, x, hs, rfl, hbehind⟩ := exists_of_openBlock? hq
    exact hbehind.runWarnings_eq hs filename rfl
  refine ⟨?_, hclosed, runWarnings_of_lenient source filename rfl, ?_⟩
  · cases hq : openBlock? source.toList with
    | none =>
      rw [hclosed hq]
      simp
    | some q =>
      rw [hopen q hq]
      simp
  · intro q hq
    obtain ⟨a, x, hs, rfl, hbehind⟩ := exists_of_openBlock? hq
    have hfront : source.toList.take a.length = a := by rw [hs, List.take_left]
    have hmended : (source ++ "*/").toList = a ++ '/' :: '*' :: (x ++ closer) := by
      rw [String.toList_append, hs, List.append_assoc]
      rfl
    have hlast : (Trivia.openComment ('/' :: '*' :: x)).Fits [] :=
      ⟨x, rfl, hbehind.no_closer, rfl⟩
    have hblock : (Trivia.blockComment ('/' :: '*' :: (x ++ closer))).Fits [] :=
      ⟨x, rfl, hbehind.no_closer⟩
    have hpieces := hbehind.pieceTokens_eq hlast rfl hs filename options
    refine ⟨⟨x, ?_, hbehind.no_closer⟩, hopen _ hq, ?_, exists_getLast?_tokenize _ _ _, ?_, ?_⟩
    · rw [hfront, hs]
    · rw [hfront, hpieces]
    · rw [hpieces]
      exact hbehind.pieceTokens_eq hblock rfl hmended filename options
    · exact hbehind.runWarnings_closed hblock rfl hmended filename _

/-- A line comment hides an opener, and the star of the opener below does not close it. -/
theorem tokenize_openBlock_slash :
    openBlock? "//*\nb /*/".toList = some 6 ∧
      runWarnings "//*\nb /*/" none { strictComments := true } =
        ["<input>:2:3: warning: unterminated block comment"] ∧
      pieceTokens "//*\nb /*/" none {} = pieceTokens "//*\nb " none {} ∧
      pieceTokens "//*\nb /*/*/" none {} = pieceTokens "//*\nb /*/" none {} ∧
      runWarnings "//*\nb /*/*/" none { strictComments := true } = [] := by
  have hopen : openBlock? "//*\nb /*/".toList = some 6 := by decide
  obtain ⟨-, hwarning, hfront, -, hmended, hquiet⟩ :=
    (tokenize_openBlock "//*\nb /*/" none {}).2.2.2 6 hopen
  exact ⟨hopen, hwarning, hfront, hmended, hquiet⟩

end Lexis

/-
Token by token.

A stream can be had at once or piece by piece.  Every call for the next token takes the first of
the tokens that are left, and where only the end token is left it gives that one again and again
(`Lexer.next_spec`).  So `n` calls give the first `n` tokens of the stream and then copies of its
end token (`Lexer.nexts_fst`), and as many calls as there are tokens lead to the lexer that the
whole stream leads to (`Lexer.nexts_snd`).

All of it is by induction over what is left of the source, item by item (`Lexer.rest_induction`).
-/
import Lexis.Lexer.Scan
import Lexis.Proofs.Lexer.Run
import Mathlib.Logic.Function.Iterate

namespace Lexis

/-- No piece gives an end token. -/
theorem Item.isEnd_of_token? {filename : String} {m : Mark} {i : Item} {r : List Char} {t : Token}
    (hi : i.Fits r) (h : i.token? filename m = some t) : t.isEnd = false := by
  obtain ⟨l, hl, rfl⟩ := Option.map_eq_some_iff.mp h
  obtain ⟨f, hf⟩ := exists_form_of_lexeme? hi hl
  exact decide_eq_false (f.kind_ne_endOfInput hf)

namespace Lexer

variable {x y : Lexer} {i : Item} {r : List Char}

/-! ### One item at a time -/

theorem rest_after_of_eq (hx : 0 ≤ x.cursor.offset) (hr : x.rest = i.text ++ r) :
    (x.after i).rest = r := by
  rw [rest_after hx, hr, List.drop_left]

theorem offset_after (hx : 0 ≤ x.cursor.offset) (i : Item) : 0 ≤ (x.after i).cursor.offset := by
  rw [after_cursor]
  show 0 ≤ (x.cursor.toMark.moveOver i.text).offset
  rw [Mark.moveOver_offset]
  omega

/-- Induction over what is left of the source, item by item. -/
theorem rest_induction {motive : (x : Lexer) → 0 ≤ x.cursor.offset → Prop}
    (nil : ∀ (x : Lexer) (hx : 0 ≤ x.cursor.offset), x.rest = [] → motive x hx)
    (item : ∀ (x : Lexer) (hx : 0 ≤ x.cursor.offset) (i : Item),
      x.rest = i.text ++ (x.after i).rest → i.Fits (x.after i).rest →
      motive (x.after i) (offset_after hx i) → motive x hx)
    (x : Lexer) (hx : 0 ≤ x.cursor.offset) : motive x hx := by
  generalize hr : x.rest = r
  induction r using Item.fits_induction generalizing x with
  | nil => exact nil x hx hr
  | item i r h ih =>
    have ha := rest_after_of_eq hx hr
    refine item x hx i ?_ ?_ (ih (x.after i) (offset_after hx i) ha)
    · rw [ha, hr]
    · rwa [ha]

theorem tokens_of_rest_nil (h : x.rest = []) : x.tokens = [x.endToken] := by
  rw [tokens, h, Item.split_nil]
  rfl

theorem finish_of_rest_nil (h : x.rest = []) : x.finish = x := by
  rw [finish, h, Item.split_nil]
  rfl

theorem next_of_rest_nil (h : x.rest = []) : x.next = (x.endToken, x) := by
  rw [next, h, nextFrom_nil]

theorem tokens_of_fits (hr : x.rest = i.text ++ (x.after i).rest) (h : i.Fits (x.after i).rest) :
    x.tokens = (i.token? x.filename x.cursor.toMark).toList ++ (x.after i).tokens := by
  rw [tokens, hr, Item.split_append h, Item.tokens, tokens, after_filename, after_cursor]
  rfl

theorem finish_of_fits (hr : x.rest = i.text ++ (x.after i).rest) (h : i.Fits (x.after i).rest) :
    x.finish = (x.after i).finish := by
  rw [finish, hr, Item.split_append h, List.foldl_cons, finish]

theorem next_of_fits (hr : x.rest = i.text ++ (x.after i).rest) (h : i.Fits (x.after i).rest) :
    x.next =
      match i.token? x.filename x.cursor.toMark with
      | some t => (t, x.after i)
      | none => (x.after i).next := by
  rw [next, hr, nextFrom_append h]
  cases i.token? x.filename x.cursor.toMark <;> rfl

/-- A skip leads from one lexer to another: it does nothing, or goes over the piece of trivia that
is next. -/
def Skips (x y : Lexer) : Prop :=
  y = x ∨ ∃ t r, x.rest = t.text ++ r ∧ t.Fits r ∧ y = x.after (.trivia t)

theorem skips_skipSpaces (x : Lexer) : x.Skips x.skipSpaces := by
  rw [skipSpaces]
  split
  · rename_i t ht
    obtain ⟨r, hr, hfits⟩ := Trivia.exists_fits_of_spaces? ht
    exact .inr ⟨t, r, hr, hfits, rfl⟩
  · exact .inl rfl

theorem skips_skipComment (x : Lexer) : x.Skips x.skipComment := by
  rw [skipComment]
  split
  · rename_i t ht
    obtain ⟨r, hr, hfits⟩ := Trivia.exists_fits_of_comment? ht
    exact .inr ⟨t, r, hr, hfits, rfl⟩
  · exact .inl rfl

theorem Skips.offset (h : x.Skips y) (hx : 0 ≤ x.cursor.offset) : 0 ≤ y.cursor.offset := by
  rcases h with rfl | ⟨t, -, -, -, rfl⟩
  · exact hx
  · exact offset_after hx (.trivia t)

/-! ### The next token and the stream -/

theorem offset_finish (hx : 0 ≤ x.cursor.offset) : 0 ≤ x.finish.cursor.offset := by
  rw [finish]
  induction Item.split x.rest generalizing x with
  | nil => exact hx
  | cons i is ih => exact ih (offset_after hx i)

theorem rest_finish (hx : 0 ≤ x.cursor.offset) : x.finish.rest = [] := by
  induction x, hx using rest_induction with
  | nil x hx hr => rw [finish_of_rest_nil hr, hr]
  | item x hx i hr h ih => rw [finish_of_fits hr h, ih]

/-- The next token is taken off the stream, unless it is the end token. -/
theorem next_spec (hx : 0 ≤ x.cursor.offset) :
    (x.next.1.isEnd = false ∧ x.tokens = x.next.1 :: x.next.2.tokens ∧
        x.next.2.finish = x.finish ∧ 0 ≤ x.next.2.cursor.offset) ∨
      (x.tokens = [x.finish.endToken] ∧ x.next = (x.finish.endToken, x.finish)) := by
  induction x, hx using rest_induction with
  | nil x hx hr =>
    right
    rw [finish_of_rest_nil hr]
    exact ⟨tokens_of_rest_nil hr, next_of_rest_nil hr⟩
  | item x hx i hr h ih =>
    rw [next_of_fits hr h, tokens_of_fits hr h, finish_of_fits hr h]
    cases ht : i.token? x.filename x.cursor.toMark with
    | none =>
      -- trivia: the next token is the one behind it
      exact ih
    | some t => exact .inl ⟨Item.isEnd_of_token? h ht, rfl, rfl, offset_after hx i⟩

/-- A call for the next token goes over a text that ends with the text of the token. -/
structure Passes (x : Lexer) (t : List Char) : Prop where
  rest : x.rest = t ++ x.next.2.rest
  cursor : x.next.2.cursor = x.cursor.moveOver t
  token : x.next.1.isEnd = false → x.next.1.text ≠ "" ∧ x.next.1.text.toList <:+ t
  atEnd : x.next.1.isEnd = true → x.next.1.text = "" ∧ x.next.2.rest = []

theorem exists_passes (hx : 0 ≤ x.cursor.offset) : ∃ t, x.Passes t := by
  induction x, hx using rest_induction with
  | nil x hx hr =>
    have hnext := next_of_rest_nil hr
    have hend : x.endToken.isEnd = true := rfl
    refine ⟨[], ?_, ?_, ?_, ?_⟩
    · rw [hnext]
      rfl
    · rw [hnext]
      rfl
    · rw [hnext]
      exact fun h => absurd (hend.symm.trans h) Bool.noConfusion
    · rw [hnext]
      exact fun _ => ⟨rfl, hr⟩
  | item x hx i hr h ih =>
    have hnext := next_of_fits hr h
    cases ht : i.token? x.filename x.cursor.toMark with
    | none =>
      -- trivia: the text goes in front of what is gone over behind it
      rw [ht] at hnext
      obtain ⟨t, hrest, hcursor, htoken, hend⟩ := ih
      refine ⟨i.text ++ t, ?_, ?_, ?_, ?_⟩
      · rw [hnext, List.append_assoc, ← hrest, hr]
      · rw [hnext, hcursor, after_cursor, Cursor.moveOver, Cursor.moveOver, Cursor.moveOver,
          Mark.moveOver_append]
      · rw [hnext]
        exact fun he => (htoken he).imp_right fun hs => hs.trans (List.suffix_append _ _)
      · rw [hnext]
        exact hend
    | some t =>
      rw [ht] at hnext
      obtain ⟨l, hl, rfl⟩ := Option.map_eq_some_iff.mp ht
      have htext : (l.token x.filename x.cursor.toMark).text.toList = i.text := by
        rw [Lexeme.token, String.toList_ofList, Item.text_of_lexeme? hl]
      refine ⟨i.text, ?_, ?_, ?_, ?_⟩
      · rw [hnext, hr]
      · rw [hnext, after_cursor]
      · rw [hnext, htext]
        refine fun _ => ⟨?_, List.suffix_rfl⟩
        intro hempty
        rw [hempty] at htext
        exact h.text_ne_nil htext.symm
      · rw [hnext]
        intro he
        rw [Item.isEnd_of_token? h ht] at he
        cases he

/-- A token takes something away from what is left. -/
theorem length_rest_next_lt (hx : 0 ≤ x.cursor.offset) (h : x.next.1.isEnd = false) :
    x.next.2.rest.length < x.rest.length := by
  obtain ⟨t, hrest, -, htoken, -⟩ := exists_passes hx
  obtain ⟨hne, hsuffix⟩ := htoken h
  have hpos : 0 < x.next.1.text.toList.length :=
    List.length_pos_iff.mpr fun he => hne (String.toList_eq_nil_iff.mp he)
  have hle := hsuffix.length_le
  rw [hrest, List.length_append]
  omega

/-- At the end nothing changes any more. -/
theorem next_finish (hx : 0 ≤ x.cursor.offset) :
    x.finish.next = (x.finish.endToken, x.finish) :=
  next_of_rest_nil (rest_finish hx)

theorem finish_finish (hx : 0 ≤ x.cursor.offset) : x.finish.finish = x.finish :=
  finish_of_rest_nil (rest_finish hx)

theorem tokens_finish (hx : 0 ≤ x.cursor.offset) : x.finish.tokens = [x.finish.endToken] :=
  tokens_of_rest_nil (rest_finish hx)

/-- The stream is pieces that are no end token, and the end token. -/
theorem exists_tokens_eq (hx : 0 ≤ x.cursor.offset) :
    ∃ ts, x.tokens = ts ++ [x.finish.endToken] ∧ ∀ t ∈ ts, t.isEnd = false := by
  induction x, hx using rest_induction with
  | nil x hx hr => exact ⟨[], by rw [tokens_of_rest_nil hr, finish_of_rest_nil hr]; rfl, by simp⟩
  | item x hx i hr h ih =>
    obtain ⟨ts, hts, hend⟩ := ih
    refine ⟨(i.token? x.filename x.cursor.toMark).toList ++ ts, ?_, ?_⟩
    · rw [tokens_of_fits hr h, finish_of_fits hr h, hts, List.append_assoc]
    · intro t ht
      rcases List.mem_append.mp ht with ht | ht
      · exact Item.isEnd_of_token? h (Option.mem_toList.mp ht)
      · exact hend t ht

/-! ### Many calls -/

/-- The tokens that `n` calls for the next one give, and the lexer behind them. -/
def nexts : Nat → Lexer → List Token × Lexer
  | 0, x => ([], x)
  | n + 1, x => (x.next.1 :: (nexts n x.next.2).1, (nexts n x.next.2).2)

theorem length_nexts (n : Nat) (x : Lexer) : (x.nexts n).1.length = n := by
  induction n generalizing x with
  | zero => rfl
  | succ n ih => rw [nexts, List.length_cons, ih]

theorem nexts_add (m n : Nat) (x : Lexer) :
    x.nexts (m + n) =
      ((x.nexts m).1 ++ ((x.nexts m).2.nexts n).1, ((x.nexts m).2.nexts n).2) := by
  induction m generalizing x with
  | zero => rw [Nat.zero_add]; rfl
  | succ m ih => rw [Nat.succ_add_eq_add_succ, Nat.add_succ, nexts, ih]; rfl

/-- The lexer behind `n` calls is the one that the calls lead to one by one. -/
theorem nexts_snd_eq_iterate (n : Nat) (x : Lexer) :
    (x.nexts n).2 = (fun y : Lexer => y.next.2)^[n] x := by
  induction n generalizing x with
  | zero => rfl
  | succ n ih => rw [nexts, Function.iterate_succ_apply, ← ih]

theorem offset_nexts (hx : 0 ≤ x.cursor.offset) (n : Nat) : 0 ≤ (x.nexts n).2.cursor.offset := by
  induction n generalizing x with
  | zero => exact hx
  | succ n ih =>
    refine ih ?_
    rcases next_spec hx with ⟨-, -, -, h⟩ | ⟨-, h⟩
    · exact h
    · rw [h]
      exact offset_finish hx

/-- `n` calls give the first `n` tokens of the stream, and then the end token again and again. -/
theorem nexts_fst (hx : 0 ≤ x.cursor.offset) (n : Nat) :
    (x.nexts n).1 =
      x.tokens.dropLast.take n ++
        List.replicate (n - x.tokens.dropLast.length) x.finish.endToken := by
  induction n generalizing x with
  | zero => simp [nexts]
  | succ n ih =>
    rw [nexts]
    rcases next_spec hx with ⟨-, ht, hf, ho⟩ | ⟨ht, hn⟩
    · -- the call takes the head of the stream
      have hne : x.next.2.tokens ≠ [] := Item.tokens_ne_nil _ _ _
      rw [ih ho, hf, ht, List.dropLast_cons_of_ne_nil hne, List.take_succ_cons, List.length_cons,
        Nat.add_sub_add_right]
      rfl
    · -- only the end token is left, and stays
      rw [hn, ih (offset_finish hx), finish_finish hx, tokens_finish hx, ht]
      simp [List.replicate_succ]

/-- When the stream is through, the lexer is where the stream leads. -/
theorem nexts_snd (hx : 0 ≤ x.cursor.offset) {n : Nat} (h : x.tokens.length ≤ n) :
    (x.nexts n).2 = x.finish := by
  induction n generalizing x with
  | zero => exact absurd (List.length_eq_zero_iff.mp (Nat.le_zero.mp h)) (Item.tokens_ne_nil _ _ _)
  | succ n ih =>
    rw [nexts]
    rcases next_spec hx with ⟨-, ht, hf, ho⟩ | ⟨-, hn⟩
    · rw [ht, List.length_cons] at h
      show (x.next.2.nexts n).2 = x.finish
      rw [ih ho (by omega), hf]
    · show (x.next.2.nexts n).2 = x.finish
      rw [hn, nexts_snd_eq_iterate, Function.iterate_fixed]
      rw [next_finish hx]

theorem dropLast_tokens_append (hx : 0 ≤ x.cursor.offset) :
    x.tokens.dropLast ++ [x.finish.endToken] = x.tokens := by
  obtain ⟨ts, hts, -⟩ := exists_tokens_eq hx
  rw [hts, List.dropLast_concat]

theorem isEnd_of_mem_dropLast (hx : 0 ≤ x.cursor.offset) {t : Token}
    (ht : t ∈ x.tokens.dropLast) : t.isEnd = false := by
  obtain ⟨ts, hts, hend⟩ := exists_tokens_eq hx
  rw [hts, List.dropLast_concat] at ht
  exact hend t ht

/-- The whole stream at once, and token by token. -/
theorem nexts_length_tokens (hx : 0 ≤ x.cursor.offset) :
    x.nexts x.tokens.length = (x.tokens, x.finish) := by
  refine Prod.ext ?_ (nexts_snd hx le_rfl)
  have hlen : x.tokens.length - x.tokens.dropLast.length = 1 := by
    have := congrArg List.length (dropLast_tokens_append hx)
    rw [List.length_append, List.length_singleton] at this
    omega
  rw [nexts_fst hx, hlen, List.take_of_length_le (by rw [List.length_dropLast]; omega)]
  exact dropLast_tokens_append hx

theorem filter_take_dropLast (hx : 0 ≤ x.cursor.offset) (n : Nat) :
    (x.tokens.dropLast.take n).filter (!·.isEnd) = x.tokens.dropLast.take n := by
  rw [List.filter_eq_self]
  intro t ht
  rw [isEnd_of_mem_dropLast hx (List.mem_of_mem_take ht)]
  rfl

/-- Beside end tokens, `n` calls give the first `n` tokens of the stream. -/
theorem filter_nexts (hx : 0 ≤ x.cursor.offset) (n : Nat) :
    (x.nexts n).1.filter (!·.isEnd) = x.tokens.dropLast.take n := by
  have hend : ∀ k, (List.replicate k x.finish.endToken).filter (!·.isEnd) = [] :=
    fun _ => List.filter_replicate_of_neg Bool.false_ne_true
  rw [nexts_fst hx, List.filter_append, filter_take_dropLast hx, hend, List.append_nil]

/-- An end token among those that `n` calls give is one of the copies that stand last. -/
theorem exists_copies {n : Nat} (hx : 0 ≤ x.cursor.offset) {before behind : List Token} {e : Token}
    (h : (x.nexts n).1 = before ++ e :: behind) (he : e.isEnd = true) :
    ∃ c, before = x.tokens.dropLast.take n ++ c ∧
      List.replicate (n - x.tokens.dropLast.length) x.finish.endToken = c ++ e :: behind := by
  rw [nexts_fst hx] at h
  rcases List.append_eq_append_iff.mp h with ⟨c, hb, hr⟩ | ⟨c, ht, hr⟩
  · exact ⟨c, hb, hr⟩
  · cases c with
    | nil => exact ⟨[], by rw [List.append_nil, ht, List.append_nil], hr.symm⟩
    | cons d c =>
      -- the end token would be a piece of the source
      obtain rfl := (List.cons_eq_cons.mp hr).1
      have hm : e ∈ x.tokens.dropLast := List.mem_of_mem_take (by rw [ht]; simp)
      rw [isEnd_of_mem_dropLast hx hm] at he
      cases he

/-- Where an end token is given, the stream is through: all its tokens are given before, and the
end token is given from there on. -/
theorem of_nexts_eq_append (hx : 0 ≤ x.cursor.offset) {n : Nat} {before behind : List Token}
    {e : Token} (h : (x.nexts n).1 = before ++ e :: behind) (he : e.isEnd = true) :
    before.filter (!·.isEnd) ++ [e] = x.tokens ∧ ∀ t ∈ behind, t = e := by
  obtain ⟨c, hb, hr⟩ := exists_copies hx h he
  have hcopy : ∀ t ∈ c ++ e :: behind, t = x.finish.endToken := by
    intro t ht
    rw [← hr] at ht
    exact List.eq_of_mem_replicate ht
  have hn : x.tokens.dropLast.length ≤ n := by
    have hlen := congrArg List.length hr
    rw [List.length_replicate, List.length_append, List.length_cons] at hlen
    omega
  obtain rfl : e = x.finish.endToken := hcopy e (by simp)
  constructor
  · have hc : c.filter (!·.isEnd) = [] := by
      rw [List.filter_eq_nil_iff]
      intro t ht
      rw [hcopy t (by simp [ht])]
      exact Bool.false_ne_true
    rw [hb, List.filter_append, filter_take_dropLast hx, hc, List.append_nil,
      List.take_of_length_le hn]
    exact dropLast_tokens_append hx
  · intro t ht
    exact hcopy t (by simp [ht])

end Lexer

end Lexis

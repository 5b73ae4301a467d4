/-
The lexer as a fold over items.

`Lexer.after` is what one item does to a lexer.  The tokens of a list of items depend on nothing
but the name of the source and the place where the list begins (`Item.tokens`), so that options
and diagnostics have no part in them.  The whole stream is both at once: the tokens of the items,
and the lexer behind all of them (`Lexer.tokenize_eq`).
-/
import Lexis.Lexer.Stream
import Lexis.Proofs.Item.Collect

namespace Lexis

/-- The token of a piece that stands at a place. -/
def Lexeme.token (filename : String) (m : Mark) (l : Lexeme) : Token :=
  ⟨l.kind, String.ofList l.text, m.line, m.column, filename⟩

/-- The line and the column of a token. -/
def Token.place (t : Token) : ℤ ×ₗ ℤ :=
  toLex (t.line, t.column)

theorem Form.not_isInvalid_token {f : Form} {l : Lexeme} {r : List Char} (h : f.Fits l r)
    (hf : f ≠ .stray) (filename : String) (m : Mark) :
    ¬ (l.token filename m).isInvalid = true := by
  rw [Token.isInvalid, decide_eq_true_eq]
  exact f.kind_ne_invalid h hf

/-- The token at the end of the input, which is at a place. -/
def endTokenAt (filename : String) (m : Mark) : Token :=
  ⟨.endOfInput, "", m.line, m.column, filename⟩

namespace Item

/-- The token of an item that stands at a place, if it has one. -/
def token? (filename : String) (m : Mark) (i : Item) : Option Token :=
  i.lexeme?.map (Lexeme.token filename m)

/-- The tokens of a list of items that begins at a place, the end token last. -/
def tokens (filename : String) (m : Mark) : List Item → List Token
  | [] => [endTokenAt filename m]
  | i :: is => (i.token? filename m).toList ++ tokens filename (m.moveOver i.text) is

theorem tokens_of_trivia {filename : String} {m : Mark} {i : Item} {is : List Item}
    (h : i.lexeme? = none) :
    tokens filename m (i :: is) = tokens filename (m.moveOver i.text) is := by
  rw [tokens, token?, h]
  rfl

theorem tokens_of_lexeme {filename : String} {m : Mark} {i : Item} {is : List Item} {l : Lexeme}
    (h : i.lexeme? = some l) :
    tokens filename m (i :: is) =
      l.token filename m :: tokens filename (m.moveOver i.text) is := by
  rw [tokens, token?, h]
  rfl

/-- The token of a lexeme is kept out when only invalid tokens are let through. -/
theorem filter_tokens_lexeme {l : Lexeme} {r : List Char} (h : (Item.lexeme l).Fits r)
    (filename : String) (m : Mark) (is : List Item) :
    (tokens filename m (.lexeme l :: is)).filter Token.isInvalid =
      (tokens filename (m.moveOver l.text) is).filter Token.isInvalid := by
  obtain ⟨f, hf, hl⟩ := h
  rw [tokens_of_lexeme rfl, List.filter_cons_of_neg (f.not_isInvalid_token hl hf _ _)]
  rfl

/-- The token of a stray character is let through. -/
theorem filter_tokens_invalid (c : Char) (filename : String) (m : Mark) (is : List Item) :
    (tokens filename m (.invalid c :: is)).filter Token.isInvalid =
      Lexeme.token filename m ⟨.invalid, [c]⟩ ::
        (tokens filename (m.moveOver [c]) is).filter Token.isInvalid := by
  rw [tokens_of_lexeme rfl, List.filter_cons_of_pos rfl]
  rfl

theorem tokens_ne_nil (filename : String) (m : Mark) (is : List Item) :
    tokens filename m is ≠ [] := by
  induction is generalizing m with
  | nil => simp [tokens]
  | cons i is ih => simp [tokens, ih]

/-- The tokens of a list of items do not stand in front of it. -/
theorem place_le_of_mem_tokens {filename : String} {m : Mark} {t : Token} {is : List Item}
    (ht : t ∈ tokens filename m is) : m.place ≤ t.place := by
  induction is generalizing m with
  | nil =>
    obtain rfl := List.mem_singleton.mp ht
    exact le_rfl
  | cons i is ih =>
    rcases List.mem_append.mp ht with ht | ht
    · obtain ⟨l, -, rfl⟩ := Option.map_eq_some_iff.mp (Option.mem_toList.mp ht)
      exact le_rfl
    · exact (m.place_le_moveOver i.text).trans (ih ht)

/-! ### Tokens as they are collected -/

theorem ignoresSpaces_token? (filename : String) : IgnoresSpaces (token? filename) :=
  fun _ _ => rfl

theorem byKind_token? (filename : String) : ByKind (token? filename) :=
  fun _ _ _ => rfl

theorem byPlace_token? (filename : String) : ByPlace (token? filename) := by
  intro m n h i
  obtain ⟨hline, hcolumn⟩ : m.line = n.line ∧ m.column = n.column := Prod.ext_iff.mp h
  have ht : Lexeme.token filename m = Lexeme.token filename n := by
    funext l
    rw [Lexeme.token, Lexeme.token, hline, hcolumn]
  rw [token?, token?, ht]

theorem tokens_eq_collect (filename : String) (m : Mark) (is : List Item) :
    tokens filename m is =
      collect (token? filename) m is ++
        [endTokenAt filename (m.moveOver (is.flatMap text))] := by
  induction is generalizing m with
  | nil => rfl
  | cons i is ih =>
    rw [tokens, ih, collect, List.flatMap_cons, Mark.moveOver_append, List.append_assoc]

/-- The tokens of a text: those that are collected from its items, and the end token behind it. -/
theorem tokens_split (filename : String) (m : Mark) (r : List Char) :
    tokens filename m (split r) =
      collect (token? filename) m (split r) ++ [endTokenAt filename (m.moveOver r)] := by
  rw [tokens_eq_collect, flatMap_text_split]

theorem tokens_congr_place {m n : Mark} (h : m.place = n.place) (filename : String)
    (r : List Char) : tokens filename m (split r) = tokens filename n (split r) := by
  obtain ⟨hline, hcolumn⟩ : (m.moveOver r).line = (n.moveOver r).line ∧
      (m.moveOver r).column = (n.moveOver r).column :=
    Prod.ext_iff.mp (Mark.place_moveOver_congr h r)
  rw [tokens_split, tokens_split, collect_congr_place (byPlace_token? filename) h, endTokenAt,
    endTokenAt, hline, hcolumn]

/-- White space in front of a text only moves the text's tokens. -/
theorem tokens_append_spaces {t : List Char} (ht : ∀ c ∈ t, Text.isSpace c = true)
    (filename : String) (m : Mark) (r : List Char) :
    tokens filename m (split (t ++ r)) = tokens filename (m.moveOver t) (split r) := by
  rw [tokens_split, tokens_split, collect_append_spaces (ignoresSpaces_token? filename) ht,
    Mark.moveOver_append]

end Item

namespace Lexer

/-- The lexer behind an item that stands at its cursor. -/
def after (x : Lexer) : Item → Lexer
  | .trivia t => x.skip t
  | .lexeme l => (x.take l).2
  | .invalid c => (x.reject c).2

/-- An item moves the cursor over its text; beside that it can only add to diagnostics and log. -/
theorem after_eq (x : Lexer) (i : Item) :
    x.after i =
      { x with
        cursor := x.cursor.moveOver i.text
        diagnostics := (x.after i).diagnostics
        log := (x.after i).log } := by
  match i with
  | .trivia (.spaces t) => rfl
  | .trivia (.lineComment t) => rfl
  | .trivia (.blockComment t) => rfl
  | .trivia (.openComment t) =>
    simp only [after, skip, reportOpenComment]
    split <;> rfl
  | .lexeme l => rfl
  | .invalid c => rfl

@[simp] theorem after_cursor (x : Lexer) (i : Item) :
    (x.after i).cursor = x.cursor.moveOver i.text := by
  rw [after_eq]

@[simp] theorem after_filename (x : Lexer) (i : Item) : (x.after i).filename = x.filename := by
  rw [after_eq]

/-- What is left behind an item, unless the cursor stands in front of the source. -/
theorem rest_after {x : Lexer} (hx : 0 ≤ x.cursor.offset) (i : Item) :
    (x.after i).rest = x.rest.drop i.text.length := by
  have h : (x.cursor.offset + i.text.length).toNat = x.cursor.offset.toNat + i.text.length := by
    omega
  simp [rest, Cursor.rest, Cursor.moveOver, h, List.drop_drop]

theorem rest_ofSource (source : String) (filename : Option String) (options : Options) :
    (ofSource source filename options).rest = source.toList := rfl

/-- The lexer behind all items that are left. -/
def finish (x : Lexer) : Lexer :=
  (Item.split x.rest).foldl after x

/-- The tokens that are left. -/
def tokens (x : Lexer) : List Token :=
  Item.tokens x.filename x.cursor.toMark (Item.split x.rest)

/-! ### The stream by its items -/

theorem allFrom_nil (found : List Token) (x : Lexer) :
    allFrom [] found x = ((x.endToken :: found).reverse, x) := by
  rw [allFrom]
  rfl

theorem allFrom_append {i : Item} {r : List Char} (h : i.Fits r) (found : List Token) (x : Lexer) :
    allFrom (i.text ++ r) found x =
      allFrom r ((i.token? x.filename x.cursor.toMark).toList ++ found) (x.after i) := by
  have hi := Item.first?_of_fits h
  rw [allFrom]
  -- the item that is found is `i`, whatever branch it leads to
  split
  case h_1 hj => exact absurd (hi.symm.trans hj) (by simp)
  all_goals
    rename_i hj
    obtain rfl := Option.some.inj (hi.symm.trans hj)
    simp only [Item.text, List.drop_left]
    rfl

theorem nextFrom_nil (x : Lexer) : nextFrom [] x = (x.endToken, [], x) := by
  rw [nextFrom]
  rfl

theorem nextFrom_append {i : Item} {r : List Char} (h : i.Fits r) (x : Lexer) :
    nextFrom (i.text ++ r) x =
      match i.token? x.filename x.cursor.toMark with
      | some t => (t, r, x.after i)
      | none => nextFrom r (x.after i) := by
  have hi := Item.first?_of_fits h
  rw [nextFrom]
  split
  case h_1 hj => exact absurd (hi.symm.trans hj) (by simp)
  all_goals
    rename_i hj
    obtain rfl := Option.some.inj (hi.symm.trans hj)
    simp only [Item.text, List.drop_left]
    rfl

/-- The whole stream: the tokens of the items, and the lexer behind them. -/
theorem allFrom_eq (r : List Char) (found : List Token) (x : Lexer) :
    allFrom r found x =
      (found.reverse ++ Item.tokens x.filename x.cursor.toMark (Item.split r),
        (Item.split r).foldl after x) := by
  induction r using Item.fits_induction generalizing found x with
  | nil =>
    rw [allFrom_nil, Item.split_nil, List.reverse_cons]
    rfl
  | item i r h ih =>
    -- the token of the item goes in front of those found, which are in reverse
    rw [allFrom_append h, ih, Item.split_append h, after_cursor, after_filename]
    rw [Item.tokens, List.foldl_cons, List.reverse_append, List.append_assoc]
    cases i.token? x.filename x.cursor.toMark <;> rfl

theorem tokenize_fst (x : Lexer) : x.tokenize.1 = x.tokens := by
  rw [tokenize, allFrom_eq]
  rfl

end Lexer

theorem tokenize_eq (source : String) (filename : Option String) (options : Options) :
    tokenize source filename options =
      Item.tokens (filename.getD options.filename) ⟨0, 1, 1, 0⟩ (Item.split source.toList) :=
  Lexer.tokenize_fst _

end Lexis

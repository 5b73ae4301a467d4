/-
Reserved words and the tokens that have them.

The table of reserved words has an entry that no word can match, because its spelling has dots in
it.  A token of a word is made of word characters, whichever request it answers and wherever the
cursor has been put, and its kind is what the table says of its text (`Token.Classified`).  So the
keyword of that entry is never delivered, and no identifier is spelt like a reserved word.

* `Lexer.classified_perform` — the tokens of one answer, along the items that are gone over;
* `Token.Classified.kind_ne_print`, `Token.Classified.spelling_ne` — what follows from it;
* `scanned_iff_and_kind_ne_print` — the scans at any place, and all tokens of any run.
-/
import Lexis.Proofs.Lookahead
import Lexis.Proofs.Scanning

namespace Lexis

/-- If a token is a word by its kind, it is made of word characters, and the table of reserved words
has its kind. -/
def Token.Classified (t : Token) : Prop :=
  Form.ofKind t.kind = .word →
    (∀ c ∈ t.text.toList, isWordPart c = true) ∧ Spells t.kind t.text.toList

namespace Token.Classified

variable {t : Token}

/-- The kind of the print statement is out of reach: a dot is no word character. -/
theorem kind_ne_print (h : t.Classified) : t.kind ≠ .keyword .printKw := by
  intro hkind
  have hform : Form.ofKind t.kind = .word := by
    rw [hkind]
    rfl
  obtain ⟨hall, ⟨w, hw, hkeyword⟩ | ⟨-, hidentifier⟩⟩ := h hform
  · obtain rfl : w = .printKw := Kind.keyword.inj (hkeyword.symm.trans hkind)
    have hdot : '.' ∈ t.text.toList := by
      rw [← hw]
      decide
    exact absurd (hall '.' hdot) (by decide)
  · rw [hkind] at hidentifier
    cases hidentifier

/-- An identifier is not spelt like a reserved word. -/
theorem spelling_ne (h : t.Classified) (hkind : t.kind = .identifier) (w : Keyword) :
    w.spelling ≠ t.text := by
  have hform : Form.ofKind t.kind = .word := by
    rw [hkind]
    rfl
  obtain ⟨-, ⟨v, -, hkeyword⟩ | ⟨hnone, -⟩⟩ := h hform
  · rw [hkind] at hkeyword
    cases hkeyword
  · intro hw
    exact hnone w (congrArg String.toList hw)

end Token.Classified

/-! ### The tokens of items -/

theorem Form.classified_token {f : Form} {l : Lexeme} {r : List Char} (h : f.Fits l r)
    (filename : String) (m : Mark) : (l.token filename m).Classified := by
  intro hword
  obtain rfl : f = .word := (ofKind_eq_of_fits h).symm.trans hword
  obtain ⟨⟨c, t, htext, hc, ht⟩, -, hkind⟩ := h
  rw [Lexeme.token, String.toList_ofList]
  refine ⟨?_, hkind⟩
  rw [htext]
  exact List.forall_mem_cons.mpr ⟨isWordPart_of_isWordStart hc, ht⟩

theorem classified_endTokenAt (filename : String) (m : Mark) :
    (endTokenAt filename m).Classified := by
  intro hword
  cases hword

namespace Item

theorem classified_of_token? {i : Item} {r : List Char} (hi : i.Fits r) {filename : String}
    {m : Mark} {t : Token} (h : i.token? filename m = some t) : t.Classified := by
  obtain ⟨l, hl, rfl⟩ := Option.map_eq_some_iff.mp h
  obtain ⟨f, hf⟩ := exists_form_of_lexeme? hi hl
  exact f.classified_token hf filename m

theorem classified_of_mem_tokens (filename : String) (m : Mark) (r : List Char) :
    ∀ t ∈ tokens filename m (split r), t.Classified := by
  induction r using fits_induction generalizing m with
  | nil =>
    rw [split_nil, tokens]
    exact List.forall_mem_singleton.mpr (classified_endTokenAt filename m)
  | item i r hi ih =>
    rw [split_append hi, tokens]
    refine List.forall_mem_append.mpr ⟨?_, ih _⟩
    intro t ht
    exact classified_of_token? hi (Option.mem_toList.mp ht)

end Item

/-! ### The tokens of requests -/

namespace Lexer

theorem classified_nextFrom (r : List Char) (x : Lexer) : (nextFrom r x).1.Classified := by
  induction r using Item.fits_induction generalizing x with
  | nil =>
    rw [nextFrom_nil]
    exact classified_endTokenAt x.filename x.cursor.toMark
  | item i r hi ih =>
    rw [nextFrom_append hi]
    cases h : i.token? x.filename x.cursor.toMark with
    | none =>
      -- trivia: the token is searched for behind it
      exact ih (x.after i)
    | some t => exact Item.classified_of_token? hi h

/-- A run of word characters need not start like a word. -/
theorem classified_scanWord (x : Lexer) : x.scanWord.1.Classified := by
  intro _
  rw [scanWord, take, toList_text_token]
  exact ⟨(longestRun_takeWhile isWordPart x.rest).all, ofWord_eq_iff.mp rfl⟩

theorem classified_scanSymbol (x : Lexer) : ∀ t ∈ x.scanSymbol.1, t.Classified := by
  intro t ht
  rw [scanSymbol] at ht
  cases hl : Lexeme.symbol? x.rest with
  | none =>
    rw [hl] at ht
    cases ht
  | some l =>
    rw [hl] at ht
    obtain rfl := Option.some.inj ht
    obtain ⟨r, -, f, -, hf⟩ := Lexeme.exists_fits_of_symbol? hl
    exact f.classified_token hf x.filename x.cursor.toMark

theorem classified_perform (x : Lexer) (request : Step) :
    ∀ t ∈ (x.perform request).1.delivered, t.Classified := by
  match request with
  | .next => exact List.forall_mem_singleton.mpr (classified_nextFrom x.rest x)
  | .peek =>
    have hpeek : x.peek.1.Classified := by
      rw [peek_fst]
      exact classified_nextFrom x.rest x
    exact List.forall_mem_singleton.mpr hpeek
  | .tokenize =>
    show ∀ t ∈ x.tokenize.1, t.Classified
    rw [tokenize_fst]
    exact Item.classified_of_mem_tokens x.filename x.cursor.toMark x.rest
  | .scanInteger =>
    refine List.forall_mem_singleton.mpr fun hword => ?_
    cases hword
  | .scanWord => exact List.forall_mem_singleton.mpr x.classified_scanWord
  | .scanSymbol =>
    rw [perform_scanSymbol]
    cases h : x.scanSymbol.1 with
    | none => exact List.forall_mem_nil _
    | some t => exact List.forall_mem_singleton.mpr (x.classified_scanSymbol t h)
  | .skipSpaces | .skipComment | .advance _ | .restore _ | .lineText | .faults | .warnings
  | .report | .clear | .setStrict _ | .setLimit _ | .setFilename _ => exact List.forall_mem_nil _
  | .summary =>
    rw [perform]
    split <;> exact List.forall_mem_nil _

end Lexer

/-! ### The scans and all runs -/

/-- **Each scan takes what stands at the cursor, and the table has the say on words.**  From any
place that is not in front of the source, a scan comes to what its rule says and to nothing else,
and so does its loop over single characters.  No run of a session, whatever lexers it is on, wherever
they stand and whatever is asked of them, delivers the keyword of the print statement, or an
identifier that is spelt like a reserved word. -/
theorem scanned_iff_and_kind_ne_print :
    (∀ x : Lexer, 0 ≤ x.cursor.offset →
      (∀ (s : Scan) (a : Answer) (y : Lexer),
        x.Scanned s a y ↔ x.perform s.request = (a, y)) ∧
      ∀ n, x.rest.length < n → ∀ s : Scan, Loop.scan n x s = .ok (x.perform s.request)) ∧
    ∀ (s : Session) (actions : List Action), ∀ t ∈ delivered (s.run actions).1,
      t.kind ≠ .keyword .printKw ∧
        (t.kind = .identifier → ∀ w : Keyword, w.spelling ≠ t.text) := by
  constructor
  · intro x hx
    exact ⟨fun s a y => Lexer.scanned_iff hx, fun n hn s => Loop.scan_eq hx hn s⟩
  · intro s actions t ht
    have hclassified := Session.forall_delivered_run Lexer.classified_perform s actions t ht
    exact ⟨hclassified.kind_ne_print, hclassified.spelling_ne⟩

/-- A lexer in the middle of a word, in front of a digit, with a line and a column of another
source. -/
def insideWord : Lexer :=
  (Lexer.ofSource "x3System.out.println").restore ⟨1, 7, 3, 0⟩

/-- The word goes on with its digit, and then the print statement is read as it is spelt. -/
def wordThenPrint : List Action :=
  [.step .scanWord, .step (.restore ⟨2, 1, 3, 0⟩), .step .tokenize]

/-- The scan of a word takes the digit in, and the print statement is three identifiers. -/
theorem scanned_iff_and_kind_ne_print_insideWord :
    0 ≤ insideWord.cursor.offset ∧ insideWord.rest.length < 20 ∧
      insideWord.Scanned .word (.token ⟨.identifier, "3System", 7, 3, unnamedSource⟩)
        (insideWord.moveOver "3System".toList) ∧
      Loop.scan 20 insideWord .word =
        .ok (.token ⟨.identifier, "3System", 7, 3, unnamedSource⟩,
          insideWord.moveOver "3System".toList) ∧
      (delivered ((Session.ofLexer insideWord).run wordThenPrint).1).map Token.text =
        ["3System", "System", ".", "out", ".", "println", ""] ∧
      (∀ t ∈ delivered ((Session.ofLexer insideWord).run wordThenPrint).1,
        t.kind ≠ .keyword .printKw) ∧
      ⟨.identifier, "println", 1, 14, unnamedSource⟩ ∈
        delivered ((Session.ofLexer insideWord).run wordThenPrint).1 ∧
      ∀ w : Keyword, w.spelling ≠ "println" := by
  obtain ⟨hscans, hdelivered⟩ := scanned_iff_and_kind_ne_print
  have hx : 0 ≤ insideWord.cursor.offset := by decide +kernel
  have hlength : insideWord.rest.length < 20 := by decide +kernel
  have hword : insideWord.perform Scan.word.request =
      (.token ⟨.identifier, "3System", 7, 3, unnamedSource⟩,
        insideWord.moveOver "3System".toList) := by decide +kernel
  have hprintln : ⟨.identifier, "println", 1, 14, unnamedSource⟩ ∈
      delivered ((Session.ofLexer insideWord).run wordThenPrint).1 := by decide +kernel
  refine ⟨hx, hlength, ?_, ?_, by decide +kernel, ?_, hprintln, ?_⟩
  · exact ((hscans insideWord hx).1 .word _ _).mpr hword
  · rw [(hscans insideWord hx).2 20 hlength .word, hword]
  · exact fun t ht => (hdelivered _ wordThenPrint t ht).1
  · exact (hdelivered _ wordThenPrint _ hprintln).2 rfl

end Lexis

/-
Warnings in what a run tells.

A run that is not verbose tells one text below the other: the setting it ignores, its warnings, and
in a strict run with faults the parts of a report, where its warnings stand again
(`Plan.errors_eq_join`).  So a warning is on one line of standard error, and on two where there is a
report (`run_of_warning`), although the report counts it once.

Nothing else reads like a warning, if the name of the source is one line and does not begin with a
space: the texts of a run end with other characters, and a quoted line begins with a space.
-/
import Lexis.Proofs.Command.Caret
import Lexis.Proofs.Command.LineCount
import Lexis.Proofs.OpenComment
import Lexis.Proofs.Text.Quoted

namespace Lexis

open Text

namespace Command

variable {look : String → Entry} {words : List String} {line : CommandLine} {plan : Plan}
variable {stdin : List UInt8} {source : Source} {w : List Char}

/-! ### The texts of a run -/

/-- The diagnostics at the end of a run. -/
def Plan.diagnostics (p : Plan) (env : Environment) (source : Source) : Diagnostics :=
  (p.lexer env source).tokenize.2.diagnostics

/-- The warnings that a run records. -/
def Plan.warnings (p : Plan) (env : Environment) (source : Source) : List String :=
  (p.diagnostics env source).warnings.toList

/-- What a run tells, text by text. -/
def Plan.texts (p : Plan) (env : Environment) (source : Source) : List String :=
  (Options.ofEnvironment env).2.map (·.message) ++ p.warnings env source ++
    if p.fails env source then (p.diagnostics env source).reportParts else []

/-- **A run tells its texts one below the other.** -/
theorem Plan.errors_eq_join {p : Plan} (hverbose : p.verbose = false) (env : Environment)
    (source : Source) :
    (p.tokenize env source).errors = String.join ((p.texts env source).map shown) := by
  have hsettings : (((Options.ofEnvironment env).2.map fun r => Line.plain r.message).map
      (Line.text source.name)) = (Options.ofEnvironment env).2.map (·.message) := by
    rw [List.map_map]
    rfl
  rw [p.tokenize_eq, hverbose, printAll_notices hverbose, told_eq_join, hsettings, texts,
    List.map_append, List.map_append, String.join_append, String.join_append,
    shown_report_eq_join]
  cases p.fails env source <;> rfl

/-! ### What sets a warning apart -/

/-- What sets a line apart from all that a run tells beside its warnings. -/
structure SetApart (w : List Char) : Prop where
  oneLine : OneLine w
  head : w.head? ≠ some ' '
  last : w.getLast? = some 't'

theorem SetApart.ne_nil (h : SetApart w) : w ≠ [] := by
  rintro rfl
  cases h.last

theorem getLast?_toList_append {s t : String} {c : Char} (h : t.toList.getLast? = some c) :
    (s ++ t).toList.getLast? = some c := by
  rw [String.toList_append, List.getLast?_append, h, Option.some_or]

theorem SetApart.count_eq_zero (h : SetApart w) {text : String} {c : Char}
    (htext : OneLine text.toList) (hlast : text.toList.getLast? = some c) (hc : c ≠ 't') :
    shownCount w text = 0 := by
  refine Command.shownCount_eq_zero htext ?_
  rw [hlast, h.last]
  simpa using hc

/-- The name of a source that is one line and does not begin with a space. -/
structure PlainName (name : String) : Prop where
  oneLine : OneLine name.toList
  head : name.toList.head? ≠ some ' '

/-- Standard input has such a name. -/
theorem plainName_standardInput : PlainName standardInputName :=
  ⟨by decide, by decide⟩

theorem setApart_openBlockWarning {name : String} (h : PlainName name) (s : List Char) (q : Nat) :
    SetApart (openBlockWarning name s q).toList where
  oneLine := by
    have hmessage : IsAscii ": warning: unterminated block comment".toList := by decide
    have hcolon : IsAscii ":".toList := by decide
    simp only [openBlockWarning, String.toList_append, oneLine_append, and_assoc]
    exact ⟨h.oneLine, hcolon.oneLine, (isAscii_nat _).oneLine, hcolon.oneLine,
      (isAscii_nat _).oneLine, hmessage.oneLine⟩
  head := by
    have hhead := h.head
    simp only [openBlockWarning, String.toList_append, List.append_assoc]
    cases hname : name.toList with
    | nil => exact fun h => absurd (Option.some.inj h) (by decide)
    | cons c cs => rwa [hname] at hhead
  last := by
    have hmessage : ": warning: unterminated block comment".toList.getLast? = some 't' := by
      decide
    exact getLast?_toList_append hmessage

/-- A run has one warning at most, and it says that a block comment is not closed. -/
theorem Plan.warnings_eq (p : Plan) (env : Environment) (source : Source) :
    p.warnings env source = [] ∨
      ∃ q, p.warnings env source = [openBlockWarning source.name source.text.toList q] := by
  have hrun : p.warnings env source =
      runWarnings source.text none (p.options env source.name).1 := rfl
  have hname : (p.options env source.name).1.filename = source.name := rfl
  rw [hrun]
  cases hstrict : (p.options env source.name).1.strictComments with
  | false => exact .inl (runWarnings_of_lenient source.text none hstrict)
  | true =>
    rcases opensBehind_or source.text.toList with ⟨hclosed, -⟩ | ⟨a, x, hs, hbehind⟩
    · left
      rw [Lexis.runWarnings_eq]
      exact Item.collect_warning?_of_closed hclosed _ _ _
    · right
      exact ⟨a.length, by rw [hbehind.runWarnings_eq hs none hstrict, Option.getD_none, hname]⟩

/-! ### The other texts -/

namespace SetApart

theorem count_empty (h : SetApart w) : shownCount w "" = 0 := by
  rw [shownCount_of_oneLine (by decide)]
  exact if_neg h.ne_nil.symm

theorem count_setting (h : SetApart w) {env : Environment} {r : LogRecord}
    (hr : r ∈ (Options.ofEnvironment env).2) : shownCount w r.message = 0 := by
  have hmessage := (records_ofEnvironment env r hr).2
  obtain ⟨text, rfl⟩ := exists_record_ofEnvironment hr
  have hlast : (quoted text).toList.getLast? = some (Quoted.mark text.toList) := by
    rw [quoted, String.toList_ofList, Quoted.encode, ← List.cons_append, List.getLast?_concat]
  refine h.count_eq_zero hmessage.oneLine (getLast?_toList_append hlast) ?_
  rcases Quoted.mark_eq text.toList with hmark | hmark <;> rw [hmark] <;> decide

theorem count_headline (h : SetApart w) {name : String} (hname : PlainName name) {f : Fault}
    {c : Char} (hcause : f.cause = .invalidCharacter c)
    (hlocation : f.location.map Location.filename = some name) : shownCount w f.headline = 0 := by
  obtain ⟨l, hl, rfl⟩ := Option.map_eq_some_iff.mp hlocation
  have hcolon : IsAscii ":".toList := by decide
  have herror : IsAscii ": error: ".toList := by decide
  have hfront : IsAscii "invalid character ".toList := by decide
  have hopening : IsAscii " (0x".toList := by decide
  have hclosing : IsAscii ")".toList := by decide
  have hlast : ")".toList.getLast? = some ')' := by decide
  have hheadline : f.headline = l.filename ++ ":" ++ toString l.line ++ ":" ++ toString l.column ++
      ": error: " ++ ("invalid character " ++ quoted c.toString ++ " (0x" ++
        String.ofList (codePoint c.toNat) ++ ")") := by
    rw [Fault.headline, hl, hcause]
    rfl
  rw [hheadline]
  refine h.count_eq_zero ?_ (getLast?_toList_append (getLast?_toList_append hlast)) (by decide)
  simp only [String.toList_append, oneLine_append, String.toList_ofList, and_assoc]
  exact ⟨hname.oneLine, hcolon.oneLine, (isAscii_int _).oneLine, hcolon.oneLine,
    (isAscii_int _).oneLine, herror.oneLine, hfront.oneLine, (isPrintable_quoted _).oneLine,
    hopening.oneLine, (isAscii_codePoint _).oneLine, hclosing.oneLine⟩

/-- What a fault shows of its source, and its hint, are not the line. -/
theorem ne_excerpt (h : SetApart w) {s : List Char} {f : Fault} {n k : Nat} {quote : List Char}
    {c : Char} (hf : f.PointsAt s n k quote c) :
    ∀ l ∈ [indented quote, caretLine (4 + k)] ++ f.hintLine.map String.toList,
      ControlSequence.strip l ≠ w := by
  have hindented : ControlSequence.strip (indented quote) ≠ w := by
    -- whatever the quoted line loses, the spaces in front of it stay
    rintro rfl
    refine h.head ?_
    rw [indented, ControlSequence.strip_append_of_notMem (by decide)]
    rfl
  have hother : ∀ l : List Char, ControlSequence.escape ∉ l → l.getLast? ≠ some 't' →
      ControlSequence.strip l ≠ w := by
    rintro l hl hlast rfl
    rw [ControlSequence.strip_of_notMem hl] at h
    exact hlast h.last
  have hcaret : (caretLine (4 + k)).getLast? = some '^' := List.getLast?_concat
  have hhint : ∀ t ∈ f.hintLine, ControlSequence.escape ∉ t.toList ∧
      t.toList.getLast? = some 'r' := by
    rw [Fault.hintLine, hf.cause, Cause.hint?]
    by_cases hc : c = '&'
    · rw [if_pos hc]
      decide
    · rw [if_neg hc]
      decide
  intro l hl
  rcases List.mem_append.mp hl with hl | hl
  · rcases List.mem_cons.mp hl with rfl | hl
    · exact hindented
    · obtain rfl := List.mem_singleton.mp hl
      exact hother _ (escape_notMem_caretLine _) (by rw [hcaret]; decide)
  · obtain ⟨t, ht, rfl⟩ := List.mem_map.mp hl
    obtain ⟨hescape, hlast⟩ := hhint t ht
    exact hother _ hescape (by rw [hlast]; decide)

theorem count_fault (h : SetApart w) {name : String} (hname : PlainName name)
    {s : List Char} {f : Fault} {n k : Nat} {quote : List Char} {c : Char}
    (hf : f.PointsAt s n k quote c) (hlocation : f.location.map Location.filename = some name) :
    shownCount w f.print = 0 := by
  have hheadline := h.count_headline hname hf.cause hlocation
  rw [shownCount, List.count_eq_zero] at hheadline
  rw [shownCount, hf.lines_print, List.map_append, List.count_eq_zero, List.mem_append, not_or]
  refine ⟨hheadline, fun hmem => ?_⟩
  obtain ⟨l, hl, hw⟩ := List.mem_map.mp hmem
  exact h.ne_excerpt hf l hl hw

theorem count_suppressed (h : SetApart w) (n : Nat) :
    shownCount w ("(" ++ toString n ++ " more errors not shown)") = 0 := by
  have hopening : IsAscii "(".toList := by decide
  have hclosing : IsAscii " more errors not shown)".toList := by decide
  have hlast : " more errors not shown)".toList.getLast? = some ')' := by decide
  refine h.count_eq_zero ?_ (getLast?_toList_append hlast) (by decide)
  simp only [String.toList_append, oneLine_append]
  exact ⟨⟨hopening.oneLine, (isAscii_nat n).oneLine⟩, hclosing.oneLine⟩

theorem count_counts (h : SetApart w) (errors warnings : Nat) :
    shownCount w ("\n" ++ Diagnostics.counted errors "error" ++ ", " ++
      Diagnostics.counted warnings "warning") = 0 := by
  have hcounted : ∀ n noun, IsAscii noun.toList → IsAscii (Diagnostics.counted n noun).toList := by
    intro n noun hnoun
    have hspace : IsAscii " ".toList := by decide
    have hplural : IsAscii (if n = 1 then "" else "s").toList := by split <;> decide
    simp only [Diagnostics.counted, String.toList_append, isAscii_append]
    exact ⟨⟨⟨isAscii_nat n, hspace⟩, hnoun⟩, hplural⟩
  have hcomma : IsAscii ", ".toList := by decide
  have hlast : ∃ c, (Diagnostics.counted warnings "warning").toList.getLast? = some c ∧ c ≠ 't' := by
    rw [Diagnostics.counted]
    split
    · have hnoun : "warning".toList.getLast? = some 'g' := by decide
      rw [String.append_empty]
      exact ⟨'g', getLast?_toList_append hnoun, by decide⟩
    · have hplural : "s".toList.getLast? = some 's' := by decide
      exact ⟨'s', getLast?_toList_append hplural, by decide⟩
  obtain ⟨c, hc, hne⟩ := hlast
  -- the counts stand behind an empty line
  have htext : "\n" ++ Diagnostics.counted errors "error" ++ ", " ++
      Diagnostics.counted warnings "warning" =
      "" ++ "\n" ++ (Diagnostics.counted errors "error" ++ ", " ++
        Diagnostics.counted warnings "warning") := by
    simp [String.append_assoc]
  rw [htext, shownCount_append_newline, h.count_empty, Nat.zero_add]
  refine h.count_eq_zero ?_ (getLast?_toList_append hc) hne
  simp only [String.toList_append, oneLine_append]
  exact ⟨⟨(hcounted errors _ (by decide)).oneLine, hcomma.oneLine⟩,
    (hcounted warnings _ (by decide)).oneLine⟩

end SetApart

/-! ### Whole runs -/

/-- A fault of a run points at a character of the source, and names the source. -/
theorem Plan.exists_pointsAt {p : Plan} {env : Environment} {source : Source} {f : Fault}
    (hf : f ∈ p.faults env source) :
    ∃ n k quote c, f.PointsAt source.text.toList n k quote c ∧
      f.location.map Location.filename = some source.name := by
  obtain ⟨faults, warnings, suppressed, errors, hholds⟩ :=
    Lexer.exists_holds_tokenize source.text (p.options env source.name).1
  have hreads := (Lexer.Reads.ofSource source.text none (p.options env source.name).1).tokenize
  obtain ⟨n, k, quote, c, hpoints⟩ := hreads.faults f hf
  refine ⟨n, k, quote, c, hpoints, ?_⟩
  have hmem : f ∈ faults.map (Fault.rename source.name) := by
    rw [← (hholds source.name).faults]
    exact hf
  obtain ⟨g, -, rfl⟩ := List.mem_map.mp hmem
  obtain ⟨filename, hlocation⟩ := hpoints.location
  obtain ⟨l, hl, -⟩ := Option.map_eq_some_iff.mp hlocation
  rw [Fault.rename, hl]
  rfl

theorem sum_map_eq_zero {texts : List String} (h : ∀ t ∈ texts, shownCount w t = 0) :
    (texts.map (shownCount w)).sum = 0 := by
  refine List.sum_eq_zero_iff_forall_eq_nat.mpr fun n hn => ?_
  obtain ⟨t, ht, rfl⟩ := List.mem_map.mp hn
  exact h t ht

/-- In a report, too, a warning is on one line. -/
theorem Plan.count_reportParts {p : Plan} {env : Environment} {source : Source}
    (hname : PlainName source.name) (hw : SetApart w) :
    ((p.diagnostics env source).reportParts.map (shownCount w)).sum =
      ((p.warnings env source).map (shownCount w)).sum := by
  have hfaults : ∀ t ∈ (p.diagnostics env source).faults.toList.flatMap fun f => [f.print, ""],
      shownCount w t = 0 := by
    intro t ht
    obtain ⟨f, hf, ht⟩ := List.mem_flatMap.mp ht
    obtain ⟨n, k, quote, c, hpoints, hlocation⟩ := Plan.exists_pointsAt hf
    rcases List.mem_cons.mp ht with rfl | ht
    · exact hw.count_fault hname hpoints hlocation
    · rw [List.mem_singleton.mp ht, hw.count_empty]
  have hsuppressed : ∀ t ∈ (if (p.diagnostics env source).suppressed = 0 then []
      else ["(" ++ toString (p.diagnostics env source).suppressed ++ " more errors not shown)"]),
      shownCount w t = 0 := by
    intro t ht
    split at ht
    · cases ht
    · rw [List.mem_singleton.mp ht, hw.count_suppressed]
  rw [Diagnostics.reportParts, List.map_append, List.map_append, List.map_append, List.sum_append,
    List.sum_append, List.sum_append, sum_map_eq_zero hfaults, sum_map_eq_zero hsuppressed,
    List.map_singleton, List.sum_singleton, hw.count_counts, Nat.zero_add, Nat.add_zero]
  rfl

/-- The warning of a run is the only one, and set apart from all else that the run tells. -/
theorem Plan.warnings_eq_singleton {p : Plan} {env : Environment} {source : Source}
    {warning : String} (hname : PlainName source.name) (h : warning ∈ p.warnings env source) :
    p.warnings env source = [warning] ∧ SetApart warning.toList := by
  rcases p.warnings_eq env source with hq | ⟨q, hq⟩
  · rw [hq] at h
    cases h
  · rw [hq, List.mem_singleton] at h
    rw [hq, h]
    exact ⟨rfl, setApart_openBlockWarning hname _ q⟩

theorem Plan.count_texts {p : Plan} {env : Environment} {source : Source} {warning : String}
    (hname : PlainName source.name) (h : warning ∈ p.warnings env source) :
    ((p.texts env source).map (shownCount warning.toList)).sum =
      if p.fails env source then 2 else 1 := by
  obtain ⟨honly, hw⟩ := Plan.warnings_eq_singleton hname h
  have hone : ((p.warnings env source).map (shownCount warning.toList)).sum = 1 := by
    rw [honly, List.map_singleton, List.sum_singleton, shownCount_of_oneLine hw.oneLine, if_pos rfl]
  have hsettings : ∀ t ∈ (Options.ofEnvironment env).2.map (·.message),
      shownCount warning.toList t = 0 := by
    intro t ht
    obtain ⟨r, hr, rfl⟩ := List.mem_map.mp ht
    exact hw.count_setting hr
  rw [texts, List.map_append, List.map_append, List.sum_append, List.sum_append,
    sum_map_eq_zero hsettings, hone]
  cases p.fails env source with
  | false => rfl
  | true => rw [if_pos rfl, if_pos rfl, count_reportParts hname hw, hone]

theorem Plan.lineCount_errors {p : Plan} (hverbose : p.verbose = false) {env : Environment}
    {source : Source} {warning : String} (hname : PlainName source.name)
    (h : warning ∈ p.warnings env source) :
    lineCount warning.toList (p.tokenize env source).errors =
      if p.fails env source then 2 else 1 := by
  have hne := (Plan.warnings_eq_singleton hname h).2.ne_nil
  rw [Plan.errors_eq_join hverbose, lineCount_join_shown hne, Plan.count_texts hname h]

/-- **A warning is told once, and once more in a report.**  A run that is not verbose tells its
texts one below the other, its warnings among them and, if it is strict and some character starts no
token, in the report too.  There is one warning at most; and where the name of the source is one
line and does not begin with a space, nothing else that is told reads like it. -/
theorem run_of_warning (hline : CommandLine.read words = .ok line)
    (hinfo : line.information? = none) (hplan : line.plan look = .ok plan)
    (hsource : plan.source stdin = .ok source) (hverbose : line.has .verbose = false)
    (env : Environment) :
    (run look env words stdin).errors = String.join
      (((Options.ofEnvironment env).2.map (·.message) ++ plan.warnings env source ++
        if line.has .strict && (tokenize source.text).any Token.isInvalid then
          (plan.diagnostics env source).reportParts
        else []).map shown) ∧
    (plan.warnings env source).length ≤ 1 ∧
    (PlainName source.name → ∀ warning ∈ plan.warnings env source,
      lineCount warning.toList (run look env words stdin).errors =
        if line.has .strict && (tokenize source.text).any Token.isInvalid then 2 else 1) := by
  obtain ⟨format, input, -, -, hfor⟩ := CommandLine.plan_eq_ok_iff.mp hplan
  have hfails : plan.fails env source =
      (line.has .strict && (tokenize source.text).any Token.isInvalid) := by
    rw [plan.fails_eq, hfor]
    rfl
  have hquiet : plan.verbose = false := by
    rw [hfor]
    exact hverbose
  rw [run_of_plan hline hinfo hplan, Plan.run_eq_tokenize hsource, ← hfails]
  refine ⟨Plan.errors_eq_join hquiet env source, ?_, ?_⟩
  · rcases plan.warnings_eq env source with h | ⟨q, h⟩ <;> rw [h] <;> simp
  · exact fun hname warning => Plan.lineCount_errors hquiet hname

/-- Strict comments alone, with a stray character and a setting that is ignored. -/
theorem run_of_open_comment :
    CommandLine.read ["--strict-comments"] = .ok ⟨[.flag .strictComments], []⟩ ∧
    (CommandLine.mk [.flag .strictComments] []).information? = none ∧
    (CommandLine.mk [.flag .strictComments] []).plan (fun _ => .missing) =
      .ok { strictComments := true } ∧
    (Plan.mk none false .text false false true false).source [0x40, 0x2f, 0x2a] =
      .ok ⟨"<stdin>", "@/*"⟩ ∧
    (CommandLine.mk [.flag .strictComments] []).has .verbose = false ∧
    PlainName "<stdin>" ∧
    lineCount "<stdin>:1:2: warning: unterminated block comment".toList
      (run (fun _ => .missing) { maxErrors := some "x" } ["--strict-comments"]
        [0x40, 0x2f, 0x2a]).errors = 1 := by
  have hline : CommandLine.read ["--strict-comments"] = .ok ⟨[.flag .strictComments], []⟩ := by
    decide +kernel
  have hinfo : (CommandLine.mk [.flag .strictComments] []).information? = none := by decide
  have hplan : (CommandLine.mk [.flag .strictComments] []).plan (fun _ => .missing) =
      .ok { strictComments := true } := by rfl
  have hsource : (Plan.mk none false .text false false true false).source [0x40, 0x2f, 0x2a] =
      .ok ⟨"<stdin>", "@/*"⟩ := by decide +kernel
  have hverbose : (CommandLine.mk [.flag .strictComments] []).has .verbose = false := by decide
  have hname : PlainName "<stdin>" := plainName_standardInput
  have hwarnings : (Plan.mk none false .text false false true false).warnings
      { maxErrors := some "x" } ⟨"<stdin>", "@/*"⟩ =
        ["<stdin>:1:2: warning: unterminated block comment"] := by decide +kernel
  obtain ⟨-, -, hcount⟩ :=
    run_of_warning hline hinfo hplan hsource hverbose { maxErrors := some "x" }
  refine ⟨hline, hinfo, hplan, hsource, hverbose, hname, ?_⟩
  rw [hcount hname _ (by rw [hwarnings]; exact List.mem_singleton_self _)]
  rfl

/-- With a report, the one warning of the run is told twice, and counted once. -/
theorem run_of_open_comment_strict :
    (Plan.mk none false .text false true true false).warnings {} ⟨"<stdin>", "@/*"⟩ =
      ["<stdin>:1:2: warning: unterminated block comment"] ∧
    (run (fun _ => .missing) {} ["--strict", "--strict-comments"] [0x40, 0x2f, 0x2a]).errors =
      "<stdin>:1:2: warning: unterminated block comment\n" ++
        "<stdin>:1:1: error: invalid character '@' (0x40)\n    @/*\n    ^\n" ++
        "hint: remove the character or replace it with a valid operator\n\n" ++
        "<stdin>:1:2: warning: unterminated block comment\n\n1 error, 1 warning\n" ∧
    lineCount "<stdin>:1:2: warning: unterminated block comment".toList
      (run (fun _ => .missing) {} ["--strict", "--strict-comments"]
        [0x40, 0x2f, 0x2a]).errors = 2 := by
  have hwarnings : (Plan.mk none false .text false true true false).warnings {}
      ⟨"<stdin>", "@/*"⟩ = ["<stdin>:1:2: warning: unterminated block comment"] := by
    decide +kernel
  have hrun : run (fun _ => .missing) {} ["--strict", "--strict-comments"] [0x40, 0x2f, 0x2a] =
      (Plan.mk none false .text false true true false).tokenize {} ⟨"<stdin>", "@/*"⟩ := by
    have hline : CommandLine.read ["--strict", "--strict-comments"] =
        .ok ⟨[.flag .strict, .flag .strictComments], []⟩ := by decide +kernel
    have hplan : (CommandLine.mk [.flag .strict, .flag .strictComments] []).plan
        (fun _ => .missing) = .ok { strict := true, strictComments := true } := by rfl
    have hsource : (Plan.mk none false .text false true true false).source [0x40, 0x2f, 0x2a] =
        .ok ⟨"<stdin>", "@/*"⟩ := by decide +kernel
    rw [run_of_plan hline rfl hplan, Plan.run_eq_tokenize hsource]
  have hfails : (Plan.mk none false .text false true true false).fails {} ⟨"<stdin>", "@/*"⟩ =
      true := by decide +kernel
  rw [hrun]
  refine ⟨hwarnings, by decide +kernel, ?_⟩
  rw [Plan.lineCount_errors rfl plainName_standardInput
    (by rw [hwarnings]; exact List.mem_singleton_self _), if_pos hfails]

end Command

end Lexis

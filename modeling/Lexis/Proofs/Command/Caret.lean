/-
Carets in what a strict run shows.

The report of a strict run has the printed forms of all faults that are kept, one below the other
(`Plan.exists_report`).  When they are shown, the quoted lines lose their control sequences, and the
carets stay where they are.  So what the caret is below is the character that the fault blames
exactly if no control sequence begins on the line at the character or in front of it
(`Fault.PointsAt.shows`), be it in a comment where nobody complains about it.
-/
import Lexis.Proofs.Command.Report
import Lexis.Proofs.Excerpt

namespace Lexis

open Command Text

/-! ### One fault -/

/-- What is shown of a fault, and whether the caret is below the character. -/
structure Fault.Shows (source : List Char) (f : Fault) (n k : Nat) (line : List Char) (c : Char) :
    Prop where
  points : f.PointsAt source n k line c
  /-- The lines behind the headline are the quoted one without its control sequences, that of the
  caret, and the hint. -/
  print : shown f.print =
    shown f.headline ++ (String.ofList (ControlSequence.strip (indented line)) ++ "\n") ++
      (String.ofList (caretLine (4 + k)) ++ "\n") ++ String.join (f.hintLine.map shown)
  /-- The character keeps its place if no control sequence begins there or in front of it. -/
  kept_iff : (ControlSequence.kept (indented line))[4 + k]? = some (4 + k) ↔
    ∀ j ≤ k, ∀ u, ControlSequence.IsSequence u → ¬ u <+: line.drop j
  above_caret : (ControlSequence.kept (indented line))[4 + k]? = some (4 + k) →
    (ControlSequence.strip (indented line))[4 + k]? = some c

theorem escape_notMem_caretLine (k : Nat) : ControlSequence.escape ∉ caretLine k := by
  rw [caretLine, List.mem_append]
  rintro (h | h)
  · exact absurd (List.eq_of_mem_replicate h) (by decide)
  · exact absurd (List.mem_singleton.mp h) (by decide)

theorem Command.shown_caretLine (k : Nat) :
    shown (String.ofList (caretLine k)) = String.ofList (caretLine k) ++ "\n" :=
  shown_of_notMem (by rw [String.toList_ofList]; exact escape_notMem_caretLine k)

/-- The spaces in front of a line begin no control sequence. -/
theorem forall_le_indented {line : List Char} {k : Nat} :
    (∀ j ≤ 4 + k, ∀ u, ControlSequence.IsSequence u → ¬ u <+: (indented line).drop j) ↔
      ∀ j ≤ k, ∀ u, ControlSequence.IsSequence u → ¬ u <+: line.drop j := by
  have hdrop : ∀ j, (indented line).drop (4 + j) = line.drop j := fun j => List.drop_drop.symm
  constructor
  · intro h j hj
    rw [← hdrop]
    exact h (4 + j) (by omega)
  · intro h j hj u hu
    by_cases hlt : j < 4
    · -- a space is no escape
      obtain ⟨ps, is, c, rfl, -⟩ := hu
      rintro ⟨r, hr⟩
      have hhead : (indented line)[j]? = some ControlSequence.escape := by
        rw [← List.head?_drop, ← hr]
        rfl
      rw [indented, List.getElem?_append_left (by simpa using hlt),
        List.getElem?_replicate_of_lt hlt] at hhead
      exact absurd (Option.some.inj hhead) (by decide)
    · obtain ⟨i, rfl⟩ : ∃ i, j = 4 + i := ⟨j - 4, by omega⟩
      rw [hdrop]
      exact h i (by omega) u hu

theorem Fault.PointsAt.shows {source : List Char} {f : Fault} {n k : Nat} {line : List Char}
    {c : Char} (h : f.PointsAt source n k line c) : f.Shows source n k line c where
  points := h
  print := by
    have hindented : shown (String.ofList (indented line)) =
        String.ofList (ControlSequence.strip (indented line)) ++ "\n" := by
      rw [shown, String.toList_ofList]
    rw [h.print_eq, shown_intercalate, List.map_cons, List.map_cons, List.map_cons,
      String.join_cons, String.join_cons, String.join_cons, hindented, shown_caretLine]
    simp only [String.append_assoc]
  kept_iff := by
    have hlength : 4 + k < (indented line).length :=
      (List.getElem?_eq_some_iff.mp h.above_caret).1
    rw [ControlSequence.getElem?_kept_eq_some_iff, forall_le_indented]
    exact and_iff_right hlength
  above_caret hkept := by
    rw [ControlSequence.getElem?_strip_of_kept hkept]
    exact h.above_caret

namespace Command

variable {look : String → Entry} {words : List String} {line : CommandLine} {plan : Plan}
variable {stdin : List UInt8} {source : Source}

/-! ### A strict run -/

/-- The faults that are kept in a run. -/
def Plan.faults (p : Plan) (env : Environment) (source : Source) : List Fault :=
  (p.lexer env source).tokenize.2.diagnostics.faults.toList

theorem Plan.faults_of_not_fails {p : Plan} (hstrict : p.strict = true) {env : Environment}
    {source : Source} (h : p.fails env source = false) : p.faults env source = [] := by
  rw [fails, hstrict, Bool.true_and, Diagnostics.hasErrors, decide_eq_false_iff_not,
    Diagnostics.errorCount] at h
  rw [faults, ← List.length_eq_zero_iff, Array.length_toList]
  omega

/-- A strict run shows all faults that it keeps. -/
theorem Plan.exists_report {p : Plan} (hstrict : p.strict = true) (env : Environment)
    (source : Source) :
    ∃ front behind, (p.tokenize env source).errors =
      front ++ String.join ((p.faults env source).map fun f => shown f.print ++ "\n") ++
        behind := by
  rw [p.tokenize_eq]
  cases hfails : p.fails env source with
  | false =>
    -- there is no report, and there are no faults that one would show
    rw [faults_of_not_fails hstrict hfails]
    exact ⟨_, "", String.append_empty.symm⟩
  | true =>
    rw [shown_report_eq_join, Diagnostics.reportParts, List.append_assoc, List.append_assoc,
      List.map_append, String.join_append, join_shown_faults]
    exact ⟨_, _, String.append_assoc.symm⟩

/-- **A strict run shows every fault with its caret**, and the caret is below the character that is
blamed, unless a control sequence on the line is lost there or in front of it. -/
theorem run_of_strict (hline : CommandLine.read words = .ok line)
    (hinfo : line.information? = none) (hplan : line.plan look = .ok plan)
    (hsource : plan.source stdin = .ok source) (hstrict : line.has .strict = true)
    (env : Environment) :
    ∃ front behind, (run look env words stdin).errors =
        front ++ String.join ((plan.faults env source).map fun f => shown f.print ++ "\n") ++
          behind ∧
      ∀ f ∈ plan.faults env source, ∃ n k line c, f.Shows source.text.toList n k line c := by
  obtain ⟨format, input, -, -, hfor⟩ := CommandLine.plan_eq_ok_iff.mp hplan
  have hplanned : plan.strict = true := by
    rw [hfor]
    exact hstrict
  obtain ⟨front, behind, herrors⟩ := plan.exists_report hplanned env source
  refine ⟨front, behind, ?_, ?_⟩
  · rw [run_of_plan hline hinfo hplan, Plan.run_eq_tokenize hsource, herrors]
  · intro f hf
    have hreads := (Lexer.Reads.ofSource source.text none (plan.options env source.name).1).tokenize
    obtain ⟨n, k, line, c, hpoints⟩ := hreads.faults f hf
    exact ⟨n, k, line, c, hpoints.shows⟩

/-- A strict run over a stray character in front of a control sequence, one in it and one behind. -/
theorem run_of_strict_sequence :
    CommandLine.read ["--strict"] = .ok ⟨[.flag .strict], []⟩ ∧
    (CommandLine.mk [.flag .strict] []).information? = none ∧
    (CommandLine.mk [.flag .strict] []).plan (fun _ => .missing) = .ok { strict := true } ∧
    (Plan.mk none false .text false true false false).source
      [0x40, 0x1b, 0x5b, 0x31, 0x6d, 0x23] = .ok ⟨"<stdin>", "@\x1b[1m#"⟩ ∧
    (CommandLine.mk [.flag .strict] []).has .strict = true ∧
    ∃ front behind,
      (run (fun _ => .missing) {} ["--strict"] [0x40, 0x1b, 0x5b, 0x31, 0x6d, 0x23]).errors =
        front ++ String.join (((Plan.mk none false .text false true false false).faults {}
          ⟨"<stdin>", "@\x1b[1m#"⟩).map fun f => shown f.print ++ "\n") ++ behind ∧
      ∀ f ∈ (Plan.mk none false .text false true false false).faults {} ⟨"<stdin>", "@\x1b[1m#"⟩,
        ∃ n k line c, f.Shows "@\x1b[1m#".toList n k line c := by
  have hline : CommandLine.read ["--strict"] = .ok ⟨[.flag .strict], []⟩ := by decide +kernel
  have hinfo : (CommandLine.mk [.flag .strict] []).information? = none := by decide
  have hplan : (CommandLine.mk [.flag .strict] []).plan (fun _ => .missing) =
      .ok { strict := true } := by rfl
  have hsource : (Plan.mk none false .text false true false false).source
      [0x40, 0x1b, 0x5b, 0x31, 0x6d, 0x23] = .ok ⟨"<stdin>", "@\x1b[1m#"⟩ := by decide +kernel
  exact ⟨hline, hinfo, hplan, hsource, by decide,
    run_of_strict hline hinfo hplan hsource (by decide) {}⟩

/-- A control sequence in a comment moves the character in front of the caret, and nothing is above
the caret any more. -/
theorem run_of_sequence_in_comment :
    ((Plan.mk none false .text false true false false).faults {}
      ⟨"<stdin>", "/*\x1b[1m*/@"⟩).map Fault.site = [(some '@', some ⟨"<stdin>", 1, 9⟩)] ∧
    (run (fun _ => .missing) {} ["--strict"]
      [0x2f, 0x2a, 0x1b, 0x5b, 0x31, 0x6d, 0x2a, 0x2f, 0x40]).errors =
        "<stdin>:1:9: error: invalid character '@' (0x40)\n" ++ ("    /**/@" ++ "\n") ++
          (String.ofList (caretLine 12) ++ "\n") ++
          "hint: remove the character or replace it with a valid operator\n\n\n" ++
          "1 error, 0 warnings\n" ∧
    "    /**/@".toList[8]? = some '@' ∧ "    /**/@".toList[12]? = none := by
  refine ⟨by decide +kernel, by decide +kernel, by decide, by decide⟩

end Command

end Lexis

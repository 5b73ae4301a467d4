/-
From a command line to its run.

A line that asks for no information comes to a plan exactly if its format is one and its arguments
name an input (`CommandLine.plan_eq_ok_iff`).  The plan takes its flags from the line, wherever they
stand there, and the whole command is the run of the plan (`run_of_plan`).  Once there is a source,
only a strict run can fail, and it fails exactly if there are faults (`Plan.tokenize_eq`).
-/
import Lexis.Command.Run

namespace Lexis.Command

variable {look : String → Entry} {words : List String} {line : CommandLine} {plan : Plan}

/-- The plan of a line, with the format and the input that it names. -/
def CommandLine.planFor (line : CommandLine) (format : Format) (input : Option Input) : Plan where
  input := input
  format := format
  sample := line.has .sample
  showEnd := line.has .showEnd
  strict := line.has .strict
  strictComments := line.has .strictComments
  verbose := line.has .verbose

theorem CommandLine.plan_eq_ok_iff :
    line.plan look = .ok plan ↔
      ∃ format input, checkFormat line.format? = .ok format ∧
        checkArguments look line.arguments = .ok input ∧ plan = line.planFor format input := by
  rw [CommandLine.plan]
  cases checkFormat line.format? with
  | error e => exact ⟨by rintro ⟨⟩, by rintro ⟨_, _, ⟨⟩, _⟩⟩
  | ok format =>
    cases checkArguments look line.arguments with
    | error e => exact ⟨by rintro ⟨⟩, by rintro ⟨_, _, _, ⟨⟩, _⟩⟩
    | ok input =>
      constructor
      · rintro ⟨⟩
        exact ⟨format, input, rfl, rfl, rfl⟩
      · rintro ⟨_, _, ⟨⟩, ⟨⟩, rfl⟩
        rfl

theorem CommandLine.plan_of_checks {format : Format} {input : Option Input}
    (hformat : checkFormat line.format? = .ok format)
    (hinput : checkArguments look line.arguments = .ok input) :
    line.plan look = .ok (line.planFor format input) :=
  plan_eq_ok_iff.mpr ⟨format, input, hformat, hinput, rfl⟩

/-- The command carries out the plan of its line. -/
theorem run_of_plan (hline : CommandLine.read words = .ok line) (hinfo : line.information? = none)
    (hplan : line.plan look = .ok plan) (env : Environment) (stdin : List UInt8) :
    run look env words stdin = plan.run env stdin := by
  have htask : Task.ofWords look words = .ok (.run plan) := by
    simp only [Task.ofWords, hline, hinfo, hplan, bind, Except.bind, pure, Except.pure]
  rw [run, htask]
  rfl

/-- One argument names one input. -/
theorem checkArguments_singleton (look : String → Entry) (path : String) :
    checkArguments look [path] = (checkInput look path).map some := by
  show (checkInput look path >>= _) = _
  cases checkInput look path <;> rfl

/-- The lexer of a run, at the start of its source. -/
def Plan.lexer (p : Plan) (env : Environment) (source : Source) : Lexer :=
  .ofSource source.text none (p.options env source.name).1

/-- Does a run fail? -/
def Plan.fails (p : Plan) (env : Environment) (source : Source) : Bool :=
  p.strict && (p.lexer env source).tokenize.2.diagnostics.hasErrors

theorem Plan.tokenize_eq (p : Plan) (env : Environment) (source : Source) :
    p.tokenize env source =
      { exit := if p.fails env source then .lexicalError else .success
        output := shown (p.format.print p.showEnd (p.lexer env source).tokenize.1)
        errors :=
          printAll p.verbose (p.notices env source.name (p.lexer env source).tokenize.2) ++
            if p.fails env source then shown (p.lexer env source).tokenize.2.diagnostics.report
            else "" } := by
  unfold tokenize fails lexer
  generalize p.options env source.name = o
  obtain ⟨options, log⟩ := o
  dsimp only
  generalize (Lexer.ofSource source.text none options).tokenize = y
  obtain ⟨tokens, after⟩ := y
  dsimp only
  rw [Diagnostics.summary?]
  cases p.strict with
  | false =>
    rw [if_neg Bool.false_ne_true, Bool.false_and, if_neg Bool.false_ne_true,
      if_neg Bool.false_ne_true, String.append_empty]
  | true =>
    rw [if_pos rfl, Bool.true_and]
    cases after.diagnostics.hasErrors with
    | false =>
      rw [if_neg Bool.false_ne_true, if_neg Bool.false_ne_true, if_neg Bool.false_ne_true,
        String.append_empty]
    | true =>
      -- the summary is a report, and is printed as one
      have hreport : ((Failure.ofFault { cause := .summary after.diagnostics.report none }).outcome
          p.verbose).errors = shown after.diagnostics.report := String.append_empty
      rw [if_pos rfl, if_pos rfl, if_pos rfl, ← hreport]
      rfl

end Lexis.Command

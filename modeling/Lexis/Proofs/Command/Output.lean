/-
What a run writes to standard output.

A run that has a source lists the tokens of its text, in the format that is asked for, and a line
feed (`run_of_source`).  The listing shows no name of a source, so that tokens without their names
are enough to print it (`Format.print_map_anonymous`), and neither name nor options have a say in
these.  The exit code tells of the tokens of the invalid kind, of those too that there was no room
to keep the faults of.
-/
import Lexis.Proofs.Command.Shown
import Lexis.Proofs.Command.Task
import Lexis.Proofs.Independence
import Lexis.Proofs.Lexer.Faults

namespace Lexis

/-! ### Tokens without the names of their sources -/

theorem listing_map_anonymous (tokens : List Token) (showEnd : Bool) :
    listing (tokens.map Token.anonymous) showEnd = listing tokens showEnd := by
  have hlisted : listed (tokens.map Token.anonymous) showEnd =
      (listed tokens showEnd).map Token.anonymous := List.filter_map
  have hprint : Token.print ∘ Token.anonymous = Token.print := rfl
  rw [listing, listing, listingLines, listingLines, hlisted, List.map_map, List.length_map, hprint]

theorem tokensToJson_map_anonymous (tokens : List Token) :
    tokensToJson (tokens.map Token.anonymous) = tokensToJson tokens := by
  have hjson : Token.toJson ∘ Token.anonymous = Token.toJson := rfl
  rw [tokensToJson, tokensToJson, List.map_map, hjson]

theorem any_isInvalid_map_anonymous (tokens : List Token) :
    (tokens.map Token.anonymous).any Token.isInvalid = tokens.any Token.isInvalid :=
  List.any_map

/-- Name and options have no part in the tokens of a text, but for the name in each of them. -/
theorem map_anonymous_tokenize (source : String) (filename : Option String) (options : Options) :
    (Lexer.ofSource source filename options).tokenize.1.map Token.anonymous =
      (tokenize source).map Token.anonymous := by
  have hplace : onlookerOfPlaces.Same (Lexer.ofSource source filename options)
      (Lexer.ofSource source) := rfl
  exact (steady_onlookerOfPlaces.tokenize hplace).1

theorem Lexer.hasErrors_tokenize_ofSource (source : String) (filename : Option String)
    (options : Options) :
    (ofSource source filename options).tokenize.2.diagnostics.hasErrors =
      (ofSource source filename options).tokenize.1.any Token.isInvalid := by
  have hcount := (ofSource source filename options).tokenize_errorCount
  have hstart : (ofSource source filename options).diagnostics.errorCount = 0 := rfl
  rw [hstart, Nat.zero_add] at hcount
  rw [Diagnostics.hasErrors, hcount, tokenize_fst, Bool.eq_iff_iff, decide_eq_true_eq,
    List.length_filter_pos_iff, List.any_eq_true]

namespace Command

variable {look : String → Entry} {words : List String} {line : CommandLine} {plan : Plan}
variable {stdin : List UInt8} {source : Source}

theorem Format.print_map_anonymous (f : Format) (showEnd : Bool) (tokens : List Token) :
    f.print showEnd (tokens.map Token.anonymous) = f.print showEnd tokens := by
  match f with
  | .text => exact listing_map_anonymous tokens showEnd
  | .json => exact congrArg Json.Value.print (tokensToJson_map_anonymous tokens)

/-- The tokens of a run are printed like those of its text alone. -/
theorem Plan.print_tokenize (p : Plan) (env : Environment) (source : Source) (f : Format)
    (showEnd : Bool) :
    f.print showEnd (p.lexer env source).tokenize.1 =
      f.print showEnd (Lexis.tokenize source.text) := by
  rw [← f.print_map_anonymous, lexer, map_anonymous_tokenize, f.print_map_anonymous]

theorem Plan.output_tokenize (p : Plan) (env : Environment) (source : Source) :
    (p.tokenize env source).output =
      p.format.print p.showEnd (Lexis.tokenize source.text) ++ "\n" := by
  rw [p.tokenize_eq, shown_print, p.print_tokenize]

theorem Plan.fails_eq (p : Plan) (env : Environment) (source : Source) :
    p.fails env source = (p.strict && (Lexis.tokenize source.text).any Token.isInvalid) := by
  rw [fails, lexer, Lexer.hasErrors_tokenize_ofSource, ← any_isInvalid_map_anonymous,
    map_anonymous_tokenize, any_isInvalid_map_anonymous]

theorem Plan.exit_tokenize (p : Plan) (env : Environment) (source : Source) :
    (p.tokenize env source).exit.number =
      if p.strict && (Lexis.tokenize source.text).any Token.isInvalid then 1 else 0 := by
  rw [p.tokenize_eq, ← p.fails_eq env source]
  cases p.fails env source <;> rfl

theorem Plan.run_eq_tokenize (h : plan.source stdin = .ok source) (env : Environment) :
    plan.run env stdin = plan.tokenize env source := by
  rw [run, h]

/-- Only the input and the sample decide what a plan reads. -/
theorem Plan.source_congr {p q : Plan} (hinput : p.input = q.input) (hsample : p.sample = q.sample)
    (stdin : List UInt8) : p.source stdin = q.source stdin := by
  rw [source, source, hinput, hsample]

/-- Two lines ask for the same listing: of the same input, in the same format, with the end token
or without. -/
structure CommandLine.SameListing (l k : CommandLine) : Prop where
  arguments : l.arguments = k.arguments
  sample : l.has .sample = k.has .sample
  format : l.format? = k.format?
  showEnd : l.has .showEnd = k.has .showEnd

theorem CommandLine.SameListing.exists_plan {k : CommandLine} (h : k.SameListing line)
    (hplan : line.plan look = .ok plan) :
    ∃ plan', k.plan look = .ok plan' ∧ plan'.input = plan.input ∧ plan'.sample = plan.sample ∧
      plan'.format = plan.format ∧ plan'.showEnd = plan.showEnd := by
  obtain ⟨format, input, hformat, hinput, rfl⟩ := plan_eq_ok_iff.mp hplan
  rw [← h.format] at hformat
  rw [← h.arguments] at hinput
  exact ⟨_, plan_of_checks hformat hinput, rfl, h.sample, rfl, h.showEnd⟩

/-- **A run prints the listing of its source and nothing else**: every token of the text, whatever
the environment and the flags for strictness and talk say.  Of these, `--strict` turns the exit code
into 1, exactly if some token is of the invalid kind. -/
theorem run_of_source (hline : CommandLine.read words = .ok line)
    (hinfo : line.information? = none) (hplan : line.plan look = .ok plan)
    (hsource : plan.source stdin = .ok source) (env : Environment) :
    (plan.format = .text → (run look env words stdin).output =
      listing (tokenize source.text) (line.has .showEnd) ++ "\n") ∧
    (plan.format = .json → (run look env words stdin).output =
      (tokensToJson (tokenize source.text)).print ++ "\n") ∧
    ((run look env words stdin).exit.number =
      if line.has .strict && (tokenize source.text).any Token.isInvalid then 1 else 0) ∧
    ∀ env' words' line', CommandLine.read words' = .ok line' → line'.information? = none →
      line'.SameListing line →
      (run look env' words' stdin).output = (run look env words stdin).output := by
  have houtput : (run look env words stdin).output =
      plan.format.print plan.showEnd (tokenize source.text) ++ "\n" := by
    rw [run_of_plan hline hinfo hplan, Plan.run_eq_tokenize hsource, Plan.output_tokenize]
  obtain ⟨format, input, -, -, hfor⟩ := CommandLine.plan_eq_ok_iff.mp hplan
  have hshow : plan.showEnd = line.has .showEnd := by rw [hfor]; rfl
  have hstrict : plan.strict = line.has .strict := by rw [hfor]; rfl
  refine ⟨?_, ?_, ?_, ?_⟩
  · intro hformat
    rw [houtput, hformat, hshow]
    rfl
  · intro hformat
    rw [houtput, hformat]
    rfl
  · rw [run_of_plan hline hinfo hplan, Plan.run_eq_tokenize hsource, Plan.exit_tokenize, hstrict]
  · intro env' words' line' hline' hinfo' hsame
    obtain ⟨plan', hplan', hinput, hsample, hformat, hshow'⟩ := hsame.exists_plan hplan
    have hsource' : plan'.source stdin = .ok source := by
      rw [Plan.source_congr hinput hsample, hsource]
    rw [run_of_plan hline' hinfo' hplan', Plan.run_eq_tokenize hsource', Plan.output_tokenize,
      hformat, hshow', houtput]

/-- A strict run over an escape sequence and two stray characters, with room for one fault. -/
theorem run_of_escape_sequence :
    CommandLine.read ["--strict"] = .ok ⟨[.flag .strict], []⟩ ∧
    (CommandLine.mk [.flag .strict] []).information? = none ∧
    (CommandLine.mk [.flag .strict] []).plan (fun _ => .missing) = .ok { strict := true } ∧
    (Plan.mk none false .text false true false false).source
      [0x1b, 0x5b, 0x31, 0x6d, 0x40, 0x40] = .ok ⟨"<stdin>", "\x1b[1m@@"⟩ ∧
    (run (fun _ => .missing) { maxErrors := some "1" } ["--strict"]
      [0x1b, 0x5b, 0x31, 0x6d, 0x40, 0x40]).output =
        listing (tokenize "\x1b[1m@@") false ++ "\n" ∧
    (run (fun _ => .missing) { maxErrors := some "1" } ["--strict"]
      [0x1b, 0x5b, 0x31, 0x6d, 0x40, 0x40]).exit.number = 1 := by
  have hline : CommandLine.read ["--strict"] = .ok ⟨[.flag .strict], []⟩ := by decide +kernel
  have hinfo : (CommandLine.mk [.flag .strict] []).information? = none := by decide
  have hplan : (CommandLine.mk [.flag .strict] []).plan (fun _ => .missing) =
      .ok { strict := true } := by rfl
  have hsource : (Plan.mk none false .text false true false false).source
      [0x1b, 0x5b, 0x31, 0x6d, 0x40, 0x40] = .ok ⟨"<stdin>", "\x1b[1m@@"⟩ := by decide +kernel
  obtain ⟨htext, -, hexit, -⟩ :=
    run_of_source hline hinfo hplan hsource { maxErrors := some "1" }
  refine ⟨hline, hinfo, hplan, hsource, htext rfl, ?_⟩
  rw [hexit]
  decide +kernel

end Command

end Lexis

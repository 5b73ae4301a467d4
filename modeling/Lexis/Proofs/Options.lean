/-
The limit that an environment asks for.

One variable of the environment is a text that may ask for a limit.  A numeral of at least one is
heeded, a text that is not there or empty is passed over, and all others are ignored with a warning
(`LimitSetting`).  Every text falls under exactly one of these cases
(`Options.existsUnique_limitSetting`), and each of them leaves a limit of at least one.

The other options come from elsewhere, and are the same whatever that text is
(`Options.resolve_limit`).
-/
import Lexis.Options
import Lexis.Proofs.Text.Numeral

namespace Lexis

open Text

/-- What a text in the environment, or its absence, makes of the limit, and what is told of it. -/
inductive LimitSetting : Option String → Int → List LogRecord → Prop
  | unset : LimitSetting none 100 []
  | empty : LimitSetting (some "") 100 []
  | heeded {text : String} {n : Int} (h : IsNumeral text.toList n) (hn : 1 ≤ n) :
      LimitSetting (some text) n []
  | ignored {text : String} (hne : text ≠ "") (h : ∀ n, IsNumeral text.toList n → n < 1) :
      LimitSetting (some text) 100
        [⟨.warning, "Ignoring invalid MINIJAVA_MAX_ERRORS value " ++ quoted text⟩]

namespace LimitSetting

variable {value : Option String} {limit : Int} {log : List LogRecord}

theorem one_le (h : LimitSetting value limit log) : 1 ≤ limit := by
  cases h with
  | unset => decide
  | empty => decide
  | heeded h hn => exact hn
  | ignored hne h => decide

end LimitSetting

theorem exists_limitSetting (value : Option String) :
    ∃ limit log, LimitSetting value limit log := by
  match value with
  | none => exact ⟨100, [], .unset⟩
  | some text =>
    by_cases hne : text = ""
    · subst hne
      exact ⟨100, [], .empty⟩
    · by_cases h : ∃ n, IsNumeral text.toList n ∧ 1 ≤ n
      · obtain ⟨n, hnumeral, hn⟩ := h
        exact ⟨n, [], .heeded hnumeral hn⟩
      · refine ⟨100, _, .ignored hne fun n hnumeral => ?_⟩
        exact Int.not_le.mp fun hn => h ⟨n, hnumeral, hn⟩

namespace Options

/-- A text asks for a limit if it is a numeral of at least one. -/
theorem limit?_eq_some_iff {text : String} {n : Int} :
    limit? text = some n ↔ IsNumeral text.toList n ∧ 1 ≤ n := by
  rw [limit?, Option.filter_eq_some_iff, numeral?_eq_some_iff, decide_eq_true_eq]

theorem setting?_some {text : String} (h : text ≠ "") : setting? (some text) = some text := by
  rw [setting?, Option.filter_some_pos]
  simpa using h

/-- The options with another limit. -/
def withLimit (limit : Int) (o : Options) : Options :=
  { o with maxErrors := limit }

/-- What an environment leaves of the options, but for the limit. -/
def ofStrict (strict : Option String) : Options :=
  { strictComments := ((setting? strict).map isOn).getD false }

/-- **The environment is read as its texts say**, each variable by itself. -/
theorem ofEnvironment_eq {value : Option String} {limit : Int} {log : List LogRecord}
    (h : LimitSetting value limit log) (strict : Option String) :
    ofEnvironment ⟨strict, value⟩ = ((ofStrict strict).withLimit limit, log) := by
  cases h with
  | unset => rfl
  | empty => rfl
  | @heeded text _ h hn =>
    have hset : setting? (some text) = some text := setting?_some (by simpa using h.ne_nil)
    have hlimit : limit? text = some limit := limit?_eq_some_iff.mpr ⟨h, hn⟩
    rw [ofEnvironment]
    simp only [hset, hlimit]
    rfl
  | @ignored text hne h =>
    have hset : setting? (some text) = some text := setting?_some hne
    have hlimit : limit? text = none := by
      rw [Option.eq_none_iff_forall_ne_some]
      intro n hn
      obtain ⟨hnumeral, hle⟩ := limit?_eq_some_iff.mp hn
      exact absurd (h n hnumeral) (Int.not_lt.mpr hle)
    rw [ofEnvironment]
    simp only [hset, hlimit]
    rfl

/-- Exactly one case applies to a text. -/
theorem existsUnique_limitSetting (value : Option String) :
    ∃! p : Int × List LogRecord, LimitSetting value p.1 p.2 := by
  obtain ⟨limit, log, h⟩ := exists_limitSetting value
  refine ⟨(limit, log), h, ?_⟩
  rintro ⟨limit', log'⟩ h'
  -- both are what is read of the same environment
  have hread := (ofEnvironment_eq h' none).symm.trans (ofEnvironment_eq h none)
  have hlimit : limit' = limit := congrArg (fun p => p.1.maxErrors) hread
  have hlog : log' = log := congrArg (fun p => p.2) hread
  rw [hlimit, hlog]

/-- What is set beside the limit does not look at it. -/
theorem set_withLimit {setting : Override} (h : ∀ n, setting ≠ .maxErrors n) (limit : Int)
    (o : Options) : (o.withLimit limit).set setting = (o.set setting).map (withLimit limit) := by
  match setting with
  | .filename name => rfl
  | .strictComments on => rfl
  | .maxErrors n => exact absurd rfl (h n)
  | .unknown name => rfl

theorem foldlM_set_withLimit {overrides : List Override} (h : ∀ n, .maxErrors n ∉ overrides)
    (limit : Int) (o : Options) :
    overrides.foldlM set (o.withLimit limit) = (overrides.foldlM set o).map (withLimit limit) := by
  induction overrides generalizing o with
  | nil => rfl
  | cons setting overrides ih =>
    have hsetting : ∀ n, setting ≠ .maxErrors n := by
      rintro n rfl
      exact h n List.mem_cons_self
    have hmore := ih fun n hn => h n (List.mem_cons_of_mem setting hn)
    rw [List.foldlM_cons, List.foldlM_cons, set_withLimit hsetting]
    cases o.set setting with
    | error e => rfl
    | ok o => exact hmore o

theorem exists_foldlM_set {overrides : List Override} (h : ∀ name, .unknown name ∉ overrides)
    (o : Options) : ∃ o', overrides.foldlM set o = .ok o' := by
  induction overrides generalizing o with
  | nil => exact ⟨o, rfl⟩
  | cons setting overrides ih =>
    have hmore := ih fun name hn => h name (List.mem_cons_of_mem setting hn)
    match setting with
    | .filename name => exact hmore _
    | .strictComments on => exact hmore _
    | .maxErrors n => exact hmore _
    | .unknown name => exact absurd List.mem_cons_self (h name)

/-- **The limit is what the text asks for, and nothing else depends on it**: where no limit is set
by name, every text falls under one case, its limit and what is told of it are those of the
options, and the name, the strictness and the refusal of unknown names are the same for all
texts. -/
theorem resolve_limit (strict : Option String) {overrides : List Override}
    (h : ∀ n, .maxErrors n ∉ overrides) :
    ∃ others : Except UnknownOption (String × Bool),
      ((∀ name, .unknown name ∉ overrides) → ∃ p, others = .ok p) ∧
      (∀ value, ∃! p : Int × List LogRecord, LimitSetting value p.1 p.2) ∧
      ∀ value limit log, LimitSetting value limit log →
        1 ≤ limit ∧
          resolve ⟨strict, value⟩ overrides = others.map fun p => (⟨p.1, p.2, limit⟩, log) := by
  refine ⟨(overrides.foldlM set (ofStrict strict)).map fun o => (o.filename, o.strictComments),
    ?_, existsUnique_limitSetting, ?_⟩
  · intro hknown
    obtain ⟨o, ho⟩ := exists_foldlM_set hknown (ofStrict strict)
    exact ⟨_, by rw [ho]; rfl⟩
  · intro value limit log hvalue
    refine ⟨hvalue.one_le, ?_⟩
    rw [resolve, ofEnvironment_eq hvalue]
    simp only [foldlM_set_withLimit h]
    cases overrides.foldlM set (ofStrict strict) <;> rfl

/-- Digits of two scripts, behind a sign and between blanks of two kinds. -/
theorem resolve_limit_of_two_scripts :
    (∀ n, .maxErrors n ∉ [Override.filename "a"]) ∧
      LimitSetting (some "\t+1_\u0662\u2003") 12 [] ∧
      ∃ others : Except UnknownOption (String × Bool),
        ((∀ name, .unknown name ∉ [Override.filename "a"]) → ∃ p, others = .ok p) ∧
        (∀ value, ∃! p : Int × List LogRecord, LimitSetting value p.1 p.2) ∧
        ∀ value limit log, LimitSetting value limit log →
          1 ≤ limit ∧
            resolve ⟨some "on", value⟩ [.filename "a"] =
              others.map fun p => (⟨p.1, p.2, limit⟩, log) := by
  have hnamed : ∀ n, .maxErrors n ∉ [Override.filename "a"] := by simp
  have hnumeral : numeral? "\t+1_\u0662\u2003" = some 12 := by decide
  exact ⟨hnamed, .heeded (numeral?_eq_some_iff.mp hnumeral) (by decide),
    resolve_limit (some "on") hnamed⟩

end Options

end Lexis

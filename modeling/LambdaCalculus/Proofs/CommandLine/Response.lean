import LambdaCalculus.CommandLine.Invocation
import LambdaCalculus.Proofs.Report

set_option autoImplicit false

namespace LambdaCalculus.CommandLine

def Outcome.response (outcome : Outcome) : Nat × String :=
  (outcome.exitCode, outcome.output)

namespace Options

def printed (options : Options) (patience : Nat) (term : Term) : Option Term :=
  if options.parseOnly then some term
  else (term.normalize patience options.maxSteps).map Reduction.term

def response (options : Options) (patience : Nat) (text : String) : Option (Nat × String) :=
  match parse text with
  | .error failure => some (1, failure.message ++ "\n")
  | .ok term => (options.printed patience term).map fun last => (0, last.render ++ "\n")

theorem answer_response [PatternLanguage] (options : Options) (patience : Nat) (filter : Filter)
    (ignored : List String) (program : Program) :
    (options.answer patience filter ignored program).map Outcome.response =
      options.response patience program.text := by
  unfold answer response
  extract_lets report
  rewrite [← parseReporting_result report]
  generalize parseReporting report program.text = reading
  obtain ⟨result, events⟩ := reading
  cases result with
  | error failure => rfl
  | ok term =>
      unfold printed
      dsimp only
      cases options.parseOnly with
      | true => rfl
      | false => cases term.normalize patience options.maxSteps <;> rfl

theorem response_ok_iff {options : Options} {patience : Nat} {text output : String} :
    options.response patience text = some (0, output) ↔
      ∃ term last, parse text = .ok term ∧ options.printed patience term = some last ∧
        last.render ++ "\n" = output := by
  unfold response
  cases parse text with
  | error failure =>
      constructor
      · intro same
        cases same
      · rintro ⟨_, _, same, -⟩
        cases same
  | ok term =>
      constructor
      · intro same
        obtain ⟨last, printed, rendered⟩ := Option.map_eq_some_iff.mp same
        exact ⟨term, last, rfl, printed, congrArg Prod.snd rendered⟩
      · rintro ⟨_, last, same, printed, rendered⟩
        cases same
        exact Option.map_eq_some_iff.mpr ⟨last, printed, congrArg (Prod.mk 0) rendered⟩

end Options

namespace Invocation

variable [PatternLanguage] {invocation : Invocation} {options : Options}

theorem run_response (asked : Options.ofArguments invocation.arguments = .ok options) (patience : Nat) :
    (invocation.run patience).map Outcome.response =
      match invocation.program options.file with
      | .error _ => some (1, "")
      | .ok program => options.response patience program.text := by
  rw [run, asked]
  dsimp only
  cases invocation.program options.file with
  | error complaint => rfl
  | ok program => exact options.answer_response patience _ _ program

def Prints (invocation : Invocation) (patience : Nat) (output : String) : Prop :=
  ∃ outcome, invocation.run patience = some outcome ∧ outcome.exitCode = 0 ∧ outcome.output = output

theorem prints_iff_response {patience : Nat} {output : String} :
    invocation.Prints patience output ↔ (invocation.run patience).map Outcome.response = some (0, output) := by
  simp only [Prints, Option.map_eq_some_iff, Outcome.response, Prod.mk.injEq]

theorem prints_iff (asked : Options.ofArguments invocation.arguments = .ok options) {patience : Nat}
    {output : String} :
    invocation.Prints patience output ↔
      ∃ program term last, invocation.program options.file = .ok program ∧ parse program.text = .ok term ∧
        options.printed patience term = some last ∧ last.render ++ "\n" = output := by
  rw [prints_iff_response, run_response asked]
  cases invocation.program options.file with
  | error complaint =>
      constructor
      · intro same
        cases same
      · rintro ⟨_, _, _, same, -⟩
        cases same
  | ok program =>
      refine Options.response_ok_iff.trans ?_
      constructor
      · rintro ⟨term, last, printed⟩
        exact ⟨program, term, last, rfl, printed⟩
      · rintro ⟨_, term, last, same, printed⟩
        cases same
        exact ⟨term, last, printed⟩

end Invocation

end LambdaCalculus.CommandLine

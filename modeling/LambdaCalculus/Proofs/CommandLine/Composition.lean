import LambdaCalculus.Proofs.CommandLine.Arguments
import LambdaCalculus.Proofs.CommandLine.Line
import LambdaCalculus.Proofs.CommandLine.Response
import LambdaCalculus.Proofs.Reduction

set_option autoImplicit false

namespace LambdaCalculus.CommandLine

namespace Options

variable {options others : Options} {term last : Term}

def reached (options : Options) (steps : Nat) (term : Term) : Term :=
  if options.parseOnly then term else (term.reduce steps).term

theorem printed_limited (options : Options) (steps patience : Nat) (term : Term) :
    (options.limited steps).printed patience term = some (options.reached steps term) := by
  unfold printed reached limited
  dsimp only
  cases options.parseOnly <;> rfl

theorem reached_well_named (named : term.WellNamed) (steps : Nat) : (options.reached steps term).WellNamed := by
  unfold reached
  split
  · exact named
  · exact Term.reduce_well_named named steps

theorem reached_reached (alike : others.parseOnly = options.parseOnly) (named : term.WellNamed) (first second : Nat) :
    others.reached second (options.reached first term) = options.reached (first + second) term := by
  unfold reached
  rw [alike]
  cases options.parseOnly with
  | true => rfl
  | false => exact Term.reduce_reduce named first second

theorem printed_again (alike : others.parseOnly = options.parseOnly) (unlimited : options.maxSteps = none)
    (unlimitedAgain : others.maxSteps = none) (named : term.WellNamed) {patience later : Nat}
    (printed : options.printed patience term = some last) (positive : 0 < later) :
    last.WellNamed ∧ others.printed later last = some last := by
  unfold Options.printed at printed ⊢
  rw [unlimited] at printed
  rw [alike, unlimitedAgain]
  cases reading : options.parseOnly with
  | true =>
      rw [reading] at printed
      cases printed
      exact ⟨named, rfl⟩
  | false =>
      rw [reading] at printed
      obtain ⟨reduction, ended, rfl⟩ := Option.map_eq_some_iff.mp printed
      have halt := Term.normalForm_of_normalize ended
      obtain rfl := Term.reduce_of_normalize ended
      have fixed := (Term.normalForm_fixed named halt).1
      have kept := congrArg (Option.map Reduction.term) (Term.normalize_of_fixpoint fixed positive)
      exact ⟨Term.reduce_well_named named _, kept⟩

end Options

namespace Invocation

def limited (invocation : Invocation) (steps : Nat) : Invocation :=
  { invocation with arguments := "-n" :: toString steps :: invocation.arguments }

def fed (invocation : Invocation) (text : String) : Invocation :=
  { invocation with input := text.toUTF8 }

variable {invocation : Invocation} {options : Options}

theorem limited_prints_iff [PatternLanguage] (asked : Options.ofArguments invocation.arguments = .ok options)
    (unlimited : options.maxSteps = none) {steps : Nat} (bounded : steps < stepsBound) {patience : Nat}
    {output : String} :
    (invocation.limited steps).Prints patience output ↔
      ∃ program term, invocation.program options.file = .ok program ∧ parse program.text = .ok term ∧
        (options.reached steps term).render ++ "\n" = output := by
  have limitedAsked : Options.ofArguments (invocation.limited steps).arguments = .ok (options.limited steps) :=
    Options.ofArguments_under_limit asked unlimited bounded
  rw [prints_iff limitedAsked]
  constructor
  · rintro ⟨program, term, last, given, read, printed, rendered⟩
    rw [Options.printed_limited] at printed
    cases printed
    exact ⟨program, term, given, read, rendered⟩
  · rintro ⟨program, term, given, read, rendered⟩
    exact ⟨program, term, _, given, read, Options.printed_limited options steps patience term, rendered⟩

theorem program_fed (invocation : Invocation) {term : Term} (named : term.WellNamed) :
    (invocation.fed (term.render ++ "\n")).program none = .ok ⟨"<stdin>", term.render⟩ := by
  simp only [program, fed, readLine_of_render named]

end Invocation

variable {source again : Invocation} {options others : Options}

-- Output can be given back: a limited run goes on from there as if it had never stopped, and
-- there is nothing left to do for a run without a limit, nor for one that only parses.
theorem runs_compose [PatternLanguage] (asked : Options.ofArguments source.arguments = .ok options)
    (askedAgain : Options.ofArguments again.arguments = .ok others) (unlimited : options.maxSteps = none)
    (unlimitedAgain : others.maxSteps = none) (alike : others.parseOnly = options.parseOnly)
    (fromInput : others.file = none) :
    (∀ first second patience output, first + second < stepsBound → (source.limited first).Prints patience output →
      ∃ answer, (source.limited (first + second)).Prints patience answer ∧
        ∀ later, ((again.fed output).limited second).Prints later answer) ∧
    (∀ patience output, source.Prints patience output →
      ∀ later, 0 < later → (again.fed output).Prints later output) := by
  have fedAsked (text : String) : Options.ofArguments (again.fed text).arguments = .ok others := askedAgain
  constructor
  · intro first second patience output bounded prints
    have firstBounded : first < stepsBound := by omega
    have secondBounded : second < stepsBound := by omega
    obtain ⟨program, term, given, read, rfl⟩ := (Invocation.limited_prints_iff asked unlimited firstBounded).mp prints
    have named := parse_well_named read
    have lastNamed : (options.reached first term).WellNamed := Options.reached_well_named named first
    refine ⟨_, (Invocation.limited_prints_iff asked unlimited bounded).mpr ⟨program, term, given, read, rfl⟩, ?_⟩
    intro later
    have given := again.program_fed lastNamed
    rw [← fromInput] at given
    have same := congrArg Term.render (Options.reached_reached alike named first second)
    exact (Invocation.limited_prints_iff (fedAsked _) unlimitedAgain secondBounded).mpr
      ⟨_, _, given, parse_render _ lastNamed, congrArg (· ++ "\n") same⟩
  · intro patience output prints later positive
    obtain ⟨program, term, last, given, read, printed, rfl⟩ := (Invocation.prints_iff asked).mp prints
    obtain ⟨lastNamed, kept⟩ :=
      Options.printed_again alike unlimited unlimitedAgain (parse_well_named read) printed positive
    have given := again.program_fed lastNamed
    rw [← fromInput] at given
    exact (Invocation.prints_iff (fedAsked _)).mpr ⟨_, _, last, given, parse_render last lastNamed, kept, rfl⟩

def projection : Invocation :=
  ⟨[], "(\\x.\\y.x) a b\n".toUTF8, fun _ => none, none⟩

theorem projection_runs_compose :
    Options.ofArguments projection.arguments = .ok .plain ∧
      (projection.limited 1).Prints 0 "(\\y.a) b\n" ∧ projection.Prints 3 "a\n" ∧
      (∃ answer, (projection.limited (1 + 1)).Prints 0 answer ∧
        ∀ later, ((projection.fed "(\\y.a) b\n").limited 1).Prints later answer) ∧
      ∀ later, 0 < later → (projection.fed "a\n").Prints later "a\n" := by
  have asked : Options.ofArguments projection.arguments = .ok .plain := by rfl
  have stopped : (projection.limited 1).run 0 = some ⟨0, "(\\y.a) b\n", [], [.stopped 1], none⟩ := by decide +kernel
  have ended : projection.run 3 = some ⟨0, "a\n", [], [], none⟩ := by decide +kernel
  obtain ⟨limited, unlimited⟩ := runs_compose asked asked rfl rfl rfl rfl
  have answered := limited 1 1 0 _ (by decide) ⟨_, stopped, rfl, rfl⟩
  have kept := unlimited 3 _ ⟨_, ended, rfl, rfl⟩
  exact ⟨asked, ⟨_, stopped, rfl, rfl⟩, ⟨_, ended, rfl, rfl⟩, answered, kept⟩

end LambdaCalculus.CommandLine

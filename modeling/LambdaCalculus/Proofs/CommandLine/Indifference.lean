import LambdaCalculus.Proofs.CommandLine.Response
import LambdaCalculus.Proofs.Reduction

set_option autoImplicit false

namespace LambdaCalculus

theorem Term.normalize_of_more {patience later : Nat} {limit : Option Nat} {term : Term} {reduction : Reduction}
    (ended : term.normalize patience limit = some reduction) (more : patience ≤ later) :
    term.normalize later limit = some reduction := by
  cases limit with
  | some limit => exact ended
  | none =>
      have halt := normalForm_of_normalize ended
      obtain rfl := reduce_of_normalize ended
      obtain ⟨extra, rfl⟩ := Nat.exists_eq_add_of_le more
      rw [Option.getD_none] at halt ⊢
      have kept : term.reduce (patience + extra) = term.reduce patience := by rw [reduce_add, halt]
      simp only [normalize, kept, if_pos halt]

namespace CommandLine

namespace Options

variable {options others : Options}

structure SameTask (options others : Options) : Prop where
  file : others.file = options.file
  parseOnly : others.parseOnly = options.parseOnly
  maxSteps : others.maxSteps = options.maxSteps

theorem SameTask.response (same : options.SameTask others) (patience : Nat) (text : String) :
    others.response patience text = options.response patience text := by
  unfold Options.response printed
  rw [same.parseOnly, same.maxSteps]

theorem printed_of_more {patience later : Nat} {term last : Term}
    (printed : options.printed patience term = some last) (more : patience ≤ later) :
    options.printed later term = some last := by
  rw [Options.printed] at printed ⊢
  by_cases parseOnly : options.parseOnly = true
  · rwa [if_pos parseOnly] at printed ⊢
  · rw [if_neg parseOnly] at printed ⊢
    obtain ⟨reduction, ended, rfl⟩ := Option.map_eq_some_iff.mp printed
    rw [Term.normalize_of_more ended more]
    rfl

theorem response_of_more {patience later : Nat} {text : String} {response : Nat × String}
    (responded : options.response patience text = some response) (more : patience ≤ later) :
    options.response later text = some response := by
  unfold Options.response at responded ⊢
  cases read : parse text with
  | error failure => rwa [read] at responded
  | ok term =>
      rw [read] at responded
      obtain ⟨last, printed, rfl⟩ := Option.map_eq_some_iff.mp responded
      dsimp only
      rw [printed_of_more printed more]
      rfl

end Options

namespace Invocation

section

variable [PatternLanguage]

def Ends (invocation : Invocation) (response : Nat × String) : Prop :=
  ∃ enough, ∀ patience, enough ≤ patience → (invocation.run patience).map Outcome.response = some response

def GoesOn (invocation : Invocation) : Prop :=
  ∀ patience, invocation.run patience = none

theorem run_of_more {invocation : Invocation} {patience later : Nat} {response : Nat × String}
    (responded : (invocation.run patience).map Outcome.response = some response) (more : patience ≤ later) :
    (invocation.run later).map Outcome.response = some response := by
  cases asked : Options.ofArguments invocation.arguments with
  | error error =>
      rw [run, asked] at responded ⊢
      exact responded
  | ok options =>
      rw [run_response asked] at responded ⊢
      cases given : invocation.program options.file with
      | error complaint => rwa [given] at responded
      | ok program =>
          rw [given] at responded
          exact Options.response_of_more responded more

theorem goes_on_or_ends (invocation : Invocation) : invocation.GoesOn ∨ ∃ response, invocation.Ends response := by
  by_cases goesOn : invocation.GoesOn
  · exact .inl goesOn
  · obtain ⟨enough, ended⟩ := not_forall.mp goesOn
    obtain ⟨outcome, ended⟩ := Option.ne_none_iff_exists'.mp ended
    refine .inr ⟨outcome.response, enough, fun patience more => run_of_more ?_ more⟩
    rw [ended]
    rfl

theorem end_alike {one other : Invocation}
    (alike : ∀ patience, (other.run patience).map Outcome.response = (one.run patience).map Outcome.response) :
    (one.GoesOn ∧ other.GoesOn) ∨ ∃ response, one.Ends response ∧ other.Ends response := by
  rcases one.goes_on_or_ends with goesOn | ⟨response, enough, ended⟩
  · refine .inl ⟨goesOn, fun patience => ?_⟩
    have silent := alike patience
    rw [goesOn patience] at silent
    exact Option.map_eq_none_iff.mp silent
  · refine .inr ⟨response, ⟨enough, ended⟩, enough, fun patience more => ?_⟩
    rw [alike patience]
    exact ended patience more

end

def firstLine (invocation : Invocation) : List UInt8 :=
  invocation.input.data.toList.takeWhile (· ≠ 10)

theorem program_of_same {one other : Invocation} {file : Option String} (files : other.files = one.files)
    (input : file = none → other.firstLine = one.firstLine) : other.program file = one.program file := by
  cases file with
  | some name => simp only [program, files]
  | none =>
      have line := input rfl
      unfold firstLine at line
      simp only [program, readLine, line]

end Invocation

section

variable [PatternLanguage] {one other : Invocation} {options others : Options}

theorem run_response_of_same (asked : Options.ofArguments one.arguments = .ok options)
    (askedOther : Options.ofArguments other.arguments = .ok others) (same : options.SameTask others)
    (files : other.files = one.files) (input : options.file = none → other.firstLine = one.firstLine)
    (patience : Nat) :
    (other.run patience).map Outcome.response = (one.run patience).map Outcome.response := by
  rw [Invocation.run_response asked, Invocation.run_response askedOther, same.file,
    Invocation.program_of_same files input]
  cases one.program options.file with
  | error complaint => rfl
  | ok program => exact same.response patience program.text

theorem answers_ignore_diagnostics (asked : Options.ofArguments one.arguments = .ok options)
    (askedOther : Options.ofArguments other.arguments = .ok others) (same : options.SameTask others)
    (files : other.files = one.files) (input : options.file = none → other.firstLine = one.firstLine) :
    (one.GoesOn ∧ other.GoesOn) ∨ ∃ response, one.Ends response ∧ other.Ends response :=
  Invocation.end_alike (run_response_of_same asked askedOther same files input)

end

def chatty : Invocation :=
  ⟨["-t", "-vvv"], "(\\x.x) y\nz".toUTF8, fun _ => none, some "lambda=trace"⟩

def terse : Invocation :=
  ⟨["-q"], "(\\x.x) y\n)".toUTF8, fun _ => none, none⟩

theorem chatty_and_terse_answer_alike :
    Options.ofArguments chatty.arguments = .ok { Options.plain with trace := true, verbose := 3 } ∧
      Options.ofArguments terse.arguments = .ok { Options.plain with quiet := 1 } ∧
      terse.firstLine = chatty.firstLine ∧ terse.run 2 = some ⟨0, "y\n", [], [], none⟩ ∧
      ∃ response, chatty.Ends response ∧ terse.Ends response := by
  have asked : Options.ofArguments chatty.arguments = .ok { Options.plain with trace := true, verbose := 3 } := by rfl
  have askedOther : Options.ofArguments terse.arguments = .ok { Options.plain with quiet := 1 } := by rfl
  have line : terse.firstLine = chatty.firstLine := by decide +kernel
  have ended : terse.run 2 = some ⟨0, "y\n", [], [], none⟩ := by decide +kernel
  have answers := answers_ignore_diagnostics asked askedOther ⟨rfl, rfl, rfl⟩ rfl fun _ => line
  have stops : ¬(chatty.GoesOn ∧ terse.GoesOn) := by
    intro goesOn
    rw [goesOn.2 2] at ended
    cases ended
  exact ⟨asked, askedOther, line, ended, answers.resolve_left stops⟩

end CommandLine

end LambdaCalculus

import LambdaCalculus.Proofs.CommandLine.Indifference
import LambdaCalculus.Proofs.CommandLine.Line
import Mathlib.Data.List.TakeWhile

set_option autoImplicit false

namespace LambdaCalculus

def withoutReturns (line : String) : String :=
  String.ofList (line.toList.reverse.dropWhile (· = '\r')).reverse

theorem withoutReturns_of_plain {line : String} (plain : line.toList.getLast? ≠ some '\r') :
    withoutReturns line = line := by
  have kept : line.toList.reverse.dropWhile (· = '\r') = line.toList.reverse := by
    cases reversed : line.toList.reverse with
    | nil => rfl
    | cons c rest =>
        rw [List.getLast?_eq_head?_reverse, reversed] at plain
        exact List.dropWhile_cons_of_neg (by simpa using plain)
  rw [withoutReturns, kept, List.reverse_reverse, String.ofList_toList]

theorem withoutReturns_return (line : String) : withoutReturns (line ++ "\r") = withoutReturns line := by
  have reversed : (line ++ "\r").toList.reverse = '\r' :: line.toList.reverse := by
    rw [String.toList_append, List.reverse_append]
    rfl
  rw [withoutReturns, withoutReturns, reversed, List.dropWhile_cons_of_pos (by decide)]

theorem parse_append_blanks [Alphabet] {blanks : String} (blank : blanks.toList.all isBlank = true) (text : String)
    (term : Term) : parse (text ++ blanks) = .ok term ↔ parse text = .ok term := by
  rw [parse_ok_iff, parse_ok_iff, String.toList_append, tokens_append_blanks blank]

theorem unreadable_of_return {text : String} (member : '\r' ∈ text.toList) (term : Term) : parse text ≠ .ok term := by
  intro read
  obtain ⟨phrase, words, -⟩ := (parse_ok_iff text term).mp read
  rcases mem_of_tokens words member with blank | letter | ⟨mark, same⟩
  · exact absurd blank (by decide)
  · exact absurd letter (by decide +kernel)
  · cases mark <;> exact absurd same (by decide)

theorem failure_of_unreadable [Alphabet] {text : String} (unreadable : ∀ term, parse text ≠ .ok term) :
    ∃ failure, parse text = .error failure := by
  cases read : parse text with
  | ok term => exact absurd read (unreadable term)
  | error failure => exact ⟨failure, rfl⟩

namespace CommandLine

theorem readLine_of_line {line feed : String} (single : '\n' ∉ line.toList) (ended : feed = "" ∨ feed = "\n") :
    readLine (line ++ feed).toUTF8 = some (withoutReturns line) := by
  rcases ended with rfl | rfl
  · have whole : line.toUTF8.data.toList.takeWhile (· ≠ 10) = line.toUTF8.data.toList :=
      List.takeWhile_eq_self_iff.mpr (bytes_without_line_feed single)
    rw [String.append_empty, readLine, whole, Array.toArray_toList]
    exact congrArg (Option.map _) (fromUTF8_of_text line)
  · have read := readLine_of_text single ""
    rwa [String.append_empty] at read

namespace Options

def reading (file : Option String) (options : Options) : Options :=
  { options with file := file }

variable {options : Options} {patience : Nat} {text : String}

theorem response_reading (file : Option String) :
    (options.reading file).response patience text = options.response patience text := by
  unfold Options.response printed reading
  rfl

theorem response_of_ok {term : Term} (read : parse text = .ok term) :
    options.response patience text = (options.printed patience term).map fun last => (0, last.render ++ "\n") := by
  unfold Options.response
  rw [read]

theorem response_of_error {failure : Failure} (read : parse text = .error failure) :
    options.response patience text = some (1, failure.message ++ "\n") := by
  unfold Options.response
  rw [read]

end Options

namespace Invocation

variable [PatternLanguage]

def Agrees (one other : Invocation) : Prop :=
  (one.GoesOn ∧ other.GoesOn) ∨
    ∃ response answer, one.Ends response ∧ other.Ends answer ∧ answer.1 = response.1 ∧
      (response.1 = 0 → answer.2 = response.2)

variable {one other : Invocation} {options : Options}

theorem ends_of_response {invocation : Invocation} {patience : Nat} {response : Nat × String}
    (responded : (invocation.run patience).map Outcome.response = some response) : invocation.Ends response :=
  ⟨patience, fun _ more => run_of_more responded more⟩

theorem ends_unique {invocation : Invocation} {response answer : Nat × String} (ends : invocation.Ends response)
    (endsToo : invocation.Ends answer) : response = answer := by
  obtain ⟨enough, responded⟩ := ends
  obtain ⟨enoughToo, answered⟩ := endsToo
  have same := (responded _ (Nat.le_max_left enough enoughToo)).symm.trans (answered _ (Nat.le_max_right _ _))
  exact Option.some.inj same

theorem not_goesOn_of_ends {invocation : Invocation} {response : Nat × String} (ends : invocation.Ends response) :
    ¬ invocation.GoesOn := by
  intro goesOn
  obtain ⟨enough, responded⟩ := ends
  have ended := responded enough (Nat.le_refl _)
  rw [goesOn enough] at ended
  cases ended

theorem response_from_file {invocation : Invocation} {name text : String}
    (asked : Options.ofArguments invocation.arguments = .ok (options.reading (some name)))
    (stored : invocation.files name = some text.toUTF8) (patience : Nat) :
    (invocation.run patience).map Outcome.response = options.response patience text := by
  have given : invocation.program (some name) = .ok ⟨name, text⟩ := by
    rw [program, stored, Option.bind_some, fromUTF8_of_text]
  rw [run_response asked]
  simp only [Options.reading, given]
  exact Options.response_reading _

theorem response_from_input {invocation : Invocation} {line feed : String}
    (asked : Options.ofArguments invocation.arguments = .ok (options.reading none)) (single : '\n' ∉ line.toList)
    (ended : feed = "" ∨ feed = "\n") (input : invocation.input = (line ++ feed).toUTF8) (patience : Nat) :
    (invocation.run patience).map Outcome.response = options.response patience (withoutReturns line) := by
  have given : invocation.program none = .ok ⟨"<stdin>", withoutReturns line⟩ := by
    rw [program, input, readLine_of_line single ended]
  rw [run_response asked]
  simp only [Options.reading, given]
  exact Options.response_reading _

section

variable {text variant : String}
  (fromText : ∀ patience, (one.run patience).map Outcome.response = options.response patience text)
  (fromVariant : ∀ patience, (other.run patience).map Outcome.response = options.response patience variant)

include fromText fromVariant

theorem agrees_of_same_reading (same : ∀ term, parse variant = .ok term ↔ parse text = .ok term) :
    one.Agrees other := by
  cases read : parse text with
  | ok term =>
      have alike (patience : Nat) :
          (other.run patience).map Outcome.response = (one.run patience).map Outcome.response := by
        rw [fromText, fromVariant, Options.response_of_ok read, Options.response_of_ok ((same term).mpr read)]
      rcases end_alike alike with goOn | ⟨response, ends, endsToo⟩
      · exact .inl goOn
      · exact .inr ⟨response, response, ends, endsToo, rfl, fun _ => rfl⟩
  | error failure =>
      have unread (term : Term) : parse variant ≠ .ok term := by
        intro readToo
        rw [(same term).mp readToo] at read
        cases read
      obtain ⟨failureToo, readToo⟩ := failure_of_unreadable unread
      have response := (fromText 0).trans (Options.response_of_error read)
      have answer := (fromVariant 0).trans (Options.response_of_error readToo)
      exact .inr ⟨_, _, ends_of_response response, ends_of_response answer, rfl,
        fun success => absurd success Nat.one_ne_zero⟩

theorem unreadable_of_agrees (agrees : one.Agrees other) (unreadable : ∀ term, parse text ≠ .ok term) (term : Term) :
    parse variant ≠ .ok term := by
  intro read
  obtain ⟨failure, unread⟩ := failure_of_unreadable unreadable
  have ends : one.Ends (1, failure.message ++ "\n") :=
    ends_of_response ((fromText 0).trans (Options.response_of_error unread))
  rcases agrees with ⟨goesOn, -⟩ | ⟨response, answer, endsToo, ⟨enough, answered⟩, code, -⟩
  · exact not_goesOn_of_ends ends goesOn
  · have responded := answered enough (Nat.le_refl _)
    rw [fromVariant, Options.response_of_ok read] at responded
    obtain ⟨last, -, rfl⟩ := Option.map_eq_some_iff.mp responded
    obtain rfl := ends_unique ends endsToo
    cases code

end

section

variable {viaFile viaInput : Invocation} {request : Except UsageError Options} {name line : String}
  (askedInput : Options.ofArguments viaInput.arguments = request.map (Options.reading none))
  (askedFile : Options.ofArguments viaFile.arguments = request.map (Options.reading (some name)))

include askedInput askedFile

theorem agrees_of_misuse {error : UsageError} (misuse : request = .error error) : viaFile.Agrees viaInput := by
  subst misuse
  have refused {invocation : Invocation} (asked : Options.ofArguments invocation.arguments = .error error) :
      invocation.Ends (2, "") := ⟨0, fun patience _ => by rw [run, asked]; rfl⟩
  exact .inr ⟨_, _, refused askedFile, refused askedInput, rfl, fun _ => rfl⟩

theorem agrees_iff {feed : String} (single : '\n' ∉ line.toList) (ended : feed = "" ∨ feed = "\n")
    (input : viaInput.input = (line ++ feed).toUTF8) (stored : viaFile.files name = some (line ++ feed).toUTF8) :
    viaFile.Agrees viaInput ↔ ∀ options, request = .ok options → line.toList.getLast? = some '\r' →
      ∃ failure, parse (withoutReturns line) = .error failure := by
  have blank : feed.toList.all isBlank = true := by rcases ended with rfl | rfl <;> decide
  cases request with
  | error error =>
      refine ⟨fun _ options same => ?_, fun _ => agrees_of_misuse askedInput askedFile rfl⟩
      cases same
  | ok options =>
      have fromFile := response_from_file askedFile stored
      have fromInput := response_from_input askedInput single ended input
      by_cases returned : line.toList.getLast? = some '\r'
      · have member : '\r' ∈ (line ++ feed).toList := by
          rw [String.toList_append]
          exact List.mem_append_left _ (List.mem_of_getLast? returned)
        have unreadable := unreadable_of_return member
        constructor
        · intro agrees _ _ _
          exact failure_of_unreadable (unreadable_of_agrees fromFile fromInput agrees unreadable)
        · intro fails
          obtain ⟨failure, unread⟩ := fails options rfl returned
          refine agrees_of_same_reading fromFile fromInput fun term => ⟨fun read => ?_, fun read => ?_⟩
          · rw [unread] at read
            cases read
          · exact absurd read (unreadable term)
      · rw [withoutReturns_of_plain returned] at fromInput
        refine ⟨fun _ _ _ present => absurd present returned, fun _ => ?_⟩
        exact agrees_of_same_reading fromFile fromInput fun term => (parse_append_blanks blank line term).symm

end

end Invocation

open Invocation in
-- A program of one line may be given in a file or on a line of input, with one exception: a
-- carriage return in front of its end belongs to the end of an input line, but makes the text of
-- a file unreadable. Both ways agree then only on what could not be read without it.
theorem file_and_input_agree_iff [PatternLanguage] {viaFile viaInput : Invocation}
    {request : Except UsageError Options} {name line ending : String}
    (askedInput : Options.ofArguments viaInput.arguments = request.map (Options.reading none))
    (askedFile : Options.ofArguments viaFile.arguments = request.map (Options.reading (some name)))
    (single : '\n' ∉ line.toList) (ended : ending ∈ ["", "\n", "\r\n"])
    (input : viaInput.input = (line ++ ending).toUTF8) (stored : viaFile.files name = some (line ++ ending).toUTF8) :
    viaFile.Agrees viaInput ↔ ∀ options, request = .ok options →
      (ending = "\r\n" ∨ line.toList.getLast? = some '\r') →
        ∃ failure, parse (withoutReturns line) = .error failure := by
  have split : "\r\n" = "\r" ++ "\n" := by decide
  simp only [List.mem_cons, List.not_mem_nil, or_false] at ended
  rcases ended with rfl | rfl | rfl
  · simpa using agrees_iff askedInput askedFile single (.inl rfl) input stored
  · simpa using agrees_iff askedInput askedFile single (.inr rfl) input stored
  · rw [split, ← String.append_assoc] at input stored
    have singleToo : '\n' ∉ (line ++ "\r").toList := by
      rw [String.toList_append, List.mem_append, not_or]
      exact ⟨single, by decide⟩
    rw [agrees_iff askedInput askedFile singleToo (.inr rfl) input stored, withoutReturns_return]
    simp

def stored (text : String) : Invocation :=
  ⟨["-n", "3", "program"], ByteArray.empty, fun _ => some text.toUTF8, none⟩

def typed (text : String) : Invocation :=
  ⟨["-n", "3"], text.toUTF8, fun _ => none, none⟩

def brief : Options :=
  { Options.plain with maxSteps := some 3 }

theorem stored_and_typed_agree :
    Options.ofArguments (typed "(\\x.x) y \n").arguments = (Except.ok brief).map (Options.reading none) ∧
      Options.ofArguments (stored "(\\x.x) y \n").arguments =
        (Except.ok brief).map (Options.reading (some "program")) ∧
      '\n' ∉ "(\\x.x) y ".toList ∧ "\n" ∈ ["", "\n", "\r\n"] ∧
      (stored "(\\x.x) y \n").Agrees (typed "(\\x.x) y \n") := by
  have askedInput : Options.ofArguments (typed "(\\x.x) y \n").arguments =
    (Except.ok brief).map (Options.reading none) := by rfl
  have askedFile : Options.ofArguments (stored "(\\x.x) y \n").arguments =
    (Except.ok brief).map (Options.reading (some "program")) := by rfl
  have single : '\n' ∉ "(\\x.x) y ".toList := by decide
  have ended : "\n" ∈ ["", "\n", "\r\n"] := by decide
  have plain : ¬ ("\n" = "\r\n" ∨ "(\\x.x) y ".toList.getLast? = some '\r') := by decide
  have agree := file_and_input_agree_iff askedInput askedFile single ended rfl rfl
  exact ⟨askedInput, askedFile, single, ended, agree.mpr fun _ _ returned => absurd returned plain⟩

theorem carriage_return_stops_file :
    (stored "x\r\n").Ends (1, "lambda:1: extra characters are detected at position 1\n") ∧
      (typed "x\r\n").Ends (0, "x\n") ∧ ¬ (stored "x\r\n").Agrees (typed "x\r\n") := by
  have refused : ((stored "x\r\n").run 0).map Outcome.response =
    some (1, "lambda:1: extra characters are detected at position 1\n") := by decide +kernel
  have printed : ((typed "x\r\n").run 0).map Outcome.response = some (0, "x\n") := by decide +kernel
  have fileEnds := Invocation.ends_of_response refused
  have inputEnds := Invocation.ends_of_response printed
  refine ⟨fileEnds, inputEnds, ?_⟩
  rintro (⟨goesOn, -⟩ | ⟨response, answer, ends, endsToo, code, -⟩)
  · exact Invocation.not_goesOn_of_ends fileEnds goesOn
  · obtain rfl := Invocation.ends_unique fileEnds ends
    obtain rfl := Invocation.ends_unique inputEnds endsToo
    cases code

end CommandLine

end LambdaCalculus

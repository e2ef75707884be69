import LambdaCalculus.CommandLine.Invocation
import LambdaCalculus.Proofs.Settling
import LambdaCalculus.Proofs.Trace

set_option autoImplicit false

namespace LambdaCalculus.CommandLine

structure Entry where
  level : Level
  target : String
  text : String
deriving DecidableEq

def Record.entry (record : Record) : Entry :=
  ⟨record.level, record.target, record.text⟩

def readEntry (program : Program) : Entry :=
  ⟨.debug, "lambda", "read " ++ toString program.text.utf8ByteSize ++ " bytes from " ++ program.name⟩

def ruleEntry : Event → Entry
  | .matched rule next reading =>
      ⟨.trace, "lambda::parse", toString next ++ ": " ++ rule.name ++ " parsed: " ++ reading.render⟩
  | .failed rule position failure =>
      ⟨.trace, "lambda::parse", toString position ++ ": " ++ rule.name ++
        " failed (innermost at " ++ toString failure.position ++ ")"⟩

def passEntry (term : Term) (step : Nat) : Entry :=
  ⟨.trace, "lambda::reduce", "step " ++ toString step ++ ": " ++ (Term.pass^[step] term).render⟩

def endEntries (steps : Nat) : Halt → List Entry
  | .normalForm => [⟨.debug, "lambda_eval::reducer", "normal form reached after " ++ toString steps ++ " steps"⟩]
  | .stepLimit =>
      [⟨.debug, "lambda_eval::reducer", "step limit reached after " ++ toString steps ++ " steps"⟩,
        ⟨.warn, "lambda", "stopped after " ++ toString steps ++ " steps without reaching a normal form"⟩]

def parseEntries (program : Program) : List Entry :=
  readEntry program :: (parseTraced program.text).2.map ruleEntry

def reductionEntries (term : Term) (reduction : Reduction) : List Entry :=
  (List.range' 1 reduction.steps).map (passEntry term) ++ endEntries reduction.steps reduction.halt

def Record.Untraced (record : Record) : Prop :=
  record.target ≠ "lambda::parse" ∧ record.target ≠ "lambda::reduce"

theorem Record.entry_rule (event : Event) : (Record.rule event).entry = ruleEntry event := by
  cases event <;> rfl

def everything : Directive :=
  ⟨some "lambda", ⟨some .trace⟩⟩

theorem everything_covers (record : Record) : everything.covers record.target = true := by
  have targets : ∀ target ∈ ["lambda", "lambda::parse", "lambda::reduce", "lambda_eval::reducer"],
      everything.covers target = true := by decide
  apply targets
  cases record <;> simp [Record.target]

theorem everything_allows (level : Level) : everything.threshold.allows level = true := by
  cases level <;> rfl

theorem directive_by_name {name target : String} {least threshold : Threshold}
    (covers : (Directive.mk (some name) threshold).covers target = true) :
    (Filter.mk [⟨none, least⟩, ⟨some name, threshold⟩] none).directive? target = some ⟨some name, threshold⟩ := by
  have both : [Directive.mk none least, ⟨some name, threshold⟩].filter (fun directive => directive.covers target) =
      [⟨none, least⟩, ⟨some name, threshold⟩] := by
    rw [List.filter_eq_self, List.forall_mem_cons, List.forall_mem_singleton]
    exact ⟨rfl, covers⟩
  rw [Filter.directive?, both]
  rfl

namespace Options

variable {options : Options}

theorem filter_of_trace (traced : options.trace = true) :
    options.filter = ⟨[⟨none, .ofRank (2 + options.verbose - options.quiet)⟩, everything], none⟩ := by
  rw [filter, if_pos traced]
  rfl

theorem filter_lets_all [PatternLanguage] (traced : options.trace = true) (record : Record) :
    options.filter.lets record = true := by
  -- What the other options ask for is not looked at: every name begins with the program's own.
  have asked : options.filter.directive? record.target = some everything := by
    rw [filter_of_trace traced]
    exact directive_by_name (everything_covers record)
  rw [Filter.lets, Filter.enables, asked, Option.any_some, everything_allows, filter_of_trace traced]
  rfl

def openingRecords (options : Options) (program : Program) : List Record :=
  .read program.text.utf8ByteSize program.name ::
    (parseReporting (if options.trace then .traced else .silent) program.text).2.map .rule

theorem answer_log [PatternLanguage] (options : Options) (patience : Nat) (filter : Filter) (ignored : List String)
    (program : Program) :
    (options.answer patience filter ignored program).map Outcome.log =
      match parse program.text with
      | .error _ => some ((options.openingRecords program).filter filter.lets)
      | .ok term =>
          if options.parseOnly then some ((options.openingRecords program).filter filter.lets)
          else (term.normalize patience options.maxSteps).map fun reduction =>
            (options.openingRecords program ++ options.reductionRecords reduction).filter filter.lets := by
  unfold answer openingRecords
  extract_lets report
  rewrite [← parseReporting_result report]
  generalize parseReporting report program.text = reading
  obtain ⟨result, events⟩ := reading
  cases result with
  | error failure => rfl
  | ok term =>
      dsimp only
      cases options.parseOnly with
      | true => rfl
      | false => cases term.normalize patience options.maxSteps <;> rfl

section

variable (traced : options.trace = true)

include traced

theorem openingRecords_entries (program : Program) :
    (options.openingRecords program).map Record.entry = parseEntries program := by
  rw [openingRecords, if_pos traced, List.map_cons, List.map_map]
  exact congrArg _ (List.map_congr_left fun event _ => Record.entry_rule event)

theorem reductionRecords_entries {term : Term} {patience : Nat} {limit : Option Nat} {reduction : Reduction}
    (ended : term.normalize patience limit = some reduction) :
    (options.reductionRecords reduction).map Record.entry = reductionEntries term reduction := by
  have first : reduction = term.stoppedAfter reduction.steps reduction.halt := by
    rw [Term.reduce_of_normalize ended]
    exact Term.reduce_eq_stoppedAfter _ _
  have numbered := Term.numbered_stoppedAfter term reduction.steps reduction.halt
  rw [← first] at numbered
  have passes : (reduction.passes.mapIdx fun index term => Record.pass (index + 1) term).map Record.entry =
      (List.range' 1 reduction.steps).map (passEntry term) := by
    have told : (reduction.passes.mapIdx fun index term => Record.pass (index + 1) term) =
        reduction.numbered.map fun (step, term) => Record.pass step term := by
      rw [Reduction.numbered, List.mapIdx_eq_zipIdx_map, List.mapIdx_eq_zipIdx_map, List.map_map]
      rfl
    rw [told, numbered, List.map_map, List.map_map]
    rfl
  rw [reductionRecords, if_pos traced, List.map_append, passes, reductionEntries]
  cases reduction.halt <;> rfl

theorem answer_entries [PatternLanguage] (patience : Nat) (ignored : List String) (program : Program) :
    (options.answer patience options.filter ignored program).map (fun outcome => outcome.log.map Record.entry) =
      match parse program.text with
      | .error _ => some (parseEntries program)
      | .ok term =>
          if options.parseOnly then some (parseEntries program)
          else (term.normalize patience options.maxSteps).map fun reduction =>
            parseEntries program ++ reductionEntries term reduction := by
  have kept (records : List Record) : records.filter options.filter.lets = records :=
    List.filter_eq_self.mpr fun record _ => filter_lets_all traced record
  have opening := openingRecords_entries traced program
  rw [← Function.comp_def (List.map Record.entry) Outcome.log, ← Option.map_map, answer_log]
  simp only [kept]
  cases parse program.text with
  | error failure => exact congrArg some opening
  | ok term =>
      dsimp only
      cases options.parseOnly with
      | true => exact congrArg some opening
      | false =>
          cases ended : term.normalize patience options.maxSteps with
          | none => rfl
          | some reduction =>
              have reduced := reductionRecords_entries traced ended
              simp only [Bool.false_eq_true, if_false, Option.map_some, List.map_append, opening, reduced]

end

section

variable (untraced : options.trace = false)

include untraced

theorem openingRecords_untraced (program : Program) :
    ∀ record ∈ options.openingRecords program, record.Untraced := by
  rw [openingRecords, untraced, if_neg Bool.false_ne_true, parseReporting_silent]
  simp [Record.Untraced, Record.target]

theorem reductionRecords_untraced (reduction : Reduction) :
    ∀ record ∈ options.reductionRecords reduction, record.Untraced := by
  rw [reductionRecords, untraced, if_neg Bool.false_ne_true, List.nil_append]
  cases reduction.halt with
  | normalForm => simp [Record.Untraced, Record.target]
  | stepLimit => simp [Record.Untraced, Record.target]

theorem answer_untraced [PatternLanguage] {patience : Nat} {filter : Filter} {ignored : List String}
    {program : Program} {outcome : Outcome} (answered : options.answer patience filter ignored program = some outcome) :
    ∀ record ∈ outcome.log, record.Untraced := by
  have opening := openingRecords_untraced untraced program
  have log := options.answer_log patience filter ignored program
  rw [answered, Option.map_some] at log
  cases read : parse program.text with
  | error failure =>
      rw [read] at log
      rw [Option.some.inj log]
      exact fun record member => opening record (List.mem_filter.mp member).1
  | ok term =>
      rw [read] at log
      cases parseOnly : options.parseOnly with
      | true =>
          rw [parseOnly] at log
          rw [Option.some.inj log]
          exact fun record member => opening record (List.mem_filter.mp member).1
      | false =>
          rw [parseOnly] at log
          obtain ⟨reduction, -, records⟩ := Option.map_eq_some_iff.mp log.symm
          intro record member
          rw [← records, List.mem_filter, List.mem_append] at member
          rcases member.1 with opened | reduced
          · exact opening record opened
          · exact reductionRecords_untraced untraced reduction record reduced

end

end Options

-- A traced run tells how much it has read, then all that a traced parse tells, and then each
-- pass and what they have come to, whatever else has been asked to be told. It takes tracing
-- to be told of rules and passes, and no filter makes up for that.
theorem log_follows_the_trace [PatternLanguage] {invocation : Invocation} {options : Options}
    (asked : Options.ofArguments invocation.arguments = .ok options) (patience : Nat) :
    (options.trace = true → invocation.directives = none → ∀ program,
      invocation.program options.file = .ok program →
        (invocation.run patience).map (fun outcome => outcome.log.map Record.entry) =
          match parse program.text with
          | .error _ => some (parseEntries program)
          | .ok term =>
              if options.parseOnly then some (parseEntries program)
              else (term.normalize patience options.maxSteps).map fun reduction =>
                parseEntries program ++ reductionEntries term reduction) ∧
    (options.trace = false → ∀ outcome, invocation.run patience = some outcome →
      ∀ record ∈ outcome.log, record.target ≠ "lambda::parse" ∧ record.target ≠ "lambda::reduce") := by
  constructor
  · intro traced unset program read
    simp only [Invocation.run, asked, unset, Option.elim_none, read]
    exact Options.answer_entries traced patience [] program
  · intro untraced outcome ran
    simp only [Invocation.run, asked] at ran
    cases read : invocation.program options.file with
    | error complaint =>
        rw [read] at ran
        cases ran
        exact fun _ member => absurd member List.not_mem_nil
    | ok program =>
        rw [read] at ran
        exact Options.answer_untraced untraced ran

def hurried : Invocation :=
  ⟨["-tqn1"], "(\\x.x) y".toUTF8, fun _ => none, none⟩

theorem hurried_logs_all_in_order :
    Options.ofArguments hurried.arguments =
        .ok { Options.plain with trace := true, quiet := 1, maxSteps := some 1 } ∧
      hurried.program none = .ok ⟨"<stdin>", "(\\x.x) y"⟩ ∧
      (hurried.run 0).map (fun outcome => outcome.log.map Record.entry) =
        some (parseEntries ⟨"<stdin>", "(\\x.x) y"⟩ ++ [⟨.trace, "lambda::reduce", "step 1: y"⟩,
          ⟨.debug, "lambda_eval::reducer", "step limit reached after 1 steps"⟩,
          ⟨.warn, "lambda", "stopped after 1 steps without reaching a normal form"⟩]) := by
  have asked : Options.ofArguments hurried.arguments =
      .ok { Options.plain with trace := true, quiet := 1, maxSteps := some 1 } := by rfl
  have read : hurried.program none = .ok ⟨"<stdin>", "(\\x.x) y"⟩ := by
    have line : readLine hurried.input = some "(\\x.x) y" := by decide +kernel
    simp only [Invocation.program, line]
  have told := (log_follows_the_trace asked 0).1 rfl rfl _ read
  exact ⟨asked, read, told⟩

end LambdaCalculus.CommandLine

import LambdaCalculus.Proofs.Grammar.Confinement
import LambdaCalculus.Proofs.Grammar.Unfolding
import LambdaCalculus.Proofs.Parser.Events
import LambdaCalculus.Proofs.Refusal
import LambdaCalculus.Proofs.Report

set_option autoImplicit false

namespace LambdaCalculus

open LambdaCalculus.Parser

variable {ε α : Type}

def Event.rule : Event → Rule
  | .matched rule _ _ => rule
  | .failed rule _ _ => rule

section

variable [Alphabet]

def Rule.reply (rule : Rule) (source : Source) (position : Nat) : Reply Reading :=
  ((rule.parser (Report.silent : Report Empty)).attempt source position).reply

def Event.Holds (source : Source) : Event → Prop
  | .matched rule next reading =>
      ∃ position, position < next ∧ rule.reply source position = .matched reading next
  | .failed rule position failure => rule.reply source position = .failed failure

def Event.Inner (source : Source) (event : Event) : Prop :=
  event.rule ≠ .topExpression ∧ event.Holds source

end

namespace Grammar

variable {source : Source}

def reported (report : Report ε) (rule : Rule) (position : Nat) (reading : α → Reading) : Reply α → List ε
  | .matched value next => report (.matched rule next (reading value))
  | .failed failure => report (.failed rule position failure)
  | .unfinished => []

theorem named_events (report : Report ε) (rule : Rule) (expected : Option Cause) (reading : α → Reading)
    (parser : Parser ε α) (source : Source) (position : Nat) :
    ((named report rule expected reading parser).attempt source position).events =
      (parser.attempt source position).events ++ reported report rule position reading
        ((named report rule expected reading parser).attempt source position).reply := by
  have inner : ((expected.elim parser fun cause => parser.context cause).attempt source position).events =
      (parser.attempt source position).events := by
    cases expected with
    | none => rfl
    | some cause => exact context_events cause parser source position
  rw [named_reply, ← inner]
  cases ending : ((expected.elim parser fun cause => parser.context cause).attempt source position).reply <;>
    simp only [named, ending, reported, List.append_nil]

theorem quiet_named {rule : Rule} {expected : Option Cause} {reading : α → Reading} {parser : Parser ε α}
    (quiet : ∀ source, Tells parser source fun _ => False) (source : Source) :
    Tells (named Report.silent rule expected reading parser) source fun _ => False := by
  intro position event member
  rw [named_events] at member
  rcases List.mem_append.mp member with member | member
  · exact quiet source position event member
  · cases ending : ((named Report.silent rule expected reading parser).attempt source position).reply <;>
      simp [ending, reported, Report.silent] at member

theorem quietness : Congruence (Report.silent : Report ε) (Report.silent : Report ε)
    fun parser _ => ∀ source, Tells parser source fun _ => False where
  pure _ _ := tells_pure _
  satisfy _ _ _ := tells_satisfy _ _
  literal _ _ _ := tells_literal _ _
  bind quiet quietThen source := tells_bind (quiet source) fun value => quietThen value source
  context cause quiet source := tells_context cause (quiet source)
  orElse quiet others source := tells_orElse (quiet source) (others source)
  many quiet source := tells_many (quiet source)
  named _ _ _ := quiet_named

theorem quiet_expression [Alphabet] (source : Source) :
    Tells (expression (Report.silent : Report ε)) source fun _ => False :=
  fun position => quietness.expressionWithin 0 (fun _ => tells_unfinished) (source.size + 1) source position

theorem tells_named {claim : Event → Prop} {rule : Rule} {expected : Option Cause} {reading : α → Reading}
    {parser : Parser Event α} (inner : Tells parser source claim)
    (matched : ∀ position value next,
      ((named .traced rule expected reading parser).attempt source position).reply = .matched value next →
        claim (.matched rule next (reading value)))
    (failed : ∀ position failure,
      ((named .traced rule expected reading parser).attempt source position).reply = .failed failure →
        claim (.failed rule position failure)) :
    Tells (named .traced rule expected reading parser) source claim := by
  intro position event member
  rw [named_events] at member
  rcases List.mem_append.mp member with member | member
  · exact inner position event member
  · cases ending : ((named .traced rule expected reading parser).attempt source position).reply with
    | matched value next =>
        rw [ending] at member
        obtain rfl := List.mem_singleton.mp member
        exact matched position value next ending
    | failed failure =>
        rw [ending] at member
        obtain rfl := List.mem_singleton.mp member
        exact failed position failure ending
    | unfinished =>
        rw [ending] at member
        cases member

theorem tells_blanks {claim : ε → Prop} : Tells (blanks : Parser ε Unit) source claim :=
  tells_bind (tells_many (tells_satisfy _ _)) fun _ => tells_pure _

theorem extended_over_expression [Alphabet] {report : Report ε} {cut : Parser ε Term}
    (extended : ExtendedBy cut (expression report) source) :
    ExtendedBy (expressionOver report cut) (expression report) source := by
  intro position finishes
  rw [expression_unfold]
  exact (extension report source).expressionOver extended position finishes

theorem extended_by_expression [Alphabet] {report : Report ε} (depth : Nat) :
    ExtendedBy (expressionWithin report depth) (expression report) source := by
  induction depth with
  | zero => exact extended_unfinished _
  | succ depth ih => exact extended_over_expression ih

section

variable [Alphabet]

theorem tells_rule {rule : Rule} {expected : Option Cause} {reading : α → Reading} {parser full : Parser Event α}
    (inside : rule ≠ .topExpression) (own : rule.parser .traced = reading <$> full)
    (extended : ExtendedBy (named .traced rule expected reading parser) full source)
    (advances : Advances (named .traced rule expected reading parser))
    (inner : Tells parser source (Event.Inner source)) :
    Tells (named .traced rule expected reading parser) source (Event.Inner source) := by
  -- Within a parse a rule has less depth to come than by itself, but it was not cut off there.
  have alone (position : Nat) (finishes : FinishesAt (named .traced rule expected reading parser) source position) :
      rule.reply source position =
        ((named .traced rule expected reading parser).attempt source position).reply.map reading := by
    rw [Rule.reply, Rule.alike Report.silent .traced rule source position, own, map_reply,
      extended position finishes]
  refine tells_named inner ?_ ?_
  · intro position value next matched
    have bounds := advances source position value next matched
    have same := alone position (by rw [FinishesAt, matched]; simp)
    rw [matched] at same
    exact ⟨inside, position, bounds.1, same⟩
  · intro position failure failed
    have same := alone position (by rw [FinishesAt, failed]; simp)
    rw [failed] at same
    exact ⟨inside, same⟩

theorem tells_punctuation (mark : Mark) : Tells (punctuation .traced mark) source (Event.Inner source) :=
  tells_rule (by simp) rfl (extended_refl _) (advances_punctuation mark) <|
    tells_bind tells_blanks fun _ => tells_literal _ _

theorem tells_identifier : Tells (identifier .traced) source (Event.Inner source) :=
  tells_rule (by simp) rfl (extended_refl _) advances_identifier <|
    tells_bind tells_blanks fun _ => tells_bind (tells_satisfy _ _) fun _ =>
      tells_bind (tells_many (tells_satisfy _ _)) fun _ => tells_pure _

theorem tells_var : Tells (var .traced) source (Event.Inner source) :=
  tells_rule (by simp) rfl (extended_refl _) advances_var <|
    tells_bind tells_identifier fun _ => tells_pure _

section

variable {cut : Parser Event Term} (advances : Advances cut)
  (extended : ExtendedBy cut (expression .traced) source) (tells : Tells cut source (Event.Inner source))

include advances extended tells

theorem tells_abs : Tells (abs .traced cut) source (Event.Inner source) :=
  tells_rule (by simp) rfl ((extension _ _).abs extended) (advances_abs advances) <|
    tells_bind (tells_punctuation _) fun _ => tells_bind tells_identifier fun _ =>
      tells_bind (tells_punctuation _) fun _ => tells_bind tells fun _ => tells_pure _

theorem tells_bracketed : Tells (bracketed .traced cut) source (Event.Inner source) :=
  tells_rule (by simp) rfl ((extension _ _).bracketed extended) (advances_bracketed advances) <|
    tells_bind (tells_punctuation _) fun _ => tells_bind tells fun _ =>
      tells_bind (tells_punctuation _) fun _ => tells_pure _

theorem tells_atom : Tells (atom .traced cut) source (Event.Inner source) :=
  tells_context _ <| tells_orElse (tells_orElse tells_var (tells_abs advances extended tells))
    (tells_bracketed advances extended tells)

theorem tells_app : Tells (app .traced cut) source (Event.Inner source) :=
  have atoms := tells_atom advances extended tells
  tells_rule (by simp) rfl ((extension _ _).app extended) (advances_app advances) <|
    tells_bind atoms fun _ => tells_bind atoms fun _ => tells_bind (tells_many atoms) fun _ => tells_pure _

theorem tells_term : Tells (term .traced cut) source (Event.Inner source) :=
  tells_rule (by simp) rfl ((extension _ _).term extended) (advances_term advances) <| tells_context _ <|
    tells_orElse (tells_orElse (tells_app advances extended tells) tells_var) (tells_abs advances extended tells)

theorem tells_expressionOver : Tells (expressionOver .traced cut) source (Event.Inner source) :=
  tells_rule (by simp) rfl (extended_over_expression extended) (advances_expressionOver advances) <|
    tells_context _ <|
      tells_orElse (tells_term advances extended tells) (tells_bracketed advances extended tells)

end

theorem tells_expressionWithin (depth : Nat) :
    Tells (expressionWithin .traced depth) source (Event.Inner source) := by
  induction depth with
  | zero => exact tells_unfinished
  | succ depth ih =>
      exact tells_expressionOver (advances_expressionWithin depth) (extended_by_expression depth) ih

theorem tells_expression : Tells (expression .traced) source (Event.Inner source) :=
  fun position => tells_expressionWithin (source.size + 1) position

theorem topExpression_events (source : Source) (position : Nat) :
    ∃ earlier, ((topExpression .traced).attempt source position).events = earlier ++
        reported .traced .topExpression position .term ((topExpression .traced).attempt source position).reply ∧
      ∀ event ∈ earlier, event.Inner source := by
  refine ⟨_, named_events .traced .topExpression none .term _ source position, ?_⟩
  exact tells_bind tells_expression (fun _ => tells_bind tells_blanks fun _ =>
    tells_bind (tells_atEnd _) fun _ => tells_pure _) position

end

end Grammar

theorem parseReporting_silent [Alphabet] (text : String) :
    (parseReporting (Report.silent : Report ε) text).2 = [] :=
  List.eq_nil_iff_forall_not_mem.mpr fun event =>
    Grammar.quietness.topExpression Grammar.quiet_expression (fun _ => tells_atEnd _) (.ofString text) 0 event

def Event.ofResult (text : String) : Except Failure Term → Event
  | .ok term => .matched .topExpression text.length (.term term)
  | .error failure => .failed .topExpression 0 failure

theorem trace_tells_what_rules_come_to [Alphabet] (text : String) :
    (parseTraced text).1 = parse text ∧
    ∃ earlier, (parseTraced text).2 = earlier ++ [.ofResult text (parse text)] ∧
      ∀ event ∈ earlier, event.rule ≠ .topExpression ∧ event.Holds (.ofString text) := by
  have same : (parseTraced text).1 = parse text := parseReporting_result .traced text
  obtain ⟨earlier, events, inner⟩ := Grammar.topExpression_events (.ofString text) 0
  refine ⟨same, earlier, ?_, inner⟩
  rw [← same]
  change ((Grammar.topExpression .traced).attempt (.ofString text) 0).events = _
  rw [events]
  cases ending : ((Grammar.topExpression .traced).attempt (.ofString text) 0).reply with
  | matched term last =>
      have whole := (Grammar.topExpression_matched_iff.mp ending).1
      have result : (parseTraced text).1 = .ok term := parseReporting_ok_iff.mpr ⟨last, ending⟩
      rw [result, whole, Source.size_ofString]
      rfl
  | failed failure =>
      have result : (parseTraced text).1 = .error failure := (result_error_iff _).mpr ending
      rw [result]
      rfl
  | unfinished => exact absurd ending (Grammar.finishes_topExpression _ _)

end LambdaCalculus

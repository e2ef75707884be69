import LambdaCalculus.Proofs.Parser.Confinement
import LambdaCalculus.Proofs.Parser.Repetition

set_option autoImplicit false

namespace LambdaCalculus

namespace Failure

def TellsPosition (failure : Failure) : Prop :=
  ∃ behind, failure.message = "lambda:" ++ toString failure.position ++ ": " ++ behind

theorem message_ofCause (position : Nat) (cause : Cause) :
    (ofCause position cause).message = Fragment.text ⟨position, cause⟩ :=
  String.intercalate_singleton

theorem message_context (failure : Failure) (position : Nat) (cause : Cause) :
    (failure.context position cause).message = failure.message ++ "\n" ++ Fragment.text ⟨position, cause⟩ := by
  have told : failure.fragments.map Fragment.text ≠ [] := List.cons_ne_nil _ _
  rw [message, fragments_context, List.map_append, List.map_singleton,
    String.intercalate_append_of_ne_nil told (List.cons_ne_nil _ _), String.intercalate_singleton, message]

theorem tellsPosition_ofCause (position : Nat) (cause : Cause) : (ofCause position cause).TellsPosition :=
  ⟨cause.message, message_ofCause position cause⟩

theorem tellsPosition_context {failure : Failure} (tells : failure.TellsPosition) (position : Nat) (cause : Cause) :
    (failure.context position cause).TellsPosition := by
  obtain ⟨behind, message⟩ := tells
  refine ⟨behind ++ "\n" ++ Fragment.text ⟨position, cause⟩, ?_⟩
  simp only [message_context, message, position_context, String.append_assoc]

theorem tellsPosition_further {failure other : Failure} (tells : failure.TellsPosition)
    (otherTells : other.TellsPosition) : (failure.further other).TellsPosition := by
  unfold further
  split
  · exact otherTells
  · exact tells

theorem tellsPosition (failure : Failure) : failure.TellsPosition := by
  obtain ⟨innermost, enclosing⟩ := failure
  induction enclosing with
  | nil => exact tellsPosition_ofCause innermost.position innermost.cause
  | cons outermost inner ih => exact tellsPosition_context ih outermost.position outermost.cause

end Failure

variable {ε α β : Type}

def Reply.Proper (reply : Reply α) (first limit : Nat) : Prop :=
  match reply with
  | .matched _ next => first ≤ next ∧ next ≤ limit
  | .failed failure => first ≤ failure.position ∧ failure.position ≤ limit ∧ failure.TellsPosition
  | .unfinished => True

theorem Reply.Proper.mono {reply : Reply α} {first limit earlier later : Nat} (proper : reply.Proper first limit)
    (before : earlier ≤ first) (behind : limit ≤ later) : reply.Proper earlier later := by
  cases reply with
  | matched value next => exact ⟨Nat.le_trans before proper.1, Nat.le_trans proper.2 behind⟩
  | failed failure => exact ⟨Nat.le_trans before proper.1, Nat.le_trans proper.2.1 behind, proper.2.2⟩
  | unfinished => trivial

namespace Parser

def WellBehaved (parser : Parser ε α) (source : Source) : Prop :=
  ∀ position, (parser.attempt source position).reply.Proper position (max position source.size)

variable {source : Source}

theorem Confined.wellBehaved {parser : Parser ε α} (confined : Confined parser) (source : Source) :
    parser.WellBehaved source := by
  intro position
  obtain ⟨reach, ending⟩ := confined source position
  cases reply : (parser.attempt source position).reply with
  | matched value next =>
      rw [reply] at ending
      exact ⟨ending.1, Nat.le_trans ending.2 reach⟩
  | failed failure =>
      rw [reply] at ending
      exact ⟨ending.1, Nat.le_trans ending.2 reach, failure.tellsPosition⟩
  | unfinished => trivial

theorem WellBehaved.stays {parser : Parser ε α} (behaved : parser.WellBehaved source) (position : Nat) (value : α)
    (next : Nat) (matched : (parser.attempt source position).reply = .matched value next) :
    position ≤ next ∧ next ≤ max position source.size := by
  have proper := behaved position
  rwa [matched] at proper

theorem wellBehaved_bind {first : Parser ε α} {second : α → Parser ε β} (firstBehaved : first.WellBehaved source)
    (secondBehaved : ∀ value, (second value).WellBehaved source) : (first >>= second).WellBehaved source := by
  intro position
  have front := firstBehaved position
  rw [bind_reply]
  cases ending : (first.attempt source position).reply with
  | matched value next =>
      rw [ending] at front
      exact (secondBehaved value next).mono front.1 (Nat.max_le.mpr ⟨front.2, Nat.le_max_right _ _⟩)
  | failed failure =>
      rw [ending] at front
      exact front
  | unfinished => trivial

theorem wellBehaved_map {parser : Parser ε α} (behaved : parser.WellBehaved source) (change : α → β) :
    (change <$> parser).WellBehaved source :=
  wellBehaved_bind behaved fun value => (confined_pure (change value)).wellBehaved source

theorem wellBehaved_context {parser : Parser ε α} (behaved : parser.WellBehaved source) (cause : Cause) :
    (context cause parser).WellBehaved source := by
  intro position
  have proper := behaved position
  rw [context_reply]
  cases ending : (parser.attempt source position).reply with
  | matched value next =>
      rw [ending] at proper
      exact proper
  | failed failure =>
      rw [ending] at proper
      exact ⟨proper.1, proper.2.1, Failure.tellsPosition_context proper.2.2 position cause⟩
  | unfinished => trivial

theorem wellBehaved_orElse {first second : Parser ε α} (firstBehaved : first.WellBehaved source)
    (secondBehaved : second.WellBehaved source) : (orElse first second).WellBehaved source := by
  intro position
  have front := firstBehaved position
  have back := secondBehaved position
  rw [orElse_reply]
  cases ending : (first.attempt source position).reply with
  | matched value next =>
      rw [ending] at front
      exact front
  | unfinished => trivial
  | failed failure =>
      rw [ending] at front
      cases last : (second.attempt source position).reply with
      | matched value next =>
          rw [last] at back
          exact back
      | unfinished => trivial
      | failed other =>
          rw [last] at back
          refine ⟨?_, ?_, Failure.tellsPosition_further front.2.2 back.2.2⟩
          · rw [Failure.position_further]
            exact Nat.le_trans front.1 (Nat.le_max_left _ _)
          · rw [Failure.position_further]
            exact Nat.max_le.mpr ⟨front.2.1, back.2.1⟩

theorem wellBehaved_choice {first : Parser ε α} {others : List (Parser ε α)} (firstBehaved : first.WellBehaved source)
    (othersBehaved : ∀ other ∈ others, other.WellBehaved source) : (choice first others).WellBehaved source :=
  choice_induction (fun parser => parser.WellBehaved source)
    (fun _ behaved => wellBehaved_context behaved .noAlternative) (fun _ _ => wellBehaved_orElse)
    firstBehaved othersBehaved

theorem wellBehaved_sequence {parts : List (Parser ε α)} (behaved : ∀ part ∈ parts, part.WellBehaved source) :
    (sequence parts).WellBehaved source := by
  induction parts with
  | nil => exact (confined_pure []).wellBehaved source
  | cons part rest ih =>
      have others := ih fun later member => behaved later (List.mem_cons_of_mem part member)
      exact wellBehaved_bind (behaved part List.mem_cons_self) fun value => wellBehaved_map others (value :: ·)

theorem wellBehaved_many {parser : Parser ε α} (behaved : parser.WellBehaved source) :
    (many parser).WellBehaved source := by
  intro position
  rcases many_ending behaved.stays position with ⟨values, last, ending, greedy⟩ | ⟨cut, -⟩
  · rw [ending]
    exact (greedy_bound behaved.stays greedy).2
  · rw [cut]
    trivial

-- Parsers that are given in terms of one another, where references are followed to a depth
-- and cut off below it.
def unrolled {ι : Type} {result : ι → Type} (body : ((i : ι) → Parser ε (result i)) → (i : ι) → Parser ε (result i)) :
    Nat → (i : ι) → Parser ε (result i)
  | 0, _ => unfinished
  | depth + 1, i => body (unrolled body depth) i

theorem wellBehaved_unrolled {ι : Type} {result : ι → Type}
    {body : ((i : ι) → Parser ε (result i)) → (i : ι) → Parser ε (result i)}
    (behaved : ∀ known, (∀ i, (known i).WellBehaved source) → ∀ i, (body known i).WellBehaved source)
    (depth : Nat) (i : ι) : (unrolled body depth i).WellBehaved source := by
  induction depth generalizing i with
  | zero => exact confined_unfinished.wellBehaved source
  | succ depth ih => exact behaved (unrolled body depth) ih i

end Parser

end LambdaCalculus

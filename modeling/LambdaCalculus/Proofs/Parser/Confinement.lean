import LambdaCalculus.Parser.Progress

set_option autoImplicit false

namespace LambdaCalculus

variable {ε α β : Type}

-- Where an attempt ends, and nothing that was counted up to on the way is beyond the limit.
-- The reach has to be a part of it: alternatives that were given up have counted too.
def Run.Confined (run : Run ε α) (first limit : Nat) : Prop :=
  run.reach ≤ limit ∧
    match run.reply with
    | .matched _ next => first ≤ next ∧ next ≤ run.reach
    | .failed failure => first ≤ failure.position ∧ failure.position ≤ run.reach
    | .unfinished => True

namespace Parser

def Confined (parser : Parser ε α) : Prop :=
  ∀ source position, (parser.attempt source position).Confined position (max position source.size)

theorem Confined.stays {parser : Parser ε α} (confined : Confined parser) : Stays parser := by
  intro source position value next matched
  have bounds := confined source position
  simp only [Run.Confined, matched] at bounds
  omega

theorem confined_pure (value : α) : Confined (pure value : Parser ε α) :=
  fun _ _ => ⟨Nat.le_max_left _ _, Nat.le_refl _, Nat.le_refl _⟩

theorem confined_unfinished : Confined (unfinished : Parser ε α) :=
  fun _ _ => ⟨Nat.le_max_left _ _, trivial⟩

theorem confined_satisfy (accepts : Char → Bool) (cause : Cause) :
    Confined (satisfy accepts cause : Parser ε Char) := by
  intro source position
  cases found : (source.charAt position).filter accepts with
  | some c =>
      have inside := Source.lt_size_of_charAt (Option.filter_eq_some_iff.mp found).1
      simp only [Run.Confined, satisfy, found]
      omega
  | none =>
      simp only [Run.Confined, satisfy, found, Failure.position, Failure.ofCause]
      omega

theorem confined_literal (text : String) (cause : Cause) : Confined (literal text cause : Parser ε String) := by
  intro source position
  by_cases found : source.startsWith position text = true
  · have bound := Source.matchesAt_bound found
    rw [String.length_toList] at bound
    simp only [Run.Confined, literal, if_pos found]
    omega
  · have bound := source.agreement_bound position text.toList
    simp only [Run.Confined, literal, if_neg found, Failure.position, Failure.ofCause]
    omega

theorem confined_atEnd (cause : Nat → Cause) : Confined (atEnd cause : Parser ε Unit) := by
  intro source position
  by_cases ended : position = source.size
  · simp only [Run.Confined, atEnd, if_pos ended]
    omega
  · simp only [Run.Confined, atEnd, if_neg ended, Failure.position, Failure.ofCause]
    omega

theorem confined_bind {first : Parser ε α} {second : α → Parser ε β} (firstConfined : Confined first)
    (secondConfined : ∀ value, Confined (second value)) : Confined (first >>= second) := by
  intro source position
  have front := firstConfined source position
  change Run.Confined ((Parser.bind first second).attempt source position) _ _
  cases ending : (first.attempt source position).reply with
  | matched value next =>
      have back := secondConfined value source next
      simp only [Run.Confined, ending] at front
      simp only [Run.Confined, Parser.bind, ending] at back ⊢
      cases last : ((second value).attempt source next).reply <;>
        simp only [last, and_true] at back ⊢ <;> omega
  | failed failure => simpa only [Run.Confined, Parser.bind, ending] using front
  | unfinished => simpa only [Run.Confined, Parser.bind, ending] using front

theorem confined_context {parser : Parser ε α} (cause : Cause) (confined : Confined parser) :
    Confined (context cause parser) := by
  intro source position
  have bounds := confined source position
  cases ending : (parser.attempt source position).reply <;>
    simpa only [Run.Confined, context, ending, Failure.position_context] using bounds

theorem confined_orElse {first second : Parser ε α} (firstConfined : Confined first)
    (secondConfined : Confined second) : Confined (orElse first second) := by
  intro source position
  have front := firstConfined source position
  have back := secondConfined source position
  cases ending : (first.attempt source position).reply with
  | matched value next => simpa only [Run.Confined, orElse, ending] using front
  | unfinished => simpa only [Run.Confined, orElse, ending] using front
  | failed failure =>
      simp only [Run.Confined, ending] at front
      simp only [Run.Confined, orElse, ending] at back ⊢
      cases last : (second.attempt source position).reply <;>
        simp only [last, and_true, Failure.position_further] at back ⊢ <;> omega

theorem confined_manyWithin {parser : Parser ε α} (confined : Confined parser) (limit : Nat) :
    Confined (parser.manyWithin limit) := by
  induction limit with
  | zero => exact confined_unfinished
  | succ limit ih =>
      intro source position
      have front := confined source position
      cases ending : (parser.attempt source position).reply with
      | matched value next =>
          simp only [Run.Confined, ending] at front
          by_cases still : next = position
          · simp only [Run.Confined, manyWithin, ending, if_pos still]
            exact front
          · have back := ih source next
            simp only [Run.Confined, manyWithin, ending, if_neg still] at back ⊢
            cases last : ((parser.manyWithin limit).attempt source next).reply <;>
              simp only [last, and_true] at back ⊢ <;> omega
      | failed failure =>
          simp only [Run.Confined, ending] at front
          simp only [Run.Confined, manyWithin, ending]
          omega
      | unfinished => simpa only [Run.Confined, manyWithin, ending] using front

theorem confined_many {parser : Parser ε α} (confined : Confined parser) : Confined (many parser) :=
  fun source => confined_manyWithin confined (source.size + 1) source

end Parser

end LambdaCalculus

import LambdaCalculus.Parser.Reply

set_option autoImplicit false

namespace LambdaCalculus.Parser

variable {ε α β : Type} {source : Source} {claim : ε → Prop}

theorem bind_events (first : Parser ε α) (second : α → Parser ε β) (source : Source) (position : Nat) :
    ((first >>= second).attempt source position).events =
      (first.attempt source position).events ++
        match (first.attempt source position).reply with
        | .matched value next => ((second value).attempt source next).events
        | _ => [] := by
  change ((Parser.bind first second).attempt source position).events = _
  cases ending : (first.attempt source position).reply <;> simp only [Parser.bind, ending, List.append_nil]

theorem context_events (cause : Cause) (parser : Parser ε α) (source : Source) (position : Nat) :
    ((context cause parser).attempt source position).events = (parser.attempt source position).events := by
  simp only [context]
  split <;> rfl

theorem orElse_events (first second : Parser ε α) (source : Source) (position : Nat) :
    ((orElse first second).attempt source position).events =
      (first.attempt source position).events ++
        match (first.attempt source position).reply with
        | .failed _ => (second.attempt source position).events
        | _ => [] := by
  cases ending : (first.attempt source position).reply with
  | matched value next => simp only [orElse, ending, List.append_nil]
  | unfinished => simp only [orElse, ending, List.append_nil]
  | failed failure =>
      simp only [orElse, ending]
      split <;> rfl

theorem manyWithin_events (limit : Nat) (parser : Parser ε α) (source : Source) (position : Nat) :
    ((parser.manyWithin (limit + 1)).attempt source position).events =
      (parser.attempt source position).events ++
        match (parser.attempt source position).reply with
        | .matched _ next =>
            if next = position then [] else ((parser.manyWithin limit).attempt source next).events
        | _ => [] := by
  cases ending : (parser.attempt source position).reply with
  | failed failure => simp only [manyWithin, ending, List.append_nil]
  | unfinished => simp only [manyWithin, ending, List.append_nil]
  | matched value next =>
      by_cases still : next = position
      · simp only [manyWithin, ending, if_pos still, List.append_nil]
      · simp only [manyWithin, ending, if_neg still]
        split <;> rfl

def Tells (parser : Parser ε α) (source : Source) (claim : ε → Prop) : Prop :=
  ∀ position, ∀ event ∈ (parser.attempt source position).events, claim event

theorem tells_pure (value : α) : Tells (pure value : Parser ε α) source claim := by
  intro position event member
  cases member

theorem tells_unfinished : Tells (unfinished : Parser ε α) source claim := by
  intro position event member
  cases member

theorem tells_satisfy (accepts : Char → Bool) (cause : Cause) :
    Tells (satisfy accepts cause : Parser ε Char) source claim := by
  intro position event member
  cases found : (source.charAt position).filter accepts <;> simp [satisfy, found] at member

theorem tells_literal (text : String) (cause : Cause) : Tells (literal text cause : Parser ε String) source claim := by
  intro position event member
  cases found : source.startsWith position text <;> simp [literal, found] at member

theorem tells_atEnd (cause : Nat → Cause) : Tells (atEnd cause : Parser ε Unit) source claim := by
  intro position event member
  by_cases ended : position = source.size <;> simp [atEnd, ended] at member

theorem tells_bind {first : Parser ε α} {second : α → Parser ε β} (firstTells : Tells first source claim)
    (secondTells : ∀ value, Tells (second value) source claim) : Tells (first >>= second) source claim := by
  intro position event member
  rw [bind_events] at member
  rcases List.mem_append.mp member with member | member
  · exact firstTells position event member
  · cases ending : (first.attempt source position).reply with
    | matched value next =>
        simp only [ending] at member
        exact secondTells value next event member
    | failed failure => simp [ending] at member
    | unfinished => simp [ending] at member

theorem tells_context {parser : Parser ε α} (cause : Cause) (tells : Tells parser source claim) :
    Tells (context cause parser) source claim := by
  intro position event member
  rw [context_events] at member
  exact tells position event member

theorem tells_orElse {first second : Parser ε α} (firstTells : Tells first source claim)
    (secondTells : Tells second source claim) : Tells (orElse first second) source claim := by
  intro position event member
  rw [orElse_events] at member
  rcases List.mem_append.mp member with member | member
  · exact firstTells position event member
  · cases ending : (first.attempt source position).reply with
    | failed failure =>
        simp only [ending] at member
        exact secondTells position event member
    | matched value next => simp [ending] at member
    | unfinished => simp [ending] at member

theorem tells_manyWithin {parser : Parser ε α} (tells : Tells parser source claim) (limit : Nat) :
    Tells (parser.manyWithin limit) source claim := by
  induction limit with
  | zero => exact tells_unfinished
  | succ limit ih =>
      intro position event member
      rw [manyWithin_events] at member
      rcases List.mem_append.mp member with member | member
      · exact tells position event member
      · cases ending : (parser.attempt source position).reply with
        | matched value next =>
            simp only [ending] at member
            by_cases still : next = position
            · simp [still] at member
            · rw [if_neg still] at member
              exact ih next event member
        | failed failure => simp [ending] at member
        | unfinished => simp [ending] at member

theorem tells_many {parser : Parser ε α} (tells : Tells parser source claim) : Tells (many parser) source claim :=
  fun position => tells_manyWithin tells (source.size + 1) position

end LambdaCalculus.Parser

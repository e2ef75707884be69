import LambdaCalculus.Parser
/-!
How attempts end: the ending of each way of putting parsers together, in terms of the endings of its
parts.
-/

set_option autoImplicit false

namespace LambdaCalculus

variable {ε α β : Type}

def Reply.map (change : α → β) : Reply α → Reply β
  | .matched value next => .matched (change value) next
  | .failed failure => .failed failure
  | .unfinished => .unfinished

namespace Parser

theorem map_eq_bind (change : α → β) (parser : Parser ε α) :
    change <$> parser = parser >>= fun value => pure (change value) := rfl

theorem bind_reply (first : Parser ε α) (second : α → Parser ε β) (source : Source) (position : Nat) :
    ((first >>= second).attempt source position).reply =
      match (first.attempt source position).reply with
      | .matched value next => ((second value).attempt source next).reply
      | .failed failure => .failed failure
      | .unfinished => .unfinished := by
  change ((Parser.bind first second).attempt source position).reply = _
  unfold Parser.bind
  dsimp only
  split <;> simp_all

theorem map_reply (change : α → β) (parser : Parser ε α) (source : Source) (position : Nat) :
    ((change <$> parser).attempt source position).reply = (parser.attempt source position).reply.map change := by
  rw [map_eq_bind, bind_reply]
  rfl

theorem satisfy_reply (accepts : Char → Bool) (cause : Cause) (source : Source) (position : Nat) :
    ((satisfy accepts cause : Parser ε Char).attempt source position).reply =
      match (source.charAt position).filter accepts with
      | some c => .matched c (position + 1)
      | none => .failed (.ofCause position cause) := by
  cases found : (source.charAt position).filter accepts <;> simp only [satisfy, found]

theorem literal_reply (text : String) (cause : Cause) (source : Source) (position : Nat) :
    ((literal text cause : Parser ε String).attempt source position).reply =
      if source.startsWith position text then .matched text (position + text.length)
      else .failed (.ofCause position cause) := by
  simp only [literal]
  split <;> rfl

theorem atEnd_reply (cause : Nat → Cause) (source : Source) (position : Nat) :
    ((atEnd cause : Parser ε Unit).attempt source position).reply =
      if position = source.size then .matched () position
      else .failed (.ofCause position (cause position)) := by
  simp only [atEnd]
  split <;> rfl

theorem context_reply (cause : Cause) (parser : Parser ε α) (source : Source) (position : Nat) :
    ((context cause parser).attempt source position).reply =
      match (parser.attempt source position).reply with
      | .failed failure => .failed (failure.context position cause)
      | reply => reply := by
  unfold context
  dsimp only
  split <;> simp_all

theorem orElse_reply (first second : Parser ε α) (source : Source) (position : Nat) :
    ((orElse first second).attempt source position).reply =
      match (first.attempt source position).reply with
      | .failed failure =>
          match (second.attempt source position).reply with
          | .failed other => .failed (failure.further other)
          | reply => reply
      | reply => reply := by
  unfold orElse
  dsimp only
  split
  next failure eq => split <;> simp_all
  next => simp_all

theorem manyWithin_reply (limit : Nat) (parser : Parser ε α) (source : Source) (position : Nat) :
    ((parser.manyWithin (limit + 1)).attempt source position).reply =
      match (parser.attempt source position).reply with
      | .matched value next =>
          if next = position then .matched [value] next
          else
            match ((parser.manyWithin limit).attempt source next).reply with
            | .matched values last => .matched (value :: values) last
            | reply => reply
      | .failed _ => .matched [] position
      | .unfinished => .unfinished := by
  cases ending : (parser.attempt source position).reply with
  | matched value next =>
      by_cases still : next = position
      · simp only [manyWithin, ending, if_pos still]
      · cases rest : ((parser.manyWithin limit).attempt source next).reply <;>
          simp only [manyWithin, ending, if_neg still, rest]
  | failed failure => simp only [manyWithin, ending]
  | unfinished => simp only [manyWithin, ending]

end Parser

end LambdaCalculus

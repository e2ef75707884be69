import LambdaCalculus.Proofs.Parser.Events
import LambdaCalculus.Proofs.Parser.Extension

set_option autoImplicit false

namespace LambdaCalculus.Parser

variable {ε α β : Type} {source : Source} {position : Nat}

def fails (parser : Parser ε α) (source : Source) (position : Nat) : Bool :=
  match (parser.attempt source position).reply with
  | .failed _ => true
  | _ => false

theorem fails_of_failed {parser : Parser ε α} {failure : Failure}
    (refused : (parser.attempt source position).reply = .failed failure) : parser.fails source position = true := by
  rw [fails, refused]

theorem not_fails_of_matched {parser : Parser ε α} {value : α} {next : Nat}
    (matched : (parser.attempt source position).reply = .matched value next) :
    parser.fails source position = false := by
  rw [fails, matched]

theorem context_fails (cause : Cause) (parser : Parser ε α) :
    (context cause parser).fails source position = parser.fails source position := by
  rw [fails, fails, context_reply]
  cases (parser.attempt source position).reply <;> rfl

theorem orElse_fails (first second : Parser ε α) :
    (orElse first second).fails source position = (first.fails source position && second.fails source position) := by
  rw [fails, fails, fails, orElse_reply]
  cases (first.attempt source position).reply with
  | matched value next => rfl
  | unfinished => rfl
  | failed failure => cases (second.attempt source position).reply <;> rfl

def cost (parser : Parser ε α) (source : Source) (position : Nat) : Nat :=
  (parser.attempt source position).events.length

theorem cost_of_quiet {parser : Parser ε α} (quiet : Tells parser source fun _ => False) :
    parser.cost source position = 0 := by
  rw [cost, List.length_eq_zero_iff]
  exact List.eq_nil_iff_forall_not_mem.mpr (quiet position)

theorem bind_cost_of_matched {first : Parser ε α} {value : α} {next : Nat}
    (matched : (first.attempt source position).reply = .matched value next) (second : α → Parser ε β) :
    (first >>= second).cost source position = first.cost source position + (second value).cost source next := by
  rw [cost, bind_events, matched, List.length_append, cost, cost]

theorem bind_cost_of_failed {first : Parser ε α} {failure : Failure}
    (refused : (first.attempt source position).reply = .failed failure) (second : α → Parser ε β) :
    (first >>= second).cost source position = first.cost source position := by
  rw [cost, bind_events, refused, List.append_nil, cost]

theorem pure_cost (value : α) : (pure value : Parser ε α).cost source position = 0 := rfl

theorem bind_pure_cost {first : Parser ε α} (finishes : FinishesAt first source position) (value : α → β) :
    (first >>= fun found => pure (value found)).cost source position = first.cost source position := by
  cases ending : (first.attempt source position).reply with
  | matched found next => rw [bind_cost_of_matched ending, pure_cost, Nat.add_zero]
  | failed failure => exact bind_cost_of_failed ending _
  | unfinished => exact absurd ending finishes

theorem context_cost (cause : Cause) (parser : Parser ε α) :
    (context cause parser).cost source position = parser.cost source position := by
  rw [cost, context_events, cost]

theorem orElse_cost (first second : Parser ε α) :
    (orElse first second).cost source position =
      first.cost source position + if first.fails source position then second.cost source position else 0 := by
  rw [cost, orElse_events, List.length_append, cost, fails]
  cases (first.attempt source position).reply <;> rfl

section

variable {parser : Parser ε α}

theorem many_cost_of_failed {failure : Failure}
    (refused : (parser.attempt source position).reply = .failed failure) :
    (many parser).cost source position = parser.cost source position := by
  change (parser.manyWithin (source.size + 1)).cost source position = _
  rw [cost, manyWithin_events, refused, List.append_nil, cost]

theorem many_cost_of_matched (advances : Advances parser)
    (finishes : ∀ later, FinishesAt parser source later) {value : α} {next : Nat}
    (matched : (parser.attempt source position).reply = .matched value next) :
    (many parser).cost source position = parser.cost source position + (many parser).cost source next := by
  have bounds := advances source position value next matched
  have enough : FinishesAt (parser.manyWithin source.size) source next :=
    finishes_manyWithin advances (fun later _ => finishes later) (by omega) (by omega)
  have same := extended_manyWithin (extended_refl parser) source.size 1 next enough
  change (parser.manyWithin (source.size + 1)).cost source position =
    parser.cost source position + (parser.manyWithin (source.size + 1)).cost source next
  rw [cost, manyWithin_events, matched, List.length_append]
  simp only [if_neg (Nat.ne_of_gt bounds.1)]
  rw [cost, cost, same]

end

end LambdaCalculus.Parser

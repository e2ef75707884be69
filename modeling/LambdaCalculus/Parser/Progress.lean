import LambdaCalculus.Parser.Reply
/-!
How far parsers get: a parser that stays never moves back nor beyond the end of the text, one that
advances moves on with each match. Repetition of a parser that advances is never cut off by its limit.
-/

set_option autoImplicit false

namespace LambdaCalculus.Parser

variable {ε α β : Type}

def Stays (parser : Parser ε α) : Prop :=
  ∀ (source : Source) (position : Nat) (value : α) (next : Nat),
    (parser.attempt source position).reply = .matched value next →
      position ≤ next ∧ next ≤ max position source.size

def Advances (parser : Parser ε α) : Prop :=
  ∀ (source : Source) (position : Nat) (value : α) (next : Nat),
    (parser.attempt source position).reply = .matched value next → position < next ∧ next ≤ source.size

def FinishesAt (parser : Parser ε α) (source : Source) (position : Nat) : Prop :=
  (parser.attempt source position).reply ≠ .unfinished

theorem Advances.stays {parser : Parser ε α} (advances : Advances parser) : Stays parser := by
  intro source position value next matched
  have bounds := advances source position value next matched
  omega

theorem bind_matched {first : Parser ε α} {second : α → Parser ε β} {source : Source}
    {position next : Nat} {value : β}
    (matched : ((first >>= second).attempt source position).reply = .matched value next) :
    ∃ head middle, (first.attempt source position).reply = .matched head middle ∧
      ((second head).attempt source middle).reply = .matched value next := by
  rw [bind_reply] at matched
  split at matched
  next head middle eq => exact ⟨head, middle, eq, matched⟩
  next => cases matched
  next => cases matched

theorem stays_pure (value : α) : Stays (pure value : Parser ε α) := by
  intro source position found next matched
  cases matched
  omega

theorem stays_bind {first : Parser ε α} {second : α → Parser ε β} (firstStays : Stays first)
    (secondStays : ∀ value, Stays (second value)) : Stays (first >>= second) := by
  intro source position value next matched
  obtain ⟨head, middle, firstMatched, secondMatched⟩ := bind_matched matched
  have front := firstStays source position head middle firstMatched
  have back := secondStays head source middle value next secondMatched
  omega

theorem advances_bind {first : Parser ε α} {second : α → Parser ε β} (firstAdvances : Advances first)
    (secondStays : ∀ value, Stays (second value)) : Advances (first >>= second) := by
  intro source position value next matched
  obtain ⟨head, middle, firstMatched, secondMatched⟩ := bind_matched matched
  have front := firstAdvances source position head middle firstMatched
  have back := secondStays head source middle value next secondMatched
  omega

theorem advances_bind_of_second {first : Parser ε α} {second : α → Parser ε β}
    (firstStays : Stays first) (secondAdvances : ∀ value, Advances (second value)) :
    Advances (first >>= second) := by
  intro source position value next matched
  obtain ⟨head, middle, firstMatched, secondMatched⟩ := bind_matched matched
  have front := firstStays source position head middle firstMatched
  have back := secondAdvances head source middle value next secondMatched
  omega

theorem finishes_bind {first : Parser ε α} {second : α → Parser ε β} {source : Source} {position : Nat}
    (firstFinishes : FinishesAt first source position)
    (secondFinishes : ∀ value next, (first.attempt source position).reply = .matched value next →
      FinishesAt (second value) source next) :
    FinishesAt (first >>= second) source position := by
  unfold FinishesAt
  rw [bind_reply]
  split
  next value next matched => exact secondFinishes value next matched
  next => simp
  next cut => exact absurd cut firstFinishes

theorem finishes_pure (value : α) (source : Source) (position : Nat) :
    FinishesAt (pure value : Parser ε α) source position := by
  intro cut
  cases cut

theorem advances_map {parser : Parser ε α} (change : α → β) (advances : Advances parser) :
    Advances (change <$> parser) :=
  advances_bind advances fun _ => stays_pure _

theorem finishes_map {parser : Parser ε α} {source : Source} {position : Nat} (change : α → β)
    (finishes : FinishesAt parser source position) : FinishesAt (change <$> parser) source position :=
  finishes_bind finishes fun _ next _ => finishes_pure _ source next

theorem advances_satisfy (accepts : Char → Bool) (cause : Cause) :
    Advances (satisfy accepts cause : Parser ε Char) := by
  intro source position value next matched
  rw [satisfy_reply] at matched
  split at matched
  next c found =>
    have inside := Source.lt_size_of_charAt (Option.filter_eq_some_iff.mp found).1
    cases matched
    omega
  next => cases matched

theorem finishes_satisfy (accepts : Char → Bool) (cause : Cause) (source : Source) (position : Nat) :
    FinishesAt (satisfy accepts cause : Parser ε Char) source position := by
  unfold FinishesAt
  rw [satisfy_reply]
  split <;> simp

theorem stays_literal (text : String) (cause : Cause) :
    Stays (literal text cause : Parser ε String) := by
  intro source position value next matched
  rw [literal_reply] at matched
  split at matched
  next found =>
    have bound := Source.matchesAt_bound found
    cases matched
    rw [String.length_toList] at bound
    omega
  next => cases matched

theorem advances_literal (text : String) (cause : Cause) (nonempty : 0 < text.length) :
    Advances (literal text cause : Parser ε String) := by
  intro source position value next matched
  have bounds := stays_literal text cause source position value next matched
  rw [literal_reply] at matched
  split at matched
  · cases matched
    omega
  · cases matched

theorem finishes_literal (text : String) (cause : Cause) (source : Source) (position : Nat) :
    FinishesAt (literal text cause : Parser ε String) source position := by
  unfold FinishesAt
  rw [literal_reply]
  split <;> simp

theorem finishes_atEnd (cause : Nat → Cause) (source : Source) (position : Nat) :
    FinishesAt (atEnd cause : Parser ε Unit) source position := by
  unfold FinishesAt
  rw [atEnd_reply]
  split <;> simp

theorem context_matched {cause : Cause} {parser : Parser ε α} {source : Source} {position next : Nat}
    {value : α} : ((context cause parser).attempt source position).reply = .matched value next ↔
      (parser.attempt source position).reply = .matched value next := by
  rw [context_reply]
  split <;> simp_all

theorem context_unfinished {cause : Cause} {parser : Parser ε α} {source : Source} {position : Nat} :
    ((context cause parser).attempt source position).reply = .unfinished ↔
      (parser.attempt source position).reply = .unfinished := by
  rw [context_reply]
  split <;> simp_all

theorem orElse_matched {first second : Parser ε α} {source : Source} {position next : Nat} {value : α}
    (matched : ((orElse first second).attempt source position).reply = .matched value next) :
    (first.attempt source position).reply = .matched value next ∨
      (second.attempt source position).reply = .matched value next := by
  rw [orElse_reply] at matched
  split at matched
  · split at matched
    · cases matched
    · exact .inr matched
  · exact .inl matched

theorem advances_orElse {first second : Parser ε α} (firstAdvances : Advances first)
    (secondAdvances : Advances second) : Advances (orElse first second) := by
  intro source position value next matched
  cases orElse_matched matched with
  | inl front => exact firstAdvances source position value next front
  | inr back => exact secondAdvances source position value next back

theorem finishes_orElse {first second : Parser ε α} {source : Source} {position : Nat}
    (firstFinishes : FinishesAt first source position)
    (secondFinishes : FinishesAt second source position) :
    FinishesAt (orElse first second) source position := by
  unfold FinishesAt
  rw [orElse_reply]
  split
  · split
    · simp
    · exact secondFinishes
  · exact firstFinishes

theorem advances_context {cause : Cause} {parser : Parser ε α} (advances : Advances parser) :
    Advances (context cause parser) :=
  fun source position value next matched =>
    advances source position value next (context_matched.mp matched)

theorem finishes_context {cause : Cause} {parser : Parser ε α} {source : Source} {position : Nat}
    (finishes : FinishesAt parser source position) : FinishesAt (context cause parser) source position :=
  fun cut => finishes (context_unfinished.mp cut)

theorem choice_induction (kept : Parser ε α → Prop) {first : Parser ε α} {others : List (Parser ε α)}
    (told : ∀ parser, kept parser → kept (context .noAlternative parser))
    (either : ∀ one other, kept one → kept other → kept (orElse one other)) (firstKept : kept first)
    (othersKept : ∀ other ∈ others, kept other) : kept (choice first others) :=
  told _ <| List.foldlRecOn (motive := kept) others orElse firstKept
    fun one oneKept other member => either one other oneKept (othersKept other member)

theorem advances_choice {first : Parser ε α} {others : List (Parser ε α)} (firstAdvances : Advances first)
    (othersAdvance : ∀ other ∈ others, Advances other) : Advances (choice first others) :=
  choice_induction Advances (fun _ => advances_context) (fun _ _ => advances_orElse) firstAdvances othersAdvance

theorem finishes_choice {first : Parser ε α} {others : List (Parser ε α)} {source : Source}
    {position : Nat} (firstFinishes : FinishesAt first source position)
    (othersFinish : ∀ other ∈ others, FinishesAt other source position) :
    FinishesAt (choice first others) source position :=
  choice_induction (fun parser => FinishesAt parser source position) (fun _ => finishes_context)
    (fun _ _ => finishes_orElse) firstFinishes othersFinish

theorem stays_manyWithin {parser : Parser ε α} (stays : Stays parser) (limit : Nat) :
    Stays (parser.manyWithin limit) := by
  induction limit with
  | zero => intro source position values last matched; cases matched
  | succ limit ih =>
      intro source position values last matched
      rw [manyWithin_reply] at matched
      split at matched
      next value next eq =>
        have front := stays source position value next eq
        split at matched
        · cases matched
          omega
        · split at matched
          next rest _ restMatched =>
            have back := ih source next _ _ restMatched
            cases matched
            omega
          next notMatched => exact absurd matched (notMatched _ _)
      next => cases matched; omega
      next => cases matched

theorem stays_many {parser : Parser ε α} (stays : Stays parser) : Stays (many parser) :=
  fun source => stays_manyWithin stays (source.size + 1) source

theorem finishes_manyWithin {parser : Parser ε α} (advances : Advances parser) {source : Source}
    {limit position : Nat} (finishes : ∀ later, position ≤ later → FinishesAt parser source later)
    (enough : source.size < limit + position) (positive : 0 < limit) :
    FinishesAt (parser.manyWithin limit) source position := by
  induction limit generalizing position with
  | zero => omega
  | succ limit ih =>
      unfold FinishesAt
      rw [manyWithin_reply]
      split
      next value next matched =>
        have bounds := advances source position value next matched
        split
        · simp
        · have rest : FinishesAt (parser.manyWithin limit) source next :=
            ih (fun later after => finishes later (by omega)) (by omega) (by omega)
          unfold FinishesAt at rest
          split
          · simp
          · exact rest
      next => simp
      next cut => exact absurd cut (finishes position (Nat.le_refl position))

theorem finishes_many {parser : Parser ε α} (advances : Advances parser) {source : Source}
    {position : Nat} (finishes : ∀ later, position ≤ later → FinishesAt parser source later) :
    FinishesAt (many parser) source position := by
  have enough : FinishesAt (parser.manyWithin (source.size + 1)) source position :=
    finishes_manyWithin advances finishes (by omega) (by omega)
  exact enough

namespace FinishesAt

variable {source : Source} {position : Nat}

theorem bind_first {first : Parser ε α} {second : α → Parser ε β}
    (finishes : FinishesAt (first >>= second) source position) : FinishesAt first source position := by
  intro cut
  apply finishes
  rw [bind_reply, cut]

theorem bind_second {first : Parser ε α} {second : α → Parser ε β}
    (finishes : FinishesAt (first >>= second) source position) {value : α} {next : Nat}
    (matched : (first.attempt source position).reply = .matched value next) :
    FinishesAt (second value) source next := by
  intro cut
  apply finishes
  rw [bind_reply, matched]
  exact cut

theorem orElse_first {first second : Parser ε α} (finishes : FinishesAt (orElse first second) source position) :
    FinishesAt first source position := by
  intro cut
  apply finishes
  rw [orElse_reply, cut]

theorem orElse_second {first second : Parser ε α} (finishes : FinishesAt (orElse first second) source position)
    {failure : Failure} (refused : (first.attempt source position).reply = .failed failure) :
    FinishesAt second source position := by
  intro cut
  apply finishes
  rw [orElse_reply, refused]
  simp only [cut]

theorem manyWithin_first {parser : Parser ε α} {limit : Nat}
    (finishes : FinishesAt (parser.manyWithin (limit + 1)) source position) : FinishesAt parser source position := by
  intro cut
  apply finishes
  rw [manyWithin_reply, cut]

theorem manyWithin_rest {parser : Parser ε α} {limit : Nat}
    (finishes : FinishesAt (parser.manyWithin (limit + 1)) source position) {value : α} {next : Nat}
    (matched : (parser.attempt source position).reply = .matched value next) (moved : next ≠ position) :
    FinishesAt (parser.manyWithin limit) source next := by
  intro cut
  apply finishes
  rw [manyWithin_reply, matched]
  simp only [if_neg moved, cut]

end FinishesAt

end LambdaCalculus.Parser

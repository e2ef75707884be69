import LambdaCalculus.Parser.Progress

set_option autoImplicit false

namespace LambdaCalculus.Parser

variable {ε α : Type} {parser : Parser ε α} {source : Source}

inductive Moves (parser : Parser ε α) (source : Source) : Nat → List α → Nat → Prop where
  | stay {position : Nat} : Moves parser source position [] position
  | step {position next last : Nat} {value : α} {values : List α}
      (matched : (parser.attempt source position).reply = .matched value next) (moved : next ≠ position)
      (rest : Moves parser source next values last) : Moves parser source position (value :: values) last

inductive Greedy (parser : Parser ε α) (source : Source) (position : Nat) : List α → Nat → Prop where
  | refused {values : List α} {last : Nat} {failure : Failure} (moves : Moves parser source position values last)
      (failed : (parser.attempt source last).reply = .failed failure) : Greedy parser source position values last
  | still {values : List α} {last : Nat} {value : α} (moves : Moves parser source position values last)
      (matched : (parser.attempt source last).reply = .matched value last) :
      Greedy parser source position (values ++ [value]) last

theorem Greedy.step {position next last : Nat} {value : α} {values : List α}
    (matched : (parser.attempt source position).reply = .matched value next) (moved : next ≠ position)
    (greedy : Greedy parser source next values last) : Greedy parser source position (value :: values) last := by
  cases greedy with
  | refused moves failed => exact .refused (.step matched moved moves) failed
  | still moves again => exact .still (.step matched moved moves) again

theorem manyWithin_ending (parser : Parser ε α) (source : Source) (limit position : Nat) :
    (∃ values last, ((parser.manyWithin limit).attempt source position).reply = .matched values last ∧
      Greedy parser source position values last) ∨
    ((parser.manyWithin limit).attempt source position).reply = .unfinished ∧
      ∃ values last, Moves parser source position values last ∧
        (values.length = limit ∨ (parser.attempt source last).reply = .unfinished) := by
  induction limit generalizing position with
  | zero => exact .inr ⟨rfl, [], position, .stay, .inl rfl⟩
  | succ limit ih =>
      rw [manyWithin_reply]
      cases ending : (parser.attempt source position).reply with
      | matched value next =>
          by_cases still : next = position
          · subst still
            exact .inl ⟨[value], next, if_pos rfl, .still .stay ending⟩
          · rcases ih next with ⟨values, last, rest, greedy⟩ | ⟨cut, values, last, moves, reason⟩
            · exact .inl ⟨value :: values, last, by simp only [if_neg still, rest], greedy.step ending still⟩
            · exact .inr ⟨by simp only [if_neg still, cut], value :: values, last, .step ending still moves,
                reason.imp_left (congrArg (· + 1))⟩
      | failed failure => exact .inl ⟨[], position, rfl, .refused .stay ending⟩
      | unfinished => exact .inr ⟨rfl, [], position, .stay, .inr ending⟩

theorem manyWithin_of_moves {limit position middle last : Nat} {values others : List α}
    (moves : Moves parser source position values middle)
    (rest : ((parser.manyWithin limit).attempt source middle).reply = .matched others last) :
    ((parser.manyWithin (limit + values.length)).attempt source position).reply = .matched (values ++ others) last := by
  induction moves with
  | stay => exact rest
  | step matched moved _ ih =>
      rw [List.length_cons, ← Nat.add_assoc, manyWithin_reply, matched]
      simp only [if_neg moved, ih rest, List.cons_append]

theorem manyWithin_of_greedy {limit position last : Nat} {values : List α}
    (greedy : Greedy parser source position values last) (enough : values.length < limit) :
    ((parser.manyWithin limit).attempt source position).reply = .matched values last := by
  cases greedy with
  | @refused values last failure moves failed =>
      obtain ⟨more, rfl⟩ := Nat.exists_eq_add_of_lt enough
      have ended : ((parser.manyWithin (more + 1)).attempt source last).reply = .matched [] last := by
        rw [manyWithin_reply, failed]
      have whole := manyWithin_of_moves moves ended
      rwa [List.append_nil, Nat.add_comm, ← Nat.add_assoc] at whole
  | @still values last value moves matched =>
      rw [List.length_append] at enough
      obtain ⟨more, rfl⟩ := Nat.exists_eq_add_of_lt (Nat.lt_of_succ_lt enough)
      have ended : ((parser.manyWithin (more + 1)).attempt source last).reply = .matched [value] last := by
        rw [manyWithin_reply, matched]
        simp only [if_true]
      have whole := manyWithin_of_moves moves ended
      rwa [Nat.add_comm, ← Nat.add_assoc] at whole

theorem many_attempt (parser : Parser ε α) (source : Source) (position : Nat) :
    (many parser).attempt source position =
      (parser.manyWithin (source.size + 1)).attempt source position := rfl

section Staying

variable (stays : ∀ position value next, (parser.attempt source position).reply = .matched value next →
  position ≤ next ∧ next ≤ max position source.size)

include stays

theorem moves_bound {position last : Nat} {values : List α} (moves : Moves parser source position values last) :
    values.length + position ≤ last ∧ last ≤ max position source.size := by
  induction moves with
  | @stay position =>
      rw [List.length_nil]
      omega
  | @step position next last value values matched moved _ ih =>
      have front := stays position value next matched
      rw [List.length_cons]
      omega

theorem greedy_bound {position last : Nat} {values : List α} (greedy : Greedy parser source position values last) :
    values.length ≤ source.size + 1 ∧ position ≤ last ∧ last ≤ max position source.size := by
  cases greedy with
  | refused moves failed =>
      have bounds := moves_bound stays moves
      omega
  | still moves matched =>
      have bounds := moves_bound stays moves
      rw [List.length_append, List.length_singleton]
      omega

theorem many_ending (position : Nat) :
    (∃ values last, ((many parser).attempt source position).reply = .matched values last ∧
      Greedy parser source position values last) ∨
    ((many parser).attempt source position).reply = .unfinished ∧
      ∃ values last, Moves parser source position values last ∧ (parser.attempt source last).reply = .unfinished := by
  rw [many_attempt]
  refine (manyWithin_ending parser source (source.size + 1) position).imp_right ?_
  rintro ⟨cut, values, last, moves, reason⟩
  refine ⟨cut, values, last, moves, reason.resolve_left ?_⟩
  have bounds := moves_bound stays moves
  omega

end Staying

-- A repetition is the longest run of matches there is, wherever the parser goes: what any
-- limit lets through is that run, and some limit lets it through. A parser that stays in
-- the text needs no more than one match for each character, and one that takes none.
theorem repetition_is_greedy (parser : Parser ε α) (source : Source) :
    (∀ limit position, ((parser.manyWithin limit).attempt source position).reply ≠ .unfinished →
      ∃ values last, ((parser.manyWithin limit).attempt source position).reply = .matched values last ∧
        Greedy parser source position values last) ∧
    (∀ position, ((many parser).attempt source position).reply ≠ .unfinished →
      ∃ values last, ((many parser).attempt source position).reply = .matched values last ∧
        Greedy parser source position values last) ∧
    (∀ position values last, Greedy parser source position values last → ∃ enough, ∀ limit, enough ≤ limit →
      ((parser.manyWithin limit).attempt source position).reply = .matched values last) ∧
    ((∀ position value next, (parser.attempt source position).reply = .matched value next →
        position ≤ next ∧ next ≤ max position source.size) → ∀ position,
      (∃ values last, ((many parser).attempt source position).reply = .matched values last ∧
        Greedy parser source position values last ∧ values.length ≤ source.size + 1) ∨
      ∃ values last, Moves parser source position values last ∧ (parser.attempt source last).reply = .unfinished) := by
  have returned (limit position : Nat) (finishes : FinishesAt (parser.manyWithin limit) source position) :
      ∃ values last, ((parser.manyWithin limit).attempt source position).reply = .matched values last ∧
        Greedy parser source position values last :=
    (manyWithin_ending parser source limit position).resolve_right fun cut => finishes cut.1
  refine ⟨returned, returned (source.size + 1), ?_, ?_⟩
  · intro position values last greedy
    exact ⟨values.length + 1, fun limit enough => manyWithin_of_greedy greedy enough⟩
  · intro stays position
    rcases many_ending stays position with ⟨values, last, ending, greedy⟩ | ⟨-, values, last, moves, cut⟩
    · exact .inl ⟨values, last, ending, greedy, (greedy_bound stays greedy).1⟩
    · exact .inr ⟨values, last, moves, cut⟩

theorem letters_repeat_greedily :
    let letter : Parser Empty String := literal "a" .letter
    (∃ values last, ((many letter).attempt (.ofString "aab") 0).reply = .matched values last ∧
      Greedy letter (.ofString "aab") 0 values last ∧ values.length ≤ 4) ∧
    Greedy letter (.ofString "aab") 0 ["a", "a"] 2 := by
  intro letter
  obtain ⟨-, whole, -, staying⟩ := repetition_is_greedy letter (.ofString "aab")
  have finishes (position : Nat) : FinishesAt letter (.ofString "aab") position := finishes_literal _ _ _ position
  refine ⟨(staying (stays_literal "a" .letter _) 0).resolve_right ?_, ?_⟩
  · rintro ⟨values, last, -, cut⟩
    exact finishes last cut
  · have ending : ((many letter).attempt (.ofString "aab") 0).reply = .matched ["a", "a"] 2 := by rfl
    obtain ⟨values, last, matched, greedy⟩ := whole 0 (by simp [ending])
    cases matched.symm.trans ending
    exact greedy

example : ((many (literal "" .letter) : Parser Empty (List String)).attempt (.ofString "b") 0).reply =
    .matched [""] 0 := by rfl

inductive MaximalRun (parser : Parser ε α) (source : Source) : Nat → List α → Nat → Prop where
  | stop {position : Nat} {failure : Failure}
      (refused : (parser.attempt source position).reply = .failed failure) :
      MaximalRun parser source position [] position
  | step {position next last : Nat} {value : α} {values : List α}
      (matched : (parser.attempt source position).reply = .matched value next)
      (rest : MaximalRun parser source next values last) :
      MaximalRun parser source position (value :: values) last

theorem maximal_run_stops {position last : Nat} {values : List α}
    (run : MaximalRun parser source position values last) :
    ∃ failure, (parser.attempt source last).reply = .failed failure := by
  induction run with
  | stop refused => exact ⟨_, refused⟩
  | step _ _ ih => exact ih

theorem maximal_run_of_refused {position last : Nat} {values : List α} {failure : Failure}
    (refused : (parser.attempt source position).reply = .failed failure)
    (run : MaximalRun parser source position values last) : values = [] ∧ last = position := by
  cases run with
  | stop _ => exact ⟨rfl, rfl⟩
  | step matched _ => exact absurd (matched.symm.trans refused) (by simp)

theorem maximal_run_cons {position last : Nat} {value : α} {values : List α} :
    MaximalRun parser source position (value :: values) last ↔
      ∃ next, (parser.attempt source position).reply = .matched value next ∧
        MaximalRun parser source next values last := by
  constructor
  · intro run
    cases run with
    | step matched rest => exact ⟨_, matched, rest⟩
  · intro ⟨next, matched, rest⟩
    exact .step matched rest

theorem maximal_run_iff_greedy (advances : Advances parser) {position last : Nat} {values : List α} :
    MaximalRun parser source position values last ↔ Greedy parser source position values last := by
  have moving (first next : Nat) (value : α) (matched : (parser.attempt source first).reply = .matched value next) :
      next ≠ first := by
    have bounds := advances source first value next matched
    omega
  constructor
  · intro run
    induction run with
    | stop refused => exact .refused .stay refused
    | step matched _ ih => exact ih.step matched (moving _ _ _ matched)
  · intro greedy
    cases greedy with
    | refused moves failed =>
        induction moves with
        | stay => exact .stop failed
        | step matched _ _ ih => exact .step matched (ih failed)
    | still moves matched => exact absurd rfl (moving _ _ _ matched)

theorem many_matched_iff (advances : Advances parser) {position last : Nat} {values : List α} :
    ((many parser).attempt source position).reply = .matched values last ↔
      MaximalRun parser source position values last := by
  have stays := advances.stays source
  rw [maximal_run_iff_greedy advances]
  constructor
  · intro matched
    rcases many_ending stays position with ⟨others, behind, ending, greedy⟩ | ⟨cut, -⟩
    · cases matched.symm.trans ending
      exact greedy
    · cases matched.symm.trans cut
  · intro greedy
    have enough : values.length < source.size + 1 := by
      cases greedy with
      | refused moves failed =>
          have bounds := moves_bound stays moves
          omega
      | still moves again =>
          have bounds := advances source _ _ _ again
          omega
    exact manyWithin_of_greedy greedy enough

theorem maximal_run_exists (advances : Advances parser) (position : Nat)
    (finishes : ∀ later, position ≤ later → FinishesAt parser source later) :
    ∃ values last, MaximalRun parser source position values last := by
  rcases many_ending (advances.stays source) position with ⟨values, last, ending, greedy⟩ | ⟨-, values, last, moves, cut⟩
  · exact ⟨values, last, (maximal_run_iff_greedy advances).mpr greedy⟩
  · have bounds := moves_bound (advances.stays source) moves
    exact absurd cut (finishes last (by omega))

end LambdaCalculus.Parser

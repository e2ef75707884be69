import LambdaCalculus.Proofs.Parser.Repetition
import LambdaCalculus.Grammar.Progress

set_option autoImplicit false

namespace LambdaCalculus

namespace Source

def rest (source : Source) (position : Nat) : List Char :=
  source.chars.toList.drop position

def skip (source : Source) (accepts : Char → Bool) (position : Nat) : Nat :=
  position + ((source.rest position).takeWhile accepts).length

theorem rest_ofString (text : String) : (ofString text).rest 0 = text.toList := by
  simp [rest, ofString]

theorem charAt_eq_head (source : Source) (position : Nat) :
    source.charAt position = (source.rest position).head? := by
  simp [charAt, rest, List.head?_drop]

theorem rest_of_charAt {source : Source} {position : Nat} {c : Char}
    (found : source.charAt position = some c) : source.rest position = c :: source.rest (position + 1) := by
  rw [charAt_eq_head] at found
  obtain ⟨later, split⟩ := List.head?_eq_some_iff.mp found
  have tail : source.rest (position + 1) = (source.rest position).tail := by
    simp [rest, List.tail_drop]
  rw [tail, split, List.tail_cons]

theorem charAt_of_rest {source : Source} {position : Nat} {c : Char} {later : List Char}
    (left : source.rest position = c :: later) :
    source.charAt position = some c ∧ source.rest (position + 1) = later := by
  have found : source.charAt position = some c := by rw [charAt_eq_head, left, List.head?_cons]
  have split := (rest_of_charAt found).symm.trans left
  exact ⟨found, (List.cons.inj split).2⟩

theorem rest_eq_nil_iff (source : Source) (position : Nat) :
    source.rest position = [] ↔ source.size ≤ position := by
  simp [rest, size]

theorem drop_length_takeWhile (accepts : Char → Bool) (text : List Char) :
    text.drop (text.takeWhile accepts).length = text.dropWhile accepts := by
  induction text with
  | nil => rfl
  | cons c later ih =>
      by_cases accepted : accepts c = true
      · simpa [accepted] using ih
      · simp [accepted]

theorem rest_skip (source : Source) (accepts : Char → Bool) (position : Nat) :
    source.rest (source.skip accepts position) = (source.rest position).dropWhile accepts := by
  rw [← drop_length_takeWhile]
  simp only [rest, skip, List.drop_drop]

theorem skip_of_charAt {source : Source} {accepts : Char → Bool} {position : Nat} {c : Char}
    (found : source.charAt position = some c) (accepted : accepts c = true) :
    source.skip accepts position = source.skip accepts (position + 1) := by
  simp only [skip, rest_of_charAt found, List.takeWhile_cons_of_pos accepted, List.length_cons]
  omega

theorem length_rest (source : Source) (position : Nat) :
    (source.rest position).length = source.size - position := by
  simp [rest, size]

theorem skip_onwards (source : Source) (accepts : Char → Bool) (position : Nat) :
    position ≤ source.skip accepts position :=
  Nat.le_add_right _ _

theorem skip_inside {source : Source} {position : Nat} (accepts : Char → Bool)
    (inside : position ≤ source.size) : source.skip accepts position ≤ source.size := by
  have fewer := (List.takeWhile_sublist (l := source.rest position) accepts).length_le
  rw [length_rest] at fewer
  simp only [skip]
  omega

theorem rest_eq_skipped (source : Source) (accepts : Char → Bool) (position : Nat) :
    source.rest position =
      (source.rest position).takeWhile accepts ++ source.rest (source.skip accepts position) := by
  rw [rest_skip, List.takeWhile_append_dropWhile]

theorem take_of_rest {source : Source} {front : List Char} {position : Nat}
    (split : source.rest 0 = front ++ source.rest position) (inside : position ≤ source.size) :
    (source.rest 0).take position = front := by
  have lengths := congrArg List.length split
  rw [List.length_append, length_rest, length_rest] at lengths
  have reached : front.length = position := by omega
  rw [split, ← reached, List.take_left]

theorem not_accepted_at_skip {source : Source} {accepts : Char → Bool} {position : Nat} {c : Char}
    (found : source.charAt (source.skip accepts position) = some c) : accepts c = false := by
  rw [charAt_eq_head, rest_skip] at found
  simpa [found] using List.head?_dropWhile_not accepts (source.rest position)

end Source

namespace Parser

variable {ε : Type}

theorem satisfy_matched {accepts : Char → Bool} (cause : Cause) {source : Source} {position : Nat} {c : Char}
    (found : source.charAt position = some c) (accepted : accepts c = true) :
    ((satisfy accepts cause : Parser ε Char).attempt source position).reply = .matched c (position + 1) := by
  rw [satisfy_reply, found, Option.filter_some, if_pos accepted]

theorem satisfy_failed {accepts : Char → Bool} (cause : Cause) {source : Source} {position : Nat}
    (absent : ∀ c, source.charAt position = some c → accepts c = false) :
    ((satisfy accepts cause : Parser ε Char).attempt source position).reply =
      .failed (.ofCause position cause) := by
  have nothing : (source.charAt position).filter accepts = none := by
    rw [Option.filter_eq_none_iff]
    intro c found
    simp [absent c found]
  rw [satisfy_reply, nothing]

theorem many_satisfy_reply (accepts : Char → Bool) (cause : Cause) (source : Source) (position : Nat) :
    ((many (satisfy accepts cause : Parser ε Char)).attempt source position).reply =
      .matched ((source.rest position).takeWhile accepts) (source.skip accepts position) := by
  rw [many_matched_iff (advances_satisfy accepts cause)]
  generalize left : source.rest position = text
  induction text generalizing position with
  | nil =>
      have refused : ((satisfy accepts cause : Parser ε Char).attempt source position).reply =
          .failed (.ofCause position cause) := satisfy_failed cause (by simp [Source.charAt_eq_head, left])
      simpa [Source.skip, left] using MaximalRun.stop refused
  | cons c later ih =>
      obtain ⟨found, behind⟩ := Source.charAt_of_rest left
      by_cases accepted : accepts c = true
      · rw [Source.skip_of_charAt found accepted, List.takeWhile_cons_of_pos accepted]
        exact .step (satisfy_matched cause found accepted) (ih (position + 1) behind)
      · have refused : ((satisfy accepts cause : Parser ε Char).attempt source position).reply =
            .failed (.ofCause position cause) := satisfy_failed cause (by simp [found, accepted])
        simpa [Source.skip, left, accepted] using MaximalRun.stop refused

end Parser

namespace Grammar

open LambdaCalculus.Parser

variable {ε : Type} {report : Report ε} {source : Source} {position : Nat}

theorem blanks_reply (source : Source) (position : Nat) :
    ((blanks : Parser ε Unit).attempt source position).reply = .matched () (source.skip isBlank position) := by
  simp only [blanks, bind_reply, many_satisfy_reply]
  rfl

theorem startsWith_mark (source : Source) (position : Nat) (mark : Mark) :
    source.startsWith position mark.text = true ↔ source.charAt position = some mark.char := by
  cases mark <;> simp [Source.startsWith, Source.matchesAt, Mark.text, Mark.char]

theorem punctuation_reply (mark : Mark) (source : Source) (position : Nat) :
    ((punctuation report mark).attempt source position).reply =
      if source.charAt (source.skip isBlank position) = some mark.char then
        .matched mark.text (source.skip isBlank position + 1)
      else .failed (.ofCause (source.skip isBlank position) (.mark mark)) := by
  simp only [punctuation, named_reply, Option.elim_none, bind_reply, blanks_reply, literal_reply,
    startsWith_mark, mark_text_length]

variable [Alphabet]

theorem identifier_matched {c : Char} (found : source.charAt (source.skip isBlank position) = some c)
    (letter : isLetter c = true) :
    ((identifier report).attempt source position).reply =
      .matched (String.ofList (c :: (source.rest (source.skip isBlank position + 1)).takeWhile isLetter))
        (source.skip isLetter (source.skip isBlank position + 1)) := by
  have first := satisfy_matched (ε := ε) .letter found letter
  simp only [identifier, named_reply, Option.elim_some, context_reply, bind_reply, blanks_reply,
    Grammar.letter, first, many_satisfy_reply]
  rfl

theorem identifier_failed
    (absent : ∀ c, source.charAt (source.skip isBlank position) = some c → isLetter c = false) :
    ((identifier report).attempt source position).reply =
      .failed ((Failure.ofCause (source.skip isBlank position) .letter).context position .identifier) := by
  have first := satisfy_failed (ε := ε) .letter absent
  simp only [identifier, named_reply, Option.elim_some, context_reply, bind_reply, blanks_reply,
    Grammar.letter, first]

end Grammar

end LambdaCalculus

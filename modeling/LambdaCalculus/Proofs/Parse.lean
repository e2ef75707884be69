import LambdaCalculus.Proofs.Grammar.Language

set_option autoImplicit false

namespace LambdaCalculus

open LambdaCalculus.Parser

variable {ε α : Type} {report : Report ε}

theorem result_ok_iff {reply : Reply α} (finished : reply ≠ .unfinished) {value : α} :
    reply.result finished = .ok value ↔ ∃ next, reply = .matched value next := by
  cases reply with
  | matched found next =>
      constructor
      · intro same
        cases same
        exact ⟨next, rfl⟩
      · intro ⟨behind, same⟩
        cases same
        rfl
  | failed failure =>
      constructor
      · intro same
        cases same
      · intro ⟨next, same⟩
        cases same
  | unfinished => exact absurd rfl finished

namespace Grammar

variable {source : Source} {position : Nat}

theorem skip_eq_size_iff (within : position ≤ source.size) :
    source.skip isBlank position = source.size ↔ (source.rest position).all isBlank = true := by
  have bound := Source.skip_inside isBlank within
  rw [← dropWhile_eq_nil_iff_all, ← Source.rest_skip, Source.rest_eq_nil_iff]
  omega

variable [Alphabet]

theorem topExpression_matched_iff {term : Term} {last : Nat} :
    ((topExpression report).attempt source position).reply = .matched term last ↔
      last = source.size ∧ ∃ next, ((expression report).attempt source position).reply = .matched term next ∧
        (source.rest next).all isBlank = true := by
  simp only [topExpression, named_matched_iff, bind_matched_iff, pure_matched_iff, blanks_reply, atEnd_reply]
  constructor
  · rintro ⟨_, next, read, blank, behind, same, _, finish, ended, rfl, rfl⟩
    have bounds := advances_expression source position term next read
    cases same
    split at ended
    next reached =>
      cases ended
      exact ⟨reached, next, read, (skip_eq_size_iff bounds.2).mp reached⟩
    next => cases ended
  · rintro ⟨rfl, next, read, blank⟩
    have bounds := advances_expression source position term next read
    have reached := (skip_eq_size_iff bounds.2).mpr blank
    exact ⟨term, next, read, (), _, rfl, (), source.size, by rw [if_pos reached, reached], rfl, rfl⟩

end Grammar

variable [Alphabet]

theorem parseReporting_ok_iff {text : String} {term : Term} :
    (parseReporting report text).1 = .ok term ↔
      ∃ last, ((Grammar.topExpression report).attempt (.ofString text) 0).reply = .matched term last :=
  result_ok_iff (Grammar.finishes_topExpression (.ofString text) 0)

theorem parse_ok_iff (text : String) (term : Term) :
    parse text = .ok term ↔
      ∃ phrase : Phrase, tokens text.toList = some phrase.tokens ∧ phrase.term = term := by
  rw [parse, parseReporting_ok_iff]
  simp only [Grammar.topExpression_matched_iff]
  constructor
  · rintro ⟨last, -, next, read, blank⟩
    obtain ⟨phrase, same, spelled⟩ := Grammar.expression_sound _ _ _ term next read
    rw [Source.rest_ofString] at spelled
    exact ⟨phrase, tokens_eq_some_iff.mpr ⟨_, spelled, blank⟩, same⟩
  · rintro ⟨phrase, words, rfl⟩
    obtain ⟨later, spelled, blank⟩ := tokens_eq_some_iff.mp words
    rw [← Source.rest_ofString] at spelled
    obtain ⟨next, read, rfl⟩ := Grammar.phrase_complete _ _ phrase 0 later spelled
      (Grammar.items_end_of_blank blank)
    exact ⟨_, rfl, next, read, blank⟩

theorem parse_reads_the_language :
    (∀ (text : String) (term : Term), parse text = .ok term ↔
      ∃ phrase : Phrase, tokens text.toList = some phrase.tokens ∧ phrase.term = term) ∧
    (∀ first second : Phrase, first.tokens = second.tokens → first = second) ∧
    (∀ text other : String, tokens text.toList = tokens other.toList →
      (parse text).toOption = (parse other).toOption) ∧
    (∀ text : String, (∃ failure, parse text = .error failure) ↔
      ∀ phrase : Phrase, tokens text.toList ≠ some phrase.tokens) := by
  refine ⟨parse_ok_iff, ?_, ?_, ?_⟩
  · intro first second same
    have ended : Ended Token.startsItem [] := by simp [Ended]
    exact (phrase_unique first second [] [] ended ended (by rw [same])).1
  · intro text other same
    cases reading : parse text with
    | ok term =>
        obtain ⟨phrase, words, tree⟩ := (parse_ok_iff text term).mp reading
        rw [(parse_ok_iff other term).mpr ⟨phrase, same ▸ words, tree⟩]
    | error failure =>
        cases again : parse other with
        | ok term =>
            obtain ⟨phrase, words, tree⟩ := (parse_ok_iff other term).mp again
            rw [(parse_ok_iff text term).mpr ⟨phrase, same ▸ words, tree⟩] at reading
            cases reading
        | error other => rfl
  · intro text
    constructor
    · intro ⟨failure, reading⟩ phrase words
      rw [(parse_ok_iff text phrase.term).mpr ⟨phrase, words, rfl⟩] at reading
      cases reading
    · intro outside
      cases reading : parse text with
      | ok term =>
          obtain ⟨phrase, words, -⟩ := (parse_ok_iff text term).mp reading
          exact absurd words (outside phrase)
      | error failure => exact ⟨failure, rfl⟩

end LambdaCalculus

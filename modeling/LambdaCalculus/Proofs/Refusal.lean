import LambdaCalculus.Letter
import LambdaCalculus.Proofs.Grammar.Stuck
import LambdaCalculus.Proofs.Parse
import LambdaCalculus.Proofs.Spelling

set_option autoImplicit false

namespace LambdaCalculus

open LambdaCalculus.Parser

theorem result_error_iff {α : Type} {reply : Reply α} (finished : reply ≠ .unfinished) {failure : Failure} :
    reply.result finished = .error failure ↔ reply = .failed failure := by
  cases reply with
  | matched value next => simp [Reply.result]
  | failed other => simp [Reply.result]
  | unfinished => exact absurd rfl finished

namespace Failure

theorem message_extraCharacters (stop : Nat) :
    (ofCause stop (.extraCharacters stop)).message =
      "lambda:" ++ toString stop ++ ": extra characters are detected at position " ++ toString stop := by
  have tag : ": extra characters are detected at position " =
    ": " ++ "extra characters are detected at position " := by decide
  have told : (Fragment.mk stop (.extraCharacters stop)).text =
    "lambda:" ++ toString stop ++ ": " ++ ("extra characters are detected at position " ++ toString stop) := rfl
  rw [message, fragments_ofCause, List.map_singleton, String.intercalate_singleton, told, tag]
  simp only [String.append_assoc]

end Failure

section

variable [Alphabet]

def Cause.admits : Cause → Char → Bool
  | .letter, c => isLetter c
  | .mark expected, c => c == expected.char
  | _, _ => false

namespace Grammar

variable {ε : Type} {report : Report ε} {source : Source} {position : Nat} {failure : Failure}

theorem no_letter_of_items_end (ended : ItemsEnd (source.rest position)) {c : Char}
    (found : source.charAt (source.skip isBlank position) = some c) : isLetter c = false := by
  cases letter : isLetter c with
  | false => rfl
  | true =>
      have named := read_rest source position
      simp only [found, if_pos letter] at named
      cases ended _ _ named

theorem stuck_innermost (stuck : Stuck source position failure) :
    failure.innermost.cause ∈ [.letter, .mark .dot, .mark .rightBracket] ∧
      ∀ c, source.charAt failure.position = some c → isBlank c = false ∧ failure.innermost.cause.admits c = false := by
  induction stuck with
  | item ended =>
      exact ⟨List.mem_cons_self, fun c found => ⟨Source.not_accepted_at_skip found, no_letter_of_items_end ended found⟩⟩
  | argument headed inside absent =>
      exact ⟨List.mem_cons_self, fun c found => ⟨Source.not_accepted_at_skip found, absent c found⟩⟩
  | dot headed inside absent =>
      refine ⟨List.mem_cons_of_mem _ List.mem_cons_self, fun c found => ⟨Source.not_accepted_at_skip found, ?_⟩⟩
      exact beq_eq_false_iff_ne.mpr fun same => absent (same ▸ found)
  | body headed inside stuck ih => exact ih
  | inner opened inside stuck ih => exact ih
  | rightBracket filled inside absent =>
      refine ⟨List.mem_cons_of_mem _ (List.mem_cons_of_mem _ List.mem_cons_self), fun c found =>
        ⟨Source.not_accepted_at_skip found, ?_⟩⟩
      exact beq_eq_false_iff_ne.mpr fun same => absent (same ▸ found)

theorem stuck_outermost (stuck : Stuck source position failure) :
    failure.fragments.getLast? = some ⟨position, .expression⟩ := by
  cases stuck <;> simp [Failure.fragments_within, itemTrail, expressionTrail]

theorem topExpression_refused
    (refused : ((topExpression report).attempt source position).reply = .failed failure) :
    ((expression report).attempt source position).reply = .failed failure ∨
    ∃ term next, ((expression report).attempt source position).reply = .matched term next ∧
      source.skip isBlank next ≠ source.size ∧
      failure = .ofCause (source.skip isBlank next) (.extraCharacters (source.skip isBlank next)) := by
  simp only [topExpression, named_reply, Option.elim_none, bind_failed_iff, blanks_reply, atEnd_reply,
    pure_failed_iff, and_false, exists_false, or_false] at refused
  obtain refused | ⟨term, next, matched, blanks | ⟨_, last, skipped, refused⟩⟩ := refused
  · exact .inl refused
  · cases blanks
  · cases skipped
    split at refused
    next => cases refused
    next short =>
      cases refused
      exact .inr ⟨term, next, matched, short, rfl⟩

theorem no_letter_behind {term : Term} {last : Nat} {c : Char}
    (matched : ((expression report).attempt source position).reply = .matched term last)
    (found : source.charAt (source.skip isBlank last) = some c) : isLetter c = false := by
  obtain ⟨refusal, refused⟩ := expression_stops matched
  obtain ⟨noVar, -, -, varEnd, -⟩ := atom_failed refused
  exact (var_failed_iff.mp varEnd).1 c found

end Grammar

theorem parse_refused {text : String} {failure : Failure} (refused : parse text = .error failure) :
    Grammar.Stuck (.ofString text) 0 failure ∨
    ∃ (stop : Nat) (phrase : Phrase), failure = .ofCause stop (.extraCharacters stop) ∧
      (∃ c, text.toList[stop]? = some c ∧ isBlank c = false ∧ isLetter c = false) ∧
      tokens (text.toList.take stop) = some phrase.tokens := by
  have reply := (result_error_iff (Grammar.finishes_topExpression (.ofString text) 0)).mp refused
  obtain stuck | ⟨term, next, matched, short, rfl⟩ := Grammar.topExpression_refused reply
  · exact .inl (Grammar.expression_stuck _ _ _ _ stuck)
  · obtain ⟨phrase, -, spelled⟩ := Grammar.expression_sound _ _ _ term next matched
    have bounds := Grammar.advances_expression _ 0 term next matched
    have inside := Source.skip_inside isBlank bounds.2
    obtain ⟨c, found⟩ : ∃ c, (Source.ofString text).charAt ((Source.ofString text).skip isBlank next) = some c :=
      ⟨_, Array.getElem?_eq_getElem (Nat.lt_of_le_of_ne inside short)⟩
    refine .inr ⟨_, phrase, rfl, ⟨c, ?_, Source.not_accepted_at_skip found, Grammar.no_letter_behind matched found⟩, ?_⟩
    · rw [← Source.charAt_ofString, found]
    · obtain ⟨front, split, extend⟩ := spells_front spelled
      have blank : (((Source.ofString text).rest next).takeWhile isBlank).all isBlank = true := List.all_takeWhile
      rw [Source.rest_eq_skipped _ isBlank next, ← List.append_assoc] at split
      rw [← Source.rest_ofString, Source.take_of_rest split inside]
      exact tokens_eq_some_iff.mpr ⟨_, extend _ (apart_of_separate _ (separate_blanks blank)), blank⟩

def Failure.TellsLeftover (failure : Failure) (text : String) : Prop :=
  failure.message = "lambda:" ++ toString failure.position ++ ": extra characters are detected at position " ++
      toString failure.position ∧
    (∃ c, text.toList[failure.position]? = some c ∧ isBlank c = false ∧ isLetter c = false) ∧
    ∃ term, parse (String.ofList (text.toList.take failure.position)) = .ok term

def Failure.TellsTrail (failure : Failure) (text : String) : Prop :=
  failure.message = "\n".intercalate (failure.fragments.map fun fragment =>
      "lambda:" ++ toString fragment.position ++ ": " ++ fragment.cause.message) ∧
    (∃ missing, failure.fragments.head? = some ⟨failure.position, missing⟩ ∧
      (missing, missing.message) ∈ [(.letter, "a letter is expected"),
        (.mark .dot, "a punctuation `.` is expected"), (.mark .rightBracket, "a punctuation `)` is expected")] ∧
      (failure.position = text.length ∨ ∃ c, text.toList[failure.position]? = some c ∧
        isBlank c = false ∧ missing.admits c = false)) ∧
    (failure.fragments.map Fragment.position).Pairwise (· ≥ ·) ∧
    failure.fragments.getLast?.map Fragment.text = some "lambda:0: an expression is expected"

theorem tells_leftover {text : String} {stop : Nat} {phrase : Phrase}
    (behind : ∃ c, text.toList[stop]? = some c ∧ isBlank c = false ∧ isLetter c = false)
    (words : tokens (text.toList.take stop) = some phrase.tokens) :
    (Failure.ofCause stop (.extraCharacters stop)).TellsLeftover text := by
  refine ⟨Failure.message_extraCharacters stop, behind, phrase.term, (parse_ok_iff _ _).mpr ⟨phrase, ?_, rfl⟩⟩
  rw [String.toList_ofList]
  exact words

theorem tells_trail {text : String} {failure : Failure} (stuck : Grammar.Stuck (.ofString text) 0 failure) :
    failure.TellsTrail text := by
  obtain ⟨cause, absent⟩ := Grammar.stuck_innermost stuck
  have inside := Grammar.stuck_inside stuck (Nat.zero_le _)
  refine ⟨rfl, ⟨failure.innermost.cause, rfl, ?_, ?_⟩, (Grammar.stuck_descends stuck).2, ?_⟩
  · simp only [List.mem_cons, List.not_mem_nil, or_false] at cause
    obtain letter | dot | bracket := cause
    · rw [letter]; decide
    · rw [dot]; decide
    · rw [bracket]; decide
  · rcases Nat.eq_or_lt_of_le inside with reached | short
    · exact .inl (reached.trans (Source.size_ofString text))
    · have found : (Source.ofString text).charAt failure.position = some _ := Array.getElem?_eq_getElem short
      exact .inr ⟨_, (Source.charAt_ofString text _).symm.trans found, absent _ found⟩
  · rw [Grammar.stuck_outermost stuck]
    rfl

theorem failure_tells_leftover_or_trail {text : String} {failure : Failure} (refused : parse text = .error failure) :
    failure.TellsLeftover text ∨ failure.TellsTrail text := by
  obtain stuck | ⟨stop, phrase, rfl, behind, words⟩ := parse_refused refused
  · exact .inr (tells_trail stuck)
  · exact .inl (tells_leftover behind words)

end

def missingDot : Failure :=
  (((Failure.ofCause 7 (.mark .dot)).within 4 (.abs :: Grammar.itemTrail)).within 3 Grammar.itemTrail).within 0
    (.abs :: Grammar.itemTrail)

theorem missing_dot_tells_leftover_or_trail :
    parse "\\x.(\\y y)" = .error missingDot ∧
      (missingDot.TellsLeftover "\\x.(\\y y)" ∨ missingDot.TellsTrail "\\x.(\\y y)") := by
  have refused : parse "\\x.(\\y y)" = .error missingDot := by rfl
  exact ⟨refused, failure_tells_leftover_or_trail refused⟩

-- What is missing in a later item is not told, as the expression may as well end in front of it.
example : parse "f (\\x x" = .error (.ofCause 2 (.extraCharacters 2)) := by rfl

end LambdaCalculus

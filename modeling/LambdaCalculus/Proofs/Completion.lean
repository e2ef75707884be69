import LambdaCalculus.Letter
import LambdaCalculus.Proofs.Refusal

set_option autoImplicit false

namespace LambdaCalculus

section

variable [Alphabet]

def Viable (front : String) : Prop :=
  ∃ (rear : String) (term : Term), parse (front ++ rear) = .ok term

theorem viable_take {text : String} {stop : Nat} (rear : List Char) {phrase : Phrase}
    (words : tokens (text.toList.take stop ++ rear) = some phrase.tokens) :
    Viable (String.ofList (text.toList.take stop)) := by
  refine ⟨String.ofList rear, phrase.term, (parse_ok_iff _ _).mpr ⟨phrase, ?_, rfl⟩⟩
  rw [String.toList_append, String.toList_ofList, String.toList_ofList]
  exact words

theorem viable_of_longer {text : String} {stop later : Nat} (before : stop ≤ later)
    (viable : Viable (String.ofList (text.toList.take later))) : Viable (String.ofList (text.toList.take stop)) := by
  obtain ⟨rear, term, read⟩ := viable
  refine ⟨String.ofList ((text.toList.take later).drop stop) ++ rear, term, ?_⟩
  have whole : text.toList.take later = text.toList.take stop ++ (text.toList.take later).drop stop := by
    conv => lhs; rw [← List.take_append_drop stop (text.toList.take later)]
    rw [List.take_take, Nat.min_eq_left before]
  rw [← String.append_assoc, ← String.ofList_append, ← whole]
  exact read

namespace Grammar

variable {source : Source} {position stop : Nat} {failure : Failure} {rear : List Char} {words more : List Token}

def Completes (source : Source) (position stop : Nat) (rear : List Char) (words : List Token) : Prop :=
  ∃ front, source.rest position = front ++ source.rest stop ∧ Writes (front ++ rear) words

theorem completes_blanks (source : Source) (position : Nat) (nonempty : words ≠ []) (writes : Writes rear words) :
    Completes source position (source.skip isBlank position) rear words :=
  ⟨_, source.rest_eq_skipped isBlank position, writes_blanks _ List.all_takeWhile nonempty writes⟩

theorem completes_behind_mark {sign : Mark} {next : Nat}
    (headed : Spells (source.rest position) words (source.rest next)) (last : words.getLast? = some (.mark sign))
    (completes : Completes source next stop rear more) : Completes source position stop rear (words ++ more) := by
  obtain ⟨front, split, extend⟩ := writes_behind headed
  obtain ⟨inner, behind, writes⟩ := completes
  refine ⟨front ++ inner, by rw [split, behind, List.append_assoc], ?_⟩
  rw [List.append_assoc]
  exact extend _ _ (fun letters name => by rw [last] at name; cases name) writes

theorem completes_behind {next : Nat} (headed : Spells (source.rest position) words (source.rest next))
    (separate : Separate rear) (nonempty : more ≠ []) (writes : Writes rear more) :
    Completes source position (source.skip isBlank next) rear (words ++ more) := by
  obtain ⟨front, split, extend⟩ := writes_behind headed
  have blank : ((source.rest next).takeWhile isBlank).all isBlank = true := List.all_takeWhile
  refine ⟨front ++ (source.rest next).takeWhile isBlank, ?_, ?_⟩
  · rw [split, List.append_assoc, ← source.rest_eq_skipped isBlank next]
  · rw [List.append_assoc]
    have apart := apart_of_separate words (separate_append (separate_blanks blank) separate)
    exact extend _ _ apart (writes_blanks _ blank nonempty writes)

theorem completes_closed {c : Char} {tail : List Char} (completes : Completes source position stop rear words)
    (separate : isLetter c = false) (writes : Writes (c :: tail) more) :
    Completes source position stop (rear ++ c :: tail) (words ++ more) := by
  obtain ⟨front, split, spelled⟩ := completes
  refine ⟨front, split, ?_⟩
  rw [← List.append_assoc]
  exact writes_append spelled writes separate

def placeholder (letter : Char) : Phrase :=
  .closed (.name (String.ofList [letter])) .nil

theorem writes_placeholder {letter : Char} (known : isLetter letter = true) :
    Writes [letter] (placeholder letter).tokens := by
  have isName : IsName (String.ofList [letter]) := by simpa [IsName] using known
  simpa [placeholder, Phrase.tokens, Primary.tokens, Primaries.tokens] using writes_name isName

-- What an expression got stuck on can be put behind the place where it did: a letter
-- wherever a name may stand, and the marks that are still to come.
theorem stuck_completes {letter : Char} (known : isLetter letter = true) (stuck : Stuck source position failure) :
    ∃ (rear : List Char) (phrase : Phrase), Completes source position failure.position rear phrase.tokens := by
  have name := writes_placeholder known
  have dotted := writes_mark .dot name
  have bracket := writes_mark .rightBracket writes_nil
  induction stuck with
  | item ended => exact ⟨[letter], placeholder letter, completes_blanks source _ (List.cons_ne_nil _ _) name⟩
  | @argument position first headed inside absent =>
      have head := completes_blanks source first (List.cons_ne_nil _ _) (writes_append name dotted (isLetter_mark .dot))
      have whole := completes_behind_mark headed rfl head
      exact ⟨_, .abstracted .nil (String.ofList [letter]) (placeholder letter), whole⟩
  | @dot position second argument headed inside absent =>
      have whole := completes_behind headed (separate_cons _ (isLetter_mark .dot)) (List.cons_ne_nil _ _) dotted
      exact ⟨_, .abstracted .nil argument (placeholder letter), whole⟩
  | @body position third argument failure headed inside stuck ih =>
      obtain ⟨rear, phrase, completes⟩ := ih
      exact ⟨rear, .abstracted .nil argument phrase, (completes_behind_mark headed rfl completes :)⟩
  | inner opened inside stuck ih =>
      obtain ⟨rear, phrase, completes⟩ := ih
      have closed := completes_closed completes (isLetter_mark .rightBracket) bracket
      refine ⟨rear ++ [Mark.rightBracket.char], .closed (.bracketed phrase) .nil, ?_⟩
      rw [closed_bracketed_tokens]
      exact completes_behind_mark opened rfl closed
  | @rightBracket position second phrase filled inside absent =>
      refine ⟨[Mark.rightBracket.char], .closed (.bracketed phrase) .nil, ?_⟩
      rw [closed_bracketed_tokens]
      exact completes_behind filled (separate_cons _ (isLetter_mark .rightBracket)) (List.cons_ne_nil _ _) bracket

end Grammar

variable {text : String} {failure : Failure}

theorem viable_of_refused {letter : Char} (known : isLetter letter = true) (refused : parse text = .error failure) :
    failure.position ≤ text.length ∧ Viable (String.ofList (text.toList.take failure.position)) := by
  obtain stuck | ⟨stop, phrase, rfl, ⟨c, found, -⟩, words⟩ := parse_refused refused
  · have inside := Grammar.stuck_inside stuck (Nat.zero_le _)
    obtain ⟨rear, phrase, front, split, writes⟩ := Grammar.stuck_completes known stuck
    have taken := Source.take_of_rest split inside
    rw [Source.rest_ofString] at taken
    rw [← taken] at writes
    exact ⟨Source.size_ofString text ▸ inside, viable_take rear (tokens_of_writes writes)⟩
  · have before := (List.getElem?_eq_some_iff.mp found).1
    rw [← List.append_nil (text.toList.take stop)] at words
    exact ⟨Nat.le_of_lt (String.length_toList ▸ before), viable_take [] words⟩

theorem refused_behind_viable {letter : Char} (known : isLetter letter = true)
    (refused : parse text = .error failure) :
    failure.position ≤ text.length ∧
      Viable (String.ofList (text.toList.take failure.position)) ∧
      ∀ stop, ¬ Viable (String.ofList (text.toList.take stop)) → failure.position < stop := by
  obtain ⟨inside, viable⟩ := viable_of_refused known refused
  refine ⟨inside, viable, ?_⟩
  intro stop mistaken
  exact Nat.lt_of_not_le fun beyond => mistaken (viable_of_longer beyond viable)

end

theorem failure_leaves_viable_prefix {text : String} {failure : Failure} (refused : parse text = .error failure) :
    failure.position ≤ text.length ∧
      Viable (String.ofList (text.toList.take failure.position)) ∧
      ∀ stop, ¬ Viable (String.ofList (text.toList.take stop)) → failure.position < stop :=
  refused_behind_viable (Letter.listed_of_isAlpha 'x' (by decide)) refused

theorem missing_dot_leaves_viable_prefix :
    parse "\\x.(\\y y)" = .error missingDot ∧
      missingDot.position ≤ "\\x.(\\y y)".length ∧
      Viable (String.ofList ("\\x.(\\y y)".toList.take missingDot.position)) ∧
      ∀ stop, ¬ Viable (String.ofList ("\\x.(\\y y)".toList.take stop)) → missingDot.position < stop := by
  have refused : parse "\\x.(\\y y)" = .error missingDot := by rfl
  exact ⟨refused, failure_leaves_viable_prefix refused⟩

end LambdaCalculus

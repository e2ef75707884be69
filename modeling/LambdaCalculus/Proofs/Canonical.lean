import LambdaCalculus.Proofs.Phrase

set_option autoImplicit false

namespace LambdaCalculus

-- The derivation of a canonical text, put together as the text is: an abstraction in
-- function place and all arguments but variables go into brackets.
def Primaries.snoc : Primaries → Primary → Primaries
  | .nil, last => .cons last .nil
  | .cons first rest, last => .cons first (rest.snoc last)

def Phrase.argued : Phrase → Primary → Phrase
  | .closed first rest, argument => .closed first (rest.snoc argument)
  | .abstracted front name body, argument =>
      .closed (.bracketed (.abstracted front name body)) (.cons argument .nil)

def Phrase.primary : Phrase → Primary
  | .closed (.name letters) .nil => .name letters
  | phrase => .bracketed phrase

def Term.phrase : Term → Phrase
  | .var name => .closed (.name name) .nil
  | .abs argument body => .abstracted .nil argument body.phrase
  | .app function argument => function.phrase.argued argument.phrase.primary

theorem snoc_terms (primaries : Primaries) (last : Primary) :
    (primaries.snoc last).terms = primaries.terms ++ [last.term] := by
  cases primaries with
  | nil => rfl
  | cons first rest => exact congrArg (first.term :: ·) (snoc_terms rest last)

theorem snoc_tokens (primaries : Primaries) (last : Primary) :
    (primaries.snoc last).tokens = primaries.tokens ++ last.tokens := by
  cases primaries with
  | nil => simp [Primaries.snoc, Primaries.tokens]
  | cons first rest => simp [Primaries.snoc, Primaries.tokens, snoc_tokens rest last]

theorem term_argued (phrase : Phrase) (argument : Primary) :
    (phrase.argued argument).term = .app phrase.term argument.term := by
  cases phrase with
  | closed first rest => simp [Phrase.argued, Phrase.term, snoc_terms]
  | abstracted front name body => rfl

theorem term_primary (phrase : Phrase) : phrase.primary.term = phrase.term := by
  unfold Phrase.primary
  split <;> rfl

theorem term_phrase (term : Term) : term.phrase.term = term := by
  induction term with
  | var name => rfl
  | abs argument body ih => exact congrArg (Term.abs argument) ih
  | app function argument functionSame argumentSame =>
      rw [Term.phrase, term_argued, term_primary, functionSame, argumentSame]

def bracketTokens (words : List Token) : List Token :=
  .mark .leftBracket :: (words ++ [.mark .rightBracket])

theorem argued_closed (phrase : Phrase) (argument : Primary) :
    ∃ head first rest, phrase.argued argument = .closed head (.cons first rest) := by
  cases phrase with
  | closed head rest =>
      cases rest with
      | nil => exact ⟨_, _, _, rfl⟩
      | cons first others => exact ⟨_, _, _, rfl⟩
  | abstracted front name body => exact ⟨_, _, _, rfl⟩

theorem function_tokens (function : Term) (argument : Primary) :
    (function.phrase.argued argument).tokens =
      (if function.isAbs then bracketTokens function.phrase.tokens else function.phrase.tokens) ++
        argument.tokens := by
  cases function with
  | var name => simp [Term.phrase, Phrase.argued, Phrase.tokens, Primaries.snoc, Primaries.tokens, Term.isAbs]
  | abs name body =>
      simp [Term.phrase, Phrase.argued, Phrase.tokens, Primary.tokens, Primaries.tokens, bracketTokens, Term.isAbs]
  | app inner last =>
      obtain ⟨head, first, rest, same⟩ := argued_closed inner.phrase last.phrase.primary
      have closed : (Term.app inner last).phrase = .closed head (.cons first rest) := same
      simp [closed, Phrase.argued, Phrase.tokens, snoc_tokens, Term.isAbs]

theorem argument_tokens (argument : Term) :
    argument.phrase.primary.tokens =
      if argument.isVar then argument.phrase.tokens else bracketTokens argument.phrase.tokens := by
  cases argument with
  | var name => simp [Term.phrase, Phrase.primary, Phrase.tokens, Primaries.tokens, Term.isVar]
  | abs name body => rfl
  | app inner last =>
      obtain ⟨head, first, rest, same⟩ := argued_closed inner.phrase last.phrase.primary
      have closed : (Term.app inner last).phrase = .closed head (.cons first rest) := same
      rw [closed]
      cases head <;> rfl

end LambdaCalculus

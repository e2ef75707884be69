import LambdaCalculus.Proofs.Token

set_option autoImplicit false

namespace LambdaCalculus

-- The derivations of the notation, as trees over its tokens:
--   P ::= ident | '(' E ')'
--   L ::= '\' ident '.' E
--   E ::= P+ | P* L
-- An abstraction without brackets stands last among the items of an E, and all that
-- follows it there belongs to its body.
mutual
inductive Primary where
  | name (letters : String)
  | bracketed (inner : Phrase)
inductive Primaries where
  | nil
  | cons (first : Primary) (rest : Primaries)
inductive Phrase where
  | closed (first : Primary) (rest : Primaries)
  | abstracted (front : Primaries) (argument : String) (body : Phrase)
end

mutual
def Primary.tokens : Primary → List Token
  | .name letters => [.name letters]
  | .bracketed inner => .mark .leftBracket :: (inner.tokens ++ [.mark .rightBracket])
def Primaries.tokens : Primaries → List Token
  | .nil => []
  | .cons first rest => first.tokens ++ rest.tokens
def Phrase.tokens : Phrase → List Token
  | .closed first rest => first.tokens ++ rest.tokens
  | .abstracted front argument body =>
      front.tokens ++ .mark .backslash :: .name argument :: .mark .dot :: body.tokens
end

theorem primary_tokens_nonempty (primary : Primary) : primary.tokens ≠ [] := by
  cases primary <;> exact List.cons_ne_nil _ _

theorem closed_bracketed_tokens (inner : Phrase) :
    (Phrase.closed (.bracketed inner) .nil).tokens =
      .mark .leftBracket :: (inner.tokens ++ [.mark .rightBracket]) := by
  simp [Phrase.tokens, Primary.tokens, Primaries.tokens]

def Term.joined : List Term → Term → Term
  | [], last => last
  | head :: others, last => .app (others.foldl .app head) last

mutual
def Primary.term : Primary → Term
  | .name letters => .var letters
  | .bracketed inner => inner.term
def Primaries.terms : Primaries → List Term
  | .nil => []
  | .cons first rest => first.term :: rest.terms
def Phrase.term : Phrase → Term
  | .closed first rest => rest.terms.foldl .app first.term
  | .abstracted front argument body => Term.joined front.terms (.abs argument body.term)
end

theorem joined_snoc (front : List Term) (last head : Term) (others : List Term)
    (items : front ++ [last] = head :: others) : others.foldl .app head = Term.joined front last := by
  cases front with
  | nil =>
      cases items
      rfl
  | cons first rest =>
      cases items
      simp [Term.joined]

def Token.startsPrimary : Token → Bool
  | .name _ => true
  | .mark sign => sign == .leftBracket

def Token.startsItem : Token → Bool
  | .name _ => true
  | .mark sign => sign == .leftBracket || sign == .backslash

def Ended (starts : Token → Bool) (words : List Token) : Prop :=
  ∀ token ∈ words.head?, starts token = false

theorem ended_primary {words : List Token} (ended : Ended Token.startsItem words) :
    Ended Token.startsPrimary words := by
  intro token first
  have other := ended token first
  cases token with
  | name letters => exact other
  | mark sign =>
      simp only [Token.startsItem, Bool.or_eq_false_iff] at other
      exact other.1

theorem not_ended_of_primary (primary : Primary) (rest words : List Token)
    (same : primary.tokens ++ rest = words) : ¬ Ended Token.startsPrimary words := by
  subst same
  intro ended
  cases primary with
  | name letters =>
      have refused := ended (.name letters) rfl
      cases refused
  | bracketed inner =>
      have refused := ended (.mark .leftBracket) rfl
      cases refused

theorem ended_abstraction (argument : String) (words : List Token) :
    Ended Token.startsPrimary (.mark .backslash :: .name argument :: .mark .dot :: words) := by
  intro token first
  cases first
  rfl

theorem ended_rightBracket (words : List Token) :
    Ended Token.startsItem (.mark .rightBracket :: words) := by
  intro token first
  cases first
  rfl

-- Derivations over the same tokens are the same, also in front of other tokens as long
-- as these do not begin with another item.
mutual
theorem primary_unique (first second : Primary) (firstRear secondRear : List Token)
    (same : first.tokens ++ firstRear = second.tokens ++ secondRear) : first = second ∧ firstRear = secondRear := by
  cases first with
  | name letters =>
      cases second with
      | name others =>
          simp only [Primary.tokens, List.cons_append, List.nil_append] at same
          cases same
          exact ⟨rfl, rfl⟩
      | bracketed inner => cases same
  | bracketed inner =>
      cases second with
      | name letters => cases same
      | bracketed other =>
          simp only [Primary.tokens, List.cons_append, List.append_assoc, List.nil_append,
            List.cons.injEq, true_and] at same
          obtain ⟨equal, behind⟩ := phrase_unique inner other _ _ (ended_rightBracket firstRear)
            (ended_rightBracket secondRear) same
          cases behind
          exact ⟨congrArg Primary.bracketed equal, rfl⟩
theorem primaries_unique (first second : Primaries) (firstRear secondRear : List Token)
    (firstEnds : Ended Token.startsPrimary firstRear) (secondEnds : Ended Token.startsPrimary secondRear)
    (same : first.tokens ++ firstRear = second.tokens ++ secondRear) : first = second ∧ firstRear = secondRear := by
  cases first with
  | nil =>
      cases second with
      | nil => exact ⟨rfl, same⟩
      | cons head rest =>
          simp only [Primaries.tokens, List.nil_append, List.append_assoc] at same
          exact absurd firstEnds (not_ended_of_primary head _ firstRear same.symm)
  | cons head rest =>
      cases second with
      | nil =>
          simp only [Primaries.tokens, List.nil_append, List.append_assoc] at same
          exact absurd secondEnds (not_ended_of_primary head _ secondRear same)
      | cons other others =>
          simp only [Primaries.tokens, List.append_assoc] at same
          obtain ⟨headSame, behind⟩ := primary_unique head other _ _ same
          obtain ⟨restSame, rear⟩ := primaries_unique rest others firstRear secondRear firstEnds secondEnds behind
          exact ⟨by rw [headSame, restSame], rear⟩
theorem phrase_unique (first second : Phrase) (firstRear secondRear : List Token)
    (firstEnds : Ended Token.startsItem firstRear) (secondEnds : Ended Token.startsItem secondRear)
    (same : first.tokens ++ firstRear = second.tokens ++ secondRear) : first = second ∧ firstRear = secondRear := by
  cases first with
  | closed head rest =>
      cases second with
      | closed other others =>
          simp only [Phrase.tokens, List.append_assoc] at same
          obtain ⟨headSame, behind⟩ := primary_unique head other _ _ same
          obtain ⟨restSame, rear⟩ := primaries_unique rest others firstRear secondRear (ended_primary firstEnds)
            (ended_primary secondEnds) behind
          exact ⟨by rw [headSame, restSame], rear⟩
      | abstracted front argument body =>
          simp only [Phrase.tokens, List.append_assoc, List.cons_append] at same
          cases front with
          | nil => exact absurd (ended_abstraction argument _) (not_ended_of_primary head _ _ same)
          | cons other others =>
              simp only [Primaries.tokens, List.append_assoc] at same
              obtain ⟨-, behind⟩ := primary_unique head other _ _ same
              obtain ⟨-, rear⟩ := primaries_unique rest others firstRear _ (ended_primary firstEnds)
                (ended_abstraction argument _) behind
              exact absurd (firstEnds (.mark .backslash) (by rw [rear]; rfl)) (by decide)
  | abstracted front argument body =>
      cases second with
      | closed other others =>
          simp only [Phrase.tokens, List.append_assoc, List.cons_append] at same
          cases front with
          | nil => exact absurd (ended_abstraction argument _) (not_ended_of_primary other _ _ same.symm)
          | cons head rest =>
              simp only [Primaries.tokens, List.append_assoc] at same
              obtain ⟨-, behind⟩ := primary_unique head other _ _ same
              obtain ⟨-, rear⟩ := primaries_unique rest others _ secondRear (ended_abstraction argument _)
                (ended_primary secondEnds) behind
              exact absurd (secondEnds (.mark .backslash) (by rw [← rear]; rfl)) (by decide)
      | abstracted other parameter inner =>
          simp only [Phrase.tokens, List.append_assoc, List.cons_append] at same
          obtain ⟨frontSame, behind⟩ := primaries_unique front other _ _ (ended_abstraction argument _)
            (ended_abstraction parameter _) same
          simp only [List.cons.injEq, Token.name.injEq, true_and] at behind
          obtain ⟨bodySame, rear⟩ := phrase_unique body inner firstRear secondRear firstEnds secondEnds behind.2
          exact ⟨by rw [frontSame, behind.1, bodySame], rear⟩
end

end LambdaCalculus

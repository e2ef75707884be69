import LambdaCalculus.Proofs.Canonical

set_option autoImplicit false

namespace LambdaCalculus

def Primaries.append : Primaries → Primaries → Primaries
  | .nil, others => others
  | .cons first rest, others => .cons first (rest.append others)

-- Another item behind a derivation without brackets: an abstraction at its end takes the
-- item into its body.
def Phrase.extended : Phrase → Primary → Phrase
  | .closed first rest, argument => .closed first (rest.snoc argument)
  | .abstracted front name body, argument => .abstracted front name (body.extended argument)

def Phrase.items : Phrase → Primaries
  | .closed first rest => .cons first rest
  | .abstracted front name body => .cons (.bracketed (.abstracted front name body)) .nil

def Phrase.behind : Phrase → Primaries → Phrase
  | phrase, .nil => phrase
  | .closed first rest, .cons head others => .closed head (others.append (.cons first rest))
  | .abstracted inner name body, .cons head others => .abstracted (.cons head (others.append inner)) name body

def Phrase.isClosed : Phrase → Bool
  | .closed _ _ => true
  | .abstracted _ _ _ => false

theorem isClosed_argued (phrase : Phrase) (argument : Primary) : (phrase.argued argument).isClosed = true := by
  cases phrase <;> rfl

theorem isClosed_extended (phrase : Phrase) (argument : Primary) :
    (phrase.extended argument).isClosed = phrase.isClosed := by
  cases phrase <;> rfl

theorem append_terms (front back : Primaries) : (front.append back).terms = front.terms ++ back.terms := by
  cases front with
  | nil => rfl
  | cons first rest => exact congrArg (first.term :: ·) (append_terms rest back)

theorem append_tokens (front back : Primaries) : (front.append back).tokens = front.tokens ++ back.tokens := by
  cases front with
  | nil => rfl
  | cons first rest => simp [Primaries.append, Primaries.tokens, append_tokens rest back]

theorem extended_tokens (phrase : Phrase) (argument : Primary) :
    (phrase.extended argument).tokens = phrase.tokens ++ argument.tokens := by
  cases phrase with
  | closed first rest => simp [Phrase.extended, Phrase.tokens, snoc_tokens]
  | abstracted front name body => simp [Phrase.extended, Phrase.tokens, extended_tokens body argument]

theorem behind_tokens (phrase : Phrase) (items : Primaries) :
    (phrase.behind items).tokens = items.tokens ++ phrase.tokens := by
  cases items with
  | nil => cases phrase <;> rfl
  | cons head others =>
      cases phrase <;> simp [Phrase.behind, Phrase.tokens, Primaries.tokens, append_tokens]

theorem argued_tokens (phrase : Phrase) (argument : Primary) :
    (phrase.argued argument).tokens = phrase.items.tokens ++ argument.tokens := by
  cases phrase with
  | closed first rest => simp [Phrase.argued, Phrase.items, Phrase.tokens, Primaries.tokens, snoc_tokens]
  | abstracted front name body => simp [Phrase.argued, Phrase.items, Phrase.tokens, Primaries.tokens]

theorem phrase_tokens_nonempty (phrase : Phrase) : phrase.tokens ≠ [] := by
  cases phrase with
  | closed first rest => exact List.append_ne_nil_of_left_ne_nil (primary_tokens_nonempty first) _
  | abstracted front name body => exact List.append_ne_nil_of_right_ne_nil _ (List.cons_ne_nil _ _)

theorem items_tokens (term : Term) :
    term.phrase.items.tokens = if term.isAbs then bracketTokens term.phrase.tokens else term.phrase.tokens := by
  have argued := argued_tokens term.phrase (.name "")
  rw [function_tokens] at argued
  exact (List.append_cancel_right argued).symm

theorem term_closed_snoc (first : Primary) (rest : Primaries) (last : Primary) :
    (Phrase.closed first (rest.snoc last)).term = .app (Phrase.closed first rest).term last.term := by
  simp [Phrase.term, snoc_terms]

theorem sizeOf_joined (front : List Term) (last : Term) : sizeOf last ≤ sizeOf (Term.joined front last) := by
  cases front with
  | nil => exact Nat.le_refl _
  | cons head others =>
      rw [Term.joined, Term.app.sizeOf_spec]
      omega

theorem sizeOf_extended (phrase : Phrase) (argument : Primary) :
    sizeOf argument.term < sizeOf (phrase.extended argument).term := by
  cases phrase with
  | closed first rest =>
      rw [Phrase.extended, term_closed_snoc, Term.app.sizeOf_spec]
      omega
  | abstracted front name body =>
      have inside := sizeOf_extended body argument
      have joined := sizeOf_joined front.terms (.abs name (body.extended argument).term)
      rw [Term.abs.sizeOf_spec] at joined
      rw [Phrase.extended, Phrase.term]
      omega

theorem term_extended_iff (phrase : Phrase) (argument : Primary) (function : Term) :
    (phrase.extended argument).term = .app function argument.term ↔
      phrase.isClosed = true ∧ phrase.term = function := by
  cases phrase with
  | closed first rest =>
      rw [Phrase.extended, term_closed_snoc]
      simp [Phrase.isClosed]
  | abstracted front name body =>
      have larger := sizeOf_extended body argument
      constructor
      · intro same
        rw [Phrase.extended, Phrase.term] at same
        cases items : front.terms with
        | nil =>
            rw [items] at same
            cases same
        | cons head others =>
            rw [items] at same
            have argumentSame := congrArg sizeOf (Term.app.inj same).2
            rw [Term.abs.sizeOf_spec] at argumentSame
            omega
      · rintro ⟨closed, -⟩
        cases closed

theorem term_abstracted_behind (phrase body : Phrase) (name : String) :
    ((Phrase.abstracted .nil name body).behind phrase.items).term = .app phrase.term (.abs name body.term) := by
  cases phrase <;> simp [Phrase.items, Phrase.behind, Phrase.term, Primaries.terms, append_terms, Term.joined,
    Primary.term]

theorem argued_behind (phrase : Phrase) (last : Primary) (items : Primaries) :
    ∃ function, ((phrase.argued last).behind items).term = .app function last.term := by
  cases items with
  | nil =>
      have unchanged : (phrase.argued last).behind .nil = phrase.argued last := by cases phrase <;> rfl
      exact ⟨phrase.term, by rw [unchanged, term_argued]⟩
  | cons head others =>
      cases phrase <;> simp [Phrase.argued, Phrase.behind, Phrase.term, Primaries.terms, append_terms, snoc_terms]

theorem term_behind_iff (function : Term) {argument : Term} (compound : argument.isVar = false) :
    (argument.phrase.behind function.phrase.items).term = .app function argument ↔ argument.isAbs = true := by
  cases argument with
  | var name => cases compound
  | abs name body =>
      rw [Term.phrase, term_abstracted_behind, term_phrase, term_phrase]
      simp [Term.isAbs]
  | app inner last =>
      obtain ⟨first, joined⟩ := argued_behind inner.phrase last.phrase.primary function.phrase.items
      rw [Term.phrase, joined, term_primary, term_phrase]
      constructor
      · intro same
        -- Among the function's items only the last argument of the application would be one.
        have argumentSame := congrArg sizeOf (Term.app.inj same).2
        rw [Term.app.sizeOf_spec] at argumentSame
        omega
      · intro abstraction
        cases abstraction

end LambdaCalculus

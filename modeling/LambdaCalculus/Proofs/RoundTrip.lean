import LambdaCalculus.Proofs.Canonical
import LambdaCalculus.Proofs.Parse
import LambdaCalculus.Proofs.Spelling

set_option autoImplicit false

namespace LambdaCalculus

theorem mem_names_foldl (head : Term) (items : List Term) (name : String) :
    name ∈ (items.foldl .app head).names ↔ name ∈ head.names ∨ ∃ item ∈ items, name ∈ item.names := by
  induction items generalizing head with
  | nil => simp
  | cons item rest ih => simp [ih, Term.names, or_assoc]

theorem mem_names_joined (front : List Term) (last : Term) (name : String) :
    name ∈ (Term.joined front last).names ↔ (∃ item ∈ front, name ∈ item.names) ∨ name ∈ last.names := by
  cases front with
  | nil => simp [Term.joined]
  | cons head others => simp [Term.joined, Term.names, mem_names_foldl]

mutual
theorem primary_names (primary : Primary) (name : String) (member : name ∈ primary.term.names) :
    Token.name name ∈ primary.tokens := by
  cases primary with
  | name letters =>
      obtain rfl := List.mem_singleton.mp member
      exact List.mem_singleton.mpr rfl
  | bracketed inner =>
      have innerMember := phrase_names inner name member
      simp [Primary.tokens, innerMember]
theorem primaries_names (primaries : Primaries) (name : String) (item : Term)
    (among : item ∈ primaries.terms) (member : name ∈ item.names) : Token.name name ∈ primaries.tokens := by
  cases primaries with
  | nil => cases among
  | cons first rest =>
      rcases List.mem_cons.mp among with rfl | among
      · exact List.mem_append_left _ (primary_names first name member)
      · exact List.mem_append_right _ (primaries_names rest name item among member)
theorem phrase_names (phrase : Phrase) (name : String) (member : name ∈ phrase.term.names) :
    Token.name name ∈ phrase.tokens := by
  cases phrase with
  | closed first rest =>
      rcases (mem_names_foldl _ _ _).mp member with member | ⟨item, among, member⟩
      · exact List.mem_append_left _ (primary_names first name member)
      · exact List.mem_append_right _ (primaries_names rest name item among member)
  | abstracted front argument body =>
      rcases (mem_names_joined _ _ _).mp member with ⟨item, among, member⟩ | member
      · exact List.mem_append_left _ (primaries_names front name item among member)
      · rcases List.mem_cons.mp member with rfl | member
        · simp [Phrase.tokens]
        · have bodyMember := phrase_names body name member
          simp [Phrase.tokens, bodyMember]
end

def bracketText (text : List Char) : List Char :=
  '(' :: (text ++ [')'])

theorem render_abs (argument : String) (body : Term) :
    (Term.abs argument body).render.toList = '\\' :: (argument.toList ++ '.' :: body.render.toList) := by
  simp [Term.render, String.toList_append]

theorem render_app (function argument : Term) :
    (Term.app function argument).render.toList =
      (if function.isAbs then bracketText function.render.toList else function.render.toList) ++
        ' ' :: (if argument.isVar then argument.render.toList else bracketText argument.render.toList) := by
  simp only [Term.render, Term.bracket, bracketText, String.toList_append]
  split <;> split <;> simp

variable [Alphabet]

theorem parse_well_named {text : String} {term : Term} (read : parse text = .ok term) : term.WellNamed := by
  obtain ⟨phrase, words, rfl⟩ := (parse_ok_iff text term).mp read
  obtain ⟨later, spelled, -⟩ := tokens_eq_some_iff.mp words
  exact fun name member => spells_names spelled name (phrase_names phrase name member)

theorem writes_bracket {text : List Char} {words : List Token} (writes : Writes text words) :
    Writes (bracketText text) (bracketTokens words) :=
  writes_mark .leftBracket (writes_append writes (writes_mark .rightBracket writes_nil) (isLetter_mark .rightBracket))

theorem writes_render (term : Term) (named : term.WellNamed) : Writes term.render.toList term.phrase.tokens := by
  induction term with
  | var name => exact writes_name (named name List.mem_cons_self)
  | abs argument body ih =>
      rw [render_abs]
      have argumentWrites := writes_name (named argument List.mem_cons_self)
      have bodyWrites := ih fun name member => named name (List.mem_cons_of_mem _ member)
      exact writes_mark .backslash (writes_append argumentWrites (writes_mark .dot bodyWrites) (isLetter_mark .dot))
  | app function argument functionIh argumentIh =>
      rw [render_app, Term.phrase, function_tokens]
      have functionWrites := functionIh fun name member => named name (List.mem_append_left _ member)
      have argumentWrites := argumentIh fun name member => named name (List.mem_append_right _ member)
      have functionPart : Writes (if function.isAbs then bracketText function.render.toList else function.render.toList)
          (if function.isAbs then bracketTokens function.phrase.tokens else function.phrase.tokens) := by
        split
        · exact writes_bracket functionWrites
        · exact functionWrites
      have argumentPart : Writes (if argument.isVar then argument.render.toList else bracketText argument.render.toList)
          argument.phrase.primary.tokens := by
        rw [argument_tokens]
        split
        · exact argumentWrites
        · exact writes_bracket argumentWrites
      have blankPart := writes_blanks [' '] rfl (primary_tokens_nonempty _) argumentPart
      exact writes_append functionPart blankPart (isLetter_of_isBlank ' ' rfl)

theorem tokens_render (term : Term) (named : term.WellNamed) :
    tokens term.render.toList = some term.phrase.tokens :=
  tokens_of_writes (writes_render term named)

theorem parse_render (term : Term) (named : term.WellNamed) : parse term.render = .ok term :=
  (parse_ok_iff term.render term).mpr ⟨term.phrase, tokens_render term named, term_phrase term⟩

theorem render_injective {first second : Term} (firstNamed : first.WellNamed) (secondNamed : second.WellNamed)
    (same : first.render = second.render) : first = second := by
  have read := parse_render first firstNamed
  rw [same, parse_render second secondNamed] at read
  cases read
  rfl

theorem parse_and_render_are_inverse :
    (∀ term : Term, term.WellNamed → parse term.render = .ok term) ∧
    (∀ (text : String) (term : Term), parse text = .ok term → term.WellNamed) ∧
    (∀ first second : Term, first.WellNamed → second.WellNamed →
      first.render = second.render → first = second) ∧
    (∀ term again : Term, term.WellNamed → parse term.render = .ok again → again.render = term.render) := by
  refine ⟨parse_render, fun text term read => parse_well_named read, ?_, ?_⟩
  · intro first second firstNamed secondNamed same
    exact render_injective firstNamed secondNamed same
  · intro term again named read
    rw [parse_render term named] at read
    cases read
    rfl

end LambdaCalculus

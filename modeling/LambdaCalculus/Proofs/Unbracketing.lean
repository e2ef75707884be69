import LambdaCalculus.Letter
import LambdaCalculus.Proofs.Matching
import LambdaCalculus.Proofs.Regrouping

set_option autoImplicit false

namespace LambdaCalculus

def Term.functionText (function : Term) : List Char :=
  if function.isAbs then bracketText function.render.toList else function.render.toList

def Term.argumentText (argument : Term) : List Char :=
  if argument.isVar then argument.render.toList else bracketText argument.render.toList

theorem render_sides (function argument : Term) :
    (Term.app function argument).render.toList = function.functionText ++ ' ' :: argument.argumentText :=
  render_app function argument

theorem balanced_functionText {function : Term} (balanced : Balanced function.render.toList) :
    Balanced function.functionText := by
  rw [Term.functionText]
  split
  · exact balanced_bracketText balanced
  · exact balanced

theorem balanced_argumentText {argument : Term} (balanced : Balanced argument.render.toList) :
    Balanced argument.argumentText := by
  rw [Term.argumentText]
  split
  · exact balanced
  · exact balanced_bracketText balanced

-- A term in brackets within the canonical text of another: what stands in front of the
-- opening bracket and behind the closing one, and the derivation of the text without the two.
-- A pair is around a function or an argument, and the other rules lead to it from outside.
inductive Unbracketed : Term → List Char → Term → List Char → Phrase → Prop where
  | function (argument : Term) {function : Term} (abstraction : function.isAbs = true) :
      Unbracketed (.app function argument) [] function (' ' :: argument.argumentText)
        (function.phrase.extended argument.phrase.primary)
  | argument (function : Term) {argument : Term} (compound : argument.isVar = false) :
      Unbracketed (.app function argument) (function.functionText ++ [' ']) argument []
        (argument.phrase.behind function.phrase.items)
  | body (name : String) {body enclosed : Term} {front rear : List Char} {phrase : Phrase}
      (inside : Unbracketed body front enclosed rear phrase) :
      Unbracketed (.abs name body) ('\\' :: (name.toList ++ '.' :: front)) enclosed rear
        (.abstracted .nil name phrase)
  | inFunction (argument : Term) {function enclosed : Term} {front rear : List Char} {phrase : Phrase}
      (applied : function.isAbs = false) (inside : Unbracketed function front enclosed rear phrase) :
      Unbracketed (.app function argument) front enclosed (rear ++ ' ' :: argument.argumentText)
        (phrase.extended argument.phrase.primary)
  | inAbstraction (argument : Term) {function enclosed : Term} {front rear : List Char} {phrase : Phrase}
      (abstraction : function.isAbs = true) (inside : Unbracketed function front enclosed rear phrase) :
      Unbracketed (.app function argument) ('(' :: front) enclosed
        (rear ++ ')' :: ' ' :: argument.argumentText)
        (.closed (.bracketed phrase) (.cons argument.phrase.primary .nil))
  | inArgument (function : Term) {argument enclosed : Term} {front rear : List Char} {phrase : Phrase}
      (inside : Unbracketed argument front enclosed rear phrase) :
      Unbracketed (.app function argument) (function.functionText ++ ' ' :: '(' :: front) enclosed (rear ++ [')'])
        (function.phrase.argued (.bracketed phrase))

def Concluded (rear : List Char) : Prop :=
  ∀ c ∈ rear.head?, c = ')'

theorem concluded_before_blank (rear later : List Char) :
    Concluded (rear ++ ' ' :: later) ↔ rear ≠ [] ∧ Concluded rear := by
  cases rear <;> simp [Concluded]

theorem concluded_before_bracket (rear later : List Char) : Concluded (rear ++ ')' :: later) ↔ Concluded rear := by
  cases rear <;> simp [Concluded]

theorem concluded_toList (rear : String) : Concluded rear.toList ↔ rear = "" ∨ ∃ later, rear = ")" ++ later := by
  constructor
  · intro concluded
    cases split : rear.toList with
    | nil => exact .inl (String.toList_inj.mp split)
    | cons c later =>
        rw [split] at concluded
        obtain rfl := concluded c rfl
        exact .inr ⟨String.ofList later, String.toList_inj.mp (by simp [split, String.toList_append])⟩
  · rintro (rfl | ⟨later, rfl⟩) c first
    · cases first
    · rw [String.toList_append] at first
      cases first
      rfl

theorem closed_iff_followed {term enclosed : Term} {front rear : List Char} {phrase : Phrase}
    (unbracketed : Unbracketed term front enclosed rear phrase) (applied : term.isAbs = false)
    (abstraction : enclosed.isAbs = true) (concluded : Concluded rear) : phrase.isClosed = true ↔ rear ≠ [] := by
  induction unbracketed with
  | function argument abstraction => exact absurd (concluded ' ' rfl) (by decide)
  | @argument function argument compound =>
      cases argument with
      | var name => cases compound
      | abs name body => cases function.phrase <;> simp [Term.phrase, Phrase.items, Phrase.behind, Phrase.isClosed]
      | app inner last => cases abstraction
  | body name inside ih => cases applied
  | inFunction argument functionApplied inside ih =>
      obtain ⟨nonempty, insideConcluded⟩ := (concluded_before_blank _ _).mp concluded
      have closed := (ih functionApplied abstraction insideConcluded).mpr nonempty
      rw [isClosed_extended]
      exact iff_of_true closed (List.append_ne_nil_of_left_ne_nil nonempty _)
  -- From here on a bracket of the text around it shuts the abstraction in.
  | inAbstraction argument abstraction inside ih =>
      exact iff_of_true rfl (List.append_ne_nil_of_right_ne_nil _ (List.cons_ne_nil _ _))
  | inArgument function inside ih =>
      exact iff_of_true (isClosed_argued _ _) (List.append_ne_nil_of_right_ne_nil _ (List.cons_ne_nil _ _))

theorem unbracketed_term_iff {term enclosed : Term} {front rear : List Char} {phrase : Phrase}
    (unbracketed : Unbracketed term front enclosed rear phrase) :
    phrase.term = term ↔ enclosed.isAbs = true ∧ Concluded rear := by
  induction unbracketed with
  | function argument abstraction =>
      rename_i function
      cases function with
      | var name => cases abstraction
      | app inner last => cases abstraction
      | abs name body =>
          constructor
          · intro same
            cases same
          · rintro ⟨-, concluded⟩
            exact absurd (concluded ' ' rfl) (by decide)
  | argument function compound => simp [term_behind_iff function compound, Concluded]
  | body name inside ih => simpa [Phrase.term, Primaries.terms, Term.joined] using ih
  | @inFunction argument function enclosed front rear phrase applied inside ih =>
      have extended := term_extended_iff phrase argument.phrase.primary function
      rw [term_primary, term_phrase] at extended
      rw [extended, ih, concluded_before_blank]
      constructor
      · rintro ⟨closed, abstraction, concluded⟩
        exact ⟨abstraction, (closed_iff_followed inside applied abstraction concluded).mp closed, concluded⟩
      · rintro ⟨abstraction, nonempty, concluded⟩
        exact ⟨(closed_iff_followed inside applied abstraction concluded).mpr nonempty, abstraction, concluded⟩
  | inAbstraction argument abstraction inside ih =>
      rw [concluded_before_bracket, ← ih]
      simp [Phrase.term, Primaries.terms, Primary.term, term_primary, term_phrase]
  | inArgument function inside ih =>
      rw [concluded_before_bracket, ← ih, term_argued, term_phrase]
      simp [Primary.term]

section

variable [Alphabet]

theorem unbracketed_named {term enclosed : Term} {front rear : List Char} {phrase : Phrase}
    (unbracketed : Unbracketed term front enclosed rear phrase) (named : term.WellNamed) : enclosed.WellNamed := by
  induction unbracketed with
  | function argument abstraction => exact (Term.wellNamed_app.mp named).1
  | argument function compound => exact (Term.wellNamed_app.mp named).2
  | body name inside ih => exact ih (Term.wellNamed_abs.mp named).2
  | inFunction argument applied inside ih => exact ih (Term.wellNamed_app.mp named).1
  | inAbstraction argument abstraction inside ih => exact ih (Term.wellNamed_app.mp named).1
  | inArgument function inside ih => exact ih (Term.wellNamed_app.mp named).2

theorem writes_functionText {function : Term} (named : function.WellNamed) :
    Writes function.functionText function.phrase.items.tokens := by
  rw [items_tokens, Term.functionText]
  split
  · exact writes_bracket (writes_render function named)
  · exact writes_render function named

theorem writes_argumentText {argument : Term} (named : argument.WellNamed) :
    Writes argument.argumentText argument.phrase.primary.tokens := by
  rw [argument_tokens, Term.argumentText]
  split
  · exact writes_render argument named
  · exact writes_bracket (writes_render argument named)

theorem writes_apart {one other : List Char} {front back : List Token} (first : Writes one front)
    (second : Writes other back) (nonempty : back ≠ []) : Writes (one ++ ' ' :: other) (front ++ back) :=
  writes_append first (writes_blanks [' '] rfl nonempty second) (isLetter_of_isBlank ' ' rfl)

theorem unbracketed_writes {term enclosed : Term} {front rear : List Char} {phrase : Phrase}
    (unbracketed : Unbracketed term front enclosed rear phrase) (named : term.WellNamed) :
    Writes (front ++ (enclosed.render.toList ++ rear)) phrase.tokens := by
  induction unbracketed with
  | function argument abstraction =>
      obtain ⟨functionNamed, argumentNamed⟩ := Term.wellNamed_app.mp named
      rw [extended_tokens]
      exact writes_apart (writes_render _ functionNamed) (writes_argumentText argumentNamed) (primary_tokens_nonempty _)
  | @argument function argument compound =>
      obtain ⟨functionNamed, argumentNamed⟩ := Term.wellNamed_app.mp named
      rw [behind_tokens, List.append_nil, List.append_assoc]
      exact writes_apart (writes_functionText functionNamed) (writes_render argument argumentNamed)
        (phrase_tokens_nonempty _)
  | body name inside ih =>
      obtain ⟨nameNamed, bodyNamed⟩ := Term.wellNamed_abs.mp named
      have bodyWrites := writes_mark .dot (ih bodyNamed)
      have whole := writes_mark .backslash (writes_append (writes_name nameNamed) bodyWrites (isLetter_mark .dot))
      simpa [Phrase.tokens, Primaries.tokens, Mark.char] using whole
  | inFunction argument applied inside ih =>
      obtain ⟨functionNamed, argumentNamed⟩ := Term.wellNamed_app.mp named
      have whole := writes_apart (ih functionNamed) (writes_argumentText argumentNamed) (primary_tokens_nonempty _)
      rw [extended_tokens]
      simpa using whole
  | inAbstraction argument abstraction inside ih =>
      obtain ⟨functionNamed, argumentNamed⟩ := Term.wellNamed_app.mp named
      have whole := writes_apart (writes_bracket (ih functionNamed)) (writes_argumentText argumentNamed)
        (primary_tokens_nonempty _)
      simpa [Phrase.tokens, Primaries.tokens, Primary.tokens, bracketText, bracketTokens] using whole
  | inArgument function inside ih =>
      obtain ⟨functionNamed, argumentNamed⟩ := Term.wellNamed_app.mp named
      have whole := writes_apart (writes_functionText functionNamed) (writes_bracket (ih argumentNamed))
        (List.cons_ne_nil _ _)
      rw [argued_tokens]
      simpa [Primary.tokens, bracketText, bracketTokens] using whole

theorem mark_not_mem_name {name : String} (isName : IsName name) (mark : Mark) : mark.char ∉ name.toList := by
  intro member
  have letter := isName.2 mark.char member
  rw [isLetter_mark] at letter
  cases letter

theorem plain_name {name : String} (isName : IsName name) : ∀ c ∈ name.toList, c ≠ '(' ∧ c ≠ ')' := by
  intro c member
  constructor
  · rintro rfl
    exact mark_not_mem_name isName .leftBracket member
  · rintro rfl
    exact mark_not_mem_name isName .rightBracket member

theorem not_matched_name {name : String} (isName : IsName name) {front inner rear : List Char} :
    ¬ Matched name.toList front inner rear :=
  not_matched_of_plain (mark_not_mem_name isName .leftBracket)

theorem balanced_render {term : Term} (named : term.WellNamed) : Balanced term.render.toList := by
  induction term with
  | var name => exact balanced_of_plain (plain_name (named name List.mem_cons_self))
  | abs argument body ih =>
      obtain ⟨argumentNamed, bodyNamed⟩ := Term.wellNamed_abs.mp named
      have nameBalanced := balanced_of_plain (plain_name argumentNamed)
      have bodyBalanced := Balanced.plain (c := '.') (by decide) (by decide) (ih bodyNamed)
      rw [render_abs]
      exact .plain (by decide) (by decide) (balanced_append nameBalanced bodyBalanced)
  | app function argument functionIh argumentIh =>
      obtain ⟨functionNamed, argumentNamed⟩ := Term.wellNamed_app.mp named
      have functionBalanced := balanced_functionText (functionIh functionNamed)
      have argumentBalanced := balanced_argumentText (argumentIh argumentNamed)
      rw [render_sides]
      exact balanced_append functionBalanced (.plain (by decide) (by decide) argumentBalanced)

theorem matched_functionText {function : Term} (named : function.WellNamed) {front inner rear : List Char}
    (matched : Matched function.functionText front inner rear) :
    (function.isAbs = false ∧ Matched function.render.toList front inner rear) ∨
      (function.isAbs = true ∧ InBrackets function.render.toList front inner rear) := by
  cases abstraction : function.isAbs with
  | false =>
      rw [Term.functionText, if_neg (by simp [abstraction])] at matched
      exact .inl ⟨rfl, matched⟩
  | true =>
      rw [Term.functionText, if_pos abstraction] at matched
      exact .inr ⟨rfl, matched_bracketText (balanced_render named) matched⟩

theorem matched_argumentText {argument : Term} (named : argument.WellNamed) {front inner rear : List Char}
    (matched : Matched argument.argumentText front inner rear) :
    argument.isVar = false ∧ InBrackets argument.render.toList front inner rear := by
  cases argument with
  | var name => exact absurd matched (not_matched_name (named name List.mem_cons_self))
  | abs name body => exact ⟨rfl, matched_bracketText (balanced_render named) matched⟩
  | app function last => exact ⟨rfl, matched_bracketText (balanced_render named) matched⟩

theorem matched_render {term : Term} (named : term.WellNamed) {front inner rear : List Char}
    (matched : Matched term.render.toList front inner rear) :
    ∃ enclosed phrase, inner = enclosed.render.toList ∧ Unbracketed term front enclosed rear phrase := by
  induction term generalizing front rear with
  | var name => exact absurd matched (not_matched_name (named name List.mem_cons_self))
  | abs argument body ih =>
      obtain ⟨argumentNamed, bodyNamed⟩ := Term.wellNamed_abs.mp named
      have plain : ∀ c ∈ '\\' :: argument.toList ++ ['.'], c ≠ '(' ∧ c ≠ ')' := by
        simpa [or_imp, forall_and] using plain_name argumentNamed
      have split : (Term.abs argument body).render.toList = '\\' :: argument.toList ++ ['.'] ++ body.render.toList := by
        simp [render_abs]
      rw [split] at matched
      obtain ⟨before, rfl, inBody⟩ := matched_behind_plain plain matched
      obtain ⟨enclosed, phrase, rfl, inside⟩ := ih bodyNamed inBody
      exact ⟨enclosed, _, rfl, by simpa using Unbracketed.body argument inside⟩
  | app function argument functionIh argumentIh =>
      obtain ⟨functionNamed, argumentNamed⟩ := Term.wellNamed_app.mp named
      rw [render_sides] at matched
      rcases matched_append (balanced_functionText (balanced_render functionNamed)) matched with
        ⟨later, rfl, inFront⟩ | ⟨before, rfl, behind⟩
      · rcases matched_functionText functionNamed inFront with ⟨applied, inFunction⟩ | ⟨abstraction, inBrackets⟩
        · obtain ⟨enclosed, phrase, rfl, inside⟩ := functionIh functionNamed inFunction
          exact ⟨enclosed, _, rfl, .inFunction argument applied inside⟩
        · cases inBrackets with
          | around => exact ⟨function, _, rfl, .function argument abstraction⟩
          | between inAbstraction =>
              obtain ⟨enclosed, phrase, rfl, inside⟩ := functionIh functionNamed inAbstraction
              exact ⟨enclosed, _, rfl, by simpa using Unbracketed.inAbstraction argument abstraction inside⟩
      · have blank : ∀ c ∈ [' '], c ≠ '(' ∧ c ≠ ')' := by simp
        obtain ⟨before, rfl, inRear⟩ := matched_behind_plain blank behind
        obtain ⟨compound, inBrackets⟩ := matched_argumentText argumentNamed inRear
        cases inBrackets with
        | around => exact ⟨argument, _, rfl, .argument function compound⟩
        | between inArgument =>
            obtain ⟨enclosed, phrase, rfl, inside⟩ := argumentIh argumentNamed inArgument
            exact ⟨enclosed, _, rfl, .inArgument function inside⟩

-- Canonical texts have no brackets to spare but around an abstraction that ends where the
-- text or a bracketed part of it does. Without any other pair the text has another tree.
theorem brackets_spared_only_around_last_abstraction {term : Term} (named : term.WellNamed)
    (front inner rear : String) (text : term.render = front ++ "(" ++ inner ++ ")" ++ rear)
    (balanced : Balanced inner.toList) :
    (parse (front ++ inner ++ rear) = .ok term ↔
      (∃ argument body, parse inner = .ok (.abs argument body)) ∧ (rear = "" ∨ ∃ later, rear = ")" ++ later)) ∧
    ∃ other, parse (front ++ inner ++ rear) = .ok other := by
  have split : term.render.toList = front.toList ++ '(' :: (inner.toList ++ ')' :: rear.toList) := by
    rw [text]
    simp [String.toList_append]
  obtain ⟨enclosed, phrase, innerText, unbracketed⟩ := matched_render named ⟨split, balanced⟩
  have innerRead : parse inner = .ok enclosed := by
    rw [String.toList_inj.mp innerText]
    exact parse_render enclosed (unbracketed_named unbracketed named)
  have shortened : parse (front ++ inner ++ rear) = .ok phrase.term := by
    refine (parse_ok_iff _ _).mpr ⟨phrase, ?_, rfl⟩
    rw [String.toList_append, String.toList_append, innerText, List.append_assoc]
    exact tokens_of_writes (unbracketed_writes unbracketed named)
  have abstraction : (∃ argument body, parse inner = .ok (.abs argument body)) ↔ enclosed.isAbs = true := by
    rw [innerRead]
    cases enclosed <;> simp [Term.isAbs]
  refine ⟨?_, phrase.term, shortened⟩
  rw [shortened, abstraction, ← concluded_toList, ← unbracketed_term_iff unbracketed]
  exact ⟨Except.ok.inj, congrArg Except.ok⟩

end

theorem last_abstraction_needs_no_brackets :
    let term : Term := .app (.var "f") (.app (.var "g") (.abs "y" (.app (.var "y") (.var "y"))))
    term.WellNamed ∧ term.render = "f (g (\\y.y y))" ∧
      parse "f (g \\y.y y)" = .ok term ∧ parse "f g (\\y.y y)" ≠ .ok term := by
  intro term
  have named : term.WellNamed := by decide
  have plain : Balanced "\\y.y y".toList := balanced_of_plain (by simp)
  have nested : Balanced "g (\\y.y y)".toList :=
    .plain (by decide) (by decide) (.plain (by decide) (by decide) (.nested plain .nil))
  have inner := (brackets_spared_only_around_last_abstraction named "f (g " "\\y.y y" ")" rfl plain).1
  have outer := (brackets_spared_only_around_last_abstraction named "f " "g (\\y.y y)" "" rfl nested).1
  refine ⟨named, rfl, ?_, ?_⟩
  · exact inner.mpr ⟨⟨"y", _, parse_render (.abs "y" (.app (.var "y") (.var "y"))) (by decide)⟩, .inr ⟨"", rfl⟩⟩
  · intro read
    obtain ⟨⟨argument, body, abstraction⟩, -⟩ := outer.mp read
    have application := parse_render (.app (.var "g") (.abs "y" (.app (.var "y") (.var "y")))) (by decide)
    cases application.symm.trans abstraction

end LambdaCalculus

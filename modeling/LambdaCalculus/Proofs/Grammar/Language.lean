import LambdaCalculus.Parse
import LambdaCalculus.Proofs.Grammar.Reading
import LambdaCalculus.Proofs.Phrase

set_option autoImplicit false

namespace LambdaCalculus.Grammar

open LambdaCalculus.Parser

variable [Alphabet] {ε : Type} {source : Source} {position : Nat}

theorem var_failed_of_read (report : Report ε)
    (absent : ∀ letters later, Token.read (source.rest position) ≠ some (.name letters, later)) :
    ∃ failure, ((var report).attempt source position).reply = .failed failure := by
  apply failed_of_unmatched (finishes_var source position)
  intro term next matched
  obtain ⟨letters, -, found⟩ := read_of_var matched
  exact absent letters _ found

theorem abs_failed_of_read (report : Report ε)
    (absent : ∀ later, Token.read (source.rest position) ≠ some (.mark .backslash, later)) :
    ∃ failure, ((abs report (expression report)).attempt source position).reply = .failed failure := by
  apply failed_of_unmatched (finishes_abs fun later _ _ => finishes_expression source later)
  intro term next matched
  obtain ⟨argument, body, third, -, -, -, spelled, -⟩ := read_of_abs matched
  obtain ⟨middle, found, -⟩ := spells_cons.mp spelled
  exact absent middle found

theorem item_of_name (report : Report ε) {letters : String} {later : List Char}
    (found : Token.read (source.rest position) = some (.name letters, later)) :
    ∃ next, ((item report).attempt source position).reply = .matched (.var letters) next ∧
      source.rest next = later := by
  obtain ⟨next, matched, behind⟩ := var_of_read report found
  exact ⟨next, atom_matched_iff.mpr (.inl matched), behind⟩

theorem item_of_abs {report : Report ε} {later : List Char} {term : Term} {next : Nat}
    (found : Token.read (source.rest position) = some (.mark .backslash, later))
    (matched : ((abs report (expression report)).attempt source position).reply = .matched term next) :
    ((item report).attempt source position).reply = .matched term next := by
  have noName : ∀ letters later, Token.read (source.rest position) ≠ some (.name letters, later) := by
    simp [found]
  obtain ⟨noVar, refused⟩ := var_failed_of_read report noName
  exact atom_matched_iff.mpr (.inr (.inl ⟨noVar, refused, matched⟩))

theorem item_of_bracketed {report : Report ε} {later : List Char} {term : Term} {next : Nat}
    (found : Token.read (source.rest position) = some (.mark .leftBracket, later))
    (matched : ((bracketed report (expression report)).attempt source position).reply = .matched term next) :
    ((item report).attempt source position).reply = .matched term next := by
  have noName : ∀ letters later, Token.read (source.rest position) ≠ some (.name letters, later) := by
    simp [found]
  have noSlash : ∀ later, Token.read (source.rest position) ≠ some (.mark .backslash, later) := by
    simp [found]
  obtain ⟨noVar, varRefused⟩ := var_failed_of_read report noName
  obtain ⟨noAbs, absRefused⟩ := abs_failed_of_read report noSlash
  exact atom_matched_iff.mpr (.inr (.inr ⟨noVar, noAbs, varRefused, absRefused, matched⟩))

def ItemsEnd (text : List Char) : Prop :=
  ∀ token later, Token.read text = some (token, later) → token.startsItem = false

theorem items_end_of_blank {text : List Char} (blank : text.all isBlank = true) : ItemsEnd text := by
  intro token later found
  rw [read_of_blank blank] at found
  cases found

theorem items_end_of_rightBracket {text later : List Char}
    (found : Token.read text = some (.mark .rightBracket, later)) : ItemsEnd text := by
  intro token behind again
  rw [found] at again
  cases again
  rfl

theorem item_failed_of_end (report : Report ε) (ended : ItemsEnd (source.rest position)) :
    ∃ failure, ((item report).attempt source position).reply = .failed failure := by
  apply failed_of_unmatched (finishes_item source position)
  intro term next matched
  obtain varEnd | ⟨noVar, -, absEnd⟩ | ⟨noVar, noAbs, -, -, bracketsEnd⟩ := atom_matched_iff.mp matched
  · obtain ⟨letters, -, found⟩ := read_of_var varEnd
    cases ended _ _ found
  · obtain ⟨argument, body, third, -, -, -, spelled, -⟩ := read_of_abs absEnd
    obtain ⟨middle, found, -⟩ := spells_cons.mp spelled
    cases ended _ _ found
  · obtain ⟨first, second, -, -, found, -, -⟩ := read_of_bracketed bracketsEnd
    cases ended _ _ found

theorem expression_stops {report : Report ε} {term : Term} {last : Nat}
    (matched : ((expression report).attempt source position).reply = .matched term last) :
    ∃ failure, ((item report).attempt source last).reply = .failed failure := by
  obtain ⟨head, others, run, -⟩ := expression_matched_iff.mp matched
  exact maximal_run_stops run

theorem expression_matched_of_snoc {report : Report ε} {front : List Term} {item : Term} {last : Nat}
    (run : MaximalRun (Grammar.item report) source position (front ++ [item]) last) :
    ((expression report).attempt source position).reply = .matched (Term.joined front item) last := by
  cases front with
  | nil => exact expression_matched_of_run run
  | cons head others =>
      rw [← joined_snoc (head :: others) item head (others ++ [item]) rfl]
      exact expression_matched_of_run run

def Derived (report : Report ε) (source : Source) (position : Nat) : Prop :=
  ∀ term last, ((expression report).attempt source position).reply = .matched term last →
    ∃ phrase : Phrase, phrase.term = term ∧ Spells (source.rest position) phrase.tokens (source.rest last)

theorem item_sound {report : Report ε} {term : Term} {next : Nat}
    (nested : ∀ later, position < later → later ≤ source.size → Derived report source later)
    (matched : ((item report).attempt source position).reply = .matched term next) :
    (∃ primary : Primary, primary.term = term ∧
      Spells (source.rest position) primary.tokens (source.rest next)) ∨
    ∃ (argument : String) (body : Phrase), term = .abs argument body.term ∧
      Spells (source.rest position) (.mark .backslash :: .name argument :: .mark .dot :: body.tokens)
        (source.rest next) ∧
      ∃ failure, ((item report).attempt source next).reply = .failed failure := by
  obtain varEnd | ⟨noVar, -, absEnd⟩ | ⟨noVar, noAbs, -, -, bracketsEnd⟩ := atom_matched_iff.mp matched
  · obtain ⟨letters, rfl, found⟩ := read_of_var varEnd
    exact .inl ⟨.name letters, rfl, .cons found (.nil _)⟩
  · obtain ⟨argument, inner, third, rfl, behind, within, spelled, read⟩ := read_of_abs absEnd
    obtain ⟨body, rfl, bodySpelled⟩ := nested third behind within inner next read
    exact .inr ⟨argument, body, rfl, spells_append spelled bodySpelled, expression_stops read⟩
  · obtain ⟨first, second, behind, within, opening, read, closing⟩ := read_of_bracketed bracketsEnd
    obtain ⟨inner, rfl, innerSpelled⟩ := nested first behind within term second read
    exact .inl ⟨.bracketed inner, rfl,
      .cons opening (spells_append innerSpelled (.cons closing (.nil _)))⟩

theorem run_sound {report : Report ε} {items : List Term} {last : Nat}
    (nested : ∀ later, position < later → later ≤ source.size → Derived report source later)
    (run : MaximalRun (item report) source position items last) :
    (∃ primaries : Primaries, primaries.terms = items ∧
      Spells (source.rest position) primaries.tokens (source.rest last)) ∨
    ∃ (front : Primaries) (argument : String) (body : Phrase),
      items = front.terms ++ [.abs argument body.term] ∧
      Spells (source.rest position) (Phrase.abstracted front argument body).tokens (source.rest last) := by
  induction run with
  | stop refused => exact .inl ⟨.nil, rfl, .nil _⟩
  | @step position next last head others matched rest ih =>
      have bounds := advances_item source position head next matched
      obtain ⟨primary, rfl, spelled⟩ | ⟨argument, body, rfl, spelled, failure, refused⟩ := item_sound nested matched
      · obtain ⟨primaries, rfl, othersSpelled⟩ | ⟨front, argument, body, rfl, othersSpelled⟩ :=
          ih fun later behind within => nested later (by omega) within
        · exact .inl ⟨.cons primary primaries, rfl, spells_append spelled othersSpelled⟩
        · refine .inr ⟨.cons primary front, argument, body, rfl, ?_⟩
          simpa only [Phrase.tokens, Primaries.tokens, List.append_assoc] using
            spells_append spelled othersSpelled
      · -- The body of an abstraction without brackets has taken all the atoms there are.
        obtain ⟨rfl, rfl⟩ := maximal_run_of_refused refused rest
        exact .inr ⟨.nil, argument, body, rfl, spelled⟩

theorem expression_sound (report : Report ε) (source : Source) (position : Nat) :
    Derived report source position := by
  intro term last matched
  obtain ⟨head, others, run, rfl⟩ := expression_matched_iff.mp matched
  have nested : ∀ later, position < later → later ≤ source.size → Derived report source later :=
    fun later behind within => expression_sound report source later
  obtain ⟨primaries, items, spelled⟩ | ⟨front, argument, body, items, spelled⟩ := run_sound nested run
  · cases primaries with
    | nil => cases items
    | cons first rest =>
        cases items
        exact ⟨.closed first rest, rfl, spelled⟩
  · exact ⟨.abstracted front argument body, (joined_snoc _ _ _ _ items.symm).symm, spelled⟩
termination_by source.size - position
decreasing_by omega

mutual
theorem primary_complete (report : Report ε) (source : Source) (primary : Primary) (position : Nat)
    (later : List Char) (spelled : Spells (source.rest position) primary.tokens later) :
    ∃ next, ((item report).attempt source position).reply = .matched primary.term next ∧
      source.rest next = later := by
  cases primary with
  | name letters =>
      obtain ⟨middle, found, behind⟩ := spells_cons.mp spelled
      rw [spells_nil.mp behind]
      exact item_of_name report found
  | bracketed inner =>
      obtain ⟨opened, opening, behind⟩ := spells_cons.mp spelled
      obtain ⟨closing, innerSpelled, rear⟩ := spells_split behind
      obtain ⟨closed, found, nothing⟩ := spells_cons.mp rear
      obtain rfl := spells_nil.mp nothing
      obtain ⟨first, rfl, complete⟩ := bracketed_of_read report (expression report) opening
      obtain ⟨second, read, rfl⟩ := phrase_complete report source inner first closing innerSpelled
        (items_end_of_rightBracket found)
      obtain ⟨last, matched, rest⟩ := complete _ second later read found
      exact ⟨last, item_of_bracketed opening matched, rest⟩
theorem primaries_complete (report : Report ε) (source : Source) (primaries : Primaries) (position : Nat)
    (later : List Char) (spelled : Spells (source.rest position) primaries.tokens later) :
    ∃ next, source.rest next = later ∧ ∀ items last, MaximalRun (item report) source next items last →
      MaximalRun (item report) source position (primaries.terms ++ items) last := by
  cases primaries with
  | nil =>
      obtain rfl := spells_nil.mp spelled
      exact ⟨position, rfl, fun _ _ run => run⟩
  | cons first rest =>
      obtain ⟨middle, firstSpelled, restSpelled⟩ := spells_split spelled
      obtain ⟨next, matched, rfl⟩ := primary_complete report source first position middle firstSpelled
      obtain ⟨after, left, extend⟩ := primaries_complete report source rest next later restSpelled
      exact ⟨after, left, fun items last run => .step matched (extend items last run)⟩
theorem phrase_complete (report : Report ε) (source : Source) (phrase : Phrase) (position : Nat)
    (later : List Char) (spelled : Spells (source.rest position) phrase.tokens later)
    (ended : ItemsEnd later) :
    ∃ last, ((expression report).attempt source position).reply = .matched phrase.term last ∧
      source.rest last = later := by
  cases phrase with
  | closed first rest =>
      obtain ⟨middle, firstSpelled, restSpelled⟩ := spells_split spelled
      obtain ⟨next, matched, rfl⟩ := primary_complete report source first position middle firstSpelled
      obtain ⟨last, rfl, extend⟩ := primaries_complete report source rest next later restSpelled
      obtain ⟨failure, refused⟩ := item_failed_of_end report ended
      have others := extend [] last (.stop refused)
      rw [List.append_nil] at others
      exact ⟨last, expression_matched_of_run (.step matched others), rfl⟩
  | abstracted front argument body =>
      obtain ⟨middle, frontSpelled, absSpelled⟩ := spells_split spelled
      obtain ⟨next, rfl, extend⟩ := primaries_complete report source front position middle frontSpelled
      obtain ⟨behind, slash, -⟩ := spells_cons.mp absSpelled
      obtain ⟨dotted, headSpelled, bodySpelled⟩ : ∃ dotted,
          Spells (source.rest next) [.mark .backslash, .name argument, .mark .dot] dotted ∧
            Spells dotted body.tokens later := spells_split absSpelled
      obtain ⟨third, rfl, complete⟩ := abs_of_read report (expression report) headSpelled
      obtain ⟨last, read, rfl⟩ := phrase_complete report source body third later bodySpelled ended
      have matched := item_of_abs slash (complete _ last read)
      obtain ⟨failure, refused⟩ := item_failed_of_end report ended
      have run := extend [.abs argument body.term] last (.step matched (.stop refused))
      exact ⟨last, expression_matched_of_snoc run, rfl⟩
end

end LambdaCalculus.Grammar

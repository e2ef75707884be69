import LambdaCalculus.Proofs.Grammar.Juxtaposition
import LambdaCalculus.Proofs.Grammar.Lexical
import LambdaCalculus.Proofs.Token

set_option autoImplicit false

namespace LambdaCalculus

namespace Parser

variable {ε α β : Type} {source : Source} {position next : Nat}

theorem bind_matched_iff {first : Parser ε α} {second : α → Parser ε β} {value : β} :
    ((first >>= second).attempt source position).reply = .matched value next ↔
      ∃ head middle, (first.attempt source position).reply = .matched head middle ∧
        ((second head).attempt source middle).reply = .matched value next := by
  constructor
  · exact bind_matched
  · intro ⟨head, middle, firstMatched, secondMatched⟩
    rw [bind_reply, firstMatched]
    exact secondMatched

theorem pure_matched_iff {value found : α} :
    ((pure value : Parser ε α).attempt source position).reply = .matched found next ↔
      found = value ∧ next = position := by
  change Reply.matched value position = .matched found next ↔ _
  rw [Reply.matched.injEq, eq_comm, @eq_comm _ position]

theorem failed_of_unmatched {parser : Parser ε α} (finishes : FinishesAt parser source position)
    (unmatched : ∀ value next, (parser.attempt source position).reply ≠ .matched value next) :
    ∃ failure, (parser.attempt source position).reply = .failed failure := by
  cases ending : (parser.attempt source position).reply with
  | matched value next => exact absurd ending (unmatched value next)
  | failed failure => exact ⟨failure, rfl⟩
  | unfinished => exact absurd ending finishes

end Parser

namespace Grammar

open LambdaCalculus.Parser

variable {ε : Type} {report : Report ε} {source : Source} {position : Nat}

theorem named_matched_iff {α : Type} {rule : Rule} {expected : Option Cause} {reading : α → Reading}
    {parser : Parser ε α} {value : α} {next : Nat} :
    ((named report rule expected reading parser).attempt source position).reply = .matched value next ↔
      (parser.attempt source position).reply = .matched value next := by
  rw [named_reply]
  cases expected with
  | none => rfl
  | some cause => exact context_matched

variable [Alphabet]

theorem read_rest (source : Source) (position : Nat) :
    Token.read (source.rest position) =
      match source.charAt (source.skip isBlank position) with
      | none => none
      | some c =>
          if isLetter c then
            some (.name (String.ofList (c :: (source.rest (source.skip isBlank position + 1)).takeWhile isLetter)),
              source.rest (source.skip isLetter (source.skip isBlank position + 1)))
          else (Mark.ofChar? c).map fun mark => (.mark mark, source.rest (source.skip isBlank position + 1)) := by
  rw [Token.read, ← Source.rest_skip]
  cases left : source.rest (source.skip isBlank position) with
  | nil =>
      have absent : source.charAt (source.skip isBlank position) = none := by
        rw [Source.charAt_eq_head, left, List.head?_nil]
      rw [absent]
  | cons c later =>
      obtain ⟨found, behind⟩ := Source.charAt_of_rest left
      rw [found, Source.rest_skip, behind]

theorem identifier_of_read (report : Report ε) {letters : String} {later : List Char}
    (found : Token.read (source.rest position) = some (.name letters, later)) :
    ∃ next, ((identifier report).attempt source position).reply = .matched letters next ∧
      source.rest next = later := by
  rw [read_rest] at found
  cases first : source.charAt (source.skip isBlank position) with
  | none => simp [first] at found
  | some c =>
      by_cases letter : isLetter c = true
      · simp only [first, if_pos letter] at found
        cases found
        exact ⟨_, identifier_matched first letter, rfl⟩
      · simp [first, letter] at found

theorem read_of_identifier {letters : String} {next : Nat}
    (matched : ((identifier report).attempt source position).reply = .matched letters next) :
    Token.read (source.rest position) = some (.name letters, source.rest next) := by
  cases first : (source.charAt (source.skip isBlank position)).filter isLetter with
  | none =>
      rw [Option.filter_eq_none_iff] at first
      rw [identifier_failed fun c found => by simpa using first c found] at matched
      cases matched
  | some c =>
      obtain ⟨found, letter⟩ := Option.filter_eq_some_iff.mp first
      rw [identifier_matched found letter] at matched
      cases matched
      rw [read_rest, found]
      simp only [if_pos letter]

theorem read_mark_iff {mark : Mark} {later : List Char} :
    Token.read (source.rest position) = some (.mark mark, later) ↔
      source.charAt (source.skip isBlank position) = some mark.char ∧
        source.rest (source.skip isBlank position + 1) = later := by
  rw [read_rest]
  cases source.charAt (source.skip isBlank position) with
  | none => simp
  | some c =>
      by_cases letter : isLetter c = true
      · have other : c ≠ mark.char := by
          rintro rfl
          rw [isLetter_mark] at letter
          cases letter
        simp [letter, other]
      · simp only [if_neg letter, Option.map_eq_some_iff, ofChar_eq_some_iff, Prod.mk.injEq,
          Token.mark.injEq, Option.some.injEq]
        constructor
        · rintro ⟨sign, first, rfl, behind⟩
          exact ⟨first, behind⟩
        · intro ⟨first, behind⟩
          exact ⟨mark, first, rfl, behind⟩

theorem punctuation_of_read (report : Report ε) {mark : Mark} {later : List Char}
    (found : Token.read (source.rest position) = some (.mark mark, later)) :
    ∃ next, ((punctuation report mark).attempt source position).reply = .matched mark.text next ∧
      source.rest next = later := by
  obtain ⟨first, behind⟩ := read_mark_iff.mp found
  exact ⟨_, by rw [punctuation_reply, if_pos first], behind⟩

theorem read_of_punctuation {mark : Mark} {text : String} {next : Nat}
    (matched : ((punctuation report mark).attempt source position).reply = .matched text next) :
    Token.read (source.rest position) = some (.mark mark, source.rest next) := by
  rw [punctuation_reply] at matched
  split at matched
  next first =>
    cases matched
    exact read_mark_iff.mpr ⟨first, rfl⟩
  next => cases matched

theorem read_of_var {term : Term} {next : Nat}
    (matched : ((var report).attempt source position).reply = .matched term next) :
    ∃ letters, term = .var letters ∧
      Token.read (source.rest position) = some (.name letters, source.rest next) := by
  simp only [var, named_matched_iff, bind_matched_iff, pure_matched_iff] at matched
  obtain ⟨letters, behind, name, rfl, rfl⟩ := matched
  exact ⟨letters, rfl, read_of_identifier name⟩

theorem var_of_read (report : Report ε) {letters : String} {later : List Char}
    (found : Token.read (source.rest position) = some (.name letters, later)) :
    ∃ next, ((var report).attempt source position).reply = .matched (.var letters) next ∧
      source.rest next = later := by
  obtain ⟨next, name, behind⟩ := identifier_of_read report found
  refine ⟨next, ?_, behind⟩
  simp only [var, named_matched_iff, bind_matched_iff, pure_matched_iff]
  exact ⟨letters, next, name, rfl, rfl⟩

section Nesting

variable {nested : Parser ε Term}

theorem read_of_abs {term : Term} {last : Nat}
    (matched : ((abs report nested).attempt source position).reply = .matched term last) :
    ∃ argument body third, term = .abs argument body ∧ position < third ∧ third ≤ source.size ∧
      Spells (source.rest position) [.mark .backslash, .name argument, .mark .dot] (source.rest third) ∧
      (nested.attempt source third).reply = .matched body last := by
  simp only [abs, named_matched_iff, bind_matched_iff, pure_matched_iff] at matched
  obtain ⟨slash, first, opened, argument, second, name, stop, third, dotted, body, behind, inner, rfl, rfl⟩ :=
    matched
  have opening := advances_punctuation _ source position _ _ opened
  have naming := advances_identifier source first _ _ name
  have dotting := advances_punctuation _ source second _ _ dotted
  refine ⟨argument, body, third, rfl, by omega, dotting.2, ?_, inner⟩
  exact .cons (read_of_punctuation opened) <| .cons (read_of_identifier name) <|
    .cons (read_of_punctuation dotted) <| .nil _

theorem abs_of_read (report : Report ε) (nested : Parser ε Term) {argument : String} {later : List Char}
    (spelled : Spells (source.rest position) [.mark .backslash, .name argument, .mark .dot] later) :
    ∃ third, source.rest third = later ∧
      ∀ body last, (nested.attempt source third).reply = .matched body last →
        ((abs report nested).attempt source position).reply = .matched (.abs argument body) last := by
  simp only [spells_cons, spells_nil] at spelled
  obtain ⟨behindSlash, slash, behindName, name, behindDot, dot, rfl⟩ := spelled
  obtain ⟨first, opened, rfl⟩ := punctuation_of_read report slash
  obtain ⟨second, named, rfl⟩ := identifier_of_read report name
  obtain ⟨third, dotted, rfl⟩ := punctuation_of_read report dot
  refine ⟨third, rfl, ?_⟩
  intro body last inner
  simp only [abs, named_matched_iff, bind_matched_iff, pure_matched_iff]
  exact ⟨_, first, opened, argument, second, named, _, third, dotted, body, last, inner, rfl, rfl⟩

theorem read_of_bracketed {term : Term} {last : Nat}
    (matched : ((bracketed report nested).attempt source position).reply = .matched term last) :
    ∃ first second, position < first ∧ first ≤ source.size ∧
      Token.read (source.rest position) = some (.mark .leftBracket, source.rest first) ∧
      (nested.attempt source first).reply = .matched term second ∧
      Token.read (source.rest second) = some (.mark .rightBracket, source.rest last) := by
  simp only [bracketed, named_matched_iff, bind_matched_iff, pure_matched_iff] at matched
  obtain ⟨left, first, opened, inner, second, read, right, third, closed, rfl, rfl⟩ := matched
  have opening := advances_punctuation _ source position _ _ opened
  exact ⟨first, second, opening.1, opening.2, read_of_punctuation opened, read, read_of_punctuation closed⟩

theorem bracketed_of_read (report : Report ε) (nested : Parser ε Term) {later : List Char}
    (opening : Token.read (source.rest position) = some (.mark .leftBracket, later)) :
    ∃ first, source.rest first = later ∧
      ∀ term second behind, (nested.attempt source first).reply = .matched term second →
        Token.read (source.rest second) = some (.mark .rightBracket, behind) →
        ∃ last, ((bracketed report nested).attempt source position).reply = .matched term last ∧
          source.rest last = behind := by
  obtain ⟨first, opened, rfl⟩ := punctuation_of_read report opening
  refine ⟨first, rfl, ?_⟩
  intro term second behind inner closing
  obtain ⟨last, closed, rfl⟩ := punctuation_of_read report closing
  refine ⟨last, ?_, rfl⟩
  simp only [bracketed, named_matched_iff, bind_matched_iff, pure_matched_iff]
  exact ⟨_, first, opened, term, second, inner, _, last, closed, rfl, rfl⟩

end Nesting

end Grammar

end LambdaCalculus

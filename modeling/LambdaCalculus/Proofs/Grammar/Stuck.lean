import LambdaCalculus.Proofs.Grammar.Language

set_option autoImplicit false

namespace LambdaCalculus

open LambdaCalculus.Parser

namespace Parser

variable {ε α β : Type} {source : Source} {position : Nat} {failure : Failure}

theorem bind_failed_iff {first : Parser ε α} {second : α → Parser ε β} :
    ((first >>= second).attempt source position).reply = .failed failure ↔
      (first.attempt source position).reply = .failed failure ∨
      ∃ head middle, (first.attempt source position).reply = .matched head middle ∧
        ((second head).attempt source middle).reply = .failed failure := by
  rw [bind_reply]
  cases (first.attempt source position).reply with
  | matched head middle => simp [and_assoc]
  | failed other => simp
  | unfinished => simp

theorem pure_failed_iff {value : α} :
    ((pure value : Parser ε α).attempt source position).reply = .failed failure ↔ False := by
  constructor
  · intro refused
    cases refused
  · exact False.elim

theorem context_failed_iff {cause : Cause} {parser : Parser ε α} :
    ((context cause parser).attempt source position).reply = .failed failure ↔
      ∃ inner : Failure, (parser.attempt source position).reply = .failed inner ∧
        failure = inner.context position cause := by
  rw [context_reply]
  cases (parser.attempt source position).reply with
  | matched value next => simp
  | failed inner => simp [eq_comm]
  | unfinished => simp

end Parser

namespace Failure

def Descends (failure : Failure) (position : Nat) : Prop :=
  (∀ fragment ∈ failure.fragments, position ≤ fragment.position) ∧
    (failure.fragments.map Fragment.position).Pairwise (· ≥ ·)

theorem descends_ofCause {position place : Nat} (cause : Cause) (behind : position ≤ place) :
    (ofCause place cause).Descends position := by
  simp [Descends, fragments_ofCause, behind]

theorem descends_mono {failure : Failure} {position later : Nat} (descends : failure.Descends later)
    (behind : position ≤ later) : failure.Descends position :=
  ⟨fun fragment member => Nat.le_trans behind (descends.1 fragment member), descends.2⟩

theorem descends_within {failure : Failure} {position : Nat} (descends : failure.Descends position)
    (causes : List Cause) : (failure.within position causes).Descends position := by
  obtain ⟨behind, ordered⟩ := descends
  rw [Descends, fragments_within]
  constructor
  · intro fragment member
    rcases List.mem_append.mp member with member | member
    · exact behind fragment member
    · obtain ⟨cause, -, rfl⟩ := List.mem_map.mp member
      exact Nat.le_refl position
  · rw [List.map_append, List.map_map, List.pairwise_append]
    refine ⟨ordered, ?_, ?_⟩
    · simp [List.pairwise_map, List.pairwise_of_forall]
    · simpa using fun fragment member cause _ => behind fragment member

end Failure

namespace Grammar

variable {ε : Type} {report : Report ε} {source : Source} {position : Nat} {failure : Failure}

theorem punctuation_failed_iff {mark : Mark} :
    ((punctuation report mark).attempt source position).reply = .failed failure ↔
      source.charAt (source.skip isBlank position) ≠ some mark.char ∧
        failure = .ofCause (source.skip isBlank position) (.mark mark) := by
  rw [punctuation_reply]
  split
  next found => simp [found]
  next absent => simp [absent, eq_comm]

theorem punctuation_matched_iff {mark : Mark} {text : String} {next : Nat} :
    ((punctuation report mark).attempt source position).reply = .matched text next ↔
      source.charAt (source.skip isBlank position) = some mark.char ∧
        text = mark.text ∧ next = source.skip isBlank position + 1 := by
  rw [punctuation_reply]
  split
  next found => simp [found, eq_comm]
  next absent => simp [absent]

variable [Alphabet]

theorem identifier_failed_iff :
    ((identifier report).attempt source position).reply = .failed failure ↔
      (∀ c, source.charAt (source.skip isBlank position) = some c → isLetter c = false) ∧
        failure = (Failure.ofCause (source.skip isBlank position) .letter).context position .identifier := by
  cases first : (source.charAt (source.skip isBlank position)).filter isLetter with
  | none =>
      have absent : ∀ c, source.charAt (source.skip isBlank position) = some c → isLetter c = false := by
        simpa [Option.filter_eq_none_iff] using first
      rw [identifier_failed absent, Reply.failed.injEq, eq_comm, and_iff_right absent]
  | some c =>
      obtain ⟨found, letter⟩ := Option.filter_eq_some_iff.mp first
      rw [identifier_matched found letter]
      simp [found, letter]

theorem var_failed_iff :
    ((var report).attempt source position).reply = .failed failure ↔
      (∀ c, source.charAt (source.skip isBlank position) = some c → isLetter c = false) ∧
        failure = (Failure.ofCause (source.skip isBlank position) .letter).within position [.identifier, .var] := by
  simp only [var, named_reply, Option.elim_some, context_failed_iff, bind_failed_iff, identifier_failed_iff,
    pure_failed_iff, and_false, exists_false, or_false]
  constructor
  · rintro ⟨inner, ⟨absent, rfl⟩, rfl⟩
    exact ⟨absent, rfl⟩
  · rintro ⟨absent, rfl⟩
    exact ⟨_, ⟨absent, rfl⟩, rfl⟩

theorem expression_failed_iff :
    ((expression report).attempt source position).reply = .failed failure ↔
      ∃ inner : Failure, ((item report).attempt source position).reply = .failed inner ∧
        failure = inner.within position expressionTrail := by
  cases ending : ((item report).attempt source position).reply with
  | matched head next =>
      obtain ⟨others, last, rest⟩ := maximal_items_exist report source next
      rw [expression_matched_of_run (.step ending rest)]
      simp
  | failed inner =>
      rw [expression_failed_of_item ending]
      simp [eq_comm]
  | unfinished => exact absurd ending (finishes_item source position)

def itemTrail : List Cause :=
  .noAlternative :: expressionTrail

-- How an expression can fail: what was read of it, what was missing behind that, and the
-- failure that is told. An item that cannot begin asks for a letter, as the first of its
-- three alternatives does; one that has begun with a mark fails further on than the others.
inductive Stuck (source : Source) : Nat → Failure → Prop where
  | item {position : Nat} (ended : ItemsEnd (source.rest position)) :
      Stuck source position ((Failure.ofCause (source.skip isBlank position) .letter).within position
        (.identifier :: .var :: itemTrail))
  | argument {position first : Nat}
      (headed : Spells (source.rest position) [.mark .backslash] (source.rest first))
      (inside : first ≤ source.size)
      (absent : ∀ c, source.charAt (source.skip isBlank first) = some c → isLetter c = false) :
      Stuck source position (((Failure.ofCause (source.skip isBlank first) .letter).context first
        .identifier).within position (.abs :: itemTrail))
  | dot {position second : Nat} {argument : String}
      (headed : Spells (source.rest position) [.mark .backslash, .name argument] (source.rest second))
      (inside : second ≤ source.size)
      (absent : source.charAt (source.skip isBlank second) ≠ some Mark.dot.char) :
      Stuck source position ((Failure.ofCause (source.skip isBlank second) (.mark .dot)).within position
        (.abs :: itemTrail))
  | body {position third : Nat} {argument : String} {failure : Failure}
      (headed : Spells (source.rest position) [.mark .backslash, .name argument, .mark .dot] (source.rest third))
      (inside : third ≤ source.size) (stuck : Stuck source third failure) :
      Stuck source position (failure.within position (.abs :: itemTrail))
  | inner {position first : Nat} {failure : Failure}
      (opened : Spells (source.rest position) [.mark .leftBracket] (source.rest first))
      (inside : first ≤ source.size) (stuck : Stuck source first failure) :
      Stuck source position (failure.within position itemTrail)
  | rightBracket {position second : Nat} {phrase : Phrase}
      (filled : Spells (source.rest position) (.mark .leftBracket :: phrase.tokens) (source.rest second))
      (inside : second ≤ source.size)
      (absent : source.charAt (source.skip isBlank second) ≠ some Mark.rightBracket.char) :
      Stuck source position ((Failure.ofCause (source.skip isBlank second) (.mark .rightBracket)).within
        position itemTrail)

theorem spells_onwards {words : List Token} {next : Nat}
    (spelled : Spells (source.rest position) words (source.rest next)) (nonempty : words ≠ [])
    (inside : next ≤ source.size) : position < next := by
  have shorter := spells_shorter spelled nonempty
  rw [Source.length_rest, Source.length_rest] at shorter
  omega

theorem descends_behind {words : List Token} {next : Nat}
    (headed : Spells (source.rest position) words (source.rest next)) (nonempty : words ≠ [])
    (inside : next ≤ source.size) (descends : failure.Descends next) (causes : List Cause) :
    (failure.within position causes).Descends position :=
  Failure.descends_within (Failure.descends_mono descends (Nat.le_of_lt (spells_onwards headed nonempty inside))) causes

theorem stuck_descends (stuck : Stuck source position failure) : failure.Descends position := by
  induction stuck with
  | @item position ended =>
      exact Failure.descends_within (Failure.descends_ofCause .letter (source.skip_onwards isBlank position)) _
  | @argument position first headed inside absent =>
      have named := Failure.descends_ofCause .letter (source.skip_onwards isBlank first)
      exact descends_behind headed (List.cons_ne_nil _ _) inside (Failure.descends_within named [.identifier]) _
  | @dot position second argument headed inside absent =>
      have marked := Failure.descends_ofCause (.mark .dot) (source.skip_onwards isBlank second)
      exact descends_behind headed (List.cons_ne_nil _ _) inside marked _
  | body headed inside stuck ih => exact descends_behind headed (List.cons_ne_nil _ _) inside ih _
  | inner opened inside stuck ih => exact descends_behind opened (List.cons_ne_nil _ _) inside ih _
  | @rightBracket position second phrase filled inside absent =>
      have marked := Failure.descends_ofCause (.mark .rightBracket) (source.skip_onwards isBlank second)
      exact descends_behind filled (List.cons_ne_nil _ _) inside marked _

theorem stuck_onwards (stuck : Stuck source position failure) : position ≤ failure.position :=
  (stuck_descends stuck).1 failure.innermost List.mem_cons_self

theorem stuck_inside (stuck : Stuck source position failure) (begins : position ≤ source.size) :
    failure.position ≤ source.size := by
  induction stuck with
  | item ended => exact Source.skip_inside isBlank begins
  | argument headed inside absent => exact Source.skip_inside isBlank inside
  | dot headed inside absent => exact Source.skip_inside isBlank inside
  | body headed inside stuck ih => exact ih inside
  | inner opened inside stuck ih => exact ih inside
  | rightBracket filled inside absent => exact Source.skip_inside isBlank inside

theorem items_end_of_absent {report : Report ε} {noVar : Failure}
    (varRefused : ((var report).attempt source position).reply = .failed noVar)
    (noSlash : source.charAt (source.skip isBlank position) ≠ some Mark.backslash.char)
    (noBracket : source.charAt (source.skip isBlank position) ≠ some Mark.leftBracket.char) :
    ItemsEnd (source.rest position) := by
  intro token later found
  cases token with
  | name letters =>
      obtain ⟨next, matched, -⟩ := var_of_read report found
      rw [varRefused] at matched
      cases matched
  | mark sign =>
      obtain ⟨first, -⟩ := read_mark_iff.mp found
      cases sign with
      | backslash => exact absurd first noSlash
      | leftBracket => exact absurd first noBracket
      | dot => rfl
      | rightBracket => rfl

def StuckBehind (report : Report ε) (source : Source) (position : Nat) : Prop :=
  ∀ later, position < later → later ≤ source.size → ∀ failure : Failure,
    ((expression report).attempt source later).reply = .failed failure → Stuck source later failure

theorem abs_refused (nested : StuckBehind report source position)
    (refused : ((abs report (expression report)).attempt source position).reply = .failed failure) :
    (source.charAt (source.skip isBlank position) ≠ some Mark.backslash.char ∧
      failure.position = source.skip isBlank position) ∨
    (source.charAt (source.skip isBlank position) = some Mark.backslash.char ∧
      source.skip isBlank position < failure.position ∧
      Stuck source position (failure.within position itemTrail)) := by
  simp only [abs, named_reply, Option.elim_some, context_failed_iff, bind_failed_iff, pure_failed_iff,
    and_false, exists_false, or_false] at refused
  obtain ⟨inner, refused, rfl⟩ := refused
  obtain noSlash | ⟨slash, first, opened, refused⟩ := refused
  · obtain ⟨absent, rfl⟩ := punctuation_failed_iff.mp noSlash
    exact .inl ⟨absent, rfl⟩
  · obtain ⟨begun, -, rfl⟩ := punctuation_matched_iff.mp opened
    have slashRead := read_of_punctuation opened
    have slashInside := (advances_punctuation _ source position _ _ opened).2
    refine .inr ⟨begun, ?_⟩
    obtain noName | ⟨argument, second, named, refused⟩ := refused
    · obtain ⟨absent, rfl⟩ := identifier_failed_iff.mp noName
      exact ⟨source.skip_onwards isBlank _, .argument (.cons slashRead (.nil _)) slashInside absent⟩
    have nameBounds := advances_identifier source _ argument second named
    obtain noDot | ⟨dot, third, dotted, refused⟩ := refused
    · obtain ⟨absent, rfl⟩ := punctuation_failed_iff.mp noDot
      have onwards := source.skip_onwards isBlank second
      refine ⟨Nat.lt_of_lt_of_le (by omega) onwards, ?_⟩
      exact .dot (.cons slashRead (.cons (read_of_identifier named) (.nil _))) nameBounds.2 absent
    have dotBounds := advances_punctuation _ source second _ third dotted
    have begins := source.skip_onwards isBlank position
    have stuck := nested third (by omega) dotBounds.2 inner refused
    have further := stuck_onwards stuck
    refine ⟨Nat.lt_of_lt_of_le (by omega) further, ?_⟩
    exact .body (.cons slashRead (.cons (read_of_identifier named) (.cons (read_of_punctuation dotted) (.nil _))))
      dotBounds.2 stuck

theorem bracketed_refused (nested : StuckBehind report source position)
    (refused : ((bracketed report (expression report)).attempt source position).reply = .failed failure) :
    (source.charAt (source.skip isBlank position) ≠ some Mark.leftBracket.char ∧
      failure.position = source.skip isBlank position) ∨
    (source.charAt (source.skip isBlank position) = some Mark.leftBracket.char ∧
      source.skip isBlank position < failure.position ∧
      Stuck source position (failure.within position itemTrail)) := by
  simp only [bracketed, named_reply, Option.elim_none, bind_failed_iff, pure_failed_iff, and_false,
    exists_false, or_false] at refused
  obtain noBracket | ⟨left, first, opened, refused⟩ := refused
  · obtain ⟨absent, rfl⟩ := punctuation_failed_iff.mp noBracket
    exact .inl ⟨absent, rfl⟩
  obtain ⟨begun, -, rfl⟩ := punctuation_matched_iff.mp opened
  have leftRead := read_of_punctuation opened
  have leftInside := (advances_punctuation _ source position _ _ opened).2
  refine .inr ⟨begun, ?_⟩
  obtain refused | ⟨term, second, read, unclosed⟩ := refused
  · have begins := source.skip_onwards isBlank position
    have stuck := nested _ (by omega) leftInside failure refused
    exact ⟨stuck_onwards stuck, .inner (.cons leftRead (.nil _)) leftInside stuck⟩
  · obtain ⟨absent, rfl⟩ := punctuation_failed_iff.mp unclosed
    obtain ⟨phrase, -, spelled⟩ := expression_sound report source _ term second read
    have bounds := advances_expression source _ term second read
    have onwards := source.skip_onwards isBlank second
    refine ⟨Nat.lt_of_lt_of_le (by omega) onwards, ?_⟩
    exact .rightBracket (.cons leftRead spelled) bounds.2 absent

theorem expression_stuck (report : Report ε) (source : Source) (position : Nat) (failure : Failure)
    (refused : ((expression report).attempt source position).reply = .failed failure) :
    Stuck source position failure := by
  have nested : StuckBehind report source position :=
    fun later behind inside => expression_stuck report source later
  obtain ⟨inner, itemRefused, rfl⟩ := expression_failed_iff.mp refused
  obtain ⟨noVar, noAbs, noBrackets, varEnd, absEnd, bracketsEnd, rfl⟩ := atom_failed itemRefused
  obtain ⟨-, varSame⟩ := var_failed_iff.mp varEnd
  have varPosition : noVar.position = source.skip isBlank position := congrArg Failure.position varSame
  change Stuck source position (((noVar.further noAbs).further noBrackets).within position itemTrail)
  -- An item that begins with a mark has one alternative that gets beyond it, whose failure is the
  -- one that is told. Where all three stop at once, the first of them speaks.
  obtain ⟨noSlash, absPosition⟩ | ⟨slash, beyond, absStuck⟩ := abs_refused nested absEnd
  · rw [Failure.further_of_le _ noAbs (by omega)]
    obtain ⟨noBracket, bracketsPosition⟩ | ⟨-, beyond, bracketsStuck⟩ := bracketed_refused nested bracketsEnd
    · rw [Failure.further_of_le _ noBrackets (by omega), varSame]
      exact .item (items_end_of_absent varEnd noSlash noBracket)
    · rw [Failure.further_of_lt _ noBrackets (by omega)]
      exact bracketsStuck
  · rw [Failure.further_of_lt _ noAbs (by omega)]
    obtain ⟨-, bracketsPosition⟩ | ⟨bracket, -, -⟩ := bracketed_refused nested bracketsEnd
    · rw [Failure.further_of_le _ noBrackets (by omega)]
      exact absStuck
    · rw [slash] at bracket
      cases bracket
termination_by source.size - position
decreasing_by omega

end Grammar

end LambdaCalculus

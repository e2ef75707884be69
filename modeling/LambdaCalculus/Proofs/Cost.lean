import LambdaCalculus.Letter
import LambdaCalculus.Proofs.Grammar.Cost
import LambdaCalculus.Proofs.Parse
import LambdaCalculus.Proofs.Spelling
import Mathlib.Algebra.Ring.Nat
import Mathlib.Logic.Function.Iterate

set_option autoImplicit false

namespace LambdaCalculus

open LambdaCalculus.Parser LambdaCalculus.Grammar

mutual
def Primary.cost : Primary → Nat
  | .name _ => 2
  | .bracketed inner => inner.cost + 7
def Primaries.cost : Primaries → Nat
  | .nil => 0
  | .cons first rest => first.cost + rest.cost
def Phrase.cost : Phrase → Nat
  | .closed first .nil => 2 * first.cost + 9
  | .closed first (.cons second rest) => first.cost + (second.cost + rest.cost) + 9
  | .abstracted .nil _ body => 2 * (body.cost + 6) + 9
  | .abstracted (.cons first rest) _ body => first.cost + rest.cost + (body.cost + 6) + 9
end

section

variable [Alphabet]

theorem item_cost_of_abstraction {source : Source} {position : Nat} {argument : String} {body : Phrase}
    {dotted later : List Char}
    (spelled : Spells (source.rest position) [.mark .backslash, .name argument, .mark .dot] dotted)
    (bodySpelled : Spells dotted body.tokens later) (ended : ItemsEnd later)
    (bodyCost : ∀ start, source.rest start = dotted → (expression .traced).cost source start = body.cost) :
    ∃ last, ((item .traced).attempt source position).reply = .matched (.abs argument body.term) last ∧
      source.rest last = later ∧ (item .traced).cost source position = body.cost + 6 := by
  obtain ⟨behind, slash, -⟩ := spells_cons.mp spelled
  obtain ⟨start, left, absCost⟩ := abs_cost_of_read (finishes_expression source) spelled
  obtain ⟨third, rfl, complete⟩ := abs_of_read .traced (expression .traced) spelled
  obtain ⟨last, read, rfl⟩ := phrase_complete .traced source body third later bodySpelled ended
  have matched := complete _ last read
  refine ⟨last, item_of_abs slash matched, rfl, ?_⟩
  rw [item_cost_of_abs slash matched, absCost, bodyCost start left]

-- By induction on the derivation. What stands behind an expression counts as well: an item
-- is attempted there in vain, in all three ways.
mutual
theorem primary_cost (source : Source) (primary : Primary) (position : Nat) (later : List Char)
    (spelled : Spells (source.rest position) primary.tokens later) :
    (item .traced).cost source position = primary.cost := by
  cases primary with
  | name letters =>
      obtain ⟨middle, found, -⟩ := spells_cons.mp spelled
      exact item_cost_of_name found
  | bracketed inner =>
      obtain ⟨opened, opening, behind⟩ := spells_cons.mp spelled
      obtain ⟨closing, innerSpelled, rear⟩ := spells_split behind
      obtain ⟨closed, found, -⟩ := spells_cons.mp rear
      have ended := items_end_of_rightBracket found
      obtain ⟨first, rfl, bracketedCost⟩ := bracketed_cost_of_read (finishes_expression source) opening
      obtain ⟨second, read, -⟩ := phrase_complete .traced source inner first closing innerSpelled ended
      have innerCost := phrase_cost source inner first closing innerSpelled ended
      rw [item_cost_of_bracketed opening, bracketedCost _ second read, innerCost, Primary.cost]
theorem primaries_cost (source : Source) (primaries : Primaries) (position : Nat) (later : List Char)
    (spelled : Spells (source.rest position) primaries.tokens later) :
    ∃ next, source.rest next = later ∧
      (many (item .traced)).cost source position = primaries.cost + (many (item .traced)).cost source next ∧
      ∀ items last, MaximalRun (item .traced) source next items last →
        MaximalRun (item .traced) source position (primaries.terms ++ items) last := by
  cases primaries with
  | nil =>
      obtain rfl := spells_nil.mp spelled
      exact ⟨position, rfl, by rw [Primaries.cost, Nat.zero_add], fun _ _ run => run⟩
  | cons first rest =>
      obtain ⟨middle, firstSpelled, restSpelled⟩ := spells_split spelled
      obtain ⟨next, matched, rfl⟩ := primary_complete .traced source first position middle firstSpelled
      obtain ⟨after, left, restCost, extend⟩ := primaries_cost source rest next later restSpelled
      have firstCost := primary_cost source first position _ firstSpelled
      refine ⟨after, left, ?_, fun items last run => .step matched (extend items last run)⟩
      rw [many_cost_of_matched advances_item (finishes_item source) matched, firstCost, restCost, Primaries.cost,
        Nat.add_assoc]
theorem phrase_cost (source : Source) (phrase : Phrase) (position : Nat) (later : List Char)
    (spelled : Spells (source.rest position) phrase.tokens later) (ended : ItemsEnd later) :
    (expression .traced).cost source position = phrase.cost := by
  cases phrase with
  | closed first rest =>
      obtain ⟨middle, firstSpelled, restSpelled⟩ := spells_split spelled
      obtain ⟨next, matched, rfl⟩ := primary_complete .traced source first position middle firstSpelled
      obtain ⟨last, rfl, restCost, extend⟩ := primaries_cost source rest next later restSpelled
      have firstCost := primary_cost source first position _ firstSpelled
      have manyCost := many_cost_of_matched advances_item (finishes_item source) matched
      rw [firstCost, restCost, many_cost_of_end ended] at manyCost
      obtain ⟨failure, refused⟩ := item_failed_of_end .traced ended
      rw [expression_cost_of_run (.step matched (extend [] last (.stop refused))), manyCost, firstCost]
      cases rest with
      | nil =>
          simp only [Primaries.terms, List.append_nil, if_true, Primaries.cost, Phrase.cost]
          omega
      | cons second others =>
          simp only [Primaries.terms, List.cons_append, reduceCtorEq, if_false, Primaries.cost, Phrase.cost]
          omega
  | abstracted front argument body =>
      obtain ⟨middle, frontSpelled, absSpelled⟩ := spells_split spelled
      obtain ⟨dotted, headSpelled, bodySpelled⟩ : ∃ dotted,
          Spells middle [.mark .backslash, .name argument, .mark .dot] dotted ∧
            Spells dotted body.tokens later := spells_split absSpelled
      have bodyCost (start : Nat) (left : source.rest start = dotted) :
          (expression .traced).cost source start = body.cost :=
        phrase_cost source body start later (by rw [left]; exact bodySpelled) ended
      -- With nothing in front of it the abstraction is no argument, and is read once more.
      cases front with
      | nil =>
          obtain rfl := spells_nil.mp frontSpelled
          obtain ⟨last, matched, rfl, absCost⟩ := item_cost_of_abstraction headSpelled bodySpelled ended bodyCost
          obtain ⟨failure, refused⟩ := item_failed_of_end .traced ended
          have manyCost := many_cost_of_matched advances_item (finishes_item source) matched
          rw [expression_cost_of_run (.step matched (.stop refused)), manyCost, many_cost_of_end ended, absCost,
            if_pos rfl, Phrase.cost]
          omega
      | cons first others =>
          obtain ⟨next, rfl, frontCost, extend⟩ :=
            primaries_cost source (.cons first others) position middle frontSpelled
          obtain ⟨last, matched, rfl, absCost⟩ := item_cost_of_abstraction headSpelled bodySpelled ended bodyCost
          obtain ⟨failure, refused⟩ := item_failed_of_end .traced ended
          have manyCost := many_cost_of_matched advances_item (finishes_item source) matched
          rw [expression_cost_of_run (extend _ last (.step matched (.stop refused))), frontCost, manyCost,
            many_cost_of_end ended, absCost, if_neg (by simp), Primaries.cost, Phrase.cost]
          omega
end

theorem trace_length {text : String} {phrase : Phrase} (words : tokens text.toList = some phrase.tokens) :
    (parseTraced text).2.length = phrase.cost + 1 := by
  obtain ⟨later, spelled, blank⟩ := tokens_eq_some_iff.mp words
  rw [← Source.rest_ofString] at spelled
  have ended := items_end_of_blank blank
  obtain ⟨next, read, -⟩ := phrase_complete .traced (.ofString text) phrase 0 later spelled ended
  have expressionCost := phrase_cost (.ofString text) phrase 0 later spelled ended
  have rest : (do
      blanks
      atEnd .extraCharacters
      pure phrase.term : Parser Event Term).cost (.ofString text) next = 0 :=
    cost_of_quiet <| tells_bind tells_blanks fun _ => tells_bind (tells_atEnd _) fun _ => tells_pure _
  change (topExpression .traced).cost (.ofString text) 0 = _
  rw [topExpression, named_cost (finishes_topExpression _ _), bind_cost_of_matched read, expressionCost, rest]

theorem tokens_in_abstraction {name text : String} {words : List Token} (isName : IsName name)
    (read : tokens text.toList = some words) :
    tokens ("\\" ++ name ++ "." ++ text).toList = some (.mark .backslash :: .name name :: .mark .dot :: words) := by
  obtain ⟨later, spelled, blank⟩ := tokens_eq_some_iff.mp read
  have dot : Token.read ('.' :: text.toList) = some (.mark .dot, text.toList) :=
    read_text (.mark .dot) trivial fun _ last => by cases last
  have named : Token.read (name.toList ++ '.' :: text.toList) = some (.name name, '.' :: text.toList) :=
    read_text (.name name) isName (apart_of_separate _ (separate_cons _ (isLetter_mark .dot)))
  have slash : Token.read ('\\' :: (name.toList ++ '.' :: text.toList)) =
      some (.mark .backslash, name.toList ++ '.' :: text.toList) :=
    read_text (.mark .backslash) trivial fun _ last => by cases last
  have whole : ("\\" ++ name ++ "." ++ text).toList = '\\' :: (name.toList ++ '.' :: text.toList) := by
    simp [String.toList_append]
  rw [whole]
  exact tokens_eq_some_iff.mpr ⟨later, .cons slash (.cons named (.cons dot spelled)), blank⟩

theorem tokens_in_brackets {text : String} {words : List Token} (read : tokens text.toList = some words) :
    tokens ("(" ++ text ++ ")").toList = some (.mark .leftBracket :: (words ++ [.mark .rightBracket])) := by
  obtain ⟨later, spelled, blank⟩ := tokens_eq_some_iff.mp read
  obtain ⟨front, split, extend⟩ := spells_front spelled
  have opening : Token.read ('(' :: (front ++ (later ++ [')']))) =
      some (.mark .leftBracket, front ++ (later ++ [')'])) :=
    read_text (.mark .leftBracket) trivial fun _ last => by cases last
  have closing : Token.read (later ++ [')']) = some (.mark .rightBracket, []) := by
    rw [read_blanks blank]
    exact read_text (.mark .rightBracket) trivial fun _ last => by cases last
  have inner : Spells (front ++ (later ++ [')'])) words (later ++ [')']) :=
    extend _ (apart_of_separate _ (separate_append (separate_blanks blank)
      (separate_cons [] (isLetter_mark .rightBracket))))
  have whole : ("(" ++ text ++ ")").toList = '(' :: (front ++ (later ++ [')'])) := by
    simp [String.toList_append, split]
  rw [whole]
  exact tokens_eq_some_iff.mpr ⟨[], .cons opening (spells_append inner (.cons closing (.nil _))), rfl⟩

theorem nested_abstractions_cost {names : List String} {last : String} (named : ∀ name ∈ names, IsName name)
    (isName : IsName last) :
    ∃ phrase : Phrase, phrase.cost + 21 = 34 * 2 ^ names.length ∧
      tokens (names.foldr (fun name body => "\\" ++ name ++ "." ++ body) last).toList = some phrase.tokens := by
  induction names with
  | nil => exact ⟨.closed (.name last) .nil, rfl, tokens_of_writes (writes_name isName)⟩
  | cons name rest ih =>
      obtain ⟨body, total, words⟩ := ih fun other member => named other (List.mem_cons_of_mem name member)
      refine ⟨.abstracted .nil name body, ?_, tokens_in_abstraction (named name List.mem_cons_self) words⟩
      rw [Phrase.cost, List.length_cons, Nat.pow_succ]
      omega

theorem nested_brackets_cost {name : String} (isName : IsName name) (levels : Nat) :
    ∃ phrase : Phrase, phrase.cost + 23 = 36 * 2 ^ levels ∧
      tokens ((fun inner => "(" ++ inner ++ ")")^[levels] name).toList = some phrase.tokens := by
  induction levels with
  | zero => exact ⟨.closed (.name name) .nil, rfl, tokens_of_writes (writes_name isName)⟩
  | succ levels ih =>
      obtain ⟨inner, total, words⟩ := ih
      refine ⟨.closed (.bracketed inner) .nil, ?_, ?_⟩
      · rw [Phrase.cost, Primary.cost, Nat.pow_succ]
        omega
      · rw [Function.iterate_succ_apply', closed_bracketed_tokens]
        exact tokens_in_brackets words

end

-- Every level of nesting is read twice, first as the beginning of an application and then by
-- itself, and so is each level within it: whatever an abstraction or a pair of brackets is put
-- around, reading takes twice as many attempts as before.
theorem nesting_doubles_the_events [Alphabet] :
    (∀ (names : List String) (last : String), (∀ name ∈ names, IsName name) → IsName last →
      (parseTraced (names.foldr (fun name body => "\\" ++ name ++ "." ++ body) last)).2.length =
        34 * 2 ^ names.length - 20) ∧
    (∀ (levels : Nat) (name : String), IsName name →
      (parseTraced ((fun inner => "(" ++ inner ++ ")")^[levels] name)).2.length = 36 * 2 ^ levels - 22) ∧
    (∀ (text : String) (term : Term), parse text = .ok term →
      (∀ name, IsName name →
        (parseTraced ("\\" ++ name ++ "." ++ text)).2.length = 2 * (parseTraced text).2.length + 20) ∧
      (parseTraced ("(" ++ text ++ ")")).2.length = 2 * (parseTraced text).2.length + 22) := by
  refine ⟨?_, ?_, ?_⟩
  · intro names last named isName
    obtain ⟨phrase, total, words⟩ := nested_abstractions_cost named isName
    rw [trace_length words]
    omega
  · intro levels name isName
    obtain ⟨phrase, total, words⟩ := nested_brackets_cost isName levels
    rw [trace_length words]
    omega
  · intro text term read
    obtain ⟨phrase, words, -⟩ := (parse_ok_iff text term).mp read
    constructor
    · intro name isName
      have around : tokens ("\\" ++ name ++ "." ++ text).toList = some (Phrase.abstracted .nil name phrase).tokens :=
        tokens_in_abstraction isName words
      rw [trace_length around, trace_length words, Phrase.cost]
      omega
    · have around : tokens ("(" ++ text ++ ")").toList = some (Phrase.closed (.bracketed phrase) .nil).tokens := by
        rw [closed_bracketed_tokens]
        exact tokens_in_brackets words
      rw [trace_length around, trace_length words, Phrase.cost, Primary.cost]
      omega

theorem two_levels_counted :
    IsName "x" ∧ IsName "λ" ∧ parse "x λ" = .ok (.app (.var "x") (.var "λ")) ∧
      (parseTraced "x").2.length = 14 ∧ (parseTraced "\\x.\\λ.x").2.length = 116 ∧
      (parseTraced "((x))").2.length = 122 ∧
      (parseTraced "(x λ)").2.length = 2 * (parseTraced "x λ").2.length + 22 := by
  obtain ⟨abstractions, brackets, around⟩ := nesting_doubles_the_events
  have names : IsName "x" ∧ IsName "λ" := by decide
  have read : parse "x λ" = .ok (.app (.var "x") (.var "λ")) := by rfl
  have both : ∀ name ∈ ["x", "λ"], IsName name := by
    rw [List.forall_mem_cons, List.forall_mem_singleton]
    exact names
  exact ⟨names.1, names.2, read, brackets 0 "x" names.1, abstractions ["x", "λ"] "x" both names.1,
    brackets 2 "x" names.1, (around "x λ" _ read).2⟩

end LambdaCalculus

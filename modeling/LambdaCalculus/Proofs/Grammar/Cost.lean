import LambdaCalculus.Proofs.Grammar.Language
import LambdaCalculus.Proofs.Parser.Cost
import LambdaCalculus.Proofs.Trace

set_option autoImplicit false

namespace LambdaCalculus.Grammar

open LambdaCalculus.Parser

variable {source : Source} {position : Nat}

theorem named_cost {α : Type} {rule : Rule} {expected : Option Cause} {reading : α → Reading}
    {parser : Parser Event α} (finishes : FinishesAt (named .traced rule expected reading parser) source position) :
    (named .traced rule expected reading parser).cost source position = parser.cost source position + 1 := by
  rw [cost, named_events, List.length_append, cost]
  cases ending : ((named .traced rule expected reading parser).attempt source position).reply with
  | matched value next => rfl
  | failed failure => rfl
  | unfinished => exact absurd ending finishes

theorem punctuation_cost (mark : Mark) : (punctuation .traced mark).cost source position = 1 := by
  have letters : (blanks >>= fun _ => literal mark.text (.mark mark) : Parser Event String).cost source position = 0 :=
    cost_of_quiet (tells_bind tells_blanks fun _ => tells_literal _ _)
  exact (named_cost (finishes_punctuation mark source position)).trans (congrArg (· + 1) letters)

theorem bracketed_cost_of_failed {nested : Parser Event Term} {failure : Failure}
    (finishes : FinishesAt (bracketed .traced nested) source position)
    (refused : ((punctuation .traced .leftBracket).attempt source position).reply = .failed failure) :
    (bracketed .traced nested).cost source position = 2 := by
  rw [bracketed, named_cost finishes, bind_cost_of_failed refused, punctuation_cost]

variable [Alphabet]

theorem punctuation_failed_of_read (report : Report Event) {mark : Mark}
    (absent : ∀ later, Token.read (source.rest position) ≠ some (.mark mark, later)) :
    ∃ failure, ((punctuation report mark).attempt source position).reply = .failed failure := by
  apply failed_of_unmatched (finishes_punctuation mark source position)
  intro text next matched
  exact absent _ (read_of_punctuation matched)

theorem identifier_cost : (identifier .traced).cost source position = 1 := by
  have letters : (do
      let _ ← blanks
      let first ← letter
      let rest ← many letter
      pure (String.ofList (first :: rest)) : Parser Event String).cost source position = 0 :=
    cost_of_quiet <| tells_bind tells_blanks fun _ => tells_bind (tells_satisfy _ _) fun _ =>
      tells_bind (tells_many (tells_satisfy _ _)) fun _ => tells_pure _
  exact (named_cost (finishes_identifier source position)).trans (congrArg (· + 1) letters)

theorem var_cost : (var .traced).cost source position = 2 := by
  have finishes : FinishesAt (identifier .traced) source position := finishes_identifier source position
  have name := bind_pure_cost finishes Term.var
  rw [identifier_cost] at name
  exact (named_cost (finishes_var source position)).trans (congrArg (· + 1) name)

section Nesting

variable {nested : Parser Event Term}

theorem abs_cost_of_failed {failure : Failure} (finishes : FinishesAt (abs .traced nested) source position)
    (refused : ((punctuation .traced .backslash).attempt source position).reply = .failed failure) :
    (abs .traced nested).cost source position = 2 := by
  rw [abs, named_cost finishes, bind_cost_of_failed refused, punctuation_cost]

theorem abs_cost_of_read (finishes : ∀ later, FinishesAt nested source later) {argument : String}
    {later : List Char} (spelled : Spells (source.rest position) [.mark .backslash, .name argument, .mark .dot] later) :
    ∃ third, source.rest third = later ∧
      (abs .traced nested).cost source position = nested.cost source third + 4 := by
  simp only [spells_cons, spells_nil] at spelled
  obtain ⟨behindSlash, slash, behindName, name, behindDot, dot, rfl⟩ := spelled
  obtain ⟨first, opened, rfl⟩ := punctuation_of_read .traced slash
  obtain ⟨second, named, rfl⟩ := identifier_of_read .traced name
  obtain ⟨third, dotted, rfl⟩ := punctuation_of_read .traced dot
  have body := bind_pure_cost (finishes third) (Term.abs argument)
  refine ⟨third, rfl, ?_⟩
  rw [abs, named_cost (finishes_abs fun later _ _ => finishes later), bind_cost_of_matched opened, punctuation_cost,
    bind_cost_of_matched named, identifier_cost, bind_cost_of_matched dotted, punctuation_cost, body]
  omega

theorem bracketed_cost_of_read (finishes : ∀ later, FinishesAt nested source later) {later : List Char}
    (opening : Token.read (source.rest position) = some (.mark .leftBracket, later)) :
    ∃ first, source.rest first = later ∧
      ∀ term second, (nested.attempt source first).reply = .matched term second →
        (bracketed .traced nested).cost source position = nested.cost source first + 3 := by
  obtain ⟨first, opened, rfl⟩ := punctuation_of_read .traced opening
  refine ⟨first, rfl, ?_⟩
  intro term second inner
  have ended : FinishesAt (punctuation .traced .rightBracket) source second := finishes_punctuation _ source second
  have closing := bind_pure_cost ended fun _ => term
  rw [bracketed, named_cost (finishes_bracketed fun later _ _ => finishes later), bind_cost_of_matched opened,
    punctuation_cost, bind_cost_of_matched inner, closing, punctuation_cost]
  omega

end Nesting

theorem item_cost : (item .traced).cost source position = 2 +
    if (var (Report.traced)).fails source position then
      (abs .traced (expression .traced)).cost source position +
        if (abs .traced (expression .traced)).fails source position then
          (bracketed .traced (expression .traced)).cost source position
        else 0
    else 0 := by
  change (context .noAlternative (orElse (orElse (var .traced) (abs .traced (expression .traced)))
    (bracketed .traced (expression .traced)))).cost source position = _
  rw [context_cost, orElse_cost, orElse_cost, orElse_fails, var_cost]
  cases (var (Report.traced)).fails source position with
  | false => rfl
  | true => exact Nat.add_assoc _ _ _

theorem term_fails : (term .traced (expression .traced)).fails source position =
    ((app .traced (expression .traced)).fails source position && (var (Report.traced)).fails source position &&
      (abs .traced (expression .traced)).fails source position) := by
  rw [fails, term_reply, ← fails, context_fails, context_fails, orElse_fails, orElse_fails]

theorem term_cost : (term .traced (expression .traced)).cost source position =
    (app .traced (expression .traced)).cost source position + 1 +
      if (app .traced (expression .traced)).fails source position then
        2 + if (var (Report.traced)).fails source position then
            (abs .traced (expression .traced)).cost source position
          else 0
      else 0 := by
  rw [term, named_cost (finishes_term advances_expression fun later _ _ => finishes_expression source later)]
  change (context .noAlternative (orElse (orElse (app .traced (expression .traced)) (var .traced))
    (abs .traced (expression .traced)))).cost source position + 1 = _
  rw [context_cost, orElse_cost, orElse_cost, orElse_fails, var_cost]
  cases (app .traced (expression .traced)).fails source position with
  | false => rfl
  | true =>
      simp only [if_true, Bool.true_and]
      omega

theorem expression_cost : (expression .traced).cost source position =
    (app .traced (expression .traced)).cost source position + 2 +
      if (app .traced (expression .traced)).fails source position then (item .traced).cost source position else 0 := by
  have finishes : FinishesAt (expressionOver .traced (expression .traced)) source position :=
    finishes_expressionOver advances_expression fun later _ _ => finishes_expression source later
  have whole : (expression .traced).cost source position =
      (context .noAlternative (orElse (term .traced (expression .traced))
        (bracketed .traced (expression .traced)))).cost source position + 1 := by
    rw [cost, expression_unfold, ← cost, expressionOver, named_cost finishes]
    rfl
  rw [whole, context_cost, orElse_cost, term_cost, term_fails, item_cost]
  cases (app .traced (expression .traced)).fails source position with
  | false => rfl
  | true =>
      cases (var (Report.traced)).fails source position with
      | false => rfl
      | true =>
          simp only [if_true, Bool.true_and]
          omega

theorem app_cost : (app .traced (expression .traced)).cost source position =
    (many (item .traced)).cost source position + 1 := by
  have finish (later : Nat) : NestedFinish (expression .traced) source later :=
    fun after _ _ => finishes_expression source after
  have finishes (later : Nat) : FinishesAt (item .traced) source later := finishes_item source later
  rw [app, named_cost (finishes_app advances_expression (finish position))]
  change ((item .traced) >>= fun function => (item .traced) >>= fun argument => many (item .traced) >>= fun others =>
    pure (others.foldl Term.app (.app function argument))).cost source position + 1 = _
  cases headEnd : ((item .traced).attempt source position).reply with
  | unfinished => exact absurd headEnd (finishes position)
  | failed failure => rw [bind_cost_of_failed headEnd, many_cost_of_failed headEnd]
  | matched head next =>
      rw [bind_cost_of_matched headEnd, many_cost_of_matched advances_item finishes headEnd]
      cases argumentEnd : ((item .traced).attempt source next).reply with
      | unfinished => exact absurd argumentEnd (finishes next)
      | failed failure => rw [bind_cost_of_failed argumentEnd, many_cost_of_failed argumentEnd]
      | matched argument after =>
          have ended : FinishesAt (many (item .traced)) source after :=
            finishes_many advances_item fun later _ => finishes later
          have others := bind_pure_cost ended fun others => others.foldl Term.app (.app head argument)
          rw [bind_cost_of_matched argumentEnd, many_cost_of_matched advances_item finishes argumentEnd, others]

theorem expression_cost_of_run {head : Term} {others : List Term} {last : Nat}
    (run : MaximalRun (item .traced) source position (head :: others) last) :
    (expression .traced).cost source position = (many (item .traced)).cost source position + 3 +
      if others = [] then (item .traced).cost source position else 0 := by
  obtain ⟨next, headMatched, rest⟩ := maximal_run_cons.mp run
  rw [expression_cost, app_cost]
  cases rest with
  | stop refused => rw [fails_of_failed (app_failed_of_single headMatched refused), if_pos rfl, if_pos rfl]
  | step argumentMatched more =>
      have othersMatched := (many_matched_iff advances_item).mpr more
      rw [not_fails_of_matched (app_matched_of_run headMatched argumentMatched othersMatched),
        if_neg Bool.false_ne_true, if_neg (List.cons_ne_nil _ _)]

theorem var_fails_of_read
    (absent : ∀ letters later, Token.read (source.rest position) ≠ some (.name letters, later)) :
    (var (Report.traced)).fails source position = true := by
  obtain ⟨failure, refused⟩ := var_failed_of_read .traced absent
  exact fails_of_failed refused

theorem abs_refusal_of_read
    (absent : ∀ later, Token.read (source.rest position) ≠ some (.mark .backslash, later)) :
    (abs .traced (expression .traced)).fails source position = true ∧
      (abs .traced (expression .traced)).cost source position = 2 := by
  obtain ⟨failure, refused⟩ := abs_failed_of_read .traced absent
  obtain ⟨mismatch, unopened⟩ := punctuation_failed_of_read .traced absent
  exact ⟨fails_of_failed refused, abs_cost_of_failed (by rw [FinishesAt, refused]; simp) unopened⟩

theorem item_cost_of_name {letters : String} {later : List Char}
    (found : Token.read (source.rest position) = some (.name letters, later)) :
    (item .traced).cost source position = 2 := by
  obtain ⟨next, matched, -⟩ := var_of_read .traced found
  rw [item_cost, not_fails_of_matched matched, if_neg Bool.false_ne_true]

theorem item_cost_of_abs {later : List Char} {term : Term} {next : Nat}
    (found : Token.read (source.rest position) = some (.mark .backslash, later))
    (matched : ((abs .traced (expression .traced)).attempt source position).reply = .matched term next) :
    (item .traced).cost source position = (abs .traced (expression .traced)).cost source position + 2 := by
  rw [item_cost, var_fails_of_read (by simp [found]), not_fails_of_matched matched, if_pos rfl,
    if_neg Bool.false_ne_true, Nat.add_zero, Nat.add_comm]

theorem item_cost_of_bracketed {later : List Char}
    (found : Token.read (source.rest position) = some (.mark .leftBracket, later)) :
    (item .traced).cost source position = (bracketed .traced (expression .traced)).cost source position + 4 := by
  have noSlash : ∀ later, Token.read (source.rest position) ≠ some (.mark .backslash, later) := by simp [found]
  obtain ⟨absFails, absCost⟩ := abs_refusal_of_read noSlash
  rw [item_cost, var_fails_of_read (by simp [found]), absFails, absCost, if_pos rfl, if_pos rfl]
  omega

theorem item_cost_of_end (ended : ItemsEnd (source.rest position)) : (item .traced).cost source position = 6 := by
  have noName : ∀ letters later, Token.read (source.rest position) ≠ some (.name letters, later) := by
    intro letters later found
    cases ended _ _ found
  have noSlash : ∀ later, Token.read (source.rest position) ≠ some (.mark .backslash, later) := by
    intro later found
    cases ended _ _ found
  have noBracket : ∀ later, Token.read (source.rest position) ≠ some (.mark .leftBracket, later) := by
    intro later found
    cases ended _ _ found
  obtain ⟨absFails, absCost⟩ := abs_refusal_of_read noSlash
  obtain ⟨mismatch, unopened⟩ := punctuation_failed_of_read .traced noBracket
  have bracketedCost : (bracketed .traced (expression .traced)).cost source position = 2 :=
    bracketed_cost_of_failed (finishes_bracketed fun later _ _ => finishes_expression source later) unopened
  rw [item_cost, var_fails_of_read noName, absFails, absCost, bracketedCost, if_pos rfl, if_pos rfl]

theorem many_cost_of_end (ended : ItemsEnd (source.rest position)) :
    (many (item .traced)).cost source position = 6 := by
  obtain ⟨failure, refused⟩ := item_failed_of_end .traced ended
  rw [many_cost_of_failed refused, item_cost_of_end ended]

end LambdaCalculus.Grammar

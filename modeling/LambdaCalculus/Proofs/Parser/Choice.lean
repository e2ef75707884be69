import LambdaCalculus.Proofs.Parser.Behaviour
import LambdaCalculus.Proofs.Parser.Cost

set_option autoImplicit false

namespace LambdaCalculus

namespace Failure

def Furthest (failures : List Failure) (furthest : Failure) : Prop :=
  ∃ earlier later, failures = earlier ++ furthest :: later ∧
    (∀ other ∈ earlier, other.position < furthest.position) ∧
    ∀ other ∈ later, other.position ≤ furthest.position

theorem furthest_singleton (failure : Failure) : Furthest [failure] failure :=
  ⟨[], [], rfl, List.forall_mem_nil _, List.forall_mem_nil _⟩

theorem Furthest.bound {failures : List Failure} {furthest : Failure} (picked : Furthest failures furthest) :
    ∀ other ∈ failures, other.position ≤ furthest.position := by
  obtain ⟨earlier, later, rfl, before, behind⟩ := picked
  intro other member
  rcases List.mem_append.mp member with front | rest
  · exact Nat.le_of_lt (before other front)
  · rcases List.mem_cons.mp rest with rfl | back
    · exact Nat.le_refl _
    · exact behind other back

theorem Furthest.cons {failures : List Failure} {furthest : Failure} (picked : Furthest failures furthest)
    (failure : Failure) : Furthest (failure :: failures) (failure.further furthest) := by
  by_cases ahead : failure.position < furthest.position
  · obtain ⟨earlier, later, rfl, before, behind⟩ := picked
    rw [further_of_lt failure furthest ahead]
    exact ⟨failure :: earlier, later, rfl, List.forall_mem_cons.mpr ⟨ahead, before⟩, behind⟩
  · have near : furthest.position ≤ failure.position := Nat.le_of_not_lt ahead
    rw [further_of_le failure furthest near]
    exact ⟨[], failures, rfl, List.forall_mem_nil _,
      fun other member => Nat.le_trans (picked.bound other member) near⟩

def untrailed (failure : Failure) : Failure :=
  ⟨failure.innermost, []⟩

theorem untrailed_context (failure : Failure) (position : Nat) (cause : Cause) :
    (failure.context position cause).untrailed = failure.untrailed := rfl

theorem untrailed_further (failure other : Failure) :
    (failure.further other).untrailed = failure.untrailed.further other.untrailed :=
  apply_ite untrailed _ _ _

end Failure

variable {ε α : Type}

def Reply.untrailed : Reply α → Reply α
  | .matched value next => .matched value next
  | .failed failure => .failed failure.untrailed
  | .unfinished => .unfinished

def Run.untrailed (run : Run ε α) : Run ε α :=
  { run with reply := run.reply.untrailed }

namespace Parser

def untrailed (parser : Parser ε α) : Parser ε α where
  attempt source position := (parser.attempt source position).untrailed

theorem eq_of_attempt {one other : Parser ε α}
    (same : ∀ source position, one.attempt source position = other.attempt source position) : one = other :=
  congrArg Parser.mk (funext fun source => funext (same source))

theorem orElse_assoc (first second third : Parser ε α) :
    orElse (orElse first second) third = orElse first (orElse second third) := by
  refine eq_of_attempt fun source position => ?_
  cases front : (first.attempt source position).reply with
  | matched value next => simp only [orElse, front]
  | unfinished => simp only [orElse, front]
  | failed failure =>
      cases middle : (second.attempt source position).reply with
      | matched value next => simp only [orElse, front, middle]
      | unfinished => simp only [orElse, front, middle]
      | failed other =>
          cases back : (third.attempt source position).reply <;>
            simp only [orElse, front, middle, back, List.append_assoc, Nat.max_assoc, Failure.further_assoc]

instance : Std.Associative (orElse : Parser ε α → Parser ε α → Parser ε α) where
  assoc := orElse_assoc

theorem foldl_orElse_cons (first second : Parser ε α) (others : List (Parser ε α)) :
    (second :: others).foldl orElse first = orElse first (others.foldl orElse second) :=
  List.foldl_assoc

theorem untrailed_context (cause : Cause) (parser : Parser ε α) :
    (context cause parser).untrailed = parser.untrailed := by
  refine eq_of_attempt fun source position => ?_
  cases ending : (parser.attempt source position).reply <;>
    simp only [untrailed, Run.untrailed, context, ending, Reply.untrailed, Failure.untrailed_context]

theorem untrailed_orElse (first second : Parser ε α) :
    (orElse first second).untrailed = orElse first.untrailed second.untrailed := by
  refine eq_of_attempt fun source position => ?_
  cases front : (first.attempt source position).reply with
  | matched value next => simp only [untrailed, Run.untrailed, orElse, front, Reply.untrailed]
  | unfinished => simp only [untrailed, Run.untrailed, orElse, front, Reply.untrailed]
  | failed failure =>
      cases back : (second.attempt source position).reply <;>
        simp only [untrailed, Run.untrailed, orElse, front, back, Reply.untrailed, Failure.untrailed_further]

theorem untrailed_choice (first : Parser ε α) (others : List (Parser ε α)) :
    (choice first others).untrailed = (others.map untrailed).foldl orElse first.untrailed := by
  rw [choice, untrailed_context, List.foldl_map]
  exact (List.foldl_hom untrailed fun one other => (untrailed_orElse one other).symm).symm

theorem untrailed_choice_within (first : Parser ε α) (front : List (Parser ε α)) (inner : Parser ε α)
    (others behind : List (Parser ε α)) :
    (choice first (front ++ choice inner others :: behind)).untrailed =
      (choice first (front ++ inner :: others ++ behind)).untrailed := by
  simp only [untrailed_choice, List.map_append, List.map_cons, List.foldl_append]
  rw [List.foldl_cons, ← foldl_orElse_cons]

theorem untrailed_choice_in_front (first : Parser ε α) (inner others : List (Parser ε α)) :
    (choice (choice first inner) others).untrailed = (choice first (inner ++ others)).untrailed := by
  simp only [untrailed_choice, List.map_append, List.foldl_append]

variable {source : Source} {position : Nat}

theorem fails_iff {parser : Parser ε α} :
    parser.fails source position = true ↔ ∃ failure, (parser.attempt source position).reply = .failed failure := by
  rw [fails]
  cases (parser.attempt source position).reply <;> simp

def inTurn (source : Source) (position : Nat) (tried : List (Parser ε α)) (reply : Reply α) : Run ε α where
  reply := reply
  events := tried.flatMap fun one => (one.attempt source position).events
  reach := tried.foldr (fun one far => max (one.attempt source position).reach far) 0

theorem attempt_eq_inTurn (parser : Parser ε α) :
    parser.attempt source position = inTurn source position [parser] (parser.attempt source position).reply := by
  simp [inTurn]

theorem orElse_of_not_fails {first : Parser ε α} (kept : first.fails source position = false) (second : Parser ε α) :
    (orElse first second).attempt source position = first.attempt source position := by
  cases ending : (first.attempt source position).reply with
  | matched value next => simp only [orElse, ending]
  | unfinished => simp only [orElse, ending]
  | failed failure => exact absurd (fails_of_failed ending) (Bool.eq_false_iff.mp kept)

theorem context_of_not_fails {parser : Parser ε α} (kept : parser.fails source position = false) (cause : Cause) :
    (context cause parser).attempt source position = parser.attempt source position := by
  cases ending : (parser.attempt source position).reply with
  | matched value next => simp only [context, ending]
  | unfinished => simp only [context, ending]
  | failed failure => exact absurd (fails_of_failed ending) (Bool.eq_false_iff.mp kept)

section

variable {first second : Parser ε α} {tried : List (Parser ε α)}

theorem orElse_of_second {reply : Reply α} (refused : first.fails source position = true)
    (rest : second.attempt source position = inTurn source position tried reply)
    (kept : ∀ failure, reply ≠ .failed failure) :
    (orElse first second).attempt source position = inTurn source position (first :: tried) reply := by
  obtain ⟨failure, failed⟩ := fails_iff.mp refused
  cases reply with
  | matched value next => simp only [orElse, failed, rest, inTurn, List.flatMap_cons, List.foldr_cons]
  | unfinished => simp only [orElse, failed, rest, inTurn, List.flatMap_cons, List.foldr_cons]
  | failed other => exact absurd rfl (kept other)

theorem orElse_of_neither {failure other : Failure} (failed : (first.attempt source position).reply = .failed failure)
    (rest : second.attempt source position = inTurn source position tried (.failed other)) :
    (orElse first second).attempt source position =
      inTurn source position (first :: tried) (.failed (failure.further other)) := by
  simp only [orElse, failed, rest, inTurn, List.flatMap_cons, List.foldr_cons]

end

theorem alternatives_taken {first taken : Parser ε α} {others front behind : List (Parser ε α)}
    (split : first :: others = front ++ taken :: behind) (refused : ∀ one ∈ front, one.fails source position = true)
    (kept : taken.fails source position = false) :
    (others.foldl orElse first).attempt source position =
      inTurn source position (front ++ [taken]) (taken.attempt source position).reply := by
  induction front generalizing first others with
  | nil =>
      cases split
      cases behind with
      | nil => exact attempt_eq_inTurn taken
      | cons second rest =>
          rw [foldl_orElse_cons, orElse_of_not_fails kept]
          exact attempt_eq_inTurn taken
  | cons one front ih =>
      have nonempty : front ++ taken :: behind ≠ [] := List.append_ne_nil_of_right_ne_nil front (List.cons_ne_nil _ _)
      obtain ⟨second, rest, next⟩ := List.exists_cons_of_ne_nil nonempty
      have later := ih next.symm fun other member => refused other (List.mem_cons_of_mem one member)
      rw [List.cons_append, next] at split
      cases split
      rw [foldl_orElse_cons]
      refine orElse_of_second (refused one List.mem_cons_self) later fun failure failed => ?_
      exact Bool.eq_false_iff.mp kept (fails_of_failed failed)

theorem alternatives_refused {first : Parser ε α} {others : List (Parser ε α)}
    (refused : ∀ one ∈ first :: others, one.fails source position = true) :
    ∃ failures furthest,
      (first :: others).map (fun one => (one.attempt source position).reply) = failures.map .failed ∧
      Failure.Furthest failures furthest ∧
      (others.foldl orElse first).attempt source position =
        inTurn source position (first :: others) (.failed furthest) := by
  induction others generalizing first with
  | nil =>
      obtain ⟨failure, failed⟩ := fails_iff.mp (refused first List.mem_cons_self)
      refine ⟨[failure], failure, congrArg (· :: []) failed, Failure.furthest_singleton failure, ?_⟩
      rw [← failed]
      exact attempt_eq_inTurn first
  | cons second rest ih =>
      obtain ⟨failure, failed⟩ := fails_iff.mp (refused first List.mem_cons_self)
      obtain ⟨failures, furthest, told, picked, later⟩ :=
        ih fun one member => refused one (List.mem_cons_of_mem first member)
      refine ⟨failure :: failures, failure.further furthest, ?_, picked.cons failure, ?_⟩
      · rw [List.map_cons, failed, told, List.map_cons]
      · rw [foldl_orElse_cons]
        exact orElse_of_neither failed later

-- Alternatives are attempted one after the other, all from the position of the choice, up to
-- the first that does not fail. The choice comes to what that one comes to, a match or an
-- attempt that was cut off, and those behind it have no part in its run. If they all fail, the
-- failure that got furthest is told, and of those that got equally far the first one. Which of
-- them are grouped into choices of their own shows in nothing but the trail of a failure.
theorem choice_tries_alternatives_in_turn (source : Source) (position : Nat) :
    (∀ (first taken : Parser ε α) (others front behind : List (Parser ε α)),
      first :: others = front ++ taken :: behind → (∀ one ∈ front, one.fails source position = true) →
        taken.fails source position = false →
          (choice first others).attempt source position =
            inTurn source position (front ++ [taken]) (taken.attempt source position).reply) ∧
    (∀ (first : Parser ε α) (others : List (Parser ε α)),
      (∀ one ∈ first :: others, one.fails source position = true) →
        ∃ failures furthest failure,
          (first :: others).map (fun one => (one.attempt source position).reply) = failures.map .failed ∧
          Failure.Furthest failures furthest ∧
          (choice first others).attempt source position = inTurn source position (first :: others) (.failed failure) ∧
          failure.position = furthest.position ∧
          failure.fragments = furthest.fragments ++ [⟨position, .noAlternative⟩] ∧
          failure.message = furthest.message ++ "\n" ++
            ("lambda:" ++ toString position ++ ": " ++ "no alternative matched")) ∧
    (∀ (first inner : Parser ε α) (front others behind : List (Parser ε α)),
      ((choice first (front ++ choice inner others :: behind)).attempt source position).untrailed =
        ((choice first (front ++ inner :: others ++ behind)).attempt source position).untrailed) ∧
    ∀ (first : Parser ε α) (inner others : List (Parser ε α)),
      ((choice (choice first inner) others).attempt source position).untrailed =
        ((choice first (inner ++ others)).attempt source position).untrailed := by
  refine ⟨?_, ?_, ?_, ?_⟩
  · intro first taken others front behind split refused kept
    have run := alternatives_taken split refused kept
    rw [choice, context_of_not_fails]
    · exact run
    · rw [fails, run]
      exact kept
  · intro first others refused
    obtain ⟨failures, furthest, told, picked, run⟩ := alternatives_refused refused
    refine ⟨failures, furthest, furthest.context position .noAlternative, told, picked, ?_,
      Failure.position_context _ _ _, Failure.fragments_context _ _ _, Failure.message_context _ _ _⟩
    simp only [choice, context, run, inTurn]
  · intro first inner front others behind
    exact congrArg (fun parser => parser.attempt source position)
      (untrailed_choice_within first front inner others behind)
  · intro first inner others
    exact congrArg (fun parser => parser.attempt source position) (untrailed_choice_in_front first inner others)

def spelled (name : String) (texts : List String) : Parser (String × Nat) (List String) := do
  notify (Prod.mk name)
  Parser.sequence (texts.map fun text => literal text (.other text))

theorem first_of_equally_far_told :
    let source := Source.ofString "abx"
    let short := spelled "short" ["z"]
    let long := spelled "long" ["a", "b", "c"]
    let other := spelled "other" ["ab", "y"]
    let fitting := spelled "fitting" ["a"]
    (choice short [long, fitting, other]).attempt source 0 =
        ⟨.matched ["a"] 1, [("short", 0), ("long", 0), ("fitting", 0)], 2⟩ ∧
      (∃ failures furthest, Failure.Furthest failures furthest ∧
        [short, long, other].map (fun one => (one.attempt source 0).reply) = failures.map .failed ∧
        furthest.fragments ++ [⟨0, .noAlternative⟩] = [⟨2, .other "c"⟩, ⟨0, .noAlternative⟩]) ∧
      ((choice short [choice long [other]]).attempt source 0).untrailed =
        ((choice short [long, other]).attempt source 0).untrailed ∧
      ((choice (choice short [long]) [other]).attempt source 0).untrailed =
        ((choice short [long, other]).attempt source 0).untrailed := by
  intro source short long other fitting
  obtain ⟨taken, refused, within, inFront⟩ :=
    @choice_tries_alternatives_in_turn (String × Nat) (List String) source 0
  have front : ∀ one ∈ [short, long], one.fails source 0 = true := by decide
  have all : ∀ one ∈ [short, long, other], one.fails source 0 = true := by decide
  refine ⟨?_, ?_, within short long [] [other] [], inFront short [long] [other]⟩
  · rw [taken short fitting [long, fitting, other] [short, long] [other] rfl front (by rfl)]
    rfl
  · obtain ⟨failures, furthest, failure, told, picked, run, -, fragments, -⟩ := refused short [long, other] all
    have reply : ((choice short [long, other]).attempt source 0).reply =
        .failed ⟨⟨2, .other "c"⟩, [⟨0, .noAlternative⟩]⟩ := by rfl
    rw [run] at reply
    cases reply
    exact ⟨failures, furthest, picked, told, fragments.symm⟩

end Parser

end LambdaCalculus

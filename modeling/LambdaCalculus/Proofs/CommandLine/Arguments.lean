import LambdaCalculus.CommandLine.Options

set_option autoImplicit false

namespace LambdaCalculus.CommandLine

theorem bind_ok_iff {ε α β : Type} {first : Except ε α} {second : α → Except ε β} {value : β} :
    (first >>= second) = .ok value ↔ ∃ found, first = .ok found ∧ second found = .ok value := by
  cases first with
  | error error =>
      constructor
      · intro same
        cases same
      · rintro ⟨_, same, -⟩
        cases same
  | ok found =>
      constructor
      · exact fun same => ⟨found, rfl, same⟩
      · rintro ⟨_, same, result⟩
        cases same
        exact result

theorem readSteps_toString {steps : Nat} (bounded : steps < stepsBound) : readSteps? (toString steps) = some steps := by
  have digits : ∀ c ∈ Nat.toDigits 10 steps, c.isDigit = true :=
    fun c member => Nat.isDigit_of_mem_toDigits (by decide) (by decide) member
  have number : (Nat.toDigits 10 steps).foldl (fun total digit => 10 * total + (digit.toNat - '0'.toNat)) 0 = steps :=
    Nat.ofDigitChars_ten_toDigits
  have nonempty : (Nat.toDigits 10 steps).isEmpty = false := List.isEmpty_eq_false_iff.mpr Nat.toDigits_ne_nil
  simp only [readSteps?, Nat.toString_eq_repr, Nat.toList_repr]
  split
  next rest signed => exact absurd (digits '+' (signed ▸ List.mem_cons_self)) (by decide)
  next =>
    rw [number, nonempty, List.all_eq_true.mpr digits]
    simp [bounded]

theorem items_of_steps (value : String) (arguments : List String) :
    items ("-n" :: value :: arguments) = (do return .steps value :: (← items arguments)) := by
  rw [items, if_neg (by decide)]
  rfl

namespace Options

def limited (options : Options) (steps : Nat) : Options :=
  { options with maxSteps := some steps }

variable {options next last : Options}

theorem add_under_limit {item : Item} (added : options.add item = .ok next) (unlimited : next.maxSteps = none)
    (steps : Nat) :
    options.maxSteps = none ∧ (options.limited steps).add item = .ok (next.limited steps) := by
  cases item with
  | flag flag =>
      cases flag <;> simp only [add] at added ⊢
      case trace =>
        split at added
        next => cases added
        next fresh => cases added; exact ⟨unlimited, if_neg fresh⟩
      case parseOnly =>
        split at added
        next => cases added
        next fresh => cases added; exact ⟨unlimited, if_neg fresh⟩
      case verbose => cases added; exact ⟨unlimited, rfl⟩
      case quiet => cases added; exact ⟨unlimited, rfl⟩
  | steps value =>
      simp only [add] at added
      split at added
      next => cases added
      next =>
        split at added
        next => cases added
        next => cases added; cases unlimited
  | file name =>
      simp only [add] at added ⊢
      split at added
      next => cases added
      next named =>
        split at added
        next => cases added
        next first => cases added; exact ⟨unlimited, (if_neg named).trans (if_neg first)⟩

theorem foldlM_under_limit {found : List Item} (added : found.foldlM add options = .ok last)
    (unlimited : last.maxSteps = none) (steps : Nat) :
    options.maxSteps = none ∧ found.foldlM add (options.limited steps) = .ok (last.limited steps) := by
  induction found generalizing options with
  | nil =>
      cases added
      exact ⟨unlimited, rfl⟩
  | cons item rest ih =>
      rw [List.foldlM_cons] at added ⊢
      obtain ⟨next, first, others⟩ := bind_ok_iff.mp added
      obtain ⟨nextUnlimited, othersAdded⟩ := ih others
      obtain ⟨optionsUnlimited, firstAdded⟩ := add_under_limit first nextUnlimited steps
      exact ⟨optionsUnlimited, bind_ok_iff.mpr ⟨_, firstAdded, othersAdded⟩⟩

theorem add_steps {steps : Nat} (bounded : steps < stepsBound) (unlimited : options.maxSteps = none) :
    options.add (.steps (toString steps)) = .ok (options.limited steps) := by
  simp only [add, readSteps_toString bounded, unlimited]
  rfl

theorem ofArguments_ok_iff {arguments : List String} :
    ofArguments arguments = .ok options ↔
      ∃ found, items arguments = .ok found ∧ found.foldlM add plain = .ok options ∧
        ¬ (0 < options.verbose ∧ 0 < options.quiet) := by
  simp only [ofArguments, bind_ok_iff]
  constructor
  · rintro ⟨found, split, last, added, once⟩
    by_cases both : 0 < last.verbose ∧ 0 < last.quiet
    · rw [if_pos both] at once
      cases once
    · rw [if_neg both] at once
      cases once
      exact ⟨found, split, added, both⟩
  · rintro ⟨found, split, added, once⟩
    exact ⟨found, split, options, added, if_neg once⟩

theorem ofArguments_under_limit {arguments : List String} {steps : Nat} (asked : ofArguments arguments = .ok options)
    (unlimited : options.maxSteps = none) (bounded : steps < stepsBound) :
    ofArguments ("-n" :: toString steps :: arguments) = .ok (options.limited steps) := by
  obtain ⟨found, split, added, once⟩ := ofArguments_ok_iff.mp asked
  refine ofArguments_ok_iff.mpr ⟨.steps (toString steps) :: found, ?_, ?_, once⟩
  · rw [items_of_steps, split]
    rfl
  · rw [List.foldlM_cons, add_steps bounded rfl]
    exact (foldlM_under_limit added unlimited steps).2

end Options

end LambdaCalculus.CommandLine

import LambdaCalculus.Proofs.RoundTrip

set_option autoImplicit false

namespace LambdaCalculus

inductive Balanced : List Char → Prop where
  | nil : Balanced []
  | plain {c : Char} {rest : List Char} (left : c ≠ '(') (right : c ≠ ')') (balanced : Balanced rest) :
      Balanced (c :: rest)
  | nested {inner rest : List Char} (inside : Balanced inner) (behind : Balanced rest) :
      Balanced ('(' :: (inner ++ ')' :: rest))

structure Matched (text front inner rear : List Char) : Prop where
  split : text = front ++ '(' :: (inner ++ ')' :: rear)
  balanced : Balanced inner

theorem balanced_append {one other : List Char} (first : Balanced one) (second : Balanced other) :
    Balanced (one ++ other) := by
  induction first with
  | nil => exact second
  | plain left right _ ih => exact .plain left right ih
  | @nested inner rest inside _ _ ih =>
      rw [List.cons_append, List.append_assoc, List.cons_append]
      exact .nested inside ih

theorem balanced_bracketText {text : List Char} (balanced : Balanced text) : Balanced (bracketText text) :=
  .nested balanced .nil

theorem balanced_of_plain {text : List Char} (plain : ∀ c ∈ text, c ≠ '(' ∧ c ≠ ')') : Balanced text := by
  induction text with
  | nil => exact .nil
  | cons c rest ih =>
      obtain ⟨left, right⟩ := plain c List.mem_cons_self
      exact .plain left right (ih fun other member => plain other (List.mem_cons_of_mem c member))

theorem balanced_closes {inner other rest rear : List Char} (first : Balanced inner) (second : Balanced other)
    (same : inner ++ ')' :: rest = other ++ ')' :: rear) : inner = other ∧ rest = rear := by
  induction first generalizing other rest rear with
  | nil =>
      cases second with
      | nil => exact ⟨rfl, (List.cons.inj same).2⟩
      | plain left right _ => exact absurd (List.cons.inj same).1.symm right
      | nested _ _ => exact absurd (List.cons.inj same).1 (by decide)
  | plain left right _ ih =>
      cases second with
      | nil => exact absurd (List.cons.inj same).1 right
      | plain _ _ balanced =>
          obtain ⟨headSame, tailSame⟩ := List.cons.inj same
          obtain ⟨innerSame, restSame⟩ := ih balanced tailSame
          exact ⟨by rw [headSame, innerSame], restSame⟩
      | nested _ _ => exact absurd (List.cons.inj same).1 left
  | nested _ _ insideIh behindIh =>
      cases second with
      | nil => exact absurd (List.cons.inj same).1 (by decide)
      | plain left right _ => exact absurd (List.cons.inj same).1.symm left
      | nested inside behind =>
          simp only [List.cons_append, List.append_assoc, List.cons.injEq, true_and] at same
          obtain ⟨rfl, tailSame⟩ := insideIh inside same
          obtain ⟨rfl, restSame⟩ := behindIh behind tailSame
          exact ⟨rfl, restSame⟩

theorem not_matched_of_plain {text front inner rear : List Char} (plain : '(' ∉ text) :
    ¬ Matched text front inner rear := by
  intro matched
  exact plain (matched.split ▸ List.mem_append_right front List.mem_cons_self)

theorem matched_append {one other front inner rear : List Char} (first : Balanced one)
    (matched : Matched (one ++ other) front inner rear) :
    (∃ later, rear = later ++ other ∧ Matched one front inner later) ∨
      ∃ before, front = one ++ before ∧ Matched other before inner rear := by
  obtain ⟨split, balanced⟩ := matched
  induction first generalizing other front rear with
  | nil => exact .inr ⟨front, rfl, split, balanced⟩
  | @plain c rest left right _ ih =>
      cases front with
      | nil => exact absurd (List.cons.inj split).1 left
      | cons d before =>
          obtain ⟨rfl, behind⟩ := List.cons.inj split
          rcases ih behind with ⟨later, rfl, inside, _⟩ | ⟨before, rfl, outside⟩
          · exact .inl ⟨later, rfl, congrArg (c :: ·) inside, balanced⟩
          · exact .inr ⟨before, rfl, outside⟩
  | @nested nest rest nestBalanced _ nestIh restIh =>
      simp only [List.cons_append, List.append_assoc] at split
      cases front with
      | nil =>
          obtain ⟨rfl, behind⟩ := balanced_closes nestBalanced balanced (List.cons.inj split).2
          exact .inl ⟨rest, behind.symm, rfl, nestBalanced⟩
      | cons d before =>
          obtain ⟨rfl, tailSame⟩ := List.cons.inj split
          rcases nestIh tailSame with ⟨later, rfl, inside, _⟩ | ⟨outer, rfl, outside, _⟩
          · refine .inl ⟨later ++ ')' :: rest, by simp, ?_, balanced⟩
            simp [inside]
          · cases outer with
            | nil => exact absurd (List.cons.inj outside).1 (by decide)
            | cons d behind =>
                obtain ⟨rfl, restSame⟩ := List.cons.inj outside
                rcases restIh restSame with ⟨later, rfl, inside, _⟩ | ⟨beyond, rfl, matched⟩
                · refine .inl ⟨later, rfl, ?_, balanced⟩
                  simp [inside]
                · exact .inr ⟨beyond, by simp, matched⟩

theorem matched_behind_plain {one other front inner rear : List Char} (plain : ∀ c ∈ one, c ≠ '(' ∧ c ≠ ')')
    (matched : Matched (one ++ other) front inner rear) :
    ∃ before, front = one ++ before ∧ Matched other before inner rear := by
  rcases matched_append (balanced_of_plain plain) matched with ⟨later, -, inside⟩ | behind
  · exact absurd inside (not_matched_of_plain fun member => (plain _ member).1 rfl)
  · exact behind

inductive InBrackets (text : List Char) : List Char → List Char → List Char → Prop where
  | around : InBrackets text [] text []
  | between {front inner rear : List Char} (matched : Matched text front inner rear) :
      InBrackets text ('(' :: front) inner (rear ++ [')'])

theorem matched_bracketText {text front inner rear : List Char} (inside : Balanced text)
    (matched : Matched (bracketText text) front inner rear) : InBrackets text front inner rear := by
  obtain ⟨split, balanced⟩ := matched
  cases front with
  | nil =>
      obtain ⟨rfl, rfl⟩ := balanced_closes inside balanced (List.cons.inj split).2
      exact .around
  | cons d before =>
      obtain ⟨rfl, tailSame⟩ := List.cons.inj split
      rcases matched_append inside ⟨tailSame, balanced⟩ with ⟨later, rfl, within⟩ | ⟨beyond, -, outside⟩
      · exact .between within
      · exact absurd outside (not_matched_of_plain (by decide))

end LambdaCalculus

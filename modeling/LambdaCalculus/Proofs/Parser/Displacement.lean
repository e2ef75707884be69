import LambdaCalculus.Parser.Progress

set_option autoImplicit false

namespace LambdaCalculus

def Fragment.shift (distance : Nat) (fragment : Fragment) : Fragment :=
  { fragment with position := distance + fragment.position }

namespace Failure

def shift (distance : Nat) (failure : Failure) : Failure :=
  ⟨failure.innermost.shift distance, failure.enclosing.map (Fragment.shift distance)⟩

variable (distance : Nat)

theorem position_shift (failure : Failure) : (failure.shift distance).position = distance + failure.position := rfl

theorem fragments_shift (failure : Failure) :
    (failure.shift distance).fragments = failure.fragments.map (Fragment.shift distance) := by
  simp only [shift, fragments, List.map_cons, List.map_reverse]

theorem shift_further (failure other : Failure) :
    (failure.further other).shift distance = (failure.shift distance).further (other.shift distance) := by
  simp only [further, position_shift, Nat.add_lt_add_iff_left]
  split <;> rfl

end Failure

def Reply.shift {α : Type} (distance : Nat) : Reply α → Reply α
  | .matched value next => .matched value (distance + next)
  | .failed failure => .failed (failure.shift distance)
  | .unfinished => .unfinished

namespace Source

structure Behind (source whole : Source) (distance : Nat) : Prop where
  charAt : ∀ position, whole.charAt (distance + position) = source.charAt position
  size : whole.size = distance + source.size

variable {source whole : Source} {distance : Nat}

theorem Behind.matchesAt (behind : source.Behind whole distance) (position : Nat) (literal : List Char) :
    whole.matchesAt (distance + position) literal = source.matchesAt position literal := by
  induction literal generalizing position with
  | nil => rfl
  | cons expected rest ih =>
      have further := ih (position + 1)
      simp only [Source.matchesAt, behind.charAt, Nat.add_assoc, further]

theorem ofString_behind (front text : String) :
    (ofString text).Behind (ofString (front ++ text)) front.length where
  charAt position := by
    have skip : front.toList.length ≤ front.length + position := by
      rw [String.length_toList]
      exact Nat.le_add_right _ _
    rw [charAt_ofString, charAt_ofString, String.toList_append, List.getElem?_append_right skip,
      String.length_toList, Nat.add_sub_cancel_left]
  size := by rw [size_ofString, size_ofString, String.length_append]

end Source

namespace Parser

variable {ε δ α β : Type} {source whole : Source} {distance : Nat}

-- Wherever the one parser comes to an end, the other one does alike as far behind as the
-- source stands in the whole text. What is in front is not looked at, so that only limits
-- on depth, which follow the size of a text, can tell the two attempts apart.
def Displaced (source whole : Source) (distance : Nat) (one : Parser ε α) (other : Parser δ α) : Prop :=
  ∀ position, FinishesAt one source position →
    (other.attempt whole (distance + position)).reply = (one.attempt source position).reply.shift distance

theorem displaced_pure (value : α) :
    Displaced source whole distance (pure value : Parser ε α) (pure value : Parser δ α) :=
  fun _ _ => rfl

theorem displaced_unfinished (full : Parser δ α) :
    Displaced source whole distance (unfinished : Parser ε α) full :=
  fun _ finishes => absurd rfl finishes

theorem displaced_satisfy (behind : source.Behind whole distance) (accepts : Char → Bool) (cause : Cause) :
    Displaced source whole distance (satisfy accepts cause : Parser ε Char) (satisfy accepts cause : Parser δ Char) := by
  intro position _
  rw [satisfy_reply, satisfy_reply, behind.charAt]
  cases (source.charAt position).filter accepts <;> rfl

theorem displaced_literal (behind : source.Behind whole distance) (text : String) (cause : Cause) :
    Displaced source whole distance (literal text cause : Parser ε String) (literal text cause : Parser δ String) := by
  intro position _
  have same : whole.startsWith (distance + position) text = source.startsWith position text :=
    behind.matchesAt position text.toList
  rw [literal_reply, literal_reply, same, Nat.add_assoc]
  cases source.startsWith position text <;> rfl

theorem displaced_bind {first : Parser ε α} {otherFirst : Parser δ α} {second : α → Parser ε β}
    {otherSecond : α → Parser δ β} (firstDisplaced : Displaced source whole distance first otherFirst)
    (secondDisplaced : ∀ value, Displaced source whole distance (second value) (otherSecond value)) :
    Displaced source whole distance (first >>= second) (otherFirst >>= otherSecond) := by
  intro position finishes
  have front := firstDisplaced position finishes.bind_first
  rw [bind_reply, bind_reply, front]
  cases ending : (first.attempt source position).reply with
  | matched value next => exact secondDisplaced value next (finishes.bind_second ending)
  | failed failure => rfl
  | unfinished => exact absurd ending finishes.bind_first

theorem displaced_context {one : Parser ε α} {other : Parser δ α} (cause : Cause)
    (displaced : Displaced source whole distance one other) :
    Displaced source whole distance (context cause one) (context cause other) := by
  intro position finishes
  have same := displaced position fun cut => finishes (context_unfinished.mpr cut)
  rw [context_reply, context_reply, same]
  cases (one.attempt source position).reply <;> rfl

theorem displaced_orElse {first second : Parser ε α} {otherFirst otherSecond : Parser δ α}
    (firstDisplaced : Displaced source whole distance first otherFirst)
    (secondDisplaced : Displaced source whole distance second otherSecond) :
    Displaced source whole distance (orElse first second) (orElse otherFirst otherSecond) := by
  intro position finishes
  have front := firstDisplaced position finishes.orElse_first
  rw [orElse_reply, orElse_reply, front]
  cases ending : (first.attempt source position).reply with
  | matched value next => rfl
  | unfinished => exact absurd ending finishes.orElse_first
  | failed failure =>
      have secondFinishes := finishes.orElse_second ending
      have back := secondDisplaced position secondFinishes
      cases last : (second.attempt source position).reply with
      | matched value next => simp only [Reply.shift, back, last]
      | failed other => simp only [Reply.shift, back, last, Failure.shift_further]
      | unfinished => exact absurd last secondFinishes

theorem displaced_manyWithin {one : Parser ε α} {other : Parser δ α}
    (displaced : Displaced source whole distance one other) (limit extra : Nat) :
    Displaced source whole distance (one.manyWithin limit) (other.manyWithin (limit + extra)) := by
  induction limit with
  | zero => exact displaced_unfinished _
  | succ limit ih =>
      intro position finishes
      rw [Nat.succ_add_eq_add_succ, Nat.add_succ]
      have same := displaced position finishes.manyWithin_first
      rw [manyWithin_reply, manyWithin_reply, same]
      cases ending : (one.attempt source position).reply with
      | failed failure => rfl
      | unfinished => exact absurd ending finishes.manyWithin_first
      | matched value next =>
          by_cases still : next = position
          · simp only [Reply.shift, still, if_true]
          · have moved : distance + next ≠ distance + position := fun eq => still (Nat.add_left_cancel eq)
            have restSame := ih next (finishes.manyWithin_rest ending still)
            simp only [Reply.shift, if_neg still, if_neg moved, restSame]
            cases last : ((one.manyWithin limit).attempt source next).reply <;> rfl

theorem displaced_many (behind : source.Behind whole distance) {one : Parser ε α} {other : Parser δ α}
    (displaced : Displaced source whole distance one other) :
    Displaced source whole distance (many one) (many other) := by
  intro position finishes
  have enough : whole.size + 1 = source.size + 1 + distance := by
    have size := behind.size
    omega
  have repeated := displaced_manyWithin displaced (source.size + 1) distance position finishes
  rwa [← enough] at repeated

end Parser

end LambdaCalculus

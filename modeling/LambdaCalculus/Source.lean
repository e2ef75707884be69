/-!
Source text, addressed by character: position `n` is the place in front of the `n`-th character. Beside its
characters a source keeps where each of them begins among the bytes of the text.
-/

set_option autoImplicit false

namespace LambdaCalculus

structure Source where
  chars : Array Char
  offsets : Array Nat
  byteSize : Nat
deriving DecidableEq, Repr

namespace Source

def offsetsFrom (start : Nat) : List Char → List Nat
  | [] => []
  | c :: rest => start :: offsetsFrom (start + c.utf8Size) rest

def ofString (text : String) : Source :=
  ⟨text.toList.toArray, (offsetsFrom 0 text.toList).toArray, text.utf8ByteSize⟩

def size (source : Source) : Nat :=
  source.chars.size

def isEmpty (source : Source) : Bool :=
  source.chars.isEmpty

def charAt (source : Source) (position : Nat) : Option Char :=
  source.chars[position]?

def matchesAt (source : Source) : Nat → List Char → Bool
  | _, [] => true
  | position, expected :: rest =>
      source.charAt position == some expected && source.matchesAt (position + 1) rest

def agreement (source : Source) : Nat → List Char → Nat
  | _, [] => 0
  | position, expected :: rest =>
      if source.charAt position = some expected then source.agreement (position + 1) rest + 1 else 0

def startsWith (source : Source) (position : Nat) (literal : String) : Bool :=
  source.matchesAt position literal.toList

def byteOffset (source : Source) (position : Nat) : Nat :=
  source.offsets[position]?.getD source.byteSize

theorem size_ofString (text : String) : (ofString text).size = text.length := by
  simp only [size, ofString, List.size_toArray, String.length_toList]

theorem charAt_ofString (text : String) (position : Nat) :
    (ofString text).charAt position = text.toList[position]? := by
  simp [charAt, ofString]

theorem utf8ByteSize_cons (c : Char) (rest : List Char) :
    (String.ofList (c :: rest)).utf8ByteSize = c.utf8Size + (String.ofList rest).utf8ByteSize := by
  have split : String.ofList (c :: rest) = String.singleton c ++ String.ofList rest := by
    rw [String.singleton_eq_ofList, ← String.ofList_append, List.singleton_append]
  rw [split, String.utf8ByteSize_append, String.utf8ByteSize_singleton]

theorem offsetsFrom_inside {text : List Char} {position : Nat} (inside : position < text.length) (start : Nat) :
    (offsetsFrom start text)[position]? = some (start + (String.ofList (text.take position)).utf8ByteSize) := by
  induction text generalizing position start with
  | nil => exact absurd inside (Nat.not_lt_zero position)
  | cons c rest ih =>
      cases position with
      | zero => rfl
      | succ position =>
          have later := ih (Nat.lt_of_succ_lt_succ inside) (start + c.utf8Size)
          rw [offsetsFrom, List.getElem?_cons_succ, later, List.take_succ_cons, utf8ByteSize_cons, Nat.add_assoc]

theorem offsetsFrom_length (start : Nat) (text : List Char) : (offsetsFrom start text).length = text.length := by
  induction text generalizing start with
  | nil => rfl
  | cons c rest ih => rw [offsetsFrom, List.length_cons, List.length_cons, ih]

theorem byteOffset_ofString (text : String) (position : Nat) :
    (ofString text).byteOffset position = (String.ofList (text.toList.take position)).utf8ByteSize := by
  unfold byteOffset ofString
  rw [List.getElem?_toArray]
  by_cases inside : position < text.toList.length
  · rw [offsetsFrom_inside inside, Option.getD_some, Nat.zero_add]
  · have behind : text.toList.length ≤ position := Nat.le_of_not_lt inside
    rw [List.getElem?_eq_none (offsetsFrom_length 0 text.toList ▸ behind), Option.getD_none,
      List.take_of_length_le behind, String.ofList_toList]

theorem lt_size_of_charAt {source : Source} {position : Nat} {c : Char}
    (found : source.charAt position = some c) : position < source.size := by
  unfold charAt at found
  exact (Array.getElem?_eq_some_iff.mp found).1

theorem matchesAt_bound {source : Source} {position : Nat} {expected : List Char}
    (found : source.matchesAt position expected = true) :
    position + expected.length ≤ max position source.size := by
  induction expected generalizing position with
  | nil => simp only [List.length_nil]; omega
  | cons c rest ih =>
      simp only [matchesAt, Bool.and_eq_true, beq_iff_eq] at found
      have inside := lt_size_of_charAt found.1
      have further := ih found.2
      simp only [List.length_cons]
      omega

theorem agreement_bound (source : Source) (position : Nat) (expected : List Char) :
    position + source.agreement position expected ≤ max position source.size := by
  induction expected generalizing position with
  | nil => exact Nat.le_max_left _ _
  | cons c rest ih =>
      rw [agreement]
      split
      next found =>
        have inside := lt_size_of_charAt found
        have further := ih (position + 1)
        omega
      next => exact Nat.le_max_left _ _

end Source

end LambdaCalculus

import LambdaCalculus.Proofs.Grammar.Lexical
import Mathlib.Algebra.Ring.Nat

set_option autoImplicit false

namespace LambdaCalculus

theorem split_at_character {text : String} {position : Nat} {c : Char} (found : text.toList[position]? = some c) :
    text = String.ofList (text.toList.take position) ++
      (String.singleton c ++ String.ofList (text.toList.drop (position + 1))) := by
  obtain ⟨inside, rfl⟩ := List.getElem?_eq_some_iff.mp found
  apply String.toList_injective
  rw [String.toList_append, String.toList_append, String.toList_ofList, String.toList_ofList, String.toList_singleton,
    List.singleton_append, List.getElem_cons_drop, List.take_append_drop]

theorem length_le_utf8ByteSize (text : List Char) : text.length ≤ (String.ofList text).utf8ByteSize := by
  induction text with
  | nil => exact Nat.zero_le _
  | cons c rest ih =>
      have filled := c.utf8Size_pos
      rw [Source.utf8ByteSize_cons, List.length_cons]
      omega

theorem utf8ByteSize_eq_sum (text : List Char) : (String.ofList text).utf8ByteSize = (text.map Char.utf8Size).sum := by
  induction text with
  | nil => rfl
  | cons c rest ih => rw [Source.utf8ByteSize_cons, ih, List.map_cons, List.sum_cons]

theorem encoded_prefix_iff (literal text : List Char) :
    literal.utf8Encode.data.toList <+: text.utf8Encode.data.toList ↔ literal <+: text := by
  constructor
  · -- The encoding of a character is never the beginning of that of another one.
    intro ⟨more, same⟩
    apply List.isPrefix_of_utf8Encode_append_eq_utf8Encode more.toByteArray
    apply ByteArray.ext
    apply Array.toList_inj.mp
    rw [ByteArray.data_append, Array.toList_append, List.data_toByteArray]
    exact same
  · intro ⟨more, same⟩
    rw [← same, List.utf8Encode_append, ByteArray.data_append, Array.toList_append]
    exact List.prefix_append _ _

namespace Source

theorem byteOffset_mono (text : String) {position later : Nat} (before : position ≤ later) :
    (ofString text).byteOffset position ≤ (ofString text).byteOffset later := by
  have split : text.toList.take later = _ := (List.take_append_drop position _).symm
  rw [List.take_take, Nat.min_eq_left before] at split
  rw [byteOffset_ofString, byteOffset_ofString, split, String.ofList_append, String.utf8ByteSize_append]
  exact Nat.le_add_right _ _

theorem byteOffset_behind {text : String} {position : Nat} (behind : text.length ≤ position) :
    (ofString text).byteOffset position = text.utf8ByteSize := by
  rw [byteOffset_ofString, List.take_of_length_le (String.length_toList ▸ behind), String.ofList_toList]

theorem byteOffset_succ {text : String} {position : Nat} {c : Char} (found : text.toList[position]? = some c) :
    (ofString text).byteOffset (position + 1) = (ofString text).byteOffset position + c.utf8Size := by
  rw [byteOffset_ofString, byteOffset_ofString, List.take_add_one, found, Option.toList_some, String.ofList_append,
    String.utf8ByteSize_append, ← String.singleton_eq_ofList, String.utf8ByteSize_singleton]

theorem byteOffset_le (text : String) (position : Nat) : (ofString text).byteOffset position ≤ text.utf8ByteSize := by
  rw [← byteOffset_behind (Nat.le_max_left text.length position)]
  exact byteOffset_mono _ (Nat.le_max_right _ _)

theorem bytes_of_character {text : String} {position : Nat} {c : Char} (found : text.toList[position]? = some c) :
    text.toUTF8.extract ((ofString text).byteOffset position) ((ofString text).byteOffset (position + 1)) =
      (String.singleton c).toUTF8 := by
  have bytes := congrArg String.toByteArray (split_at_character found)
  rw [String.toByteArray_append, String.toByteArray_append] at bytes
  have own : c.utf8Size = (String.singleton c).toByteArray.size := by
    rw [String.size_toByteArray, String.utf8ByteSize_singleton]
  rw [byteOffset_succ found, byteOffset_ofString, ← String.size_toByteArray, String.toUTF8_eq_toByteArray, bytes, own]
  exact (ByteArray.extract_append_size_add (i := 0)).trans (ByteArray.extract_append_eq_left rfl)

theorem bytes_at (text : String) (position : Nat) :
    text.toUTF8.extract ((ofString text).byteOffset position) ((ofString text).byteOffset (position + 1)) =
      ((ofString text).charAt position).elim .empty fun c => (String.utf8EncodeChar c).toByteArray := by
  rw [charAt_ofString]
  cases found : text.toList[position]? with
  | some c =>
      rw [bytes_of_character found, Option.elim_some, String.toUTF8_eq_toByteArray, String.singleton_eq_ofList,
        String.toByteArray_ofList, List.utf8Encode_singleton]
  | none =>
      have behind : text.length ≤ position := by
        rw [← String.length_toList]
        exact List.getElem?_eq_none_iff.mp found
      rw [byteOffset_behind behind, byteOffset_behind (Nat.le_succ_of_le behind), Option.elim_none]
      exact ByteArray.extract_eq_empty_iff.mpr (by omega)

theorem bytes_onwards (text : String) (position : Nat) :
    text.toUTF8.extract ((ofString text).byteOffset position) text.toUTF8.size =
      ((ofString text).rest position).utf8Encode := by
  have split : text.toByteArray =
      (text.toList.take position).utf8Encode ++ (text.toList.drop position).utf8Encode := by
    rw [← List.utf8Encode_append, List.take_append_drop, String.utf8Encode_toList]
  have offset : (ofString text).byteOffset position = (text.toList.take position).utf8Encode.size := by
    rw [byteOffset_ofString, ← String.size_toByteArray, String.toByteArray_ofList]
  have left : (ofString text).rest position = text.toList.drop position := by
    simp only [rest, ofString, List.toList_toArray]
  rw [left, offset, String.toUTF8_eq_toByteArray, split]
  exact ByteArray.extract_append_eq_right rfl ByteArray.size_append

theorem matchesAt_iff (source : Source) (position : Nat) (literal : List Char) :
    source.matchesAt position literal = true ↔ literal <+: source.rest position := by
  induction literal generalizing position with
  | nil => exact iff_of_true rfl List.nil_prefix
  | cons expected more ih =>
      rw [matchesAt, Bool.and_eq_true, beq_iff_eq, ih]
      constructor
      · rintro ⟨found, others⟩
        rw [rest_of_charAt found]
        exact List.cons_prefix_cons.mpr ⟨rfl, others⟩
      · rintro ⟨later, left⟩
        obtain ⟨found, behind⟩ := charAt_of_rest left.symm
        exact ⟨found, later, behind.symm⟩

theorem agreement_whole_iff (source : Source) (position : Nat) (literal : List Char) :
    source.agreement position literal = literal.length ↔ source.matchesAt position literal = true := by
  induction literal generalizing position with
  | nil => exact iff_of_true rfl rfl
  | cons expected more ih =>
      rw [agreement, matchesAt, Bool.and_eq_true, beq_iff_eq, List.length_cons]
      by_cases found : source.charAt position = some expected
      · rw [if_pos found, Nat.succ_inj, ih, and_iff_right found]
      · rw [if_neg found]
        exact iff_of_false (Nat.succ_ne_zero _).symm fun both => found both.1

theorem characters_and_bytes_agree (text literal : String) (position : Nat) :
    let source := ofString text
    let offset := source.byteOffset position
    source.charAt position = text.toList[position]? ∧
    offset = ((text.toList.take (min position source.size)).map Char.utf8Size).sum ∧
    text.toUTF8.extract offset (source.byteOffset (position + 1)) =
      ((source.charAt position).elim .empty fun c => (String.utf8EncodeChar c).toByteArray) ∧
    (source.startsWith position literal = true ↔
      literal.toUTF8.data.toList <+: (text.toUTF8.extract offset text.toUTF8.size).data.toList) ∧
    (source.startsWith position literal = true ↔
      source.agreement position literal.toList = literal.length) ∧
    (position ≤ source.size → position + source.agreement position literal.toList ≤ source.size) := by
  intro source offset
  have counted : text.toList.take (min position source.size) = text.toList.take position := by
    rw [size_ofString, ← String.length_toList, ← List.take_eq_take_min]
  have found : source.startsWith position literal = true ↔ literal.toList <+: source.rest position :=
    source.matchesAt_iff position literal.toList
  refine ⟨charAt_ofString text position, ?_, bytes_at text position, ?_, ?_, ?_⟩
  · rw [counted, ← utf8ByteSize_eq_sum]
    exact byteOffset_ofString text position
  · rw [found, ← encoded_prefix_iff, bytes_onwards, String.utf8Encode_toList, String.toUTF8_eq_toByteArray]
  · rw [← String.length_toList, agreement_whole_iff]
    rfl
  · intro inside
    have bound := source.agreement_bound position literal.toList
    omega

example : [0, 1, 2, 3, 4, 9].map (ofString "aλ字😀").byteOffset = [0, 1, 3, 6, 10, 10] := by decide

theorem wide_literal_breaks_off :
    let source := ofString "aλ字😀"
    2 ≤ source.size ∧ source.byteOffset 2 = 3 ∧ source.agreement 2 "字λ".toList = 1 ∧
      2 + source.agreement 2 "字λ".toList ≤ source.size ∧
      ¬ "字λ".toUTF8.data.toList <+: ("aλ字😀".toUTF8.extract 3 "aλ字😀".toUTF8.size).data.toList := by
  intro source
  have inside : 2 ≤ source.size := by decide
  have offset : source.byteOffset 2 = 3 := by decide
  have absent : ¬ source.startsWith 2 "字λ" = true := by decide
  obtain ⟨-, -, -, found, -, within⟩ := characters_and_bytes_agree "aλ字😀" "字λ" 2
  have bytes := (not_congr found).mp absent
  exact ⟨inside, offset, by decide, within inside, offset ▸ bytes⟩

end Source

end LambdaCalculus

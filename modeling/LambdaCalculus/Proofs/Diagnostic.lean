import LambdaCalculus.Diagnostic
import LambdaCalculus.Proofs.Encoding
import LambdaCalculus.Proofs.Refusal

set_option autoImplicit false

namespace LambdaCalculus

theorem afterTag_skip {c : Char} {rest : List Char} (other : c ≠ ':' ∨ rest.head? ≠ some ' ') :
    afterTag (c :: rest) = afterTag rest := by
  rw [afterTag]
  rintro text rfl rfl
  rcases other with other | other <;> exact other rfl

theorem afterTag_append {run : List Char} (plain : ':' ∉ run) (rest : List Char) :
    afterTag (run ++ rest) = afterTag rest := by
  induction run with
  | nil => rfl
  | cons c run ih =>
      rw [List.mem_cons, not_or] at plain
      rw [List.cons_append, afterTag_skip (.inl (Ne.symm plain.1))]
      exact ih plain.2

theorem not_mem_digits {c : Char} (other : c.isDigit = false) (number : Nat) : c ∉ Nat.toDigits 10 number := by
  intro member
  have digit := Nat.isDigit_of_mem_toDigits (by decide) (by decide) member
  rw [other] at digit
  cases digit

namespace Fragment

theorem toList_text (fragment : Fragment) :
    fragment.text.toList = "lambda".toList ++ ':' :: (Nat.toDigits 10 fragment.position ++
      ':' :: ' ' :: fragment.cause.message.toList) := by
  rw [text, String.toList_append, String.toList_append, String.toList_append, Nat.toString_eq_repr, Nat.toList_repr]
  simp

theorem single_line {fragment : Fragment} (single : '\n' ∉ fragment.cause.message.toList) :
    '\n' ∉ fragment.text.toList := by
  have digits := not_mem_digits (c := '\n') (by decide) fragment.position
  rw [toList_text]
  simp [digits, single]

-- The colon of the tag has a digit behind it, so that the one that ends the position is the
-- first with a blank there.
theorem afterTag_text (fragment : Fragment) : afterTag fragment.text.toList = fragment.cause.message.toList := by
  have tag : ':' ∉ "lambda".toList := by decide
  have plain := not_mem_digits (c := ':') (by decide) fragment.position
  have noBlank := not_mem_digits (c := ' ') (by decide) fragment.position
  obtain ⟨first, more, split⟩ := List.exists_cons_of_ne_nil (Nat.toDigits_ne_nil (b := 10) (n := fragment.position))
  have digit : first ≠ ' ' := fun same => noBlank (split ▸ same ▸ List.mem_cons_self)
  rw [toList_text, afterTag_append tag, afterTag_skip (.inr (by simpa [split] using digit)), afterTag_append plain]
  rfl

end Fragment

namespace Failure

theorem first_line {failure : Failure} (single : '\n' ∉ failure.innermost.cause.message.toList) :
    failure.message.toList.takeWhile (· ≠ '\n') = failure.innermost.text.toList := by
  have inside : ∀ c ∈ failure.innermost.text.toList, decide (c ≠ '\n') = true :=
    fun c member => decide_eq_true (ne_of_mem_of_not_mem member (Fragment.single_line single))
  rw [message, fragments, List.map_cons]
  cases failure.enclosing.reverse.map Fragment.text with
  | nil =>
      have nothing : ∀ c ∈ ([] : List Char).head?, decide (c ≠ '\n') = false := by simp
      simpa using (span_append inside nothing).1
  | cons next rest =>
      rw [String.intercalate_cons_cons, String.toList_append, String.toList_append, List.append_assoc]
      exact (span_append inside (by simp)).1

theorem headline_message {failure : Failure} (single : '\n' ∉ failure.innermost.cause.message.toList) :
    headline failure.message = failure.innermost.cause.message := by
  rw [headline, first_line single, Fragment.afterTag_text, String.ofList_toList]

end Failure

section

variable [Alphabet] {text : String} {failure : Failure} (refused : parse text = .error failure)

include refused

theorem failure_inside : failure.position ≤ text.length := by
  obtain stuck | ⟨stop, phrase, rfl, ⟨c, found, -⟩, -⟩ := parse_refused refused
  · exact Source.size_ofString text ▸ Grammar.stuck_inside stuck (Nat.zero_le _)
  · exact Nat.le_of_lt (String.length_toList ▸ (List.getElem?_eq_some_iff.mp found).1)

theorem failure_single_line : '\n' ∉ failure.innermost.cause.message.toList := by
  obtain stuck | ⟨stop, phrase, rfl, -, -⟩ := parse_refused refused
  · have cause := (Grammar.stuck_innermost stuck).1
    simp only [List.mem_cons, List.not_mem_nil, or_false] at cause
    rcases cause with cause | cause | cause <;> rw [cause] <;> decide
  · have front : '\n' ∉ "extra characters are detected at position ".toList := by decide
    have digits := not_mem_digits (c := '\n') (by decide) stop
    change '\n' ∉ ("extra characters are detected at position " ++ toString stop).toList
    rw [String.toList_append, Nat.toString_eq_repr, Nat.toList_repr, List.mem_append, not_or]
    exact ⟨front, digits⟩

end

namespace Diagnostic

variable {name text : String} {failure : Failure}

theorem label_at_end (reached : failure.position = text.length) :
    (ofFailure name text failure).label = ⟨text.utf8ByteSize, 0, headline failure.message⟩ := by
  have last : text.length ≤ failure.position := Nat.le_of_eq reached.symm
  simp only [ofFailure, Source.byteOffset_behind last, Source.byteOffset_behind (Nat.le_succ_of_le last), Nat.sub_self]

theorem label_at_character {c : Char} (found : text.toList[failure.position]? = some c) :
    (ofFailure name text failure).label =
      ⟨(Source.ofString text).byteOffset failure.position, c.utf8Size, headline failure.message⟩ := by
  simp only [ofFailure, Source.byteOffset_succ found, Nat.add_sub_cancel_left]

theorem label_covers (name : String) (inside : failure.position ≤ text.length) :
    let label := (ofFailure name text failure).label
    label.offset + label.length ≤ text.utf8ByteSize ∧
    ((∃ c, text.toList[failure.position]? = some c ∧
        text.toUTF8.extract label.offset (label.offset + label.length) = (String.singleton c).toUTF8) ∨
      failure.position = text.length ∧ label.offset = text.utf8ByteSize ∧ label.length = 0) := by
  intro label
  rcases Nat.eq_or_lt_of_le inside with reached | short
  · have marked : label = ⟨text.utf8ByteSize, 0, _⟩ := label_at_end reached
    rw [marked]
    exact ⟨Nat.le_refl _, .inr ⟨reached, rfl, rfl⟩⟩
  · rw [← String.length_toList] at short
    have found : text.toList[failure.position]? = some _ := List.getElem?_eq_getElem short
    have marked : label = ⟨_, _, _⟩ := label_at_character found
    rw [marked, ← Source.byteOffset_succ found]
    exact ⟨Source.byteOffset_le text _, .inl ⟨_, found, Source.bytes_of_character found⟩⟩

end Diagnostic

structure Label.Marks (label : Label) (text : String) (failure : Failure) : Prop where
  offset : label.offset = (String.ofList (text.toList.take failure.position)).utf8ByteSize
  bounded : label.offset + label.length ≤ text.utf8ByteSize
  covers : (∃ c, text.toList[failure.position]? = some c ∧
      text.toUTF8.extract label.offset (label.offset + label.length) = (String.singleton c).toUTF8) ∨
    failure.position = text.length ∧ label.offset = text.utf8ByteSize ∧ label.length = 0
  sum : text.utf8ByteSize + 1 < UInt64.size → failure.position + 1 < UInt64.size
  difference : (Source.ofString text).byteOffset failure.position ≤
    (Source.ofString text).byteOffset (failure.position + 1)
  told : ∃ cause, failure.fragments.head? = some ⟨failure.position, cause⟩ ∧ label.text = cause.message
  line : failure.message.toList.takeWhile (· ≠ '\n') =
    ("lambda:" ++ toString failure.position ++ ": " ++ label.text).toList

theorem label_marks_failure [Alphabet] {text : String} {failure : Failure} (refused : parse text = .error failure)
    (name : String) : (Diagnostic.ofFailure name text failure).label.Marks text failure := by
  have inside := failure_inside refused
  have single := failure_single_line refused
  have told : (Diagnostic.ofFailure name text failure).label.text = failure.innermost.cause.message :=
    Failure.headline_message single
  have counted : text.length ≤ text.utf8ByteSize := by
    have fewer := length_le_utf8ByteSize text.toList
    rwa [String.length_toList, String.ofList_toList] at fewer
  obtain ⟨bounded, covers⟩ := Diagnostic.label_covers name inside
  refine ⟨Source.byteOffset_ofString text failure.position, bounded, covers, by omega,
    Source.byteOffset_mono _ (Nat.le_succ _), ⟨_, rfl, told⟩, ?_⟩
  rw [told]
  exact Failure.first_line single

def wideFailure : Failure :=
  (Failure.ofCause 3 (.mark .dot)).within 0 (.abs :: Grammar.itemTrail)

theorem wide_letter_marked :
    parse "\\λ 𐀀" = .error wideFailure ∧
      (Diagnostic.ofFailure "wide" "\\λ 𐀀" wideFailure).label = ⟨4, 4, "a punctuation `.` is expected"⟩ ∧
      (Diagnostic.ofFailure "wide" "\\λ 𐀀" wideFailure).label.Marks "\\λ 𐀀" wideFailure := by
  have refused : parse "\\λ 𐀀" = .error wideFailure := by rfl
  refine ⟨refused, ?_, label_marks_failure refused "wide"⟩
  rw [Diagnostic.label_at_character (c := '𐀀') rfl, Failure.headline_message (by decide)]
  rfl

end LambdaCalculus

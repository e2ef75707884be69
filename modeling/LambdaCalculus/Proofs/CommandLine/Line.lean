import LambdaCalculus.CommandLine.Invocation
import LambdaCalculus.Proofs.RoundTrip

set_option autoImplicit false

namespace LambdaCalculus

section

variable [Alphabet]

def isPrinted (c : Char) : Bool :=
  isLetter c || ['\\', '.', '(', ')', ' '].contains c

theorem bracket_printed {text : List Char} (inner : text.all isPrinted = true) :
    (bracketText text).all isPrinted = true := by
  simp [bracketText, isPrinted, inner]

theorem name_printed {name : String} (isName : IsName name) : name.toList.all isPrinted = true :=
  List.all_eq_true.mpr fun c member => by rw [isPrinted, isName.2 c member, Bool.true_or]

theorem render_printed {term : Term} (named : term.WellNamed) : term.render.toList.all isPrinted = true := by
  induction term with
  | var name => exact name_printed (named name List.mem_cons_self)
  | abs argument body ih =>
      have argumentPrinted := name_printed (named argument List.mem_cons_self)
      have bodyPrinted := ih fun name member => named name (List.mem_cons_of_mem _ member)
      rw [render_abs]
      simp only [List.all_cons, List.all_append, argumentPrinted, bodyPrinted]
      simp [isPrinted]
  | app function argument functionIh argumentIh =>
      have functionPrinted := functionIh fun name member => named name (List.mem_append_left _ member)
      have argumentPrinted := argumentIh fun name member => named name (List.mem_append_right _ member)
      have functionPart : (if function.isAbs then bracketText function.render.toList
          else function.render.toList).all isPrinted = true := by
        split
        · exact bracket_printed functionPrinted
        · exact functionPrinted
      have argumentPart : (if argument.isVar then argument.render.toList
          else bracketText argument.render.toList).all isPrinted = true := by
        split
        · exact argumentPrinted
        · exact bracket_printed argumentPrinted
      rw [render_app, List.all_append, List.all_cons, functionPart, argumentPart]
      simp [isPrinted]

end

namespace CommandLine

theorem byte_ne_line_feed {code : Nat} (other : code % 256 ≠ 10) : UInt8.ofNat code ≠ 10 := by
  intro same
  have value : (UInt8.ofNat code).toNat = 10 := congrArg UInt8.toNat same
  rw [UInt8.toNat_ofNat'] at value
  exact other value

theorem encoding_without_line_feed {c : Char} (other : c ≠ '\n') : ∀ byte ∈ String.utf8EncodeChar c, byte ≠ 10 := by
  have code : c.val.toNat ≠ 10 := fun same => other (Char.ext (UInt32.toNat_inj.mp same))
  rw [String.utf8EncodeChar]
  -- By the number of bytes; where there are several, none of them is below 128.
  repeat' split
  all_goals simp only [List.mem_cons, List.not_mem_nil, or_false, forall_eq_or_imp, forall_eq]
  · exact byte_ne_line_feed (by omega)
  · exact ⟨byte_ne_line_feed (by omega), byte_ne_line_feed (by omega)⟩
  · exact ⟨byte_ne_line_feed (by omega), byte_ne_line_feed (by omega), byte_ne_line_feed (by omega)⟩
  · exact ⟨byte_ne_line_feed (by omega), byte_ne_line_feed (by omega), byte_ne_line_feed (by omega),
      byte_ne_line_feed (by omega)⟩

theorem bytes_of_text (text : String) : text.toUTF8.data.toList = text.toList.flatMap String.utf8EncodeChar := by
  conv => lhs; rw [← String.ofList_toList (s := text)]
  rw [String.toUTF8_eq_toByteArray, String.toByteArray_ofList, List.utf8Encode, List.data_toByteArray]

theorem bytes_without_line_feed {text : String} (single : '\n' ∉ text.toList) :
    ∀ byte ∈ text.toUTF8.data.toList, decide (byte ≠ 10) = true := by
  intro byte member
  rw [bytes_of_text] at member
  obtain ⟨c, among, encoded⟩ := List.mem_flatMap.mp member
  have other : c ≠ '\n' := fun same => single (same ▸ among)
  exact decide_eq_true (encoding_without_line_feed other byte encoded)

theorem first_line_of_bytes {line : String} (single : '\n' ∉ line.toList) (later : String) :
    (line ++ "\n" ++ later).toUTF8.data.toList.takeWhile (· ≠ 10) = line.toUTF8.data.toList := by
  have inside := bytes_without_line_feed single
  have lineFeed : "\n".toList.flatMap String.utf8EncodeChar = [10] := by decide
  rw [bytes_of_text] at inside
  rw [bytes_of_text, bytes_of_text, String.toList_append, String.toList_append, List.flatMap_append,
    List.flatMap_append, lineFeed, List.append_assoc, List.takeWhile_append_of_pos inside]
  simp

theorem fromUTF8_of_text (text : String) : String.fromUTF8? text.toUTF8 = some text := by
  simp only [String.fromUTF8?, String.toUTF8_eq_toByteArray, dif_pos text.isValidUTF8]
  rfl

theorem readLine_of_text {line : String} (single : '\n' ∉ line.toList) (later : String) :
    readLine (line ++ "\n" ++ later).toUTF8 =
      some (String.ofList (line.toList.reverse.dropWhile (· = '\r')).reverse) := by
  rw [readLine, first_line_of_bytes single later, Array.toArray_toList]
  exact congrArg (Option.map _) (fromUTF8_of_text line)

theorem readLine_of_render {term : Term} (named : term.WellNamed) :
    readLine (term.render ++ "\n").toUTF8 = some term.render := by
  have printed := List.all_eq_true.mp (render_printed named)
  have single : '\n' ∉ term.render.toList := fun member => absurd (printed _ member) (by decide)
  have plain : ∀ c ∈ term.render.toList, c ≠ '\r' := by
    rintro c member rfl
    exact absurd (printed _ member) (by decide)
  have kept : term.render.toList.reverse.dropWhile (· = '\r') = term.render.toList.reverse := by
    cases reversed : term.render.toList.reverse with
    | nil => rfl
    | cons c rest =>
        have member : c ∈ term.render.toList := List.mem_reverse.mp (reversed ▸ List.mem_cons_self)
        rw [List.dropWhile_cons_of_neg]
        simpa using plain c member
  have read := readLine_of_text single ""
  rw [kept, List.reverse_reverse, String.ofList_toList, String.append_empty] at read
  exact read

end CommandLine

end LambdaCalculus

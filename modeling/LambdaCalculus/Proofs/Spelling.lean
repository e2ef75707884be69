import LambdaCalculus.Proofs.Names
import LambdaCalculus.Proofs.Token

set_option autoImplicit false

namespace LambdaCalculus

theorem span_append {accepts : Char → Bool} {run later : List Char} (inside : ∀ c ∈ run, accepts c = true)
    (outside : ∀ c ∈ later.head?, accepts c = false) :
    (run ++ later).takeWhile accepts = run ∧ (run ++ later).dropWhile accepts = later := by
  rw [List.takeWhile_append_of_pos inside, List.dropWhile_append_of_pos inside]
  cases later with
  | nil => simp
  | cons c rest => simp [outside c rfl]

def Token.text : Token → List Char
  | .name letters => letters.toList
  | .mark sign => [sign.char]

variable [Alphabet]

def Token.Proper : Token → Prop
  | .name letters => IsName letters
  | .mark _ => True

def Separate (text : List Char) : Prop :=
  ∀ c ∈ text.head?, isLetter c = false

def Apart (words : List Token) (text : List Char) : Prop :=
  ∀ letters, words.getLast? = some (.name letters) → Separate text

theorem separate_cons {c : Char} (rest : List Char) (other : isLetter c = false) : Separate (c :: rest) := by
  intro d head
  cases head
  exact other

theorem separate_append {front back : List Char} (frontSeparate : Separate front) (backSeparate : Separate back) :
    Separate (front ++ back) := by
  cases front with
  | nil => exact backSeparate
  | cons c rest => exact frontSeparate

theorem separate_blanks {blanks : List Char} (blank : blanks.all isBlank = true) : Separate blanks := by
  intro c head
  exact isLetter_of_isBlank c (List.all_eq_true.mp blank c (List.mem_of_mem_head? head))

theorem apart_of_separate {text : List Char} (words : List Token) (separate : Separate text) : Apart words text :=
  fun _ _ => separate

theorem apart_tail {token : Token} {rest : List Token} {text : List Char} (apart : Apart (token :: rest) text) :
    Apart rest text := by
  intro letters last
  cases rest with
  | nil => cases last
  | cons next behind => exact apart letters (List.getLast?_cons_cons.trans last)

theorem isBlank_of_isLetter (c : Char) (letter : isLetter c = true) : isBlank c = false := by
  cases blank : isBlank c with
  | false => rfl
  | true =>
      rw [isLetter_of_isBlank c blank] at letter
      cases letter

theorem read_blanks {blanks : List Char} (blank : blanks.all isBlank = true) (text : List Char) :
    Token.read (blanks ++ text) = Token.read text := by
  unfold Token.read
  rw [List.dropWhile_append_of_pos (List.all_eq_true.mp blank)]

theorem read_text (token : Token) (proper : token.Proper) {later : List Char} (apart : Apart [token] later) :
    Token.read (token.text ++ later) = some (token, later) := by
  cases token with
  | name letters =>
      obtain ⟨nonempty, inside⟩ := proper
      obtain ⟨c, run, split⟩ := List.exists_cons_of_ne_nil nonempty
      rw [split] at inside
      have first := inside c List.mem_cons_self
      obtain ⟨taken, left⟩ :=
        span_append (fun d member => inside d (List.mem_cons_of_mem c member)) (apart letters rfl)
      have whole : String.ofList (c :: run) = letters := by rw [← split, String.ofList_toList]
      rw [Token.text, split, Token.read, List.cons_append,
        List.dropWhile_cons_of_neg (by simp [isBlank_of_isLetter c first])]
      simp only [if_pos first, taken, left, whole]
  | mark mark =>
      have visible : isBlank mark.char = false := by cases mark <;> decide
      have found : Mark.ofChar? mark.char = some mark := (ofChar_eq_some_iff _ _).mpr rfl
      simp [Token.text, Token.read, visible, isLetter_mark, found]

theorem read_eq_some_iff {text later : List Char} {token : Token} :
    Token.read text = some (token, later) ↔
      (∃ blanks : List Char, blanks.all isBlank = true ∧ text = blanks ++ (token.text ++ later)) ∧
        token.Proper ∧ Apart [token] later := by
  constructor
  · intro found
    have split : text = text.takeWhile isBlank ++ text.dropWhile isBlank :=
      List.takeWhile_append_dropWhile.symm
    have blank : (text.takeWhile isBlank).all isBlank = true := List.all_takeWhile
    unfold Token.read at found
    cases left : text.dropWhile isBlank with
    | nil => simp [left] at found
    | cons c behind =>
        rw [left] at split
        simp only [left] at found
        by_cases letter : isLetter c = true
        · simp only [if_pos letter] at found
          cases found
          refine ⟨⟨_, blank, ?_⟩, ?_, ?_⟩
          · simpa [Token.text] using split
          · simp only [Token.Proper, IsName, String.toList_ofList]
            refine ⟨List.cons_ne_nil _ _, ?_⟩
            intro d member
            rcases List.mem_cons.mp member with rfl | member
            · exact letter
            · exact List.all_eq_true.mp List.all_takeWhile d member
          · intro letters last d head
            simpa [Option.mem_def.mp head] using List.head?_dropWhile_not isLetter behind
        · simp only [if_neg letter, Option.map_eq_some_iff] at found
          obtain ⟨mark, known, same⟩ := found
          cases same
          rw [(ofChar_eq_some_iff c mark).mp known] at split
          refine ⟨⟨_, blank, split⟩, trivial, ?_⟩
          intro letters last
          cases last
  · rintro ⟨⟨blanks, blank, rfl⟩, proper, apart⟩
    rw [read_blanks blank, read_text token proper apart]

theorem read_append_blanks {blanks : List Char} (blank : blanks.all isBlank = true) (text : List Char) :
    Token.read (text ++ blanks) = (Token.read text).map fun found => (found.1, found.2 ++ blanks) := by
  unfold Token.read
  cases left : text.dropWhile isBlank with
  | nil =>
      have inside := (dropWhile_eq_nil_iff_all isBlank text).mp left
      have whole : (text ++ blanks).dropWhile isBlank = [] :=
        (dropWhile_eq_nil_iff_all _ _).mpr (by rw [List.all_append, inside, blank]; rfl)
      rw [whole]
      rfl
  | cons c later =>
      have whole : (text ++ blanks).dropWhile isBlank = c :: (later ++ blanks) := by
        rw [List.dropWhile_append, left]
        rfl
      have separate : Separate (later.dropWhile isLetter ++ blanks) :=
        separate_append (fun d head => by simpa [Option.mem_def.mp head] using List.head?_dropWhile_not isLetter later)
          (separate_blanks blank)
      obtain ⟨taken, dropped⟩ := span_append (List.all_eq_true.mp (List.all_takeWhile (l := later))) separate
      rw [← List.append_assoc, List.takeWhile_append_dropWhile] at taken dropped
      rw [whole]
      dsimp only
      rw [taken, dropped]
      by_cases letter : isLetter c = true
      · rw [if_pos letter, if_pos letter]
        rfl
      · rw [if_neg letter, if_neg letter, Option.map_map]
        rfl

theorem tokens_append_blanks {blanks : List Char} (blank : blanks.all isBlank = true) (text : List Char) :
    tokens (text ++ blanks) = tokens text := by
  have again := read_append_blanks blank text
  cases found : Token.read text with
  | none =>
      rw [found] at again
      rw [tokens_of_unread found, tokens_of_unread again, List.all_append, blank, Bool.and_true]
  | some reading =>
      rw [found] at again
      rw [tokens_of_read found, tokens_of_read again, tokens_append_blanks blank reading.2]
termination_by text.length
decreasing_by exact read_shorter found

theorem mem_token_text {token : Token} (proper : token.Proper) {c : Char} (member : c ∈ token.text) :
    isLetter c = true ∨ ∃ mark : Mark, c = mark.char := by
  cases token with
  | name letters => exact .inl (proper.2 c member)
  | mark mark => exact .inr ⟨mark, List.mem_singleton.mp member⟩

theorem mem_of_spells {text later : List Char} {words : List Token} (spelled : Spells text words later) {c : Char}
    (member : c ∈ text) :
    c ∈ later ∨ isBlank c = true ∨ isLetter c = true ∨ ∃ mark : Mark, c = mark.char := by
  induction spelled with
  | nil _ => exact .inl member
  | cons found _ ih =>
      obtain ⟨⟨blanks, blank, rfl⟩, proper, -⟩ := read_eq_some_iff.mp found
      rw [List.mem_append, List.mem_append] at member
      rcases member with inBlanks | inToken | behind
      · exact .inr (.inl (List.all_eq_true.mp blank c inBlanks))
      · exact .inr (.inr (mem_token_text proper inToken))
      · exact ih behind

theorem mem_of_tokens {text : List Char} {words : List Token} (read : tokens text = some words) {c : Char}
    (member : c ∈ text) : isBlank c = true ∨ isLetter c = true ∨ ∃ mark : Mark, c = mark.char := by
  obtain ⟨later, spelled, blank⟩ := tokens_eq_some_iff.mp read
  rcases mem_of_spells spelled member with behind | known
  · exact .inl (List.all_eq_true.mp blank c behind)
  · exact known

theorem spells_names {text later : List Char} {words : List Token} (spelled : Spells text words later)
    (letters : String) (member : Token.name letters ∈ words) : IsName letters := by
  induction spelled with
  | nil _ => cases member
  | cons found _ ih =>
      cases member with
      | head _ => exact (read_eq_some_iff.mp found).2.1
      | tail _ later => exact ih later

def Writes (text : List Char) (words : List Token) : Prop :=
  ∀ later, (∀ c ∈ later.head?, isLetter c = false) → Spells (text ++ later) words later

theorem writes_nil : Writes [] [] :=
  fun later _ => .nil later

theorem writes_mark {text : List Char} {words : List Token} (sign : Mark) (writes : Writes text words) :
    Writes (sign.char :: text) (.mark sign :: words) := by
  intro later separate
  have found : Token.read (sign.char :: (text ++ later)) = some (.mark sign, text ++ later) :=
    read_text (.mark sign) trivial fun _ last => by cases last
  exact .cons found (writes later separate)

theorem writes_name {name : String} (isName : IsName name) : Writes name.toList [.name name] :=
  fun later separate => .cons (read_text (.name name) isName (apart_of_separate _ separate)) (.nil later)

theorem writes_blanks (blanks : List Char) {text : List Char} {words : List Token}
    (blank : blanks.all isBlank = true) (nonempty : words ≠ []) (writes : Writes text words) :
    Writes (blanks ++ text) words := by
  intro later separate
  cases words with
  | nil => exact absurd rfl nonempty
  | cons token rest =>
      obtain ⟨middle, found, behind⟩ := spells_cons.mp (writes later separate)
      rw [List.append_assoc]
      exact .cons ((read_blanks blank _).trans found) behind

theorem writes_append {text : List Char} {c : Char} {rest : List Char} {front back : List Token}
    (first : Writes text front) (second : Writes (c :: rest) back) (separate : isLetter c = false) :
    Writes (text ++ c :: rest) (front ++ back) := by
  intro later ended
  rw [List.append_assoc]
  exact spells_append (first _ (separate_cons _ separate)) (second later ended)

theorem tokens_of_writes {text : List Char} {words : List Token} (writes : Writes text words) :
    tokens text = some words := by
  have spelled := writes [] (by simp)
  rw [List.append_nil] at spelled
  exact tokens_eq_some_iff.mpr ⟨[], spelled, rfl⟩

theorem spells_front {text later : List Char} {words : List Token} (spelled : Spells text words later) :
    ∃ front, text = front ++ later ∧ ∀ other, Apart words other → Spells (front ++ other) words other := by
  induction spelled with
  | nil text => exact ⟨[], rfl, fun other _ => .nil other⟩
  | @cons text middle later token rest found spelled ih =>
      obtain ⟨⟨blanks, blank, rfl⟩, proper, apart⟩ := read_eq_some_iff.mp found
      obtain ⟨front, rfl, extend⟩ := ih
      refine ⟨blanks ++ (token.text ++ front), by simp, ?_⟩
      intro other otherApart
      have tokenApart : Apart [token] (front ++ other) := by
        intro letters last
        cases front with
        | cons c behind => exact apart letters last
        | nil =>
            cases rest with
            | nil => exact otherApart letters last
            | cons next behind => exact absurd (spells_shorter spelled (List.cons_ne_nil _ _)) (Nat.lt_irrefl _)
      have again : Token.read (blanks ++ (token.text ++ (front ++ other))) = some (token, front ++ other) := by
        rw [read_blanks blank, read_text token proper tokenApart]
      simpa using Spells.cons again (extend other (apart_tail otherApart))

theorem writes_behind {text later : List Char} {words : List Token} (spelled : Spells text words later) :
    ∃ front, text = front ++ later ∧ ∀ tail more, Apart words tail → Writes tail more →
      Writes (front ++ tail) (words ++ more) := by
  obtain ⟨front, split, extend⟩ := spells_front spelled
  refine ⟨front, split, ?_⟩
  intro tail more apart writes later separate
  have wholeApart : Apart words (tail ++ later) := fun letters last => separate_append (apart letters last) separate
  rw [List.append_assoc]
  exact spells_append (extend _ wholeApart) (writes later separate)

end LambdaCalculus

import LambdaCalculus.Grammar

set_option autoImplicit false

namespace LambdaCalculus

def Mark.ofChar? : Char → Option Mark
  | '\\' => some .backslash
  | '.' => some .dot
  | '(' => some .leftBracket
  | ')' => some .rightBracket
  | _ => none

theorem ofChar_eq_some_iff (c : Char) (mark : Mark) : Mark.ofChar? c = some mark ↔ c = mark.char := by
  unfold Mark.ofChar?
  split <;> cases mark <;> simp_all [Mark.char]

inductive Token where
  | name (letters : String)
  | mark (mark : Mark)
deriving DecidableEq, Repr

theorem dropWhile_eq_nil_iff_all (accepts : Char → Bool) (text : List Char) :
    text.dropWhile accepts = [] ↔ text.all accepts = true := by
  induction text with
  | nil => simp
  | cons c later ih => by_cases accepted : accepts c = true <;> simp [accepted, ih]

variable [Alphabet]

def Token.read (text : List Char) : Option (Token × List Char) :=
  match text.dropWhile isBlank with
  | [] => none
  | c :: later =>
      if isLetter c then
        some (.name (String.ofList (c :: later.takeWhile isLetter)), later.dropWhile isLetter)
      else (Mark.ofChar? c).map fun mark => (.mark mark, later)

theorem read_shorter {text later : List Char} {token : Token}
    (found : Token.read text = some (token, later)) : later.length < text.length := by
  have fewer := (List.dropWhile_sublist (l := text) isBlank).length_le
  unfold Token.read at found
  split at found
  · cases found
  · next c behind skipped =>
      rw [skipped, List.length_cons] at fewer
      split at found
      · have letters := (List.dropWhile_sublist (l := behind) isLetter).length_le
        cases found
        omega
      · obtain ⟨mark, -, same⟩ := Option.map_eq_some_iff.mp found
        cases same
        omega

def tokens (text : List Char) : Option (List Token) :=
  if text.all isBlank then some []
  else
    match _found : Token.read text with
    | none => none
    | some (token, later) => (tokens later).map (token :: ·)
termination_by text.length
decreasing_by exact read_shorter _found

inductive Spells : List Char → List Token → List Char → Prop where
  | nil (text : List Char) : Spells text [] text
  | cons {text middle later : List Char} {token : Token} {rest : List Token}
      (found : Token.read text = some (token, middle)) (spelled : Spells middle rest later) :
      Spells text (token :: rest) later

theorem spells_append {text middle later : List Char} {front back : List Token}
    (first : Spells text front middle) (second : Spells middle back later) :
    Spells text (front ++ back) later := by
  induction first with
  | nil _ => exact second
  | cons found _ ih => exact .cons found (ih second)

theorem spells_split {text later : List Char} {front back : List Token}
    (spelled : Spells text (front ++ back) later) :
    ∃ middle, Spells text front middle ∧ Spells middle back later := by
  induction front generalizing text with
  | nil => exact ⟨text, .nil text, spelled⟩
  | cons token rest ih =>
      cases spelled with
      | cons found behind =>
          obtain ⟨middle, first, second⟩ := ih behind
          exact ⟨middle, .cons found first, second⟩

theorem spells_cons {text later : List Char} {token : Token} {rest : List Token} :
    Spells text (token :: rest) later ↔
      ∃ middle, Token.read text = some (token, middle) ∧ Spells middle rest later := by
  constructor
  · intro spelled
    cases spelled with
    | cons found behind => exact ⟨_, found, behind⟩
  · intro ⟨middle, found, behind⟩
    exact .cons found behind

theorem spells_shorter {text later : List Char} {words : List Token} (spelled : Spells text words later)
    (nonempty : words ≠ []) : later.length < text.length := by
  induction spelled with
  | nil text => exact absurd rfl nonempty
  | @cons text middle later token rest found spelled ih =>
      have shorter := read_shorter found
      by_cases last : rest = []
      · subst last
        cases spelled
        exact shorter
      · exact Nat.lt_trans (ih last) shorter

theorem spells_nil {text later : List Char} : Spells text [] later ↔ later = text := by
  constructor
  · intro spelled
    cases spelled
    rfl
  · rintro rfl
    exact .nil _

theorem read_of_blank {text : List Char} (blank : text.all isBlank = true) : Token.read text = none := by
  unfold Token.read
  rw [(dropWhile_eq_nil_iff_all isBlank text).mpr blank]

theorem tokens_of_blank {text : List Char} (blank : text.all isBlank = true) : tokens text = some [] := by
  rw [tokens, if_pos blank]

theorem tokens_of_read {text later : List Char} {token : Token}
    (found : Token.read text = some (token, later)) :
    tokens text = (tokens later).map (token :: ·) := by
  have visible : ¬ text.all isBlank = true := by
    intro blank
    rw [read_of_blank blank] at found
    cases found
  rw [tokens, if_neg visible]
  split
  · next absent => rw [absent] at found; cases found
  · next other behind same =>
      rw [found] at same
      cases same
      rfl

theorem tokens_of_unread {text : List Char} (unread : Token.read text = none) :
    tokens text = if text.all isBlank then some [] else none := by
  rw [tokens]
  split
  · rfl
  · split
    · rfl
    · next token later found =>
        rw [unread] at found
        cases found

theorem tokens_eq_some_iff {text : List Char} {words : List Token} :
    tokens text = some words ↔ ∃ later, Spells text words later ∧ later.all isBlank = true := by
  induction words generalizing text with
  | nil =>
      simp only [spells_nil, exists_eq_left]
      constructor
      · intro none
        cases found : Token.read text with
        | none => simpa [tokens_of_unread found] using none
        | some pair => simp [tokens_of_read found] at none
      · exact tokens_of_blank
  | cons token rest ih =>
      constructor
      · intro some
        cases found : Token.read text with
        | none => simp [tokens_of_unread found] at some
        | some pair =>
            rw [tokens_of_read found] at some
            obtain ⟨others, othersRead, same⟩ := Option.map_eq_some_iff.mp some
            cases same
            obtain ⟨later, spelled, blank⟩ := ih.mp othersRead
            exact ⟨later, .cons found spelled, blank⟩
      · intro ⟨later, spelled, blank⟩
        obtain ⟨middle, found, behind⟩ := spells_cons.mp spelled
        rw [tokens_of_read found, ih.mpr ⟨later, behind, blank⟩]
        rfl

end LambdaCalculus

import LambdaCalculus.Letter
import LambdaCalculus.Proofs.Grammar.Confinement
import LambdaCalculus.Proofs.Parser.Behaviour
import LambdaCalculus.Recipe

set_option autoImplicit false

namespace LambdaCalculus

open LambdaCalculus.Parser

variable {ε α β : Type} {source : Source}

theorem confined_fail (cause : Cause) : Confined (Parser.fail cause : Parser ε α) :=
  fun _ _ => ⟨Nat.le_max_left _ _, Nat.le_refl _, Nat.le_refl _⟩

theorem confined_notify (event : Nat → ε) : Confined (notify event) :=
  fun _ _ => ⟨Nat.le_max_left _ _, Nat.le_refl _, Nat.le_refl _⟩

namespace Recipe

variable [Alphabet]

def system (given : String → Option (Parser Call Value)) (definitions : String → Option Recipe)
    (known : String → Parser Call Value) (name : String) : Parser Call Value :=
  match given name with
  | some parser => parser
  | none => do
      notify fun _ => .build name
      match definitions name with
      | some recipe => recipe.parser known
      | none => unfinished

theorem resolve_eq_unrolled (definitions : String → Option Recipe) (depth : Nat) :
    resolve definitions depth = unrolled (system (fun _ => none) definitions) depth := by
  induction depth with
  | zero => rfl
  | succ depth ih =>
      funext name
      rw [resolve, unrolled, ih]
      rfl

section

variable {known : String → Parser Call Value}

mutual

theorem wellBehaved_recipe (knownBehaved : ∀ name, (known name).WellBehaved source) :
    (recipe : Recipe) → (recipe.parser known).WellBehaved source
  | .literal text => by
      rw [parser]
      exact wellBehaved_map ((confined_literal text _).wellBehaved source) _
  | .anyCharacter => by
      rw [parser]
      exact wellBehaved_map ((confined_satisfy _ _).wellBehaved source) _
  | .fail complaint => by
      rw [parser]
      exact (confined_fail _).wellBehaved source
  | .rule name => by
      rw [parser]
      exact wellBehaved_map ((name.confined Report.silent).wellBehaved source) _
  | .choice first others => by
      rw [parser]
      exact wellBehaved_choice (wellBehaved_recipe knownBehaved first) (wellBehaved_recipes knownBehaved others)
  | .sequence parts => by
      rw [parser]
      exact wellBehaved_map (wellBehaved_sequence (wellBehaved_recipes knownBehaved parts)) _
  | .many part => by
      rw [parser]
      exact wellBehaved_map (wellBehaved_many (wellBehaved_recipe knownBehaved part)) _
  | .tagged tag part => by
      rw [parser]
      exact wellBehaved_map (wellBehaved_recipe knownBehaved part) _
  | .named name => by
      rw [parser]
      exact knownBehaved name
  | .watched name part => by
      rw [parser]
      exact wellBehaved_bind ((confined_notify _).wellBehaved source) fun _ => wellBehaved_recipe knownBehaved part
  | .context complaint part => by
      rw [parser]
      exact wellBehaved_context (wellBehaved_recipe knownBehaved part) _

theorem wellBehaved_recipes (knownBehaved : ∀ name, (known name).WellBehaved source) :
    (recipes : List Recipe) → ∀ parser ∈ parsers known recipes, parser.WellBehaved source
  | [] => by
      rw [parsers]
      exact fun _ member => absurd member List.not_mem_nil
  | recipe :: rest => by
      rw [parsers]
      exact List.forall_mem_cons.mpr ⟨wellBehaved_recipe knownBehaved recipe, wellBehaved_recipes knownBehaved rest⟩

end

end

theorem wellBehaved_system {given : String → Option (Parser Call Value)} {known : String → Parser Call Value}
    (givenBehaved : ∀ name parser, given name = some parser → parser.WellBehaved source)
    (knownBehaved : ∀ name, (known name).WellBehaved source) (definitions : String → Option Recipe) (name : String) :
    (system given definitions known name).WellBehaved source := by
  rw [system]
  cases found : given name with
  | some parser => exact givenBehaved name parser found
  | none =>
      refine wellBehaved_bind ((confined_notify _).wellBehaved source) fun _ => ?_
      cases definitions name with
      | some recipe => exact wellBehaved_recipe knownBehaved recipe
      | none => exact confined_unfinished.wellBehaved source

end Recipe

theorem combinators_keep_good_behaviour [Alphabet] (source : Source) :
    (∀ (first : Parser ε α) (others : List (Parser ε α)), first.WellBehaved source →
      (∀ other ∈ others, other.WellBehaved source) → (choice first others).WellBehaved source) ∧
    (∀ parts : List (Parser ε α), (∀ part ∈ parts, part.WellBehaved source) →
      (Parser.sequence parts).WellBehaved source) ∧
    (∀ (first : Parser ε α) (second : α → Parser ε β), first.WellBehaved source →
      (∀ value, (second value).WellBehaved source) → (first >>= second).WellBehaved source) ∧
    (∀ part : Parser ε α, part.WellBehaved source → (many part).WellBehaved source) ∧
    (∀ (change : α → β) (part : Parser ε α), part.WellBehaved source → (change <$> part).WellBehaved source) ∧
    (∀ (cause : Cause) (part : Parser ε α), part.WellBehaved source → (context cause part).WellBehaved source) ∧
    (∀ (ι : Type) (result : ι → Type) (body : ((i : ι) → Parser ε (result i)) → (i : ι) → Parser ε (result i)),
      (∀ known, (∀ i, (known i).WellBehaved source) → ∀ i, (body known i).WellBehaved source) →
        ∀ depth i, (unrolled body depth i).WellBehaved source) ∧
    (∀ (given : String → Option (Parser Recipe.Call Recipe.Value)) (definitions : String → Option Recipe),
      (∀ name parser, given name = some parser → parser.WellBehaved source) → ∀ depth (recipe : Recipe),
        (recipe.parser (unrolled (Recipe.system given definitions) depth)).WellBehaved source) ∧
    ∀ definitions depth recipe, (Recipe.build definitions depth recipe).WellBehaved source := by
  have recipes (given : String → Option (Parser Recipe.Call Recipe.Value)) (definitions : String → Option Recipe)
      (behaved : ∀ name parser, given name = some parser → parser.WellBehaved source) (depth : Nat) (recipe : Recipe) :
      (recipe.parser (unrolled (Recipe.system given definitions) depth)).WellBehaved source :=
    Recipe.wellBehaved_recipe (wellBehaved_unrolled
      (fun _ knownBehaved => Recipe.wellBehaved_system behaved knownBehaved definitions) depth) recipe
  refine ⟨fun _ _ => wellBehaved_choice, fun _ => wellBehaved_sequence, fun _ _ => wellBehaved_bind,
    fun _ => wellBehaved_many, fun change _ behaved => wellBehaved_map behaved change,
    fun cause _ behaved => wellBehaved_context behaved cause, fun _ _ _ => wellBehaved_unrolled, recipes, ?_⟩
  intro definitions depth recipe
  have own := recipes (fun _ => none) definitions (fun _ _ absent => nomatch absent) depth recipe
  rwa [← Recipe.resolve_eq_unrolled] at own

def givenLetter (name : String) : Option (Parser Recipe.Call Recipe.Value) :=
  if name = "letter" then some ((fun c => .reading (.text c.toString)) <$> satisfy Char.isAlpha .letter) else none

def bracketedLetter (name : String) : Option Recipe :=
  if name = "brackets" then
    some (.choice (.named "letter") [.sequence [.literal "(", .named "brackets", .literal ")"]])
  else none

theorem open_brackets_behave :
    let brackets := Recipe.parser (unrolled (Recipe.system givenLetter bracketedLetter) 9) (.named "brackets")
    (brackets.attempt (.ofString "((a") 0).reply =
        .failed ⟨⟨3, .other "`)` is expected"⟩, [⟨0, .noAlternative⟩, ⟨1, .noAlternative⟩]⟩ ∧
      brackets.WellBehaved (.ofString "((a") := by
  obtain ⟨-, -, -, -, -, -, -, recipes, -⟩ :=
    @combinators_keep_good_behaviour Empty Empty Empty _ (.ofString "((a")
  refine ⟨by rfl, recipes givenLetter bracketedLetter ?_ 9 _⟩
  intro name parser found
  obtain rfl := Option.some.inj (Option.ite_none_right_eq_some.mp found).2
  exact wellBehaved_map ((confined_satisfy _ _).wellBehaved _) _

end LambdaCalculus

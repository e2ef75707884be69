import LambdaCalculus.Grammar
/-!
Parsers as data: recipes for putting parsers together, which may refer to each other by name.
-/

set_option autoImplicit false

namespace LambdaCalculus

inductive Recipe where
  | literal (text : String)
  | anyCharacter
  | fail (complaint : String)
  | rule (name : Rule)
  | choice (first : Recipe) (others : List Recipe)
  | sequence (parts : List Recipe)
  | many (part : Recipe)
  | tagged (tag : String) (part : Recipe)
  | named (name : String)
  | watched (name : String) (part : Recipe)
  | context (complaint : String) (part : Recipe)

namespace Recipe

inductive Value where
  | reading (content : Reading)
  | list (values : List Value)
  | tagged (tag : String) (value : Value)

inductive Call where
  | build (name : String)
  | attempt (name : String) (position : Nat)
deriving DecidableEq, Repr

open LambdaCalculus.Parser

variable [Alphabet]

mutual

def parser (resolve : String → Parser Call Value) : Recipe → Parser Call Value
  | .literal text =>
      (fun found => .reading (.text found)) <$>
        Parser.literal text (.other ("`" ++ text ++ "` is expected"))
  | .anyCharacter =>
      (fun c => .reading (.text c.toString)) <$>
        satisfy (fun _ => true) (.other "any character is expected")
  | .fail complaint => Parser.fail (.other complaint)
  | .rule name => .reading <$> name.parser Report.silent
  | .choice first others => Parser.choice (first.parser resolve) (parsers resolve others)
  | .sequence parts => .list <$> Parser.sequence (parsers resolve parts)
  | .many part => .list <$> Parser.many (part.parser resolve)
  | .tagged tag part => .tagged tag <$> part.parser resolve
  | .named name => resolve name
  | .watched name part => do
      notify (.attempt name)
      part.parser resolve
  | .context complaint part => Parser.context (.other complaint) (part.parser resolve)

def parsers (resolve : String → Parser Call Value) : List Recipe → List (Parser Call Value)
  | [] => []
  | recipe :: rest => recipe.parser resolve :: parsers resolve rest

end

def resolve (definitions : String → Option Recipe) : Nat → String → Parser Call Value
  | 0, _ => unfinished
  | depth + 1, name => do
      notify fun _ => .build name
      match definitions name with
      | some recipe => recipe.parser (resolve definitions depth)
      | none => unfinished

def build (definitions : String → Option Recipe) (depth : Nat) (recipe : Recipe) : Parser Call Value :=
  recipe.parser (resolve definitions depth)

end Recipe

end LambdaCalculus

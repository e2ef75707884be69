import LambdaCalculus.Failure
import LambdaCalculus.Source
/-!
What a reader is shown of a text that is not a term.
-/

set_option autoImplicit false

namespace LambdaCalculus

def Failure.code : String :=
  "lambda::syntax::parse_failure"

def Failure.help : String :=
  "terms are built from letters, `\\`, `.`, `(` and `)`"

def afterTag : List Char → List Char
  | ':' :: ' ' :: text => text
  | _ :: rest => afterTag rest
  | [] => []

def headline (message : String) : String :=
  String.ofList (afterTag (message.toList.takeWhile (· ≠ '\n')))

structure Label where
  offset : Nat
  length : Nat
  text : String
deriving DecidableEq, Repr

structure Diagnostic where
  name : String
  label : Label
  cause : Failure
deriving DecidableEq, Repr

namespace Diagnostic

def ofFailure (name text : String) (failure : Failure) : Diagnostic :=
  let source := Source.ofString text
  let first := source.byteOffset failure.position
  let last := source.byteOffset (failure.position + 1)
  ⟨name, ⟨first, last - first, headline failure.message⟩, failure⟩

def code : String :=
  "lambda::cli::parse_error"

def help : Option String :=
  none

def summary (diagnostic : Diagnostic) : String :=
  "Failed to parse " ++ diagnostic.name

end Diagnostic

end LambdaCalculus

import LambdaCalculus.Main
import LambdaCalculus.Recipe
import LambdaCalculus.Proofs.Contraction
import LambdaCalculus.Proofs.Completion
import LambdaCalculus.Proofs.Trace
import LambdaCalculus.Proofs.CommandLine.Composition
import LambdaCalculus.Proofs.CommandLine.Indifference
import LambdaCalculus.Proofs.Dependence
import LambdaCalculus.Proofs.Escape
import LambdaCalculus.Proofs.Weight
import LambdaCalculus.Proofs.Affine
import LambdaCalculus.Proofs.CommandLine.Delivery
import LambdaCalculus.Proofs.Renaming
import LambdaCalculus.Proofs.Settling
import LambdaCalculus.Proofs.Unbracketing
import LambdaCalculus.Proofs.Diagnostic
import LambdaCalculus.Proofs.Cost
import LambdaCalculus.Proofs.CommandLine.Logging
import LambdaCalculus.Proofs.Grammar.Displacement
import LambdaCalculus.Proofs.Derivation
import LambdaCalculus.Proofs.Growth
import LambdaCalculus.Proofs.Recipe
import LambdaCalculus.Proofs.Parser.Choice

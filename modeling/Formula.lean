import Formula.CommandLine
import Formula.Main
import Formula.Proofs.Parsing
import Formula.Proofs.Preservation
import Formula.Proofs.Rendering.Source
import Formula.Proofs.Defects
import Formula.Proofs.Vocabulary
import Formula.Proofs.EvaluationOrder
import Formula.Proofs.Printing
import Formula.Proofs.Tiling
import Formula.Proofs.LexicalLanguage
import Formula.Proofs.Invocations
import Formula.Proofs.Unmentioned
import Formula.Proofs.Calls
import Formula.Proofs.Restoration
import Formula.Proofs.Separation
import Formula.Proofs.Isolation
import Formula.Proofs.Ambiguity
import Formula.Proofs.Chains
import Formula.Proofs.Arguments
import Formula.Proofs.Kinds
import Formula.Proofs.Flattening
import Formula.Proofs.Overrides
import Formula.Proofs.Registrations
import Formula.Proofs.Factorials
import Formula.Proofs.Drawing

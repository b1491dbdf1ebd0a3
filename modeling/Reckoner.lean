import Reckoner.Expression.Bracketed
import Reckoner.Forest.Edit
import Reckoner.Forest.Walk
import Reckoner.Main
import Reckoner.Workspace
import Reckoner.Proofs.Dialogue.Survival
import Reckoner.Proofs.Grammar.Precedence
import Reckoner.Proofs.Forest.Ownership
import Reckoner.Proofs.Calculator.History
import Reckoner.Proofs.Grammar.Content
import Reckoner.Proofs.Workspace.Formulas
import Reckoner.Proofs.Token.Spelling
import Reckoner.Proofs.Token.Decomposition
import Reckoner.Proofs.Number.Nearest
import Reckoner.Proofs.Number.Rounding
import Reckoner.Proofs.Number.Reading
import Reckoner.Proofs.Number.Unique
import Reckoner.Proofs.Grammar.Labels
import Reckoner.Proofs.Evaluation.Labels
import Reckoner.Proofs.Evaluation.Substitution
import Reckoner.Proofs.Evaluation.Repetition
import Reckoner.Proofs.Calculator.Layout
import Reckoner.Proofs.Evaluation.Admissible
import Reckoner.Proofs.Calculator.Commutation
import Reckoner.Proofs.Text.Lines
import Reckoner.Proofs.Dialogue.Locality
import Reckoner.Proofs.Number.Shortest
import Reckoner.Proofs.Number.Writing
import Reckoner.Proofs.Grammar.Succession
import Reckoner.Proofs.Token.Composition
import Reckoner.Proofs.Token.Layout
import Reckoner.Proofs.Grammar.RoundTrip
import Reckoner.Proofs.Grammar.Balance
import Reckoner.Proofs.Token.Earliest
import Reckoner.Proofs.Forest.Outcome
import Reckoner.Proofs.Forest.Traversal
import Reckoner.Proofs.Forest.Sweep
import Reckoner.Proofs.Grammar.Isolation
import Reckoner.Proofs.Terminal.Columns
import Reckoner.Proofs.Terminal.Markers
import Reckoner.Proofs.Token.Separation
import Reckoner.Proofs.Token.Squeezing
import Reckoner.Proofs.Forest.Cycles
import Reckoner.Proofs.Grammar.Construction
import Reckoner.Proofs.Evaluation.Records

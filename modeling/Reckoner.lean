import Reckoner.Terminal
import Reckoner.Main
import Reckoner.Proofs.Lexeme
import Reckoner.Proofs.Spread
import Reckoner.Proofs.Grammar
import Reckoner.Proofs.Grammar.Readers
import Reckoner.Proofs.Grammar.Completeness
import Reckoner.Proofs.Grammar.Depth
import Reckoner.Proofs.Acceptance
import Reckoner.Proofs.Formula
import Reckoner.Proofs.Formula.RoundTrip
import Reckoner.Proofs.Evaluation
import Reckoner.Proofs.Reading
import Reckoner.Proofs.History
import Reckoner.Proofs.Replacement
import Reckoner.Proofs.Naming
import Reckoner.Proofs.Checks
import Reckoner.Proofs.Layout
import Reckoner.Proofs.LongestMatch
import Reckoner.Proofs.Limit
import Reckoner.Proofs.Evaluation.Depth
import Reckoner.Proofs.Uses
import Reckoner.Proofs.Chains
import Reckoner.Proofs.Places
import Reckoner.Proofs.Boundary
import Reckoner.Proofs.Independence
import Reckoner.Proofs.Finality
import Reckoner.Proofs.Constants
import Reckoner.Proofs.Number.Pattern
import Reckoner.Proofs.Number.Nearest
import Reckoner.Proofs.Number.Shortest
import Reckoner.Proofs.Number.Written
import Reckoner.Proofs.Printed
import Reckoner.Proofs.Number.ReadBack
import Reckoner.Proofs.Replay
import Reckoner.Proofs.Console
import Reckoner.Proofs.Runs
import Reckoner.Proofs.Logging
import Reckoner.Proofs.Evaluation.Spine
import Reckoner.Proofs.Grammar.Spoiled
import Reckoner.Proofs.Grammar.Sight
import Reckoner.Proofs.Rejection
import Reckoner.Proofs.Layout.Columns
import Reckoner.Proofs.Caret
import Reckoner.Proofs.Seam
import Reckoner.Proofs.Excerpt
import Reckoner.Proofs.Number.Exact
import Reckoner.Proofs.Number.Rounding
import Reckoner.Proofs.Literals
import Reckoner.Proofs.Number.Power
import Reckoner.Proofs.Number.Parity
import Reckoner.Proofs.Number.Significand
import Reckoner.Proofs.Number.Division
import Reckoner.Proofs.Grammar.Slices
import Reckoner.Proofs.Layout.Canonical

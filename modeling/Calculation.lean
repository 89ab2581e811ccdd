import Calculation.Data.Source
import Calculation.Data.Statement
import Calculation.Main
import Calculation.Symbol.Order
import Calculation.Proofs.Interpretation
import Calculation.Proofs.Traversal
import Calculation.Proofs.Application
import Calculation.Proofs.Renaming
import Calculation.Proofs.Resolution
import Calculation.Proofs.Arena
import Calculation.Proofs.Document
import Calculation.Proofs.Selection
import Calculation.Proofs.Operation
import Calculation.Proofs.Run
import Calculation.Proofs.Coherence
import Calculation.Proofs.Suggestion
import Calculation.Proofs.Layout
import Calculation.Proofs.Offer
import Calculation.Proofs.Refusal
import Calculation.Proofs.Provenance
import Calculation.Proofs.Parsing
import Calculation.Proofs.Lexing
import Calculation.Proofs.Printing
import Calculation.Proofs.Capture
import Calculation.Proofs.Chooser
import Calculation.Proofs.Growth
import Calculation.Proofs.Changes
import Calculation.Proofs.Closing
import Calculation.Proofs.Console
import Calculation.Proofs.Conversation
import Calculation.Proofs.Tiling
import Calculation.Proofs.Relocation
import Calculation.Proofs.Regions
import Calculation.Proofs.Ledger
import Calculation.Proofs.RoundTrip
import Calculation.Proofs.Way
import Calculation.Proofs.Unification
import Calculation.Proofs.Reversal
import Calculation.Proofs.Admission
import Calculation.Proofs.Discharge
import Calculation.Proofs.Effective
import Calculation.Proofs.Identity
import Calculation.Proofs.Undoing
import Calculation.Proofs.Commit
import Calculation.Proofs.Interchange
import Calculation.Proofs.Blame
import Calculation.Proofs.Rejection
import Calculation.Proofs.Pointing
import Calculation.Proofs.Rendering
import Calculation.Proofs.Quantified
import Calculation.Proofs.Vocabulary
import Calculation.Proofs.Padding
import Calculation.Proofs.Reference
import Calculation.Proofs.Labels
import Calculation.Proofs.Visits
import Calculation.Proofs.Priming

import ProofGate.Handles
import ProofGate.Main
import ProofGate.Script
import ProofGate.Statement.Places
import ProofGate.Proofs.Address
import ProofGate.Proofs.Run
import ProofGate.Proofs.Statement.Reading
import ProofGate.Proofs.Matching
import ProofGate.Proofs.Guard
import ProofGate.Proofs.Gate.Passage
import ProofGate.Proofs.Gate.Order
import ProofGate.Proofs.Gate.Answers
import ProofGate.Proofs.Gate.Tampering
import ProofGate.Proofs.Gate.Questions
import ProofGate.Proofs.Statement.Elements
import ProofGate.Proofs.Statement.Writing
import ProofGate.Proofs.Statement.RoundTrip
import ProofGate.Proofs.Statement.Canonical
import ProofGate.Proofs.Gate.Completeness
import ProofGate.Proofs.Backoff.Reference
import ProofGate.Proofs.Backoff.Kept
import ProofGate.Proofs.Pairing
import ProofGate.Proofs.Hex
import ProofGate.Proofs.Word
import ProofGate.Proofs.Calldata
import ProofGate.Proofs.Literal
import ProofGate.Proofs.Bundle.Buffer
import ProofGate.Proofs.Json.Atoms
import ProofGate.Proofs.Json.RoundTrip
import ProofGate.Proofs.Folder
import ProofGate.Proofs.Bundle.Forms
import ProofGate.Proofs.Gate.Reports
import ProofGate.Proofs.Tally
import ProofGate.Proofs.Gate.Rows
import ProofGate.Proofs.Gate.Batches
import ProofGate.Proofs.Bundle.Malformed
import ProofGate.Proofs.Bundle.Acceptance
import ProofGate.Proofs.Calldata.Acceptance
import ProofGate.Proofs.Command.Routes
import ProofGate.Proofs.Command.Saved
import ProofGate.Proofs.Layout.Tiling
import ProofGate.Proofs.Layout.Sizes
import ProofGate.Proofs.Release.Decoded
import ProofGate.Proofs.Bundle.Edits
import ProofGate.Proofs.Query
import ProofGate.Proofs.Matching.Accounts
import ProofGate.Proofs.Command.Descriptions
import ProofGate.Proofs.Literal.Grammar
import ProofGate.Proofs.Tag
import ProofGate.Proofs.Tag.Readers
import ProofGate.Proofs.Statement.Refusals
import ProofGate.Proofs.Tally.History
import ProofGate.Proofs.Digits
import ProofGate.Proofs.Calldata.Result
import ProofGate.Proofs.Path
import ProofGate.Proofs.Resource
import ProofGate.Proofs.Letters
import ProofGate.Proofs.Handles
import ProofGate.Proofs.Handles.History
import ProofGate.Proofs.Handles.Opening

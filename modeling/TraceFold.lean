import TraceFold.Account
import TraceFold.Action
import TraceFold.Address
import TraceFold.BoundedInt
import TraceFold.Bubble
import TraceFold.BuildError
import TraceFold.Catalog.JettonMint
import TraceFold.Catalog.JettonTransfer
import TraceFold.Codec.Account
import TraceFold.Codec.Action
import TraceFold.Codec.Body
import TraceFold.Codec.Flow
import TraceFold.Codec.Transaction
import TraceFold.CommandLine.Arguments
import TraceFold.CommandLine.Duration
import TraceFold.CommandLine.LogFilter
import TraceFold.CommandLine.Program
import TraceFold.CommandLine.Summary
import TraceFold.Event
import TraceFold.Flow
import TraceFold.Forest
import TraceFold.Interfaces
import TraceFold.Json.Basic
import TraceFold.Json.Decode
import TraceFold.Json.Number
import TraceFold.Json.Printer
import TraceFold.Json.Reader
import TraceFold.Json.Schema
import TraceFold.Json.Text
import TraceFold.Main
import TraceFold.Message
import TraceFold.Outline
import TraceFold.Pattern.Basic
import TraceFold.Pattern.Check
import TraceFold.Pattern.Matching
import TraceFold.Pattern.Merge
import TraceFold.Proofs.Catalog.Blindness
import TraceFold.Proofs.Catalog.Chain
import TraceFold.Proofs.Catalog.Commutation
import TraceFold.Proofs.Catalog.Failures
import TraceFold.Proofs.Catalog.Mints
import TraceFold.Proofs.Catalog.Orders
import TraceFold.Proofs.Catalog.Outcomes
import TraceFold.Proofs.Catalog.Recognition
import TraceFold.Proofs.Catalog.Transfers
import TraceFold.Proofs.Codec.Bodies
import TraceFold.Proofs.Codec.RoundTrip
import TraceFold.Proofs.Codec.Traces
import TraceFold.Proofs.CommandLine.Inputs
import TraceFold.Proofs.CommandLine.Spellings
import TraceFold.Proofs.CommandLine.Words
import TraceFold.Proofs.Flow.Entries
import TraceFold.Proofs.Flow.Order
import TraceFold.Proofs.Forest.Contraction
import TraceFold.Proofs.Forest.Payloads
import TraceFold.Proofs.Forest.Sum
import TraceFold.Proofs.Forest.Walks
import TraceFold.Proofs.Forest.WellFormed
import TraceFold.Proofs.Json.Records
import TraceFold.Proofs.Json.Rendering
import TraceFold.Proofs.Json.Values
import TraceFold.Proofs.Matching.Acceptance
import TraceFold.Proofs.Matching.Agreement
import TraceFold.Proofs.Matching.Choice
import TraceFold.Proofs.Matching.Claims
import TraceFold.Proofs.Matching.Embedding
import TraceFold.Proofs.Matching.Greedy
import TraceFold.Proofs.Matching.Undoing
import TraceFold.Proofs.Merging.Accounting
import TraceFold.Proofs.Merging.Calls
import TraceFold.Proofs.Merging.Commutation
import TraceFold.Proofs.Merging.Effect
import TraceFold.Proofs.Merging.Opacity
import TraceFold.Proofs.Merging.Placement
import TraceFold.Proofs.Merging.Refusal
import TraceFold.Proofs.Merging.Transactions
import TraceFold.Proofs.Saturation.Accounting
import TraceFold.Proofs.Saturation.Fixpoint
import TraceFold.Proofs.Saturation.Independence
import TraceFold.Proofs.Saturation.Invariant
import TraceFold.Proofs.Saturation.Opacity
import TraceFold.Proofs.Saturation.Order
import TraceFold.Proofs.Saturation.Persistence
import TraceFold.Proofs.Saturation.Progress
import TraceFold.Proofs.Saturation.Quiet
import TraceFold.Proofs.Saturation.Reporting
import TraceFold.Proofs.Saturation.Termination
import TraceFold.Proofs.Saturation.Truncation
import TraceFold.Proofs.SortedMap
import TraceFold.Proofs.Text.Digits
import TraceFold.Proofs.Text.Instants
import TraceFold.Proofs.Text.Spelling
import TraceFold.Proofs.Text.Written
import TraceFold.Proofs.Trace.Layout
import TraceFold.Proofs.Trace.Loading
import TraceFold.Proofs.Trace.Numbering
import TraceFold.Report
import TraceFold.Saturation
import TraceFold.SortedMap
import TraceFold.Text.Blank
import TraceFold.Text.Digits
import TraceFold.Text.Quoted
import TraceFold.Text.Unprintable
import TraceFold.Timestamp
import TraceFold.Trace
import TraceFold.Transaction

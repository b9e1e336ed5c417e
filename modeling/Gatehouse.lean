import Gatehouse.Breaker.Basic
import Gatehouse.Breaker.Registry
import Gatehouse.Breaker.Window
import Gatehouse.CommandLine
import Gatehouse.Config.Basic
import Gatehouse.Config.Loading
import Gatehouse.Config.Node
import Gatehouse.Config.SocketAddress
import Gatehouse.Config.Validation
import Gatehouse.Diagnostic
import Gatehouse.Http.Body
import Gatehouse.Http.Headers
import Gatehouse.Http.Message
import Gatehouse.Http.Method
import Gatehouse.Http.Reading
import Gatehouse.Http.Status
import Gatehouse.Http.Uri
import Gatehouse.Idempotency.Settings
import Gatehouse.Idempotency.Store
import Gatehouse.Json.Basic
import Gatehouse.Json.Numeral
import Gatehouse.Json.Parser
import Gatehouse.Json.Printer
import Gatehouse.Main
import Gatehouse.Number.Binary
import Gatehouse.Number.Shortest
import Gatehouse.Outputs
import Gatehouse.Pipeline.Gates
import Gatehouse.Pipeline.Guard
import Gatehouse.Pipeline.Passage
import Gatehouse.Pipeline.Visit
import Gatehouse.Pipeline.World
import Gatehouse.Problem
import Gatehouse.Proofs.Breaker.Availability
import Gatehouse.Proofs.Breaker.Callers
import Gatehouse.Proofs.Breaker.HalfOpen
import Gatehouse.Proofs.Breaker.Isolation
import Gatehouse.Proofs.Breaker.Lifecycle
import Gatehouse.Proofs.Breaker.Outage
import Gatehouse.Proofs.Breaker.Registry
import Gatehouse.Proofs.Breaker.SlidingWindow
import Gatehouse.Proofs.Breaker.Transitions
import Gatehouse.Proofs.Breaker.TrialBudget
import Gatehouse.Proofs.Config.Soundness
import Gatehouse.Proofs.Idempotency.Expiry
import Gatehouse.Proofs.Idempotency.Handles
import Gatehouse.Proofs.Idempotency.Histories
import Gatehouse.Proofs.Idempotency.StoreLaws
import Gatehouse.Proofs.Json.Doubles
import Gatehouse.Proofs.Json.Numerals
import Gatehouse.Proofs.Json.ReadBack
import Gatehouse.Proofs.Json.Strings
import Gatehouse.Proofs.Number.Nearest
import Gatehouse.Proofs.Number.Order
import Gatehouse.Proofs.Number.Rounding
import Gatehouse.Proofs.Number.Shortest
import Gatehouse.Proofs.Pipeline.Actors
import Gatehouse.Proofs.Pipeline.Agreement
import Gatehouse.Proofs.Pipeline.Counters
import Gatehouse.Proofs.Pipeline.Deeds
import Gatehouse.Proofs.Pipeline.Deliveries
import Gatehouse.Proofs.Pipeline.Effects
import Gatehouse.Proofs.Pipeline.ExactlyOnce
import Gatehouse.Proofs.Pipeline.ExclusiveClaims
import Gatehouse.Proofs.Pipeline.Inner
import Gatehouse.Proofs.Pipeline.Keeping
import Gatehouse.Proofs.Pipeline.Ledger
import Gatehouse.Proofs.Pipeline.Metrics
import Gatehouse.Proofs.Pipeline.Moves
import Gatehouse.Proofs.Pipeline.OneVisit
import Gatehouse.Proofs.Pipeline.Outcomes
import Gatehouse.Proofs.Pipeline.Ownership
import Gatehouse.Proofs.Pipeline.Permits
import Gatehouse.Proofs.Pipeline.RecordedVisits
import Gatehouse.Proofs.Pipeline.Replays
import Gatehouse.Proofs.Pipeline.Settlements
import Gatehouse.Proofs.Pipeline.Unguarded
import Gatehouse.Proofs.Pipeline.Untouched
import Gatehouse.Proofs.Places
import Gatehouse.Proofs.Routing.Acceptance
import Gatehouse.Proofs.Routing.Construction
import Gatehouse.Proofs.Routing.Declarations
import Gatehouse.Proofs.Routing.Exemptions
import Gatehouse.Proofs.Routing.GlobLanguage
import Gatehouse.Proofs.Routing.PathLanguage
import Gatehouse.Proofs.Routing.SegmentCuts
import Gatehouse.Proofs.Shutdown
import Gatehouse.Proofs.Tables
import Gatehouse.Proofs.Text.FormReading
import Gatehouse.Proofs.Traffic.Aborted
import Gatehouse.Proofs.Traffic.Addressing
import Gatehouse.Proofs.Traffic.DiagnosticAgreement
import Gatehouse.Proofs.Traffic.FaithfulRecords
import Gatehouse.Proofs.Traffic.Filters
import Gatehouse.Proofs.Traffic.Levels
import Gatehouse.Proofs.Traffic.MaskedAgreement
import Gatehouse.Proofs.Traffic.MaskingTwice
import Gatehouse.Proofs.Traffic.PartialCapture
import Gatehouse.Proofs.Traffic.PathText
import Gatehouse.Proofs.Traffic.QueryMasking
import Gatehouse.Proofs.Traffic.Replacement
import Gatehouse.Proofs.Traffic.Session
import Gatehouse.Proofs.Traffic.Targets
import Gatehouse.Proofs.Traffic.TeeLife
import Gatehouse.Proofs.Traffic.Transparency
import Gatehouse.Proofs.Traffic.WrittenRecords
import Gatehouse.Routing.Pattern
import Gatehouse.Routing.Policy
import Gatehouse.Routing.Rules
import Gatehouse.Service
import Gatehouse.Shutdown
import Gatehouse.Simulation.Play
import Gatehouse.Simulation.Script
import Gatehouse.Simulation.Task
import Gatehouse.Table
import Gatehouse.Text.Blank
import Gatehouse.Text.Bytes
import Gatehouse.Text.FormEncoding
import Gatehouse.Text.LetterTables
import Gatehouse.Text.Lowercase
import Gatehouse.Text.Scanning
import Gatehouse.Toml.Number
import Gatehouse.Toml.Parser
import Gatehouse.Toml.Text
import Gatehouse.Toml.Tree
import Gatehouse.Traffic.Capture
import Gatehouse.Traffic.Exchange
import Gatehouse.Traffic.JsonPath
import Gatehouse.Traffic.Masking
import Gatehouse.Traffic.Outbound
import Gatehouse.Traffic.Recorder
import Gatehouse.Traffic.Recording
import Gatehouse.Traffic.Settings
import Gatehouse.Traffic.Tee

import ObjectMapping.Access
import ObjectMapping.Binary
import ObjectMapping.Catalog
import ObjectMapping.Catalog.File
import ObjectMapping.Catalog.Standard
import ObjectMapping.Change
import ObjectMapping.Compatibility
import ObjectMapping.Decimal
import ObjectMapping.Direction
import ObjectMapping.File
import ObjectMapping.Filter
import ObjectMapping.Filter.Fault
import ObjectMapping.Filter.Reader
import ObjectMapping.Filter.Summary
import ObjectMapping.Filter.Text
import ObjectMapping.Filter.Token
import ObjectMapping.Json
import ObjectMapping.Json.Reader
import ObjectMapping.Ledger
import ObjectMapping.Ledger.Parent
import ObjectMapping.Ledger.Store
import ObjectMapping.Ledger.Store.Schedule
import ObjectMapping.Ledger.Table
import ObjectMapping.Mapping.Broker
import ObjectMapping.Mapping.Relationships
import ObjectMapping.Mapping.Service
import ObjectMapping.ObjectRef
import ObjectMapping.Permissions
import ObjectMapping.Rules.Declaration
import ObjectMapping.Rules.Diagnostic
import ObjectMapping.Rules.File
import ObjectMapping.Rules.Forbidden
import ObjectMapping.Rules.Resolution
import ObjectMapping.Rules.RuleBook
import ObjectMapping.Rules.RuleSet
import ObjectMapping.Rules.Standard
import ObjectMapping.Search.Hit
import ObjectMapping.Search.Outcome
import ObjectMapping.Search.Page
import ObjectMapping.Search.Plan
import ObjectMapping.Search.Query
import ObjectMapping.Search.Replay
import ObjectMapping.Search.ResultSet
import ObjectMapping.Search.Session
import ObjectMapping.Search.Summary
import ObjectMapping.Settings
import ObjectMapping.SortedMap
import ObjectMapping.SortedSet
import ObjectMapping.Text.AsciiCase
import ObjectMapping.Text.Blank
import ObjectMapping.Text.Hidden
import ObjectMapping.Text.LetterCase
import ObjectMapping.Text.Quoted
import ObjectMapping.Toml.Document
import ObjectMapping.Toml.Layout
import ObjectMapping.Toml.Number
import ObjectMapping.Toml.Table
import ObjectMapping.Toml.Text
import ObjectMapping.Toml.Value
import ObjectMapping.TypeName
import ObjectMapping.Proofs.Filter.Lexemes
import ObjectMapping.Proofs.Filter.Reading
import ObjectMapping.Proofs.Filter.RoundTrip
import ObjectMapping.Proofs.Ledger.Parts
import ObjectMapping.Proofs.Ledger.Steps
import ObjectMapping.Proofs.Ledger.Invariant
import ObjectMapping.Proofs.Ledger.Reach
import ObjectMapping.Proofs.Ledger.History
import ObjectMapping.Proofs.Ledger.ExactlyOnce
import ObjectMapping.Proofs.Rules.Run
import ObjectMapping.Proofs.Rules.Meaning
import ObjectMapping.Proofs.Rules.Circles
import ObjectMapping.Proofs.Rules.Extension
import ObjectMapping.Proofs.Filter.Parsing
import ObjectMapping.Proofs.Ledger.Pending
import ObjectMapping.Proofs.Mapping.AllOrNothing
import ObjectMapping.Proofs.Mapping.Deferred
import ObjectMapping.Proofs.Mapping.Gate
import ObjectMapping.Proofs.Mapping.External
import ObjectMapping.Proofs.Search.NewestRequest
import ObjectMapping.Proofs.Rules.Diagnosis
import ObjectMapping.Proofs.Rules.Literal
import ObjectMapping.Proofs.Rules.Sources
import ObjectMapping.Proofs.Search.PrimaryFilter
import ObjectMapping.Proofs.Failure
import ObjectMapping.Proofs.Search.Layout
import ObjectMapping.Proofs.Search.Marking
import ObjectMapping.Proofs.Mapping.Selection
import ObjectMapping.Proofs.Ledger.Locks
import ObjectMapping.Proofs.Ledger.Progress
import ObjectMapping.Proofs.Search.WireForm
import ObjectMapping.Proofs.Rules.Paths
import ObjectMapping.Proofs.Rules.Inheritance
import ObjectMapping.Proofs.Rules.DeclarationOrder
import ObjectMapping.Proofs.Mapping.Attempts
import ObjectMapping.Proofs.Mapping.Halves
import ObjectMapping.Proofs.Mapping.Directions
import ObjectMapping.Proofs.Filter.WellFormed
import ObjectMapping.Proofs.Filter.Scanning
import ObjectMapping.Proofs.Filter.Stages
import ObjectMapping.Proofs.Filter.FaultPlaces
import ObjectMapping.Proofs.Filter.Progress
import ObjectMapping.Proofs.Filter.FaultOffsets
import ObjectMapping.Proofs.Search.References
import ObjectMapping.Proofs.Search.Answers
import ObjectMapping.Proofs.Rules.Compatibility
import ObjectMapping.Proofs.Search.Pages
import ObjectMapping.Proofs.Search.Counts
import ObjectMapping.Proofs.Catalog.Declarations
import ObjectMapping.Proofs.Rules.Names
import ObjectMapping.Proofs.Rules.Moments

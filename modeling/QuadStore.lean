import QuadStore.Text
import QuadStore.Term
import QuadStore.Term.Written
import QuadStore.Pattern
import QuadStore.Number.Binary64
import QuadStore.Calendar
import QuadStore.NameId
import QuadStore.Record
import QuadStore.Predicate
import QuadStore.Filter
import QuadStore.Page
import QuadStore.Scan
import QuadStore.Source
import QuadStore.Binding
import QuadStore.CandidateSet.Sharing
import QuadStore.Join
import QuadStore.Solutions
import QuadStore.Index
import QuadStore.Config
import QuadStore.Yaml.Source
import QuadStore.Yaml.Fault
import QuadStore.Yaml.Token
import QuadStore.Yaml.Token.Scalar
import QuadStore.Yaml.Token.Layout
import QuadStore.Yaml.Node
import QuadStore.Yaml.Document
import QuadStore.Store
import QuadStore.Grammar.Token
import QuadStore.Grammar.Query
import QuadStore.Gzip
import QuadStore.Load
import QuadStore.Iri.Absolute
import QuadStore.CommandLine.Arguments
import QuadStore.CommandLine.Run
import QuadStore.Main
import QuadStore.Proofs.EscapeRoundTrip
import QuadStore.Proofs.TermRoundTrip
import QuadStore.Proofs.TermFormat
import QuadStore.Proofs.NamePieces
import QuadStore.Proofs.RecordIdentity
import QuadStore.Proofs.StoreContents
import QuadStore.Proofs.RecordReplacement
import QuadStore.Proofs.CursorOrder
import QuadStore.Proofs.ScanCoverage
import QuadStore.Proofs.ArenaTree
import QuadStore.Proofs.BuildingPredicates
import QuadStore.Proofs.Holdings
import QuadStore.Proofs.RowExtension
import QuadStore.Proofs.NestedLoops
import QuadStore.Proofs.QueryAnswers
import QuadStore.Proofs.ConstraintMeaning
import QuadStore.Proofs.IdleConstraints
import QuadStore.Proofs.ConstrainedAnswers
import QuadStore.Proofs.QueryOrder
import QuadStore.Proofs.FailurePolicies
import QuadStore.Proofs.PageMerging
import QuadStore.Proofs.IndexSource
import QuadStore.Proofs.GraphSets
import QuadStore.Proofs.StoreHistory
import QuadStore.Proofs.TokenScanning
import QuadStore.Proofs.StatementRoundTrip
import QuadStore.Proofs.TokenShapes
import QuadStore.Proofs.QueryLayout
import QuadStore.Proofs.DumpReload
import QuadStore.Proofs.StoreInvariants
import QuadStore.Proofs.Membership
import QuadStore.Proofs.OnePatternReads
import QuadStore.Proofs.BindingChains
import QuadStore.Proofs.AskedLoops
import QuadStore.Proofs.GraphListing
import QuadStore.Proofs.FailedLoads
import QuadStore.Proofs.ObjectLookup
import QuadStore.Proofs.ValueOrder
import QuadStore.Proofs.CalendarDays
import QuadStore.Proofs.DateReading
import QuadStore.Proofs.DateConversion
import QuadStore.Proofs.DateForms
import QuadStore.Proofs.RecordProjection
import QuadStore.Proofs.RepeatedCalls
import QuadStore.Proofs.PolicyAgreement
import QuadStore.Proofs.ScanSafety
import QuadStore.Proofs.WatchedEvaluations
import QuadStore.Proofs.WorkAccount
import QuadStore.Proofs.BindingTrees
import QuadStore.Proofs.ConstraintText
import QuadStore.Proofs.LineReading
import QuadStore.Proofs.LoadUnions
import QuadStore.Proofs.ConcurrentLookups
import QuadStore.Proofs.RecordMemory
import QuadStore.Proofs.SetsInMemory
import QuadStore.Proofs.SetAccounts
import QuadStore.Proofs.CandidateHistories

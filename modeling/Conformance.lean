import Conformance.Calendar.Date
import Conformance.Calendar.DateTime
import Conformance.Calendar.Text
import Conformance.CommandLine.Argument
import Conformance.CommandLine.Program
import Conformance.CommandLine.Request
import Conformance.CommandLine.Usage
import Conformance.Data.Canonical
import Conformance.Data.Datum
import Conformance.Data.Key
import Conformance.Data.Literal
import Conformance.Data.Named
import Conformance.Data.Reference
import Conformance.Data.Render
import Conformance.Data.Scalar
import Conformance.Data.Value
import Conformance.Discovery
import Conformance.Environment
import Conformance.Fault
import Conformance.Feature.Basic
import Conformance.Feature.Filter
import Conformance.Feature.Key
import Conformance.Feature.Parse
import Conformance.Files.Locate
import Conformance.Files.Path
import Conformance.Files.Tree
import Conformance.Live.Implementation
import Conformance.Live.Store
import Conformance.Live.World
import Conformance.Main
import Conformance.Name
import Conformance.Number.Binary64
import Conformance.Number.Integer
import Conformance.Number.Shortest
import Conformance.Proofs.Binding
import Conformance.Proofs.CaseImages
import Conformance.Proofs.Constants
import Conformance.Proofs.Escape
import Conformance.Proofs.FaultOrigin
import Conformance.Proofs.Interference
import Conformance.Proofs.Locality
import Conformance.Proofs.OwnSpelling
import Conformance.Proofs.Past
import Conformance.Proofs.Preservation
import Conformance.Proofs.Relocation
import Conformance.Proofs.Replay
import Conformance.Proofs.Spelling
import Conformance.Proofs.Stages
import Conformance.Proofs.Steps
import Conformance.Run.Execute
import Conformance.Run.Judge
import Conformance.Run.Report
import Conformance.Run.Specification
import Conformance.Sample.Attribute
import Conformance.Sample.Call
import Conformance.Sample.Demonstration
import Conformance.Sample.Hook
import Conformance.Sample.HookSource
import Conformance.Sample.Implementation
import Conformance.Sample.Object
import Conformance.Scope.Assign
import Conformance.Scope.Call
import Conformance.Scope.Lookup
import Conformance.Scope.Resolve
import Conformance.Session
import Conformance.Specification.Basic
import Conformance.Specification.Hooks
import Conformance.Specification.Merge
import Conformance.Specification.Parse
import Conformance.Text.Base64
import Conformance.Text.Case
import Conformance.Text.CaseTable
import Conformance.Text.Class
import Conformance.Text.ClassTable
import Conformance.Text.Json
import Conformance.Text.Pattern
import Conformance.Text.Quoted
import Conformance.Text.Run
import Conformance.Text.Split
import Conformance.Text.Utf8
import Conformance.Yaml.Cursor
import Conformance.Yaml.Documents
import Conformance.Yaml.Literal
import Conformance.Yaml.Node
import Conformance.Yaml.Property
import Conformance.Yaml.Scalar.Block
import Conformance.Yaml.Scalar.Plain
import Conformance.Yaml.Scalar.Quoted
import Conformance.Yaml.Schema.Number
import Conformance.Yaml.Schema.Plain
import Conformance.Yaml.Schema.Timestamp
import Conformance.Yaml.Token
import Conformance.Yaml.TokenStream
import Conformance.Proofs.Comparison
import Conformance.Proofs.Verdict
import Conformance.Proofs.RaisedOutcome
import Conformance.Proofs.HookLookup
import Conformance.Proofs.Inert
import Conformance.Proofs.Tally
import Conformance.Proofs.Oblivious
import Conformance.Proofs.FrontEnds
import Conformance.Proofs.Merging
import Conformance.Proofs.Writable
import Conformance.Proofs.BrokenFiles
import Conformance.Proofs.Continuation
import Conformance.Proofs.Unhooked
import Conformance.Proofs.LastWrite
import Conformance.Proofs.Filters
import Conformance.Proofs.KeyGrammar
import Conformance.Proofs.WrittenKeys
import Conformance.Proofs.CanonicalForm
import Conformance.Proofs.Judging
import Conformance.Proofs.StreamedReport
import Conformance.Proofs.Loading
import Conformance.Proofs.Sameness
import Conformance.Proofs.KeptEntries
import Conformance.Proofs.SelfComparison
import Conformance.Proofs.Places
import Conformance.Proofs.PlainLookups
import Conformance.Proofs.Reachability
import Conformance.Proofs.Substitution
import Conformance.Proofs.ReadOnly
import Conformance.Proofs.LostEntries
import Conformance.Proofs.CalendarDays
import Conformance.Proofs.WrittenMoments
import Conformance.Proofs.Moments
import Conformance.Proofs.Lookups
import Conformance.Proofs.AssignmentFaults
import Conformance.Proofs.Attributes
import Conformance.Proofs.FailedAssignment
import Conformance.Proofs.WrittenMember
import Conformance.Proofs.ReadBack
import Conformance.Proofs.Shadowing
import Conformance.Proofs.BoundVerdict
import Conformance.Proofs.Contents
import Conformance.Proofs.Resemblance
import Conformance.Proofs.CallLists
import Conformance.Proofs.DigitNames
import Conformance.Proofs.Rendering
import Conformance.Proofs.WellFormedFeatures
import Conformance.Proofs.Sections
import Conformance.Proofs.NamedUnion
import Conformance.Proofs.MergedParts
import Conformance.Proofs.Tagging
import Conformance.Proofs.Untagging
import Conformance.Proofs.JoinedWords

import ModuleBundler.Asset.Graph
import ModuleBundler.Asset.Kind
import ModuleBundler.Asset.Types
import ModuleBundler.Asset.Unit
import ModuleBundler.Build.Debounce
import ModuleBundler.Build.Load
import ModuleBundler.Build.Notice
import ModuleBundler.Build.Pass
import ModuleBundler.Build.Project
import ModuleBundler.Build.Session
import ModuleBundler.Build.Sketch
import ModuleBundler.Build.State
import ModuleBundler.Build.Toolset
import ModuleBundler.Build.Work
import ModuleBundler.Bundle.Layout
import ModuleBundler.Bundle.Packagers
import ModuleBundler.Bundle.Packaging
import ModuleBundler.Bundle.Records
import ModuleBundler.Bundle.Report
import ModuleBundler.Bundle.Tree
import ModuleBundler.Cache.Persistent
import ModuleBundler.Cache.Record
import ModuleBundler.Cache.Store
import ModuleBundler.Cache.Units
import ModuleBundler.CommandLine.Arguments
import ModuleBundler.CommandLine.Environment
import ModuleBundler.CommandLine.Output
import ModuleBundler.CommandLine.Program
import ModuleBundler.CommandLine.Reach
import ModuleBundler.Decimal.Shortest
import ModuleBundler.Digest.Blake3
import ModuleBundler.Failure
import ModuleBundler.FileTree.Basic
import ModuleBundler.FileTree.Changes
import ModuleBundler.FileTree.Edit
import ModuleBundler.FileTree.Setup
import ModuleBundler.FileTree.Walk
import ModuleBundler.Json.Access
import ModuleBundler.Json.Any
import ModuleBundler.Json.Codec
import ModuleBundler.Json.Content
import ModuleBundler.Json.Decode
import ModuleBundler.Json.Fault
import ModuleBundler.Json.Reader
import ModuleBundler.Json.Scalar
import ModuleBundler.Json.Skip
import ModuleBundler.Json.Value
import ModuleBundler.Json.Write
import ModuleBundler.LiveUpdate.Channel
import ModuleBundler.LiveUpdate.Message
import ModuleBundler.Lookup.Modules
import ModuleBundler.Lookup.Nearest
import ModuleBundler.Main
import ModuleBundler.Options.Settings
import ModuleBundler.Package.Metadata
import ModuleBundler.Path.Basic
import ModuleBundler.Path.Codec
import ModuleBundler.Path.Map
import ModuleBundler.Path.Normal
import ModuleBundler.Proofs.Asset.Extension
import ModuleBundler.Proofs.Asset.Fingerprint
import ModuleBundler.Proofs.Asset.Indexing
import ModuleBundler.Proofs.Asset.Integrity
import ModuleBundler.Proofs.Build.Answering
import ModuleBundler.Proofs.Build.Assembling
import ModuleBundler.Proofs.Build.Balance
import ModuleBundler.Proofs.Build.Blocking
import ModuleBundler.Proofs.Build.Bursts
import ModuleBundler.Proofs.Build.Chronicle
import ModuleBundler.Proofs.Build.Comparing
import ModuleBundler.Proofs.Build.Compiling
import ModuleBundler.Proofs.Build.Consistency
import ModuleBundler.Proofs.Build.Declaring
import ModuleBundler.Proofs.Build.Delivery
import ModuleBundler.Proofs.Build.Discovery
import ModuleBundler.Proofs.Build.Ending
import ModuleBundler.Proofs.Build.Finishing
import ModuleBundler.Proofs.Build.Freshness
import ModuleBundler.Proofs.Build.Grounded
import ModuleBundler.Proofs.Build.Hearing
import ModuleBundler.Proofs.Build.Incremental
import ModuleBundler.Proofs.Build.Inlining
import ModuleBundler.Proofs.Build.Intake
import ModuleBundler.Proofs.Build.Lasting
import ModuleBundler.Proofs.Build.Loading
import ModuleBundler.Proofs.Build.Making
import ModuleBundler.Proofs.Build.Mirroring
import ModuleBundler.Proofs.Build.Noticing
import ModuleBundler.Proofs.Build.Order
import ModuleBundler.Proofs.Build.Outputs
import ModuleBundler.Proofs.Build.Planning
import ModuleBundler.Proofs.Build.Progress
import ModuleBundler.Proofs.Build.Rebuilding
import ModuleBundler.Proofs.Build.Recompiling
import ModuleBundler.Proofs.Build.Recording
import ModuleBundler.Proofs.Build.Recovery
import ModuleBundler.Proofs.Build.Rehearsal
import ModuleBundler.Proofs.Build.Repeating
import ModuleBundler.Proofs.Build.Restarting
import ModuleBundler.Proofs.Build.Routing
import ModuleBundler.Proofs.Build.Scripts
import ModuleBundler.Proofs.Build.Sheets
import ModuleBundler.Proofs.Build.Single
import ModuleBundler.Proofs.Build.Steady
import ModuleBundler.Proofs.Build.Stepping
import ModuleBundler.Proofs.Build.Termination
import ModuleBundler.Proofs.Build.Trail
import ModuleBundler.Proofs.Build.Transparency
import ModuleBundler.Proofs.Build.Updating
import ModuleBundler.Proofs.Build.Waiting
import ModuleBundler.Proofs.Build.Watching
import ModuleBundler.Proofs.Bundle.Ancestry
import ModuleBundler.Proofs.Bundle.Ascent
import ModuleBundler.Proofs.Bundle.Availability
import ModuleBundler.Proofs.Bundle.Confinement
import ModuleBundler.Proofs.Bundle.Construction
import ModuleBundler.Proofs.Bundle.Content
import ModuleBundler.Proofs.Bundle.Forgetting
import ModuleBundler.Proofs.Bundle.Growth
import ModuleBundler.Proofs.Bundle.Matching
import ModuleBundler.Proofs.Bundle.Membership
import ModuleBundler.Proofs.Bundle.Naming
import ModuleBundler.Proofs.Bundle.Placement
import ModuleBundler.Proofs.Bundle.Reachability
import ModuleBundler.Proofs.Bundle.Recursion
import ModuleBundler.Proofs.Bundle.References
import ModuleBundler.Proofs.Bundle.Repetition
import ModuleBundler.Proofs.Bundle.Reporting
import ModuleBundler.Proofs.Bundle.Sequence
import ModuleBundler.Proofs.Bundle.Skipping
import ModuleBundler.Proofs.Bundle.Traversal
import ModuleBundler.Proofs.Cache.Encoding
import ModuleBundler.Proofs.Cache.Serving
import ModuleBundler.Proofs.Cache.Storing
import ModuleBundler.Proofs.Cache.Truth
import ModuleBundler.Proofs.FileTree.Address
import ModuleBundler.Proofs.FileTree.Dating
import ModuleBundler.Proofs.FileTree.Entering
import ModuleBundler.Proofs.FileTree.Spelling
import ModuleBundler.Proofs.FileTree.Standpoint
import ModuleBundler.Proofs.FileTree.Writing
import ModuleBundler.Proofs.History
import ModuleBundler.Proofs.Json.Codecs
import ModuleBundler.Proofs.Json.Exchange
import ModuleBundler.Proofs.Json.Reading
import ModuleBundler.Proofs.Json.Scalars
import ModuleBundler.Proofs.Json.Values
import ModuleBundler.Proofs.Lookup.Configuration
import ModuleBundler.Proofs.Lookup.Nearest
import ModuleBundler.Proofs.Lookup.Packages
import ModuleBundler.Proofs.Lookup.Relative
import ModuleBundler.Proofs.Lookup.Remembering
import ModuleBundler.Proofs.Path.Climbing
import ModuleBundler.Proofs.Path.Directory
import ModuleBundler.Proofs.Path.FileName
import ModuleBundler.Proofs.Path.Normalizing
import ModuleBundler.Proofs.Source.Extent
import ModuleBundler.Proofs.Source.Extraction
import ModuleBundler.Proofs.Source.Kinds
import ModuleBundler.Proofs.Source.Position
import ModuleBundler.Proofs.Source.Stripping
import ModuleBundler.Proofs.Text.Framing
import ModuleBundler.Proofs.Text.Minifying
import ModuleBundler.Proofs.Text.Offset
import ModuleBundler.Proofs.Watch.Asking
import ModuleBundler.Proofs.Watch.Counting
import ModuleBundler.Proofs.Watch.Following
import ModuleBundler.Proofs.Watch.Reaching
import ModuleBundler.Proofs.Workers.Currency
import ModuleBundler.Proofs.Workers.Sharing
import ModuleBundler.Proofs.Workers.WarmUp
import ModuleBundler.Source.Compile
import ModuleBundler.Source.Family
import ModuleBundler.Source.Markup
import ModuleBundler.Source.Piece
import ModuleBundler.Source.Script
import ModuleBundler.Source.Stylesheet
import ModuleBundler.Table
import ModuleBundler.Terminal.Filter
import ModuleBundler.Terminal.Log
import ModuleBundler.Terminal.Moment
import ModuleBundler.Terminal.Pattern
import ModuleBundler.Terminal.Status
import ModuleBundler.Text.Alphanumeric
import ModuleBundler.Text.CharRange
import ModuleBundler.Text.CodeFrame
import ModuleBundler.Text.Lines
import ModuleBundler.Text.Location
import ModuleBundler.Text.Lowercase
import ModuleBundler.Text.Quoted
import ModuleBundler.Text.Unprintable
import ModuleBundler.Text.Utf8
import ModuleBundler.Text.Word
import ModuleBundler.Watch.Change
import ModuleBundler.Watch.System
import ModuleBundler.Watch.Watcher
import ModuleBundler.Workers.Attempt
import ModuleBundler.Workers.Farm

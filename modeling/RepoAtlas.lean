import RepoAtlas.CodeText
import RepoAtlas.Command.Arguments
import RepoAtlas.Command.Invocation
import RepoAtlas.Command.Reach
import RepoAtlas.Command.Run
import RepoAtlas.Failure
import RepoAtlas.Graph
import RepoAtlas.Graph.Export
import RepoAtlas.Instant
import RepoAtlas.Json.Basic
import RepoAtlas.Json.Reader
import RepoAtlas.Json.Writer
import RepoAtlas.Keyed
import RepoAtlas.Linking
import RepoAtlas.Main
import RepoAtlas.Module.Manual
import RepoAtlas.Module.Record
import RepoAtlas.Module.Registry
import RepoAtlas.Naming.Directory
import RepoAtlas.Naming.Identifier
import RepoAtlas.Notice
import RepoAtlas.Number.Binary64
import RepoAtlas.Number.Decimal
import RepoAtlas.Number.Shortest
import RepoAtlas.OrderedSet
import RepoAtlas.Path.Basic
import RepoAtlas.Path.Relative
import RepoAtlas.Path.Spelling
import RepoAtlas.Proofs.Arrival
import RepoAtlas.Proofs.CodeText
import RepoAtlas.Proofs.Graph.WellFormed
import RepoAtlas.Proofs.Json.Integers
import RepoAtlas.Proofs.Json.Joined
import RepoAtlas.Proofs.Json.Layout
import RepoAtlas.Proofs.Json.RoundTrip
import RepoAtlas.Proofs.Json.Strings
import RepoAtlas.Proofs.Linking
import RepoAtlas.Proofs.Module.Claims
import RepoAtlas.Proofs.Module.Counters
import RepoAtlas.Proofs.Module.Dependencies
import RepoAtlas.Proofs.Module.History
import RepoAtlas.Proofs.Module.Registry
import RepoAtlas.Proofs.Naming.Identifier
import RepoAtlas.Proofs.Outcome
import RepoAtlas.Proofs.Path.Normal
import RepoAtlas.Proofs.Path.Spelling
import RepoAtlas.Proofs.Saving
import RepoAtlas.Proofs.Session
import RepoAtlas.Proofs.SideFile.Links
import RepoAtlas.Proofs.SideFile.Reading
import RepoAtlas.Proofs.Survey.Attribution
import RepoAtlas.Proofs.Survey.Containers
import RepoAtlas.Proofs.Survey.Counters
import RepoAtlas.Proofs.Survey.Directories
import RepoAtlas.Proofs.Survey.Edges
import RepoAtlas.Proofs.Survey.Ownership
import RepoAtlas.Proofs.Survey.Reading
import RepoAtlas.Proofs.Survey.Registration
import RepoAtlas.Proofs.Survey.Stages
import RepoAtlas.Proofs.Survey.Ways
import RepoAtlas.Proofs.Text.Ascii
import RepoAtlas.Proofs.Tree.Descent
import RepoAtlas.Proofs.Tree.Growth
import RepoAtlas.Proofs.Tree.Writing
import RepoAtlas.Score
import RepoAtlas.Session
import RepoAtlas.Settings
import RepoAtlas.Settings.File
import RepoAtlas.SideFile
import RepoAtlas.SideFile.Links
import RepoAtlas.SideFile.Modules
import RepoAtlas.SideFile.Packages
import RepoAtlas.Source.Metrics
import RepoAtlas.Source.Reference
import RepoAtlas.Source.Resolution
import RepoAtlas.Survey
import RepoAtlas.Survey.Directories
import RepoAtlas.Survey.Walk
import RepoAtlas.Text.Base64
import RepoAtlas.Text.Blank
import RepoAtlas.Text.Case
import RepoAtlas.Text.Case.Rows
import RepoAtlas.Text.Digit
import RepoAtlas.Text.Pattern
import RepoAtlas.Text.Printable
import RepoAtlas.Text.Quoted
import RepoAtlas.Text.Ranges
import RepoAtlas.Text.Split
import RepoAtlas.Text.Utf8
import RepoAtlas.Text.Word
import RepoAtlas.Traced
import RepoAtlas.Tree.Basic
import RepoAtlas.Tree.Canonical
import RepoAtlas.Tree.Edit
import RepoAtlas.Tree.Lookup
import RepoAtlas.Tree.Text
import RepoAtlas.Yaml.Date
import RepoAtlas.Yaml.Document
import RepoAtlas.Yaml.Fault
import RepoAtlas.Yaml.Node
import RepoAtlas.Yaml.Number
import RepoAtlas.Yaml.Scalar
import RepoAtlas.Yaml.Token
import RepoAtlas.Yaml.Token.Lexer
import RepoAtlas.Yaml.Token.Scalar
import RepoAtlas.Yaml.Token.Scan
import RepoAtlas.Yaml.Value
import RepoAtlas.Proofs.Agreement
import RepoAtlas.Proofs.Module.Matching
import RepoAtlas.Proofs.Session.Reading
import RepoAtlas.Proofs.Survey.Snapshot
import RepoAtlas.Proofs.Survey.Correspondence
import RepoAtlas.Proofs.Tree.Alike
import RepoAtlas.Proofs.Session.Agreement
import RepoAtlas.Proofs.Survey.Contents
import RepoAtlas.Proofs.Tree.Order
import RepoAtlas.Proofs.Survey.Order
import RepoAtlas.Proofs.Tree.Crossing
import RepoAtlas.Proofs.Survey.Depth
import RepoAtlas.Proofs.Number.Rounding
import RepoAtlas.Proofs.Number.Arithmetic
import RepoAtlas.Proofs.Score
import RepoAtlas.Proofs.Graph.Scoring
import RepoAtlas.Proofs.Session.Opening
import RepoAtlas.Proofs.Settings.Reading
import RepoAtlas.Proofs.Survey.Completion
import RepoAtlas.Proofs.Source.Amount
import RepoAtlas.Proofs.Path.Staying
import RepoAtlas.Proofs.Tree.Copy
import RepoAtlas.Proofs.Source.Candidates
import RepoAtlas.Proofs.Survey.Relocation
import RepoAtlas.Proofs.Module.Contributions
import RepoAtlas.Proofs.Tree.Making
import RepoAtlas.Proofs.Export
import RepoAtlas.Proofs.Linking.Keeping
import RepoAtlas.Proofs.Tree.Rewriting
import RepoAtlas.Proofs.Module.Retelling
import RepoAtlas.Proofs.Graph.Linking
import RepoAtlas.Proofs.Graph.Retelling
import RepoAtlas.Proofs.Survey.Retelling
import RepoAtlas.Proofs.Command.Linking
import RepoAtlas.Proofs.Command.RoundTrip
import RepoAtlas.Proofs.Text.Pattern
import RepoAtlas.Proofs.Source.Matching
import RepoAtlas.Proofs.Source.Scanning
import RepoAtlas.Proofs.Source.References
import RepoAtlas.Proofs.Source.Layout
import RepoAtlas.Proofs.Session.Telling
import RepoAtlas.Proofs.Session.Failing
import RepoAtlas.Proofs.Command.Stages
import RepoAtlas.Proofs.Command.Escaping
import RepoAtlas.Proofs.Score.Coverage
import RepoAtlas.Proofs.Survey.Turns
import RepoAtlas.Proofs.Module.Merging
import RepoAtlas.Proofs.Module.Links
import RepoAtlas.Proofs.Path.Containment
import RepoAtlas.Proofs.Module.Owners
import RepoAtlas.Proofs.Path.Escapes
import RepoAtlas.Proofs.Path.Hints
import RepoAtlas.Proofs.SideFile.Modules
import RepoAtlas.Proofs.Source.Probes
import RepoAtlas.Proofs.Text.Lowering
import RepoAtlas.Proofs.Settings.Extensions
import RepoAtlas.Proofs.Survey.EdgeIds
import RepoAtlas.Proofs.Survey.Ending
import RepoAtlas.Proofs.Naming.Projection
import RepoAtlas.Proofs.Source.Counting
import RepoAtlas.Proofs.Path.Components

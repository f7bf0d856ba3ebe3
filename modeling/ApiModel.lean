import ApiModel.Assembly.CrossReference
import ApiModel.Assembly.Indexing
import ApiModel.Assembly.Pagination
import ApiModel.Assembly.Recursion
import ApiModel.Assembly.Resolve
import ApiModel.Command.Arguments
import ApiModel.Command.Run
import ApiModel.Creation
import ApiModel.Descriptor.Build
import ApiModel.Descriptor.Comment
import ApiModel.Descriptor.Compile
import ApiModel.Descriptor.Read
import ApiModel.Descriptor.Write
import ApiModel.Discovery.Build
import ApiModel.Discovery.Check
import ApiModel.Discovery.Document
import ApiModel.Documentation
import ApiModel.Files.Host
import ApiModel.Files.Path
import ApiModel.Files.Program
import ApiModel.Files.Script
import ApiModel.Files.Script.Pattern
import ApiModel.Files.Script.Read
import ApiModel.Files.Script.Run
import ApiModel.Files.Script.State
import ApiModel.Files.Script.Token
import ApiModel.Files.Script.Tool
import ApiModel.Files.Tree
import ApiModel.Files.World
import ApiModel.Main
import ApiModel.Model.Naming
import ApiModel.Model.Query
import ApiModel.Model.Written
import ApiModel.OpenApi.Build
import ApiModel.OpenApi.Document
import ApiModel.Options
import ApiModel.Outcome
import ApiModel.Path.Parse
import ApiModel.Proofs.Arena
import ApiModel.Proofs.Assembly.Annotation
import ApiModel.Proofs.Assembly.Indices
import ApiModel.Proofs.Assembly.Resolution
import ApiModel.Proofs.Assembly.Sources
import ApiModel.Proofs.Attempt
import ApiModel.Proofs.Index
import ApiModel.Proofs.Listing
import ApiModel.Proofs.Outcome
import ApiModel.Routing
import ApiModel.ServiceConfig.Basic
import ApiModel.ServiceConfig.Read
import ApiModel.Settings
import ApiModel.Settings.Read
import ApiModel.Skip
import ApiModel.Summary
import ApiModel.Text.Blank
import ApiModel.Text.Case
import ApiModel.Text.Decimal
import ApiModel.Text.Quoted
import ApiModel.Text.Utf8
import ApiModel.Toml.Item
import ApiModel.Toml.Plain
import ApiModel.Toml.Quote
import ApiModel.Toml.Read
import ApiModel.Validate
import ApiModel.WellKnown
import ApiModel.Yaml.Cursor
import ApiModel.Yaml.Decode
import ApiModel.Yaml.Node
import ApiModel.Yaml.Plain
import ApiModel.Yaml.Scalar
import ApiModel.Yaml.Style
import ApiModel.Yaml.Token
import ApiModel.Yaml.Write
import ApiModel.Proofs.Assembly.Settled
import ApiModel.Proofs.Assembly.Exactness
import ApiModel.Proofs.Reduction
import ApiModel.Proofs.Reassembly
import ApiModel.Proofs.Graph.Extent
import ApiModel.Proofs.Graph.Sound
import ApiModel.Proofs.Graph.Passes
import ApiModel.Proofs.Documentation
import ApiModel.Proofs.Graph.Growth
import ApiModel.Proofs.Graph.Batches
import ApiModel.Proofs.Graph.Documents
import ApiModel.Proofs.Graph.Descriptions
import ApiModel.Proofs.Graph.DescriptorSets
import ApiModel.Proofs.Graph.Forest
import ApiModel.Proofs.Graph.Ownership
import ApiModel.Proofs.Graph.Runs
import ApiModel.Proofs.Graph.Visits
import ApiModel.Proofs.Graph.Retention
import ApiModel.Proofs.Graph.Links
import ApiModel.Proofs.Graph.Closure
import ApiModel.Proofs.Graph.Creation
import ApiModel.Proofs.Graph.Liveness
import ApiModel.Proofs.Path.Braces
import ApiModel.Proofs.Path.Spelling
import ApiModel.Proofs.Path.Grammar
import ApiModel.Proofs.Graph.Precedence
import ApiModel.Proofs.Graph.Shadowing
import ApiModel.Proofs.OpenApi.Catalog
import ApiModel.Proofs.OpenApi.Requests
import ApiModel.Proofs.Descriptor.Bindings
import ApiModel.Proofs.Grounding
import ApiModel.Proofs.Descriptor.Body
import ApiModel.Proofs.Assembly.Reachability
import ApiModel.Proofs.Discovery.References
import ApiModel.Proofs.Discovery.Services
import ApiModel.Proofs.Wire.RoundTrip
import ApiModel.Proofs.Descriptor.Members
import ApiModel.Proofs.Descriptor.RoundTrip
import ApiModel.Proofs.Descriptor.Fixpoint
import ApiModel.Proofs.Descriptor.Declarations
import ApiModel.Proofs.Descriptor.Structure
import ApiModel.Proofs.Descriptor.Correspondence
import ApiModel.Proofs.Identity
import ApiModel.Proofs.Graph.Generated
import ApiModel.Proofs.Text.Affixes
import ApiModel.Proofs.Selection.Patterns
import ApiModel.Proofs.Selection.Effect
import ApiModel.Proofs.Selection.Resolution
import ApiModel.Proofs.Package.Agreement
import ApiModel.Proofs.OpenApi.Messages
import ApiModel.Proofs.Package.Documents
import ApiModel.Proofs.Package.Readers
import ApiModel.Proofs.Package.Mismatch
import ApiModel.Proofs.OpenApi.Anchors
import ApiModel.Proofs.OpenApi.References
import ApiModel.Proofs.First
import ApiModel.Proofs.Documentation.Selectors
import ApiModel.Proofs.Assembly.Pages
import ApiModel.Proofs.Selection.Composition
import ApiModel.Proofs.Text.Occurrences
import ApiModel.Proofs.Documentation.Members
import ApiModel.Proofs.Documentation.Overrides
import ApiModel.Proofs.Assembly.Twins
import ApiModel.Proofs.Assembly.History
import ApiModel.Proofs.OpenApi.Fields
import ApiModel.Proofs.OpenApi.Parameters
import ApiModel.Proofs.OpenApi.Names
import ApiModel.Proofs.OpenApi.Entries
import ApiModel.Proofs.OpenApi.Lookup
import ApiModel.Proofs.OpenApi.Maps
import ApiModel.Proofs.Assembly.Maps
import ApiModel.Proofs.Descriptor.Steps
import ApiModel.Proofs.Maps
import ApiModel.Proofs.Discovery.Steps
import ApiModel.Proofs.Path.Derivation
import ApiModel.Proofs.Path.Placeholders
import ApiModel.Proofs.Descriptor.Conversion
import ApiModel.Proofs.Descriptor.Alternatives
import ApiModel.Proofs.Descriptor.Traversal
import ApiModel.Proofs.Descriptor.AutoPopulation
import ApiModel.Proofs.Path.Agreement
import ApiModel.Proofs.Routing.Grouping
import ApiModel.Proofs.Routing.Templates
import ApiModel.Proofs.Routing.Combinations
import ApiModel.Proofs.Documentation.Rules
import ApiModel.Proofs.Documentation.Locality
import ApiModel.Proofs.Descriptor.Comments
import ApiModel.Proofs.WellKnown
import ApiModel.Proofs.Graph.Traversal
import ApiModel.Proofs.Graph.Deprecation
import ApiModel.Proofs.Descriptor.Nesting
import ApiModel.Proofs.Graph.Scopes
import ApiModel.Proofs.Descriptor.Scopes

import OpenApi.Descriptor.Builtin
import OpenApi.Json.Reader
import OpenApi.Main
import OpenApi.Proofs.Assembly.Rerun
import OpenApi.Proofs.Trees
import OpenApi.Proofs.Journal
import OpenApi.Proofs.Order
import OpenApi.Proofs.Schema.WellFormed
import OpenApi.Proofs.Lowering.WellFormed
import OpenApi.Proofs.Schema.References
import OpenApi.Proofs.Assembly.Parts
import OpenApi.Proofs.Assembly.References
import OpenApi.Proofs.Registry.References
import OpenApi.Proofs.Assembly.Dangling
import OpenApi.Proofs.Exchange
import OpenApi.Proofs.Journal.Akin
import OpenApi.Proofs.Tables
import OpenApi.Proofs.Assembly.PathOrder
import OpenApi.Proofs.Assembly.Reordering
import OpenApi.Proofs.Assembly.Merging
import OpenApi.Proofs.Assembly.OrderIndependence
import OpenApi.Proofs.Assembly.Confluence
import OpenApi.Proofs.Assembly.Determinism
import OpenApi.Proofs.Descriptor.Values
import OpenApi.Proofs.Lowering.Runs
import OpenApi.Proofs.Lowering.Values
import OpenApi.Proofs.Registry.Values
import OpenApi.Proofs.Registry.Independence
import OpenApi.Proofs.Registry.Threading
import OpenApi.Proofs.Lowering.Alternatives
import OpenApi.Proofs.Lowering.InternalTag
import OpenApi.Proofs.Lowering.TaggedValues
import OpenApi.Proofs.Registry.Embedding
import OpenApi.Proofs.Registry.History
import OpenApi.Proofs.Registry.Nodes
import OpenApi.Proofs.Lowering.Definitions
import OpenApi.Proofs.Registry.Aliases
import OpenApi.Proofs.Loading
import OpenApi.Proofs.Generation.Breakdown
import OpenApi.Proofs.Lowering.Unsupported
import OpenApi.Proofs.Registry.Collisions
import OpenApi.Proofs.Assembly.MergedPaths
import OpenApi.Proofs.Assembly.Occurrences
import OpenApi.Proofs.Assembly.Parameters
import OpenApi.Proofs.Assembly.Requirements
import OpenApi.Proofs.Journal.Asks
import OpenApi.Proofs.Assembly.SecuritySteps
import OpenApi.Proofs.Assembly.Security
import OpenApi.Proofs.Descriptor.Walk
import OpenApi.Proofs.Lowering.Paths
import OpenApi.Proofs.Lowering.Visits
import OpenApi.Proofs.Registry.Insertion
import OpenApi.Proofs.Descriptor.Pruned
import OpenApi.Proofs.Lowering.Pruned
import OpenApi.Proofs.Assembly.Pointers
import OpenApi.Proofs.Journal.Twin
import OpenApi.Proofs.Lowering.Enums
import OpenApi.Proofs.Lowering.UseSites
import OpenApi.Proofs.Json.Reading
import OpenApi.Proofs.Configuration.Grammar
import OpenApi.Proofs.Generation.Delivery
import OpenApi.Proofs.Lowering.Layers

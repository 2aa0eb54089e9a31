import GraphQuery.Proofs.Descriptor.Locate
import GraphQuery.Descriptor.Normalize
import GraphQuery.Main
import GraphQuery.Session
import GraphQuery.Proofs.Construction.Related
import GraphQuery.Proofs.Construction.SameCalls
import GraphQuery.Proofs.Descriptor.Acceptance
import GraphQuery.Proofs.Construction.Calls
import GraphQuery.Proofs.Construction.Openings
import GraphQuery.Proofs.Construction.Respect
import GraphQuery.Proofs.Query.Pieces
import GraphQuery.Proofs.Query.Alike
import GraphQuery.Proofs.Statement.Layouts
import GraphQuery.Proofs.Statement.Rendering
import GraphQuery.Proofs.Statement.RawValues
import GraphQuery.Query.Reading
import GraphQuery.Proofs.Query.Reading
import GraphQuery.Proofs.Query.Legible
import GraphQuery.Proofs.Statement.Legible
import GraphQuery.Proofs.Statement.Values
import GraphQuery.Proofs.Query.Numbering
import GraphQuery.Proofs.Query.Rendering
import GraphQuery.Proofs.Query.Nodes
import GraphQuery.Proofs.Statement.Binding
import GraphQuery.Proofs.Statement.Batch
import GraphQuery.Proofs.Fields.Lookup
import GraphQuery.Proofs.Json.Distinct
import GraphQuery.Proofs.Descriptor.Decode
import GraphQuery.Proofs.Descriptor.Faithful
import GraphQuery.Proofs.Descriptor.Projection
import GraphQuery.Proofs.Statement.Merging
import GraphQuery.Proofs.Statement.References
import GraphQuery.Proofs.Descriptor.Failure
import GraphQuery.Proofs.Statement.FieldPath
import GraphQuery.Proofs.Schema.Graph
import GraphQuery.Proofs.Schema.RoundTrip
import GraphQuery.Proofs.Query.PayloadCall
import GraphQuery.Proofs.Statement.Pending
import GraphQuery.Proofs.Statement.Insertion
import GraphQuery.Proofs.Statement.Commutation
import GraphQuery.Proofs.Query.Composition
import GraphQuery.Proofs.Statement.Undeclared
import GraphQuery.Proofs.Query.Partial
import GraphQuery.Proofs.Descriptor.OfValue
import GraphQuery.Proofs.Operation.Elements
import GraphQuery.Proofs.Statement.Fetching
import GraphQuery.Proofs.Statement.SelectedFields
import GraphQuery.Proofs.Schema.Connections
import GraphQuery.Proofs.Descriptor.Absence
import GraphQuery.Proofs.Schema.Flat
import GraphQuery.Proofs.Text.PathReading
import GraphQuery.Proofs.Descriptor.RecordTable
import GraphQuery.Proofs.Operation.Family
import GraphQuery.Proofs.Schema.RowShape
import GraphQuery.Proofs.Statement.Endpoints
import GraphQuery.Proofs.Schema.NewRow
import GraphQuery.Proofs.Statement.Addressing
import GraphQuery.Proofs.Statement.Diff
import GraphQuery.Proofs.Statement.Denotation
import GraphQuery.Proofs.Text.ReferenceReading
import GraphQuery.Proofs.Text.DurationReading
import GraphQuery.Proofs.Query.Patch
import GraphQuery.Proofs.Json.Documents

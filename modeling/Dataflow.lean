import Dataflow.IndexedGraph
import Dataflow.Main
import Dataflow.Proofs.Catalog.Coherence
import Dataflow.Proofs.Catalog.OutputNames
import Dataflow.Proofs.CommandLine.AddCommand
import Dataflow.Proofs.CommandLine.Adding
import Dataflow.Proofs.CommandLine.Arguments
import Dataflow.Proofs.CommandLine.Folder
import Dataflow.Proofs.Dependencies
import Dataflow.Proofs.Document.Entries
import Dataflow.Proofs.Document.KeyedLinks
import Dataflow.Proofs.Document.Marks
import Dataflow.Proofs.Document.Saving
import Dataflow.Proofs.Document.Spellings
import Dataflow.Proofs.Document.Texts
import Dataflow.Proofs.Formats
import Dataflow.Proofs.Graph.Defects
import Dataflow.Proofs.Graph.Rounds
import Dataflow.Proofs.IndexedGraph.Connecting
import Dataflow.Proofs.IndexedGraph.Failures
import Dataflow.Proofs.IndexedGraph.History
import Dataflow.Proofs.IndexedGraph.Index
import Dataflow.Proofs.IndexedGraph.NewNodes
import Dataflow.Proofs.IndexedGraph.Rebinding
import Dataflow.Proofs.IndexedGraph.Removals
import Dataflow.Proofs.Json.Forms
import Dataflow.Proofs.Json.Numerals
import Dataflow.Proofs.Json.Readers
import Dataflow.Proofs.Json.Records
import Dataflow.Proofs.Json.Values
import Dataflow.Proofs.Json.Words
import Dataflow.Proofs.LinkOrder
import Dataflow.Proofs.Planning
import Dataflow.Proofs.Run.Blame
import Dataflow.Proofs.Run.Cancellation
import Dataflow.Proofs.Run.Cascade
import Dataflow.Proofs.Run.Delivery
import Dataflow.Proofs.Run.Log
import Dataflow.Proofs.Run.Permits
import Dataflow.Proofs.Run.PortNames
import Dataflow.Proofs.Run.Schedules
import Dataflow.Proofs.Run.Snapshots
import Dataflow.Proofs.Run.Statuses

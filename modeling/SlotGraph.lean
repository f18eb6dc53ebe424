import SlotGraph.Handle.Order
import SlotGraph.Incidence.Circles
import SlotGraph.Json.Handle
import SlotGraph.KeyedGraph.Edit
import SlotGraph.Label
import SlotGraph.Multigraph.Report
import SlotGraph.Proofs.Incidence.Circle
import SlotGraph.Proofs.Json.Handle
import SlotGraph.Proofs.Index.History
import SlotGraph.Proofs.KeyedGraph.Collection
import SlotGraph.Proofs.KeyedGraph.EdgeErasure
import SlotGraph.Proofs.KeyedGraph.InStep
import SlotGraph.Proofs.KeyedGraph.Indexing
import SlotGraph.Proofs.KeyedGraph.Recorded
import SlotGraph.Proofs.KeyedGraph.Modification
import SlotGraph.Proofs.KeyedGraph.Refusal
import SlotGraph.Proofs.KeyedGraph.Stream
import SlotGraph.Proofs.Multigraph.Bulk
import SlotGraph.Proofs.Multigraph.Canonical
import SlotGraph.Proofs.Multigraph.Cascade
import SlotGraph.Proofs.Multigraph.CompactCopy
import SlotGraph.Proofs.Multigraph.ConditionalRemoval
import SlotGraph.Proofs.Multigraph.Cursor
import SlotGraph.Proofs.Multigraph.Handshake
import SlotGraph.Proofs.Multigraph.Intact
import SlotGraph.Proofs.Multigraph.Lifetime
import SlotGraph.Proofs.Multigraph.Peak
import SlotGraph.Proofs.Multigraph.Readers
import SlotGraph.Proofs.Multigraph.Refusal
import SlotGraph.Proofs.Multigraph.RemovalOrder
import SlotGraph.Proofs.Multigraph.Reports
import SlotGraph.Proofs.Multigraph.Reversal
import SlotGraph.Proofs.Multigraph.Winnowing
import SlotGraph.Proofs.Peak
import SlotGraph.Proofs.Table.History
import SlotGraph.Proofs.Table.Peak
import SlotGraph.Proofs.Table.Struck
import SlotGraph.Text.Outlines

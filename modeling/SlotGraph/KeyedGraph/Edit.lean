import SlotGraph.KeyedGraph.Basic
import SlotGraph.Multigraph.Edit
set_option autoImplicit false

namespace SlotGraph.KeyedGraph

inductive Edit (V E : Type) where
  | insertVertex (x : V)
  | findOrInsert (x : V)
  | eraseVertex (v : VertexId)
  | removeVertex (v : VertexId)
  | modifyVertex (v : VertexId) (f : V → V)
  | insertEdge (source target : VertexId) (x : E)
  | connect (source target : V) (x : E)
  | eraseEdge (e : EdgeId)
  | removeEdge (e : EdgeId)
  | eraseEdgeAndBareEnds (e : EdgeId)
  | updateEdge (e : EdgeId) (f : E → E)
  | clearIncident (d : Direction) (v : VertexId)
  | clearVertexEdges (v : VertexId)
  | clearEdges
  | clear

abbrev Outcome (V E K : Type) : Type :=
  Except (KeyError K) (Multigraph.Answer V E) × List Event

namespace Edit

variable {V E K I : Type} [KeyIndex I K]

def plain (edit : Multigraph.Edit V E) : Change (KeyedGraph V E K I) (Outcome V E K) := do
  let (answer, events) ← onGraph edit.apply
  return (.ok answer, events)

/-- Only a refused insertion reports a holder, and the index still names it afterwards. -/
def refusal (k : KeyedGraph V E K I) (e : KeyError K) : List Event :=
  (k.find? e.key).toList.map fun v => .refusedKey v.index

def apply [DecidableEq K] : Edit V E → Change (KeyedGraph V E K I) (Outcome V E K)
  | .insertVertex x => do
    match ← KeyedGraph.insertVertex x with
    | .ok v => return (.ok (.vertex v), [])
    | .error e => return (.error e, refusal (← get) e)
  | .findOrInsert x => do return (.ok (.vertex (← KeyedGraph.findOrInsert x)), [])
  | .eraseVertex v => do
    let erasure ← KeyedGraph.eraseVertex v
    return (.ok (.nextVertex erasure.next), [.erasingVertex v.index erasure.cascaded])
  | .removeVertex v => do
    let removal ← KeyedGraph.removeVertex v
    return (.ok (.vertexPayload (some removal.payload)),
      [.erasingVertex v.index removal.cascaded])
  | .modifyVertex v f => do
    return (.ok (.vertexPayload (some (← KeyedGraph.modifyVertex v fun x => (x, f x)))), [])
  | .insertEdge source target x => plain (.insertEdge source target x)
  | .connect source target x => do return (.ok (.edge (← KeyedGraph.connect source target x)), [])
  | .eraseEdge e => plain (.eraseEdge e)
  | .removeEdge e => plain (.removeEdge e)
  | .eraseEdgeAndBareEnds e => do
    let erasure ← KeyedGraph.eraseEdgeAndBareEnds e
    return (.ok (.nextEdge erasure.next),
      erasure.collected.map fun (v, n) => .erasingVertex v.index n)
  | .updateEdge e f => plain (.updateEdge e f)
  | .clearIncident d v => plain (.clearIncident d v)
  | .clearVertexEdges v => plain (.clearVertexEdges v)
  | .clearEdges => plain .clearEdges
  | .clear => do
    let graph := (← get).graph
    KeyedGraph.clear
    return (.ok .done, [.clearingGraph graph.vertexCount graph.edgeCount])

end Edit

def rebuilt {V E K I : Type} [KeyIndex I K] (k : KeyedGraph V E K I) : Event :=
  .rebuiltIndex (KeyIndex.size k.index)

end SlotGraph.KeyedGraph

import SlotGraph.Event
import SlotGraph.Multigraph.Descriptor
set_option autoImplicit false

namespace SlotGraph.Multigraph

inductive Edit (V E : Type) where
  | insertVertex (x : V)
  | eraseVertex (v : VertexId)
  | removeVertex (v : VertexId)
  | updateVertex? (v : VertexId) (f : V → V)
  | updateVertex (v : VertexId) (f : V → V)
  | insertEdge (source target : VertexId) (x : E)
  | eraseEdge (e : EdgeId)
  | eraseIncident (d : Direction) (e : EdgeId)
  | removeEdge (e : EdgeId)
  | updateEdge? (e : EdgeId) (f : E → E)
  | updateEdge (e : EdgeId) (f : E → E)
  | clearIncident (d : Direction) (v : VertexId)
  | clearVertexEdges (v : VertexId)
  | clearEdges
  | clear
  | addVertexAt (x : V)
  | removeVertexAt (i : Nat)
  | clearVertexAt (i : Nat)
  | addEdgeAt (source target : Nat) (x : E)
  | removeEdgeAt (i : Nat)
  /-- The predicate sees the questions asked so far, the latest first, and the one at hand. -/
  | removeEdgesIf (p : List Nat → Nat → Bool)
  | removeIncidentIf (d : Direction) (i : Nat) (p : List Nat → Nat → Bool)

inductive Answer (V E : Type) where
  | done
  | vertex (v : VertexId)
  | edge (e : EdgeId)
  | nextVertex (v : Option VertexId)
  | nextEdge (e : Option EdgeId)
  | vertexPayload (x : Option V)
  | edgePayload (x : Option E)
  | descriptor (i : Nat)
  | added (i : Nat) (isNew : Bool)
  | asked (questions : List Nat)
  deriving DecidableEq, Repr

namespace Edit

variable {V E : Type}

def remember (p : List Nat → Nat → Bool) (earlier : List Nat) (i : Nat) : Bool × List Nat :=
  (p earlier i, i :: earlier)

def apply : Edit V E → Change (Multigraph V E) (Answer V E × List Event)
  | .insertVertex x => do return (.vertex (← Multigraph.insertVertex x), [])
  | .eraseVertex v => do
    let erasure ← Multigraph.eraseVertex v
    return (.nextVertex erasure.next, [.erasingVertex v.index erasure.cascaded])
  | .removeVertex v => do
    let removal ← Multigraph.removeVertex v
    return (.vertexPayload (some removal.payload), [.erasingVertex v.index removal.cascaded])
  | .updateVertex? v f => do return (.vertexPayload (← Multigraph.updateVertex? v f), [])
  | .updateVertex v f => do return (.vertexPayload (some (← Multigraph.updateVertex v f)), [])
  | .insertEdge source target x => do
    return (.edge (← Multigraph.insertEdge source target x), [])
  | .eraseEdge e => do return (.nextEdge (← Multigraph.eraseEdge e), [])
  | .eraseIncident d e => do return (.nextEdge (← Multigraph.eraseIncident d e), [])
  | .removeEdge e => do return (.edgePayload (some (← Multigraph.removeEdge e)), [])
  | .updateEdge? e f => do return (.edgePayload (← Multigraph.updateEdge? e f), [])
  | .updateEdge e f => do return (.edgePayload (some (← Multigraph.updateEdge e f)), [])
  | .clearIncident d v => do Multigraph.clearIncident d v; return (.done, [])
  | .clearVertexEdges v => do Multigraph.clearVertexEdges v; return (.done, [])
  | .clearEdges => do return (.done, [.clearedEdges (← Multigraph.clearEdges)])
  | .clear => do
    let vertices := (← get).vertexCount
    let edges := (← get).edgeCount
    Multigraph.clear
    return (.done, [.clearingGraph vertices edges])
  | .addVertexAt x => do return (.descriptor (← Descriptor.addVertex x), [])
  | .removeVertexAt i => do
    let removal ← Descriptor.removeVertex i
    return (.done, [.erasingVertex i removal.cascaded])
  | .clearVertexAt i => do Descriptor.clearVertex i; return (.done, [])
  | .addEdgeAt source target x => do
    let (i, isNew) ← Descriptor.addEdge source target x
    return (.added i isNew, [])
  | .removeEdgeAt i => do Descriptor.removeEdge i; return (.done, [])
  | .removeEdgesIf p => do
    return (.asked (← Descriptor.removeEdgesIf (remember p) []).reverse, [])
  | .removeIncidentIf d i p => do
    return (.asked (← Descriptor.removeIncidentIf d i (remember p) []).reverse, [])

/-- Applies edits one after the other and goes on after one that stops. -/
def applyAll (g : Multigraph V E) (edits : List (Edit V E)) : Multigraph V E :=
  edits.foldl (fun g edit => match edit.apply g with | .ok _ g | .error _ g => g) g

end Edit

/-- Applies edits up to the first that stops, with the events on the way. -/
def build {V E : Type} :
    List (Edit V E) → Multigraph V E → List Event × Except Fault (Multigraph V E)
  | [], g => ([], .ok g)
  | edit :: rest, g =>
    match edit.apply g with
    | .ok (_, events) g =>
      let (later, outcome) := build rest g
      (events ++ later, outcome)
    | .error f _ => ([], .error f)

end SlotGraph.Multigraph

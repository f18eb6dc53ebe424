import SlotGraph.Multigraph.Basic
set_option autoImplicit false

namespace SlotGraph

/-- The edges of one circle, read from both ends. The degree tells the ends that they have met. -/
structure IncidentEdges (V E : Type) where
  graph : Multigraph V E
  direction : Direction
  front : Node
  back : Node
  remaining : Nat

namespace IncidentEdges

variable {V E : Type}

def next? (it : IncidentEdges V E) : Option (EdgeId × IncidentEdges V E) :=
  match it.remaining, it.front with
  | n + 1, .edge i =>
    match it.graph.edgeId? i, it.graph.link? (.edge i) it.direction with
    | some e, some l => some (e, { it with front := l.next, remaining := n })
    | _, _ => none
  | _, _ => none

def nextBack? (it : IncidentEdges V E) : Option (EdgeId × IncidentEdges V E) :=
  match it.remaining, it.back with
  | n + 1, .edge i =>
    match it.graph.edgeId? i, it.graph.link? (.edge i) it.direction with
    | some e, some l => some (e, { it with back := l.prev, remaining := n })
    | _, _ => none
  | _, _ => none

instance : TwoEnded (IncidentEdges V E) EdgeId where
  next? := next?
  nextBack? := nextBack?
  remaining := remaining

end IncidentEdges

namespace Multigraph

variable {V E : Type}

abbrev Vertices (V : Type) : Type :=
  Mapped (Table.Entries (VertexRecord V)) (SlotId × VertexRecord V) VertexId

abbrev Edges (E : Type) : Type :=
  Mapped (Table.Entries (EdgeRecord E)) (SlotId × EdgeRecord E) EdgeId

def vertexIds (g : Multigraph V E) : Vertices V := ⟨g.vertices.entries, fun p => ⟨p.1⟩⟩

def edgeIds (g : Multigraph V E) : Edges E := ⟨g.edges.entries, fun p => ⟨p.1⟩⟩

def incidentEdges (g : Multigraph V E) (d : Direction) (v : VertexId) :
    Except Fault (IncidentEdges V E) := do
  let r ← g.vertexRecord v
  let l := r.heads.get d
  return ⟨g, d, l.next, l.prev, r.degree.get d⟩

def outEdges (g : Multigraph V E) (v : VertexId) : Except Fault (IncidentEdges V E) :=
  g.incidentEdges .outgoing v

def inEdges (g : Multigraph V E) (v : VertexId) : Except Fault (IncidentEdges V E) :=
  g.incidentEdges .incoming v

def firstVertex? (g : Multigraph V E) : Option VertexId := g.vertices.head.bind g.vertexId?

def firstEdge? (g : Multigraph V E) : Option EdgeId := g.edges.head.bind g.edgeId?

def nextVertex (g : Multigraph V E) (v : VertexId) : Except Fault (Option VertexId) := do
  g.checkVertex v
  return (g.vertices.next? v.index).bind g.vertexId?

def nextEdge (g : Multigraph V E) (e : EdgeId) : Except Fault (Option EdgeId) := do
  g.checkEdge e
  return (g.edges.next? e.index).bind g.edgeId?

/-- The edge that follows a node in its circle, or nothing before a head. -/
def edgeAfter (g : Multigraph V E) (n : Node) (d : Direction) : Except Fault (Option EdgeId) := do
  match (← LinkStore.link g n d).next with
  | .edge i => return some (← g.edgeIdAt i)
  | .head _ => return none

def firstIncident (g : Multigraph V E) (d : Direction) (v : VertexId) :
    Except Fault (Option EdgeId) := do
  g.checkVertex v
  g.edgeAfter (.head v.index) d

def nextIncident (g : Multigraph V E) (d : Direction) (e : EdgeId) :
    Except Fault (Option EdgeId) := do
  g.checkEdge e
  g.edgeAfter (.edge e.index) d

end Multigraph

end SlotGraph

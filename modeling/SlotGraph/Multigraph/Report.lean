import SlotGraph.Multigraph.Traversal
import Std.Data.HashSet
set_option autoImplicit false

namespace SlotGraph

structure VertexReport (V : Type) where
  id : VertexId
  payload : V
  outEdges : List EdgeId
  inEdges : List EdgeId
  outDegree : Nat
  inDegree : Nat
  degree : Nat
  deriving DecidableEq, Repr

structure EdgeReport (E : Type) where
  id : EdgeId
  payload : E
  source : VertexId
  target : VertexId
  deriving DecidableEq, Repr

def EdgeReport.isLoop {E : Type} (r : EdgeReport E) : Bool := r.source == r.target

/-- A handle together with the name of the graph in which it is live. -/
structure Ref (ι : Type) where
  home : String
  id : ι
  deriving DecidableEq, Repr

namespace Multigraph

variable {V E : Type}

def vertexReport (g : Multigraph V E) (v : VertexId) : Except Fault (VertexReport V) := do
  return {
    id := v
    payload := ← g.vertex v
    outEdges := TwoEnded.toList (← g.outEdges v)
    inEdges := TwoEnded.toList (← g.inEdges v)
    outDegree := ← g.outDegree v
    inDegree := ← g.inDegree v
    degree := ← g.degree v }

def edgeReport (g : Multigraph V E) (e : EdgeId) : Except Fault (EdgeReport E) := do
  let (source, target) ← g.endpoints e
  return { id := e, payload := ← g.edge e, source, target }

def vertexReports (g : Multigraph V E) : Except Fault (List (VertexReport V)) :=
  (TwoEnded.toList g.vertexIds).mapM g.vertexReport

def edgeReports (g : Multigraph V E) : Except Fault (List (EdgeReport E)) :=
  (TwoEnded.toList g.edgeIds).mapM g.edgeReport

def namedVertices (g : Multigraph V E) : Except Fault (Std.HashSet VertexId) := do
  let ends := (← g.edgeReports).flatMap fun r => [r.source, r.target]
  return .ofList (TwoEnded.toList g.vertexIds ++ ends)

def namedEdges (g : Multigraph V E) : Except Fault (Std.HashSet EdgeId) := do
  let listed := (← g.vertexReports).flatMap fun r => r.outEdges ++ r.inEdges
  return .ofList (TwoEnded.toList g.edgeIds ++ listed)

end Multigraph

end SlotGraph

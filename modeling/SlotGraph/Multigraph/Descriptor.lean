import SlotGraph.Multigraph.Mutation
set_option autoImplicit false

/-!
Access by descriptor, for algorithms that know records by number. A descriptor is the slot index
of a live record; it carries no generation, so it names whatever record lives in the slot now.
-/

namespace SlotGraph.Descriptor

variable {V E σ : Type}

open Change

def null : Nat := UInt64.size - 1

def vertexOf (g : Multigraph V E) (i : Nat) : Except Fault VertexId :=
  match g.vertexId? i with
  | some v => .ok v
  | none => .error (.deadVertexDescriptor i)

def edgeOf (g : Multigraph V E) (i : Nat) : Except Fault EdgeId :=
  match g.edgeId? i with
  | some e => .ok e
  | none => .error (.deadEdgeDescriptor i)

def vertices (g : Multigraph V E) : Mapped (Multigraph.Vertices V) VertexId Nat :=
  ⟨g.vertexIds, VertexId.index⟩

def edges (g : Multigraph V E) : Mapped (Multigraph.Edges E) EdgeId Nat :=
  ⟨g.edgeIds, EdgeId.index⟩

def source (g : Multigraph V E) (i : Nat) : Except Fault Nat := do
  return (← g.source (← edgeOf g i)).index

def target (g : Multigraph V E) (i : Nat) : Except Fault Nat := do
  return (← g.target (← edgeOf g i)).index

def outDegree (g : Multigraph V E) (i : Nat) : Except Fault Nat := do
  g.outDegree (← vertexOf g i)

def inDegree (g : Multigraph V E) (i : Nat) : Except Fault Nat := do
  g.inDegree (← vertexOf g i)

def degree (g : Multigraph V E) (i : Nat) : Except Fault Nat := do
  g.degree (← vertexOf g i)

def incidentEdges (g : Multigraph V E) (d : Direction) (i : Nat) :
    Except Fault (Mapped (IncidentEdges V E) EdgeId Nat) := do
  return ⟨← g.incidentEdges d (← vertexOf g i), EdgeId.index⟩

def addVertex (x : V) : Change (Multigraph V E) Nat := do
  return (← Multigraph.insertVertex x).index

def removeVertex (i : Nat) : Change (Multigraph V E) (Removal V) := do
  Multigraph.removeVertex (← ask (vertexOf · i))

def clearVertex (i : Nat) : Change (Multigraph V E) Unit := do
  Multigraph.clearVertexEdges (← ask (vertexOf · i))

/-- The flag tells that the edge is new, which it always is: edges may be parallel. -/
def addEdge (source target : Nat) (x : E) : Change (Multigraph V E) (Nat × Bool) := do
  let source ← ask (vertexOf · source)
  let target ← ask (vertexOf · target)
  return ((← Multigraph.insertEdge source target x).index, true)

def removeEdge (i : Nat) : Change (Multigraph V E) Unit := do
  let _ ← Multigraph.removeEdge (← ask (edgeOf · i))

/-- Walks from a cursor over at most `bound` edges. The predicate sees each descriptor once and
carries a state along; `erase` and `advance` both lead to the edge after. -/
def sweep (erase advance : EdgeId → Change (Multigraph V E) (Option EdgeId))
    (p : σ → Nat → Bool × σ) : Nat → Option EdgeId → σ → Change (Multigraph V E) σ
  | _, none, s => return s
  | 0, some _, _ => corrupt .walkOverlong
  | bound + 1, some e, s => do
    let (hit, s) := p s e.index
    let next ← if hit then erase e else advance e
    sweep erase advance p bound next s

def removeEdgesIf (p : σ → Nat → Bool × σ) (s : σ) : Change (Multigraph V E) σ := do
  let g ← get
  let first := g.firstEdge?
  let count := g.edgeCount
  sweep Multigraph.eraseEdge (fun e => ask (Multigraph.nextEdge · e)) p count first s

def removeIncidentIf (d : Direction) (i : Nat) (p : σ → Nat → Bool × σ) (s : σ) :
    Change (Multigraph V E) σ := do
  let v ← ask (vertexOf · i)
  let first ← ask (Multigraph.firstIncident · d v)
  let count := (← get).edgeCount
  sweep (Multigraph.eraseIncident d) (fun e => ask (Multigraph.nextIncident · d e)) p count first s

end SlotGraph.Descriptor

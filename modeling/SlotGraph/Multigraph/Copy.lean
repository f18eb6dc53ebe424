import SlotGraph.Multigraph.Mutation
set_option autoImplicit false

namespace SlotGraph.Multigraph

variable {V E V' E' σ : Type}

/-- Inserts the images of vertices, and notes for each slot the vertex that came of it. -/
def copyVertices (f : σ → V → V' × σ) : List (SlotId × VertexRecord V) →
    Array (Option VertexId) → σ → Change (Multigraph V' E') (Array (Option VertexId) × σ)
  | [], images, s => return (images, s)
  | (id, r) :: rest, images, s => do
    let (x, s) := f s r.payload
    let v ← insertVertex x
    copyVertices f rest (images.setIfInBounds id.index (some v)) s

def imageOf (images : Array (Option VertexId)) (v : VertexId) : Option VertexId :=
  images[v.index]?.join

def copyEdges (f : σ → E → E' × σ) (images : Array (Option VertexId)) :
    List (SlotId × EdgeRecord E) → σ → Change (Multigraph V' E') σ
  | [], s => return s
  | (_, r) :: rest, s => do
    match imageOf images r.source, imageOf images r.target with
    | some source, some target =>
      let (x, s) := f s r.payload
      let _ ← insertEdge source target x
      copyEdges f images rest s
    | _, _ => Change.corrupt .deadEndpoint

def mapAccum (g : Multigraph V E) (f : σ → V → V' × σ) (h : σ → E → E' × σ) (s : σ) :
    Except Fault (Multigraph V' E' × σ) :=
  let copying : Change (Multigraph V' E') σ := do
    let (images, s) ← copyVertices f g.vertices.toList (Array.replicate g.vertexCapacity none) s
    copyEdges h images g.edges.toList s
  match copying.run empty with
  | .ok s copy => .ok (copy, s)
  | .error e _ => .error e

def map (g : Multigraph V E) (f : V → V') (h : E → E') : Except Fault (Multigraph V' E') :=
  (g.mapAccum (fun _ x => (f x, ())) (fun _ x => (h x, ())) ()).map Prod.fst

end SlotGraph.Multigraph

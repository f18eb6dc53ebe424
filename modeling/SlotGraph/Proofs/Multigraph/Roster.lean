import SlotGraph.Multigraph.Edit
import SlotGraph.Proofs.Table.Ledger
set_option autoImplicit false

/-!
What a multigraph holds, without its links. A roster is a ledger of payloads and a ledger of arcs;
the edges at a vertex are those arcs of the second that end there, in their order. The operations
of a multigraph are defined anew on rosters, where a removal is a change of lists.
-/

namespace SlotGraph

structure Arc (E : Type) where
  payload : E
  source : VertexId
  target : VertexId
  deriving DecidableEq, Repr

def Arc.endpoint {E : Type} (r : Arc E) : Direction → VertexId
  | .outgoing => r.source
  | .incoming => r.target

def Arc.withPayload {E : Type} (f : E → E) (r : Arc E) : Arc E := { r with payload := f r.payload }

def EdgeRecord.arc {E : Type} (r : EdgeRecord E) : Arc E := ⟨r.payload, r.source, r.target⟩

def successor? {α : Type} [DecidableEq α] (x : α) : List α → Option α
  | [] => none
  | y :: ys => if y = x then ys.head? else successor? x ys

structure Roster (V E : Type) where
  vertices : Ledger V := {}
  edges : Ledger (Arc E) := {}

namespace Roster

variable {V E σ : Type}

def vertexIds (m : Roster V E) : List VertexId := m.vertices.live.map fun p => ⟨p.1⟩

def edgeIds (m : Roster V E) : List EdgeId := m.edges.live.map fun p => ⟨p.1⟩

/-- The edges whose end of direction `d` is `v`, oldest first. -/
def incident (m : Roster V E) (d : Direction) (v : VertexId) : List EdgeId :=
  (m.edges.live.filter fun p => p.2.endpoint d == v).map fun p => ⟨p.1⟩

def dropEdge (m : Roster V E) (e : EdgeId) : Roster V E := { m with edges := m.edges.drop e.slot }

/-- Drops edges one after the other, so that the slot of the last is on top of the free ones. -/
def dropEdges (m : Roster V E) (es : List EdgeId) : Roster V E := es.foldl dropEdge m

def dropIncident (m : Roster V E) (d : Direction) (v : VertexId) : Roster V E :=
  m.dropEdges (m.incident d v)

/-- Drops the edges at a vertex, those that leave it first. -/
def dropAround (m : Roster V E) (v : VertexId) : Roster V E :=
  (m.dropIncident .outgoing v).dropIncident .incoming v

def dropVertex (m : Roster V E) (v : VertexId) : Roster V E :=
  { m with vertices := m.vertices.drop v.slot }

def requireVertex (v : VertexId) : Change (Roster V E) Unit := fun m =>
  if v ∈ m.vertexIds then .ok () m else .error (.deadVertex v) m

def nextVertex (v : VertexId) : Change (Roster V E) (Option VertexId) := do
  requireVertex v
  return successor? v (← get).vertexIds

def arcOf (e : EdgeId) : Change (Roster V E) (Arc E) := fun m =>
  match m.edges.get? e.slot with
  | some r => .ok r m
  | none => .error (.deadEdge e) m

def nextEdge (e : EdgeId) : Change (Roster V E) (Option EdgeId) := do
  let _ ← arcOf e
  return successor? e (← get).edgeIds

def nextIncident (d : Direction) (e : EdgeId) : Change (Roster V E) (Option EdgeId) := do
  let r ← arcOf e
  return successor? e ((← get).incident d (r.endpoint d))

def vertexOf (i : Nat) : Change (Roster V E) VertexId := fun m =>
  match m.vertices.record? i with
  | some p => .ok ⟨p.1⟩ m
  | none => .error (.deadVertexDescriptor i) m

def edgeOf (i : Nat) : Change (Roster V E) EdgeId := fun m =>
  match m.edges.record? i with
  | some p => .ok ⟨p.1⟩ m
  | none => .error (.deadEdgeDescriptor i) m

def insertVertex (x : V) : Change (Roster V E) VertexId := fun m =>
  .ok ⟨m.vertices.fresh⟩ { m with vertices := m.vertices.insert x }

def insertEdge (source target : VertexId) (x : E) : Change (Roster V E) EdgeId := do
  requireVertex source
  requireVertex target
  fun m => .ok ⟨m.edges.fresh⟩ { m with edges := m.edges.insert ⟨x, source, target⟩ }

def updateVertex? (v : VertexId) (f : V → V) : Change (Roster V E) (Option V) := fun m =>
  .ok (m.vertices.get? v.slot) { m with vertices := m.vertices.update v.slot f }

def updateVertex (v : VertexId) (f : V → V) : Change (Roster V E) V := do
  match ← updateVertex? v f with
  | some old => return old
  | none => throw (.deadVertex v)

def updateEdge? (e : EdgeId) (f : E → E) : Change (Roster V E) (Option E) := fun m =>
  .ok ((m.edges.get? e.slot).map Arc.payload)
    { m with edges := m.edges.update e.slot (Arc.withPayload f) }

def updateEdge (e : EdgeId) (f : E → E) : Change (Roster V E) E := do
  match ← updateEdge? e f with
  | some old => return old
  | none => throw (.deadEdge e)

def removeEdge (e : EdgeId) : Change (Roster V E) E := do
  let r ← arcOf e
  modify fun m => m.dropEdge e
  return r.payload

def eraseEdge (e : EdgeId) : Change (Roster V E) (Option EdgeId) := do
  let next ← nextEdge e
  let _ ← removeEdge e
  return next

def eraseIncident (d : Direction) (e : EdgeId) : Change (Roster V E) (Option EdgeId) := do
  let next ← nextIncident d e
  let _ ← removeEdge e
  return next

def emptyCircle (v : VertexId) (d : Direction) : Change (Roster V E) Nat := fun m =>
  .ok (m.incident d v).length (m.dropIncident d v)

def clearIncident (d : Direction) (v : VertexId) : Change (Roster V E) Unit := do
  requireVertex v
  let _ ← emptyCircle v d

def clearVertexEdges (v : VertexId) : Change (Roster V E) Unit := do
  requireVertex v
  let _ ← emptyCircle v .outgoing
  let _ ← emptyCircle v .incoming

def clearEdges : Change (Roster V E) Nat := fun m =>
  .ok m.edges.live.length (m.dropEdges m.edgeIds)

def removeVertex (v : VertexId) : Change (Roster V E) (Removal V) := do
  requireVertex v
  let leaving ← emptyCircle v .outgoing
  let entering ← emptyCircle v .incoming
  fun m =>
    match m.vertices.get? v.slot with
    | some x => .ok ⟨x, leaving + entering⟩ (m.dropVertex v)
    | none => .error (.deadVertex v) m

def eraseVertex (v : VertexId) : Change (Roster V E) Erasure := do
  let next ← nextVertex v
  let removal ← removeVertex v
  return ⟨next, removal.cascaded⟩

/-- The edges that a predicate with a state picks from a list, and the state at the end. -/
def sift (p : σ → Nat → Bool × σ) : List EdgeId → σ → List EdgeId × σ
  | [], s => ([], s)
  | e :: es, s =>
    let (hit, s) := p s e.index
    let (hits, s) := sift p es s
    (if hit then e :: hits else hits, s)

def removeEdgesIf (p : σ → Nat → Bool × σ) (s : σ) : Change (Roster V E) σ := fun m =>
  let (hits, s) := sift p m.edgeIds s
  .ok s (m.dropEdges hits)

def removeIncidentIf (d : Direction) (i : Nat) (p : σ → Nat → Bool × σ) (s : σ) :
    Change (Roster V E) σ := do
  let v ← vertexOf i
  fun m =>
    let (hits, s) := sift p (m.incident d v) s
    .ok s (m.dropEdges hits)

end Roster

end SlotGraph

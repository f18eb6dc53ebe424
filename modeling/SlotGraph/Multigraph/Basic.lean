import SlotGraph.Table.Entries
import SlotGraph.Incidence.Splice
set_option autoImplicit false

/-!
Directed multigraphs. Vertices and edges live in a table each; a vertex record holds the heads of
its two circles and its two degrees, an edge record its ends and its two links. Here are the
records, the look-ups and the reading of counts, payloads, ends and degrees.
-/

namespace SlotGraph

structure VertexRecord (V : Type) where
  payload : V
  heads : PerDirection Link
  degree : PerDirection Nat
  deriving DecidableEq, Repr

instance {V : Type} [Footprint V] : Footprint (VertexRecord V) :=
  ⟨Footprint.bytes V + Footprint.bytes (PerDirection Link) + Footprint.bytes (PerDirection Nat)⟩

def VertexRecord.isolated {V : Type} (x : V) (index : Nat) : VertexRecord V :=
  ⟨x, .both (.around (.head index)), .both 0⟩

structure EdgeRecord (E : Type) where
  payload : E
  source : VertexId
  target : VertexId
  links : PerDirection Link
  deriving DecidableEq, Repr

instance {E : Type} [Footprint E] : Footprint (EdgeRecord E) :=
  ⟨Footprint.bytes E + 2 * Footprint.bytes VertexId + Footprint.bytes (PerDirection Link)⟩

def EdgeRecord.unlinked {E : Type} (x : E) (source target : VertexId) (index : Nat) :
    EdgeRecord E :=
  ⟨x, source, target, .both (.around (.edge index))⟩

structure Multigraph (V E : Type) where
  vertices : Table (VertexRecord V) := {}
  edges : Table (EdgeRecord E) := {}
  deriving DecidableEq, Repr

namespace Multigraph

variable {V E α : Type}

def empty : Multigraph V E := {}

def withRoom [Footprint V] [Footprint E] (v e : Nat) : Except Fault (Multigraph V E) := do
  return ⟨← Table.withRoom v, ← Table.withRoom e⟩

def vertexCount (g : Multigraph V E) : Nat := g.vertices.size

def edgeCount (g : Multigraph V E) : Nat := g.edges.size

def isEmpty (g : Multigraph V E) : Bool := g.vertices.isEmpty

def vertexCapacity (g : Multigraph V E) : Nat := g.vertices.capacity

def edgeCapacity (g : Multigraph V E) : Nat := g.edges.capacity

def containsVertex (g : Multigraph V E) (v : VertexId) : Bool := g.vertices.contains v.slot

def containsEdge (g : Multigraph V E) (e : EdgeId) : Bool := g.edges.contains e.slot

def vertex? (g : Multigraph V E) (v : VertexId) : Option V :=
  (g.vertices.get? v.slot).map VertexRecord.payload

def edge? (g : Multigraph V E) (e : EdgeId) : Option E :=
  (g.edges.get? e.slot).map EdgeRecord.payload

/-- The handle of the vertex that now lives in a slot. -/
def vertexId? (g : Multigraph V E) (i : Nat) : Option VertexId := (g.vertices.find? i).map .mk

def edgeId? (g : Multigraph V E) (i : Nat) : Option EdgeId := (g.edges.find? i).map .mk

def checkVertex (g : Multigraph V E) (v : VertexId) : Except Fault Unit :=
  if g.containsVertex v then .ok () else .error (.deadVertex v)

def checkEdge (g : Multigraph V E) (e : EdgeId) : Except Fault Unit :=
  if g.containsEdge e then .ok () else .error (.deadEdge e)

def vertexRecord (g : Multigraph V E) (v : VertexId) : Except Fault (VertexRecord V) :=
  match g.vertices.get? v.slot with
  | some r => .ok r
  | none => .error (.deadVertex v)

def edgeRecord (g : Multigraph V E) (e : EdgeId) : Except Fault (EdgeRecord E) :=
  match g.edges.get? e.slot with
  | some r => .ok r
  | none => .error (.deadEdge e)

def vertexRecordAt (g : Multigraph V E) (i : Nat) : Except Fault (VertexRecord V) :=
  match g.vertices.at? i with
  | some r => .ok r
  | none => .error (.corrupt (.deadVertexSlot i))

def edgeRecordAt (g : Multigraph V E) (i : Nat) : Except Fault (EdgeRecord E) :=
  match g.edges.at? i with
  | some r => .ok r
  | none => .error (.corrupt (.deadEdgeSlot i))

def edgeIdAt (g : Multigraph V E) (i : Nat) : Except Fault EdgeId :=
  match g.edgeId? i with
  | some e => .ok e
  | none => .error (.corrupt (.deadEdgeSlot i))

def vertex (g : Multigraph V E) (v : VertexId) : Except Fault V := do
  return (← g.vertexRecord v).payload

def edge (g : Multigraph V E) (e : EdgeId) : Except Fault E := do
  return (← g.edgeRecord e).payload

def source (g : Multigraph V E) (e : EdgeId) : Except Fault VertexId := do
  return (← g.edgeRecord e).source

def target (g : Multigraph V E) (e : EdgeId) : Except Fault VertexId := do
  return (← g.edgeRecord e).target

def endpoints (g : Multigraph V E) (e : EdgeId) : Except Fault (VertexId × VertexId) := do
  let r ← g.edgeRecord e
  return (r.source, r.target)

def degreeIn (g : Multigraph V E) (d : Direction) (v : VertexId) : Except Fault Nat := do
  return (← g.vertexRecord v).degree.get d

def outDegree (g : Multigraph V E) (v : VertexId) : Except Fault Nat := g.degreeIn .outgoing v

def inDegree (g : Multigraph V E) (v : VertexId) : Except Fault Nat := g.degreeIn .incoming v

/-- A loop counts twice. -/
def degree (g : Multigraph V E) (v : VertexId) : Except Fault Nat := do
  let r ← g.vertexRecord v
  return r.degree.outgoing + r.degree.incoming

def payloads (g : Multigraph V E) : List (VertexId × V) :=
  g.vertices.toList.map fun (id, r) => (⟨id⟩, r.payload)

def link? (g : Multigraph V E) (n : Node) (d : Direction) : Option Link :=
  match n with
  | .head i => (g.vertices.at? i).map fun r => r.heads.get d
  | .edge i => (g.edges.at? i).map fun r => r.links.get d

def setLink (g : Multigraph V E) (n : Node) (d : Direction) (l : Link) : Multigraph V E :=
  match n with
  | .head i =>
    { g with vertices := g.vertices.updateAt i fun r => { r with heads := r.heads.set d l } }
  | .edge i =>
    { g with edges := g.edges.updateAt i fun r => { r with links := r.links.set d l } }

def missing (_ : Multigraph V E) : Node → Fault
  | .head i => .corrupt (.deadVertexSlot i)
  | .edge i => .corrupt (.deadEdgeSlot i)

instance : LinkStore (Multigraph V E) where
  link? := link?
  setLink := setLink
  missing := missing

def onVertices (a : Change (Table (VertexRecord V)) α) : Change (Multigraph V E) α :=
  fun ⟨vertices, edges⟩ =>
    match a vertices with
    | .ok x vertices => .ok x ⟨vertices, edges⟩
    | .error e vertices => .error e ⟨vertices, edges⟩

def onEdges (a : Change (Table (EdgeRecord E)) α) : Change (Multigraph V E) α :=
  fun ⟨vertices, edges⟩ =>
    match a edges with
    | .ok x edges => .ok x ⟨vertices, edges⟩
    | .error e edges => .error e ⟨vertices, edges⟩

end Multigraph

end SlotGraph

import SlotGraph.Multigraph.Traversal
set_option autoImplicit false

/-!
Changes of a multigraph. Every operation checks all its handles before its first write. Removing a
vertex removes the edges at it; a bulk removal takes edges one at a time from the front of a list.
-/

namespace SlotGraph

structure Removal (V : Type) where
  payload : V
  cascaded : Nat
  deriving DecidableEq, Repr

structure Erasure where
  next : Option VertexId
  cascaded : Nat
  deriving DecidableEq, Repr

namespace Multigraph

variable {V E : Type}

open Change LinkStore

def insertVertex (x : V) : Change (Multigraph V E) VertexId := do
  let index := (← get).vertices.nextIndex
  let slot ← onVertices (Table.insert (VertexRecord.isolated x index))
  unless slot.index = index do corrupt (.slotMisplaced index slot.index)
  return ⟨slot⟩

def raiseDegree (i : Nat) (d : Direction) : Change (Multigraph V E) Unit := do
  let _ ← ask (vertexRecordAt · i)
  modify fun g =>
    { g with
      vertices := g.vertices.updateAt i fun r => { r with degree := r.degree.modify d (· + 1) } }

def lowerDegree (i : Nat) (d : Direction) : Change (Multigraph V E) Unit := do
  let r ← ask (vertexRecordAt · i)
  if r.degree.get d = 0 then corrupt .countBelowZero
  modify fun g =>
    { g with
      vertices := g.vertices.updateAt i fun r => { r with degree := r.degree.modify d (· - 1) } }

/-- The new edge comes last among the edges of its source and of its target. -/
def insertEdge (source target : VertexId) (x : E) : Change (Multigraph V E) EdgeId := do
  ask (checkVertex · source)
  ask (checkVertex · target)
  let index := (← get).edges.nextIndex
  let slot ← onEdges (Table.insert (EdgeRecord.unlinked x source target index))
  unless slot.index = index do corrupt (.slotMisplaced index slot.index)
  insertBefore (.edge index) (.head source.index) .outgoing
  insertBefore (.edge index) (.head target.index) .incoming
  raiseDegree source.index .outgoing
  raiseDegree target.index .incoming
  return ⟨slot⟩

def updateVertex? (v : VertexId) (f : V → V) : Change (Multigraph V E) (Option V) := do
  let old := (← get).vertex? v
  modify fun g =>
    { g with vertices := g.vertices.update v.slot fun r => { r with payload := f r.payload } }
  return old

def updateVertex (v : VertexId) (f : V → V) : Change (Multigraph V E) V := do
  match ← updateVertex? v f with
  | some old => return old
  | none => throw (.deadVertex v)

def updateEdge? (e : EdgeId) (f : E → E) : Change (Multigraph V E) (Option E) := do
  let old := (← get).edge? e
  modify fun g =>
    { g with edges := g.edges.update e.slot fun r => { r with payload := f r.payload } }
  return old

def updateEdge (e : EdgeId) (f : E → E) : Change (Multigraph V E) E := do
  match ← updateEdge? e f with
  | some old => return old
  | none => throw (.deadEdge e)

def unlinkEdge (i : Nat) : Change (Multigraph V E) Unit := do
  unlink (.edge i) .outgoing
  unlink (.edge i) .incoming
  let r ← ask (edgeRecordAt · i)
  lowerDegree r.source.index .outgoing
  lowerDegree r.target.index .incoming

def dropEdge (i : Nat) : Change (Multigraph V E) E := do
  unlinkEdge i
  match ← onEdges (Table.removeAt i) with
  | some r => return r.payload
  | none => corrupt (.edgeFreedTwice i)

def removeEdge (e : EdgeId) : Change (Multigraph V E) E := do
  ask (checkEdge · e)
  dropEdge e.index

def eraseEdge (e : EdgeId) : Change (Multigraph V E) (Option EdgeId) := do
  let next ← ask (nextEdge · e)
  let _ ← removeEdge e
  return next

/-- Erases an edge and returns the one after it in its circle of direction `d`. -/
def eraseIncident (d : Direction) (e : EdgeId) : Change (Multigraph V E) (Option EdgeId) := do
  let next ← ask (nextIncident · d e)
  let _ ← removeEdge e
  return next

/-- Detaches the first edge of a list again and again, at most `bound` times. -/
def drain (i : Nat) (d : Direction) : Nat → Change (Multigraph V E) Nat
  | 0 => return 0
  | bound + 1 => do
    match (← ask (link · (.head i) d)).next with
    | .head _ => return 0
    | .edge e =>
      let _ ← dropEdge e
      return (← drain i d bound) + 1

/-- Erases the edges in one circle of the vertex in slot `i` and returns their number. -/
def emptyCircle (i : Nat) (d : Direction) : Change (Multigraph V E) Nat := do
  let removed ← drain i d (← get).edgeCount
  unless ← ask (isSingleton · (.head i) d) do corrupt (.listNotEmptied i d)
  unless (← ask (vertexRecordAt · i)).degree.get d = 0 do corrupt (.listNotEmptied i d)
  return removed

def clearIncident (d : Direction) (v : VertexId) : Change (Multigraph V E) Unit := do
  ask (checkVertex · v)
  let _ ← emptyCircle v.index d

def clearVertexEdges (v : VertexId) : Change (Multigraph V E) Unit := do
  ask (checkVertex · v)
  let _ ← emptyCircle v.index .outgoing
  let _ ← emptyCircle v.index .incoming

/-- Detaches the edge in slot `cursor` and all after it, the step being taken before each. -/
def dropFrom : Nat → Option Nat → Change (Multigraph V E) Unit
  | _, none => return ()
  | 0, some _ => corrupt .walkOverlong
  | bound + 1, some i => do
    let next := (← get).edges.next? i
    let _ ← dropEdge i
    dropFrom bound next

/-- Erases every edge and returns their number. Slots stay, so that old handles stay dead. -/
def clearEdges : Change (Multigraph V E) Nat := do
  let removed := (← get).edgeCount
  dropFrom removed (← get).edges.head
  return removed

def removeVertex (v : VertexId) : Change (Multigraph V E) (Removal V) := do
  ask (checkVertex · v)
  let leaving ← emptyCircle v.index .outgoing
  let entering ← emptyCircle v.index .incoming
  match ← onVertices (Table.remove v.slot) with
  | some r => return ⟨r.payload, leaving + entering⟩
  | none => corrupt (.vertexVanished v)

def eraseVertex (v : VertexId) : Change (Multigraph V E) Erasure := do
  let next ← ask (nextVertex · v)
  let removal ← removeVertex v
  return ⟨next, removal.cascaded⟩

/-- Drops all records and all slots, so that handles begin anew. -/
def clear : Change (Multigraph V E) Unit := set (empty : Multigraph V E)

end Multigraph

end SlotGraph

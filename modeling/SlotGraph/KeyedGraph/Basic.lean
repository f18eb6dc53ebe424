import SlotGraph.Index.Ordered
import SlotGraph.Index.Hashed
import SlotGraph.KeyError
import SlotGraph.Multigraph.Copy
set_option autoImplicit false

/-!
Multigraphs whose vertices are unique by key. The key of a vertex is computed from its payload;
every operation that makes or removes a vertex keeps the index in step with the graph.
-/

namespace SlotGraph

structure KeyedGraph (V E K I : Type) where
  graph : Multigraph V E
  index : I
  keyOf : V → K

/-- What the erasure of an edge with its bare endpoints gives back: the vertices that went, each
with the edges that went with it. -/
structure EdgeErasure where
  next : Option EdgeId
  collected : List (VertexId × Nat)
  deriving DecidableEq, Repr

namespace KeyedGraph

variable {V E K I α : Type} [KeyIndex I K]

open Change

/-- An empty graph over an index, which is emptied first. -/
def withIndex (keyOf : V → K) (index : I) : KeyedGraph V E K I :=
  ⟨.empty, KeyIndex.clear index, keyOf⟩

def enterAll (keyOf : V → K) : List (VertexId × V) → I → Except (KeyError K) I
  | [], index => .ok index
  | (v, x) :: rest, index =>
    match KeyIndex.vertex? index (keyOf x) with
    | some _ => .error (.taken (keyOf x))
    | none => enterAll keyOf rest (KeyIndex.insert index (keyOf x) v)

/-- Puts an index, which is emptied first, over a graph. -/
def ofGraphWith (keyOf : V → K) (index : I) (graph : Multigraph V E) :
    Except (KeyError K) (KeyedGraph V E K I) := do
  return ⟨graph, ← enterAll keyOf graph.payloads (KeyIndex.clear index), keyOf⟩

def ofGraph (keyOf : V → K) (graph : Multigraph V E) : Except (KeyError K) (KeyedGraph V E K I) :=
  ofGraphWith keyOf KeyIndex.empty graph

def find? (k : KeyedGraph V E K I) (key : K) : Option VertexId := KeyIndex.vertex? k.index key

def findValue? (k : KeyedGraph V E K I) (x : V) : Option VertexId := k.find? (k.keyOf x)

def keyOf? (k : KeyedGraph V E K I) (v : VertexId) : Option K := KeyIndex.key? k.index v

def onGraph (a : Change (Multigraph V E) α) : Change (KeyedGraph V E K I) α :=
  fun ⟨graph, index, keyOf⟩ =>
    match a graph with
    | .ok x graph => .ok x ⟨graph, index, keyOf⟩
    | .error e graph => .error e ⟨graph, index, keyOf⟩

/-- Inserts a vertex under a key that is known to be free. -/
def enter (key : K) (x : V) : Change (KeyedGraph V E K I) VertexId := do
  let v ← onGraph (Multigraph.insertVertex x)
  modify fun k => { k with index := KeyIndex.insert k.index key v }
  return v

def insertVertex (x : V) : Change (KeyedGraph V E K I) (Except (KeyError K) VertexId) := do
  let key := (← get).keyOf x
  match (← get).find? key with
  | some _ => return .error (.taken key)
  | none => return .ok (← enter key x)

def findOrInsert (x : V) : Change (KeyedGraph V E K I) VertexId := do
  let key := (← get).keyOf x
  match (← get).find? key with
  | some v => return v
  | none => enter key x

def forget (v : VertexId) : Change (KeyedGraph V E K I) Unit :=
  modify fun k => { k with index := (KeyIndex.eraseVertex k.index v).2 }

def removeVertex (v : VertexId) : Change (KeyedGraph V E K I) (Removal V) := do
  let removal ← onGraph (Multigraph.removeVertex v)
  forget v
  return removal

def eraseVertex (v : VertexId) : Change (KeyedGraph V E K I) Erasure := do
  let erasure ← onGraph (Multigraph.eraseVertex v)
  forget v
  return erasure

/-- Changes a payload in place and stops if its key is then not the one on record. The changed
payload stays. -/
def modifyVertex [DecidableEq K] (v : VertexId) (f : V → α × V) :
    Change (KeyedGraph V E K I) α := do
  let (out, x) := f (← ask (·.graph.vertex v))
  let _ ← onGraph (Multigraph.updateVertex v fun _ => x)
  let key := (← get).keyOf (← ask (·.graph.vertex v))
  unless (← get).keyOf? v = some key do throw (.keyChanged v)
  return out

def insertEdge (source target : VertexId) (x : E) : Change (KeyedGraph V E K I) EdgeId :=
  onGraph (Multigraph.insertEdge source target x)

/-- Inserts an edge between the vertices of two keys, which are made where there are none. -/
def connect (source target : V) (x : E) : Change (KeyedGraph V E K I) EdgeId := do
  let source ← findOrInsert source
  let target ← findOrInsert target
  insertEdge source target x

def removeIfBare (v : VertexId) : Change (KeyedGraph V E K I) (List (VertexId × Nat)) := do
  if (← ask (·.graph.degree v)) = 0 then return [(v, (← removeVertex v).cascaded)]
  else return []

/-- Erases an edge and then each of its endpoints that is left without edges. -/
def eraseEdgeAndBareEnds (e : EdgeId) : Change (KeyedGraph V E K I) EdgeErasure := do
  let (source, target) ← ask (·.graph.endpoints e)
  let next ← onGraph (Multigraph.eraseEdge e)
  let first ← removeIfBare source
  let second ← if target = source then pure [] else removeIfBare target
  return ⟨next, first ++ second⟩

def clear : Change (KeyedGraph V E K I) Unit := do
  onGraph Multigraph.clear
  modify fun k => { k with index := KeyIndex.clear k.index }

/-- A copy of the graph under a new index, since the handles of the copy are new. -/
def mapWith {V' E' K' I' σ : Type} [KeyIndex I' K'] (k : KeyedGraph V E K I)
    (f : σ → V → V' × σ) (h : σ → E → E' × σ) (s : σ) (keyOf : V' → K') :
    Except Fault (Except (KeyError K') (KeyedGraph V' E' K' I')) := do
  let (graph, _) ← k.graph.mapAccum f h s
  return ofGraph keyOf graph

end KeyedGraph

end SlotGraph

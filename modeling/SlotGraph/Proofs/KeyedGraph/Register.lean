import SlotGraph.KeyedGraph.Edit
import SlotGraph.Proofs.Multigraph.History
set_option autoImplicit false

/-!
What a keyed graph holds, without its links and its index. A register is a roster and the keys on
record for its vertices, in the order of insertion; a key is looked up by a search of that list.
-/

namespace SlotGraph

structure Register (V E K : Type) where
  roster : Roster V E := {}
  keys : List (VertexId × K) := []

namespace Register

variable {V E K α : Type}

def holder? [DecidableEq K] (p : Register V E K) (key : K) : Option VertexId :=
  (p.keys.find? fun q => q.2 == key).map Prod.fst

def recorded? (p : Register V E K) (v : VertexId) : Option K :=
  (p.keys.find? fun q => q.1 == v).map Prod.snd

def onRoster (b : Change (Roster V E) α) : Change (Register V E K) α := fun p =>
  match b p.roster with
  | .ok x m => .ok x { p with roster := m }
  | .error f m => .error f { p with roster := m }

theorem onRoster_ok {b : Change (Roster V E) α} {p : Register V E K} {x : α} {m : Roster V E}
    (h : b p.roster = .ok x m) : onRoster b p = .ok x { p with roster := m } := by
  simp [onRoster, h]

theorem onRoster_error {b : Change (Roster V E) α} {p : Register V E K} {f : Fault}
    {m : Roster V E} (h : b p.roster = .error f m) :
    onRoster b p = .error f { p with roster := m } := by
  simp [onRoster, h]

def enter (key : K) (x : V) : Change (Register V E K) VertexId := do
  let v ← onRoster (Roster.insertVertex x)
  modify fun p => { p with keys := p.keys ++ [(v, key)] }
  return v

def insertVertex [DecidableEq K] (keyOf : V → K) (x : V) :
    Change (Register V E K) (Except (KeyError K) VertexId) := do
  match (← get).holder? (keyOf x) with
  | some _ => return .error (.taken (keyOf x))
  | none => return .ok (← enter (keyOf x) x)

def findOrInsert [DecidableEq K] (keyOf : V → K) (x : V) : Change (Register V E K) VertexId := do
  match (← get).holder? (keyOf x) with
  | some v => return v
  | none => enter (keyOf x) x

def forget (v : VertexId) : Change (Register V E K) Unit :=
  modify fun p => { p with keys := p.keys.filter fun q => q.1 != v }

def removeVertex (v : VertexId) : Change (Register V E K) (Removal V) := do
  let removal ← onRoster (Roster.removeVertex v)
  forget v
  return removal

def eraseVertex (v : VertexId) : Change (Register V E K) Erasure := do
  let erasure ← onRoster (Roster.eraseVertex v)
  forget v
  return erasure

def payload (v : VertexId) : Change (Register V E K) V := fun p =>
  match p.roster.vertices.get? v.slot with
  | some x => .ok x p
  | none => .error (.deadVertex v) p

def modifyVertex [DecidableEq K] (keyOf : V → K) (v : VertexId) (f : V → α × V) :
    Change (Register V E K) α := do
  let (out, x) := f (← payload v)
  let _ ← onRoster (Roster.updateVertex v fun _ => x)
  let key := keyOf (← payload v)
  unless (← get).recorded? v = some key do throw (.keyChanged v)
  return out

def insertEdge (source target : VertexId) (x : E) : Change (Register V E K) EdgeId :=
  onRoster (Roster.insertEdge source target x)

def connect [DecidableEq K] (keyOf : V → K) (source target : V) (x : E) :
    Change (Register V E K) EdgeId := do
  let source ← findOrInsert keyOf source
  let target ← findOrInsert keyOf target
  insertEdge source target x

def degree (v : VertexId) : Change (Register V E K) Nat := do
  onRoster (Roster.requireVertex v)
  let m := (← get).roster
  return (m.incident .outgoing v).length + (m.incident .incoming v).length

def removeIfBare (v : VertexId) : Change (Register V E K) (List (VertexId × Nat)) := do
  if (← degree v) = 0 then return [(v, (← removeVertex v).cascaded)]
  else return []

def endpoints (e : EdgeId) : Change (Register V E K) (VertexId × VertexId) := do
  let r ← onRoster (Roster.arcOf e)
  return (r.source, r.target)

def eraseEdgeAndBareEnds (e : EdgeId) : Change (Register V E K) EdgeErasure := do
  let (source, target) ← endpoints e
  let next ← onRoster (Roster.eraseEdge e)
  let first ← removeIfBare source
  let second ← if target = source then pure [] else removeIfBare target
  return ⟨next, first ++ second⟩

def clear : Change (Register V E K) Unit := set ({} : Register V E K)

open KeyedGraph (Edit Outcome)

def plain (edit : Multigraph.Edit V E) : Change (Register V E K) (Outcome V E K) := do
  let (answer, events) ← onRoster (Roster.apply edit)
  return (.ok answer, events)

def refusal [DecidableEq K] (p : Register V E K) (e : KeyError K) : List Event :=
  (p.holder? e.key).toList.map fun v => .refusedKey v.index

def apply [DecidableEq K] (keyOf : V → K) : Edit V E → Change (Register V E K) (Outcome V E K)
  | .insertVertex x => do
    match ← insertVertex keyOf x with
    | .ok v => return (.ok (.vertex v), [])
    | .error e => return (.error e, refusal (← get) e)
  | .findOrInsert x => do return (.ok (.vertex (← findOrInsert keyOf x)), [])
  | .eraseVertex v => do
    let erasure ← eraseVertex v
    return (.ok (.nextVertex erasure.next), [.erasingVertex v.index erasure.cascaded])
  | .removeVertex v => do
    let removal ← removeVertex v
    return (.ok (.vertexPayload (some removal.payload)),
      [.erasingVertex v.index removal.cascaded])
  | .modifyVertex v f => do
    return (.ok (.vertexPayload (some (← modifyVertex keyOf v fun x => (x, f x)))), [])
  | .insertEdge source target x => plain (.insertEdge source target x)
  | .connect source target x => do return (.ok (.edge (← connect keyOf source target x)), [])
  | .eraseEdge e => plain (.eraseEdge e)
  | .removeEdge e => plain (.removeEdge e)
  | .eraseEdgeAndBareEnds e => do
    let erasure ← eraseEdgeAndBareEnds e
    return (.ok (.nextEdge erasure.next),
      erasure.collected.map fun (v, n) => .erasingVertex v.index n)
  | .updateEdge e f => plain (.updateEdge e f)
  | .clearIncident d v => plain (.clearIncident d v)
  | .clearVertexEdges v => plain (.clearVertexEdges v)
  | .clearEdges => plain .clearEdges
  | .clear => do
    let m := (← get).roster
    clear
    return (.ok .done, [.clearingGraph m.vertexIds.length m.edgeIds.length])

end Register

end SlotGraph

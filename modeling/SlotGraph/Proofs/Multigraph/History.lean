import SlotGraph.Proofs.Multigraph.Sweep
set_option autoImplicit false

namespace SlotGraph

namespace Roster

variable {V E : Type}

open Multigraph (Edit Answer)

def apply : Edit V E → Change (Roster V E) (Answer V E × List Event)
  | .insertVertex x => do return (.vertex (← insertVertex x), [])
  | .eraseVertex v => do
    let erasure ← eraseVertex v
    return (.nextVertex erasure.next, [.erasingVertex v.index erasure.cascaded])
  | .removeVertex v => do
    let removal ← removeVertex v
    return (.vertexPayload (some removal.payload), [.erasingVertex v.index removal.cascaded])
  | .updateVertex? v f => do return (.vertexPayload (← updateVertex? v f), [])
  | .updateVertex v f => do return (.vertexPayload (some (← updateVertex v f)), [])
  | .insertEdge source target x => do return (.edge (← insertEdge source target x), [])
  | .eraseEdge e => do return (.nextEdge (← eraseEdge e), [])
  | .eraseIncident d e => do return (.nextEdge (← eraseIncident d e), [])
  | .removeEdge e => do return (.edgePayload (some (← removeEdge e)), [])
  | .updateEdge? e f => do return (.edgePayload (← updateEdge? e f), [])
  | .updateEdge e f => do return (.edgePayload (some (← updateEdge e f)), [])
  | .clearIncident d v => do clearIncident d v; return (.done, [])
  | .clearVertexEdges v => do clearVertexEdges v; return (.done, [])
  | .clearEdges => do return (.done, [.clearedEdges (← clearEdges)])
  | .clear => do
    let vertices := (← get).vertexIds.length
    let edges := (← get).edgeIds.length
    set ({} : Roster V E)
    return (.done, [.clearingGraph vertices edges])
  | .addVertexAt x => do return (.descriptor (← insertVertex x).index, [])
  | .removeVertexAt i => do
    let removal ← removeVertex (← vertexOf i)
    return (.done, [.erasingVertex i removal.cascaded])
  | .clearVertexAt i => do clearVertexEdges (← vertexOf i); return (.done, [])
  | .addEdgeAt source target x => do
    let source ← vertexOf source
    let target ← vertexOf target
    return (.added (← insertEdge source target x).index true, [])
  | .removeEdgeAt i => do let _ ← removeEdge (← edgeOf i); return (.done, [])
  | .removeEdgesIf p => do
    return (.asked (← removeEdgesIf (Edit.remember p) []).reverse, [])
  | .removeIncidentIf d i p => do
    return (.asked (← removeIncidentIf d i (Edit.remember p) []).reverse, [])

end Roster

namespace Multigraph

variable {V E : Type} {g : Multigraph V E} {m : Roster V E}

theorem tally_clear (h : Represents g m) :
    Tally Represents ((Edit.clear : Edit V E).apply g) (Roster.apply .clear m) := by
  refine .of_ok (x := (.done, [.clearingGraph m.vertexIds.length m.edgeIds.length])) ?_ rfl
    represents_empty
  rw [← h.holds.vertexCount_eq, ← h.holds.edgeCount_eq]
  rfl

theorem tally_apply (h : Represents g m) (edit : Edit V E) :
    Tally Represents (edit.apply g) (Roster.apply edit m) := by
  cases edit with
  | insertVertex x => exact (tally_insertVertex h x).bind fun _ _ _ _ h' => .ok _ h'
  | eraseVertex v => exact (tally_eraseVertex h v).bind fun _ _ _ _ h' => .ok _ h'
  | removeVertex v => exact (tally_removeVertex h v).bind fun _ _ _ _ h' => .ok _ h'
  | updateVertex? v f => exact (tally_updateVertex? h v f).bind fun _ _ _ _ h' => .ok _ h'
  | updateVertex v f => exact (tally_updateVertex h v f).bind fun _ _ _ _ h' => .ok _ h'
  | insertEdge s t x => exact (tally_insertEdge h s t x).bind fun _ _ _ _ h' => .ok _ h'
  | eraseEdge e => exact (tally_eraseEdge h e).bind fun _ _ _ _ h' => .ok _ h'
  | eraseIncident d e => exact (tally_eraseIncident h d e).bind fun _ _ _ _ h' => .ok _ h'
  | removeEdge e => exact (tally_removeEdge h e).bind fun _ _ _ _ h' => .ok _ h'
  | updateEdge? e f => exact (tally_updateEdge? h e f).bind fun _ _ _ _ h' => .ok _ h'
  | updateEdge e f => exact (tally_updateEdge h e f).bind fun _ _ _ _ h' => .ok _ h'
  | clearIncident d v => exact (tally_clearIncident h d v).bind fun _ _ _ _ h' => .ok _ h'
  | clearVertexEdges v => exact (tally_clearVertexEdges h v).bind fun _ _ _ _ h' => .ok _ h'
  | clearEdges => exact (tally_clearEdges h).bind fun _ _ _ _ h' => .ok _ h'
  | clear => exact tally_clear h
  | addVertexAt x =>
    simp only [Edit.apply, Descriptor.addVertex, bind_assoc, pure_bind]
    exact (tally_insertVertex h x).bind fun _ _ _ _ h' => .ok _ h'
  | removeVertexAt i =>
    simp only [Edit.apply, Descriptor.removeVertex, bind_assoc]
    exact (tally_vertexOf h i).bind fun v _ _ _ h₁ =>
      (tally_removeVertex h₁ v).bind fun _ _ _ _ h₂ => .ok _ h₂
  | clearVertexAt i =>
    simp only [Edit.apply, Descriptor.clearVertex, bind_assoc]
    exact (tally_vertexOf h i).bind fun v _ _ _ h₁ =>
      (tally_clearVertexEdges h₁ v).bind fun _ _ _ _ h₂ => .ok _ h₂
  | addEdgeAt s t x =>
    simp only [Edit.apply, Descriptor.addEdge, bind_assoc, pure_bind]
    exact (tally_vertexOf h s).bind fun source _ _ _ h₁ =>
      (tally_vertexOf h₁ t).bind fun target _ _ _ h₂ =>
        (tally_insertEdge h₂ source target x).bind fun _ _ _ _ h₃ => .ok _ h₃
  | removeEdgeAt i =>
    simp only [Edit.apply, Descriptor.removeEdge, bind_assoc, pure_bind]
    exact (tally_edgeOf h i).bind fun e _ _ _ h₁ =>
      (tally_removeEdge h₁ e).bind fun _ _ _ _ h₂ => .ok _ h₂
  | removeEdgesIf p =>
    exact (tally_removeEdgesIf h (Edit.remember p) []).bind fun _ _ _ _ h' => .ok _ h'
  | removeIncidentIf d i p =>
    exact (tally_removeIncidentIf h d i (Edit.remember p) []).bind fun _ _ _ _ h' => .ok _ h'

end Multigraph

end SlotGraph

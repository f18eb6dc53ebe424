import SlotGraph.Multigraph.Report
import SlotGraph.Proofs.Multigraph.Handshake
set_option autoImplicit false

namespace SlotGraph

def VertexReport.without {V : Type} (e : EdgeId) (r : VertexReport V) : VertexReport V :=
  let outEdges := r.outEdges.filter (· != e)
  let inEdges := r.inEdges.filter (· != e)
  { r with
    outEdges, inEdges
    outDegree := outEdges.length
    inDegree := inEdges.length
    degree := outEdges.length + inEdges.length }

namespace Roster

variable {V E : Type} {m m' : Roster V E}

def vertexReport (m : Roster V E) (q : SlotId × V) : VertexReport V where
  id := ⟨q.1⟩
  payload := q.2
  outEdges := m.incident .outgoing ⟨q.1⟩
  inEdges := m.incident .incoming ⟨q.1⟩
  outDegree := (m.incident .outgoing ⟨q.1⟩).length
  inDegree := (m.incident .incoming ⟨q.1⟩).length
  degree := (m.incident .outgoing ⟨q.1⟩).length + (m.incident .incoming ⟨q.1⟩).length

def edgeReport (q : SlotId × Arc E) : EdgeReport E :=
  ⟨⟨q.1⟩, q.2.payload, q.2.source, q.2.target⟩

def vertexReports (m : Roster V E) : List (VertexReport V) := m.vertices.live.map m.vertexReport

def edgeReports (m : Roster V E) : List (EdgeReport E) := m.edges.live.map edgeReport

theorem vertexReport_congr (h : m'.edges.live = m.edges.live) :
    m'.vertexReport = m.vertexReport := by
  funext q
  simp only [vertexReport, incident, h]

theorem vertexReport_dropEdge (m : Roster V E) (e : EdgeId) (q : SlotId × V) :
    (m.dropEdge e).vertexReport q = (m.vertexReport q).without e := by
  simp only [vertexReport, VertexReport.without, incident_dropEdge]

end Roster

namespace Multigraph

variable {V E : Type} {g : Multigraph V E} {m : Roster V E}

theorem Represents.vertexReport_ok (h : Represents g m) {q : SlotId × V}
    (hq : q ∈ m.vertices.live) : g.vertexReport ⟨q.1⟩ = .ok (m.vertexReport q) := by
  have hv : VertexId.mk q.1 ∈ m.vertexIds := Roster.mem_vertexIds.mpr ⟨q.2, hq⟩
  obtain ⟨r, hr, -, hpayload⟩ := h.holds.vertexRecord_ok (v := ⟨q.1⟩) hq
  have hvertex : g.vertex ⟨q.1⟩ = .ok q.2 := by
    rw [vertex, hr, ← hpayload]
    rfl
  obtain ⟨out, hout, houtGives⟩ := h.incidentEdges_ok hv .outgoing
  obtain ⟨into, hinto, hintoGives⟩ := h.incidentEdges_ok hv .incoming
  simp only [Multigraph.vertexReport, Roster.vertexReport, hvertex, outEdges, hout, inEdges, hinto,
    outDegree, inDegree, h.degreeIn_eq hv, h.degree_eq hv, ← houtGives.toList_eq,
    ← hintoGives.toList_eq]
  rfl

theorem Holds.edgeReport_ok (h : Holds g m) {q : SlotId × Arc E} (hq : q ∈ m.edges.live) :
    g.edgeReport ⟨q.1⟩ = .ok (Roster.edgeReport q) := by
  obtain ⟨r, hr, -, harc⟩ := h.edgeRecord_ok (e := ⟨q.1⟩) hq
  have hedge : g.edge ⟨q.1⟩ = .ok q.2.payload := by
    rw [edge, hr, ← harc]
    rfl
  rw [Multigraph.edgeReport, h.endpoints_eq (e := ⟨q.1⟩) hq, hedge]
  rfl

theorem Represents.vertexReports_ok (h : Represents g m) :
    g.vertexReports = .ok m.vertexReports := by
  rw [vertexReports, h.holds.vertexIds_gives.toList_eq, Roster.vertexIds, List.mapM_map]
  exact mapM_ok_of_forall fun q hq => h.vertexReport_ok hq

theorem Holds.edgeReports_ok (h : Holds g m) : g.edgeReports = .ok m.edgeReports := by
  rw [edgeReports, h.edgeIds_gives.toList_eq, Roster.edgeIds, List.mapM_map]
  exact mapM_ok_of_forall fun q hq => h.edgeReport_ok hq

end Multigraph

end SlotGraph

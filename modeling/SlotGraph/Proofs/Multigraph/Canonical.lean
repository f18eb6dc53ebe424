import SlotGraph.Proofs.Multigraph.Lookup
import SlotGraph.Proofs.Table.Canonical
set_option autoImplicit false

/-!
Multigraphs told by their rosters. A roster settles every link and every count, so two multigraphs
that stand for one roster are one multigraph; what has been done to get there leaves no trace.
-/

namespace SlotGraph

theorem PerDirection.eq_of_get {α : Type} {p q : PerDirection α} (h : ∀ d, p.get d = q.get d) :
    p = q := by
  have hout : p.outgoing = q.outgoing := h .outgoing
  have hin : p.incoming = q.incoming := h .incoming
  show PerDirection.mk p.outgoing p.incoming = q
  rw [hout, hin]

structure Roster.SameLive {V E : Type} (m m' : Roster V E) : Prop where
  vertices : m'.vertices.live = m.vertices.live
  edges : m'.edges.live = m.edges.live

namespace Roster

variable {V E : Type} {m m' : Roster V E}

theorem SameLive.vertexIds (h : m.SameLive m') : m'.vertexIds = m.vertexIds := by
  rw [Roster.vertexIds, h.vertices]
  rfl

theorem SameLive.incident (h : m.SameLive m') : m'.incident = m.incident := by
  funext d v
  simp only [Roster.incident, h.edges]

end Roster

namespace Multigraph

variable {V E : Type} {g g' : Multigraph V E} {m m' : Roster V E}

theorem Represents.link?_head (h : Represents g m) (h' : Represents g' m') (hm : m.SameLive m')
    {v : VertexId} (hv : v ∈ m.vertexIds) (d : Direction) :
    g'.link? (.head v.index) d = g.link? (.head v.index) d := by
  have hring' := h'.circled d v (hm.vertexIds ▸ hv)
  rw [hm.incident] at hring'
  exact (LinkStore.link?_of_sentinel hring').trans
    (LinkStore.link?_of_sentinel (h.circled d v hv)).symm

theorem Represents.link?_edge (h : Represents g m) (h' : Represents g' m') (hm : m.SameLive m')
    {e : EdgeId} (he : e ∈ m.edgeIds) (d : Direction) :
    g'.link? (.edge e.index) d = g.link? (.edge e.index) d := by
  obtain ⟨r, hr⟩ := Roster.mem_edgeIds.mp he
  have hend := h.ends _ hr d
  have hmem : e ∈ m.incident d (r.endpoint d) := Roster.mem_incident.mpr ⟨r, hr, rfl⟩
  obtain ⟨es, fs, hsplit⟩ := List.append_of_mem hmem
  have hring := h.circled d _ hend
  have hring' := h'.circled d _ (hm.vertexIds ▸ hend)
  rw [hm.incident] at hring'
  rw [hsplit, nodes_append, nodes_cons] at hring hring'
  exact (LinkStore.link?_of_member hring').trans (LinkStore.link?_of_member hring).symm

theorem Represents.vertices_at? (h : Represents g m) (h' : Represents g' m') (hm : m.SameLive m')
    {v : VertexId} (hv : v ∈ m.vertexIds) :
    g'.vertices.at? v.index = g.vertices.at? v.index := by
  obtain ⟨x, hx⟩ := Roster.mem_vertexIds.mp hv
  obtain ⟨r, -, hat, hpayload⟩ := h.holds.vertexRecord_ok hx
  obtain ⟨r', -, hat', hpayload'⟩ := h'.holds.vertexRecord_ok (hm.vertices ▸ hx)
  have hheads : r'.heads = r.heads := PerDirection.eq_of_get fun d => by
    simpa [link?, hat, hat'] using h.link?_head h' hm hv d
  have hdegree : r'.degree = r.degree := PerDirection.eq_of_get fun d => by
    have hcount := h'.counts v (hm.vertexIds ▸ hv) d
    rw [hm.incident, ← h.counts v hv d] at hcount
    simpa [count?, hat, hat'] using hcount
  have hrecord : r' = r := by
    show VertexRecord.mk r'.payload r'.heads r'.degree = r
    rw [hpayload', ← hpayload, hheads, hdegree]
  rw [hat, hat', hrecord]

theorem Represents.edges_at? (h : Represents g m) (h' : Represents g' m') (hm : m.SameLive m')
    {e : EdgeId} (he : e ∈ m.edgeIds) : g'.edges.at? e.index = g.edges.at? e.index := by
  obtain ⟨a, ha⟩ := Roster.mem_edgeIds.mp he
  obtain ⟨r, -, hat, harc⟩ := h.holds.edgeRecord_ok ha
  obtain ⟨r', -, hat', harc'⟩ := h'.holds.edgeRecord_ok (hm.edges ▸ ha)
  have hlinks : r'.links = r.links := PerDirection.eq_of_get fun d => by
    simpa [link?, hat, hat'] using h.link?_edge h' hm he d
  have hrecord : r' = r := by
    obtain ⟨hpayload, hsource, htarget⟩ := Arc.mk.inj (harc'.trans harc.symm)
    show EdgeRecord.mk r'.payload r'.source r'.target r'.links = r
    rw [hpayload, hsource, htarget, hlinks]
  rw [hat, hat', hrecord]

theorem Represents.unique (h : Represents g m) (h' : Represents g' m) : g' = g := by
  have hm : m.SameLive m := ⟨rfl, rfl⟩
  have hvertices : g'.vertices = g.vertices :=
    h.holds.vertices.unique h'.holds.vertices fun p hp =>
      h.vertices_at? h' hm (v := ⟨p.1⟩) (Roster.mem_vertexIds.mpr ⟨p.2, hp⟩)
  have hedges : g'.edges = g.edges :=
    h.holds.edges.unique h'.holds.edges fun p hp =>
      h.edges_at? h' hm (e := ⟨p.1⟩) (Roster.mem_edgeIds.mpr ⟨p.2, hp⟩)
  show Multigraph.mk g'.vertices g'.edges = g
  rw [hvertices, hedges]

end Multigraph

end SlotGraph

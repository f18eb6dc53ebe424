import SlotGraph.Proofs.Multigraph.ConditionalRemoval
set_option autoImplicit false

namespace SlotGraph

namespace Multigraph

variable {V E : Type}

open Descriptor (consult picked)

/-- The edge leaves the vertex, or enters it, as the direction says. -/
def HasEnd (g : Multigraph V E) (e : EdgeId) (d : Direction) (v : VertexId) : Prop :=
  ∃ source target, g.endpoints e = .ok (source, target) ∧ PerDirection.get ⟨source, target⟩ d = v

namespace Edit

/-- The edit, once it has gone through, has taken the vertex. -/
def TakesVertex (g : Multigraph V E) (v : VertexId) : Edit V E → Prop
  | .eraseVertex w | .removeVertex w => v = w
  | .removeVertexAt i => g.vertexId? i = some v
  | .clear => True
  | _ => False

/-- The edit, once it has gone through, has taken the edge, be it along with a vertex. -/
def TakesEdge (g : Multigraph V E) (e : EdgeId) : Edit V E → Prop
  | .eraseEdge f | .eraseIncident _ f | .removeEdge f => e = f
  | .removeEdgeAt i => g.edgeId? i = some e
  | .eraseVertex v | .removeVertex v | .clearVertexEdges v => ∃ d, g.HasEnd e d v
  | .removeVertexAt i | .clearVertexAt i => ∃ v, g.vertexId? i = some v ∧ ∃ d, g.HasEnd e d v
  | .clearIncident d v => g.HasEnd e d v
  | .removeEdgesIf p => e ∈ picked (consult (remember p) (TwoEnded.toList g.edgeIds) []).1
  | .removeIncidentIf d i p => ∃ v it, g.vertexId? i = some v ∧ g.incidentEdges d v = .ok it ∧
      e ∈ picked (consult (remember p) (TwoEnded.toList it) []).1
  | .clearEdges | .clear => True
  | _ => False

end Edit

variable {g : Multigraph V E} {m : Roster V E} {edit : Edit V E}

theorem Represents.hasEnd_iff (h : Represents g m) {e : EdgeId} (he : e ∈ m.edgeIds)
    {d : Direction} {v : VertexId} : g.HasEnd e d v ↔ e ∈ m.incident d v := by
  obtain ⟨r, hr⟩ := Roster.mem_edgeIds.mp he
  rw [h.sound.mem_incident_iff hr, ← r.get_ends d]
  constructor
  · rintro ⟨s, t, hends, rfl⟩
    rw [h.holds.endpoints_eq hr] at hends
    obtain ⟨rfl, rfl⟩ := Prod.mk.inj (Except.ok.inj hends)
    rfl
  · exact fun heq => ⟨_, _, h.holds.endpoints_eq hr, heq⟩

/-- A vertex is no longer on the list exactly if the edit has taken it. -/
theorem Represents.takesVertex_iff (h : Represents g m) (hlive : edit.Live g) {v : VertexId}
    (hv : v ∈ m.vertexIds) : edit.TakesVertex g v ↔ v ∉ (m.after edit).vertexIds := by
  have ha := (h.live_iff edit).mp hlive
  have hstays {m' : Roster V E} (hmem : v ∈ m'.vertexIds) : False ↔ v ∉ m'.vertexIds :=
    iff_of_false id (not_not_intro hmem)
  have hsame {m' : Roster V E} (hids : m'.vertexIds = m.vertexIds) : False ↔ v ∉ m'.vertexIds :=
    hstays (hids ▸ hv)
  have hdropped (w : VertexId) : v = w ↔ v ∉ ((m.dropAround w).dropVertex w).vertexIds := by
    rw [Roster.mem_vertexIds_dropVertex, m.vertexIds_dropAround]
    simp [hv]
  cases edit with
  | insertVertex x | addVertexAt x =>
    refine hstays ?_
    rw [Roster.after, m.vertexIds_insertVertex]
    exact List.mem_append_left _ hv
  | eraseVertex w | removeVertex w => exact hdropped w
  | removeVertexAt i =>
    obtain ⟨w, hw, rfl⟩ := ha.vertexSlots i (by simp [Edit.vertexSlots])
    rw [Edit.TakesVertex, h.holds.vertexId?_of_mem hw, Option.some_inj, eq_comm, Roster.after,
      h.sound.vertexAt?_eq hw]
    exact hdropped w
  | clear => exact iff_of_true trivial List.not_mem_nil
  | updateVertex? w f | updateVertex w f => exact hsame (m.vertexIds_updateVertex w.slot f)
  | clearIncident d w => exact hsame (m.vertexIds_dropIncident d w)
  | clearVertexEdges w => exact hsame (m.vertexIds_dropAround w)
  | clearVertexAt i =>
    obtain ⟨w, hw, rfl⟩ := ha.vertexSlots i (by simp [Edit.vertexSlots])
    rw [Roster.after, h.sound.vertexAt?_eq hw]
    exact hsame (m.vertexIds_dropAround w)
  | addEdgeAt s t x =>
    obtain ⟨a, hs, rfl⟩ := ha.vertexSlots s (by simp [Edit.vertexSlots])
    obtain ⟨b, ht, rfl⟩ := ha.vertexSlots t (by simp [Edit.vertexSlots])
    simp only [Roster.after, h.sound.vertexAt?_eq hs, h.sound.vertexAt?_eq ht]
    exact hstays hv
  | removeEdgeAt i =>
    obtain ⟨e, he, rfl⟩ := ha.edgeSlots i (by simp [Edit.edgeSlots])
    rw [Roster.after, h.sound.edgeAt?_eq he]
    exact hstays hv
  | clearEdges | removeEdgesIf p => exact hsame (m.vertexIds_dropEdges _)
  | removeIncidentIf d i p =>
    obtain ⟨w, hw, rfl⟩ := ha.vertexSlots i (by simp [Edit.vertexSlots])
    rw [Roster.after, h.sound.vertexAt?_eq hw]
    exact hsame (m.vertexIds_dropEdges _)
  | insertEdge s t x | updateEdge? e f | updateEdge e f | eraseEdge e | eraseIncident d e
  | removeEdge e => exact hstays hv

theorem Represents.takesEdge_iff (h : Represents g m) (hlive : edit.Live g) {e : EdgeId}
    (he : e ∈ m.edgeIds) : edit.TakesEdge g e ↔ e ∉ (m.after edit).edgeIds := by
  have ha := (h.live_iff edit).mp hlive
  have hstays {m' : Roster V E} (hmem : e ∈ m'.edgeIds) : False ↔ e ∉ m'.edgeIds :=
    iff_of_false id (not_not_intro hmem)
  have hdropped (es : List EdgeId) : e ∈ es ↔ e ∉ (m.dropEdges es).edgeIds := by
    rw [Roster.mem_edgeIds_dropEdges]
    simp [he]
  have halone (f : EdgeId) : e = f ↔ e ∉ (m.dropEdge f).edgeIds :=
    List.mem_singleton.symm.trans (hdropped [f])
  have haround (v : VertexId) : (∃ d, g.HasEnd e d v) ↔ e ∉ (m.dropAround v).edgeIds := by
    rw [Roster.mem_edgeIds_dropAround]
    simp [he, h.hasEnd_iff he]
  cases edit with
  | eraseEdge f | eraseIncident d f | removeEdge f => exact halone f
  | removeEdgeAt i =>
    obtain ⟨f, hf, rfl⟩ := ha.edgeSlots i (by simp [Edit.edgeSlots])
    rw [Edit.TakesEdge, h.holds.edgeId?_of_mem hf, Option.some_inj, eq_comm, Roster.after,
      h.sound.edgeAt?_eq hf]
    exact halone f
  | eraseVertex v | removeVertex v | clearVertexEdges v => exact haround v
  | removeVertexAt i | clearVertexAt i =>
    obtain ⟨v, hv, rfl⟩ := ha.vertexSlots i (by simp [Edit.vertexSlots])
    simp only [Edit.TakesEdge, h.holds.vertexId?_of_mem hv, Option.some_inj, exists_eq_left',
      Roster.after, h.sound.vertexAt?_eq hv]
    exact haround v
  | clearIncident d v => exact (h.hasEnd_iff he).trans (hdropped _)
  | clearEdges => exact iff_of_true trivial ((hdropped _).mp he)
  | clear => exact iff_of_true trivial List.not_mem_nil
  | removeEdgesIf p =>
    rw [Edit.TakesEdge, h.holds.edgeIds_gives.toList_eq, Roster.after, Descriptor.sift_eq]
    exact hdropped _
  | removeIncidentIf d i p =>
    obtain ⟨v, hv, rfl⟩ := ha.vertexSlots i (by simp [Edit.vertexSlots])
    obtain ⟨it, hrun, hit⟩ := h.incidentEdges_ok hv d
    simp only [Edit.TakesEdge, h.holds.vertexId?_of_mem hv, hrun, Option.some_inj,
      Except.ok.injEq, exists_and_left, exists_eq_left', hit.toList_eq, Roster.after,
      h.sound.vertexAt?_eq hv, Descriptor.sift_eq]
    exact hdropped _
  | insertEdge s t x => exact hstays (Roster.mem_edgeIds_insertEdge he _)
  | addEdgeAt s t x =>
    obtain ⟨a, hs, rfl⟩ := ha.vertexSlots s (by simp [Edit.vertexSlots])
    obtain ⟨b, ht, rfl⟩ := ha.vertexSlots t (by simp [Edit.vertexSlots])
    simp only [Roster.after, h.sound.vertexAt?_eq hs, h.sound.vertexAt?_eq ht]
    exact hstays (Roster.mem_edgeIds_insertEdge he _)
  | updateEdge? f u | updateEdge f u =>
    refine hstays ?_
    rw [Roster.after, m.edgeIds_updateEdge]
    exact he
  | insertVertex x | addVertexAt x | updateVertex? v f | updateVertex v f => exact hstays he

end Multigraph

end SlotGraph

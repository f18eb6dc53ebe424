import SlotGraph.Proofs.Execution
import SlotGraph.Proofs.Multigraph.Incident
set_option autoImplicit false

namespace SlotGraph.Roster

variable {V E : Type} {m : Roster V E}

theorem get?_vertex_eq_none (h : m.Sound) {v : VertexId} (hv : v ∉ m.vertexIds) :
    m.vertices.get? v.slot = none := by
  by_contra hsome
  obtain ⟨x, hx⟩ := Option.ne_none_iff_exists'.mp hsome
  exact hv (mem_vertexIds.mpr ⟨x, (Ledger.get?_eq_some h.nodup_live_vertices).mp hx⟩)

theorem get?_edge_eq_none (h : m.Sound) {e : EdgeId} (he : e ∉ m.edgeIds) :
    m.edges.get? e.slot = none := by
  by_contra hsome
  obtain ⟨r, hr⟩ := Option.ne_none_iff_exists'.mp hsome
  exact he (mem_edgeIds.mpr ⟨r, (Ledger.get?_eq_some h.nodup_live_edges).mp hr⟩)

theorem requireVertex_ok {v : VertexId} (hv : v ∈ m.vertexIds) :
    requireVertex v m = .ok () m := if_pos hv

theorem requireVertex_error {v : VertexId} (hv : v ∉ m.vertexIds) :
    requireVertex v m = .error (.deadVertex v) m := if_neg hv

theorem requireVertex_eq_ok {m' : Roster V E} {v : VertexId}
    (h : requireVertex v m = .ok () m') : v ∈ m'.vertexIds := by
  by_cases hv : v ∈ m.vertexIds
  · rw [requireVertex_ok hv] at h
    cases h
    exact hv
  · rw [requireVertex_error hv] at h
    cases h

theorem nextVertex_ok {v : VertexId} (hv : v ∈ m.vertexIds) :
    nextVertex v m = .ok (successor? v m.vertexIds) m := Change.bind_ok (requireVertex_ok hv)

theorem nextVertex_error {v : VertexId} (hv : v ∉ m.vertexIds) :
    nextVertex v m = .error (.deadVertex v) m := Change.bind_error (requireVertex_error hv)

theorem vertexOf_ok (h : m.Sound) {v : VertexId} (hv : v ∈ m.vertexIds) :
    vertexOf v.index m = .ok v m := by
  obtain ⟨x, hx⟩ := mem_vertexIds.mp hv
  have hp := (Ledger.record?_eq_some h.nodup_live_vertices).mpr ⟨hx, rfl⟩
  rw [VertexId.index, vertexOf, hp]

theorem vertexOf_error {i : Nat} (hi : i ∉ m.vertices.liveIndices) :
    vertexOf i m = .error (.deadVertexDescriptor i) m := by
  rw [vertexOf, Ledger.record?_eq_none.mpr hi]

theorem vertexOf_eq_ok (h : m.Sound) {m' : Roster V E} {i : Nat} {v : VertexId}
    (hrun : vertexOf i m = .ok v m') : v ∈ m.vertexIds ∧ m' = m := by
  unfold vertexOf at hrun
  cases hp : m.vertices.record? i with
  | none =>
    rw [hp] at hrun
    cases hrun
  | some p =>
    rw [hp] at hrun
    cases hrun
    obtain ⟨hlive, -⟩ := (Ledger.record?_eq_some h.nodup_live_vertices).mp hp
    exact ⟨mem_vertexIds.mpr ⟨p.2, hlive⟩, rfl⟩

theorem insertEdge_ok {source target : VertexId} (hs : source ∈ m.vertexIds)
    (ht : target ∈ m.vertexIds) (x : E) :
    insertEdge source target x m =
      .ok ⟨m.edges.fresh⟩ { m with edges := m.edges.insert ⟨x, source, target⟩ } :=
  (Change.bind_ok (requireVertex_ok hs)).trans (Change.bind_ok (requireVertex_ok ht))

theorem insertEdge_error_source {source : VertexId} (hs : source ∉ m.vertexIds)
    (target : VertexId) (x : E) :
    insertEdge source target x m = .error (.deadVertex source) m :=
  Change.bind_error (requireVertex_error hs)

theorem insertEdge_error_target {source target : VertexId} (hs : source ∈ m.vertexIds)
    (ht : target ∉ m.vertexIds) (x : E) :
    insertEdge source target x m = .error (.deadVertex target) m :=
  (Change.bind_ok (requireVertex_ok hs)).trans (Change.bind_error (requireVertex_error ht))

theorem clearIncident_ok (d : Direction) {v : VertexId} (hv : v ∈ m.vertexIds) :
    clearIncident d v m = .ok () (m.dropIncident d v) := Change.bind_ok (requireVertex_ok hv)

theorem clearVertexEdges_ok {v : VertexId} (hv : v ∈ m.vertexIds) :
    clearVertexEdges v m = .ok () (m.dropAround v) := Change.bind_ok (requireVertex_ok hv)

theorem removeVertex_ok (h : m.Sound) {v : VertexId} {x : V} (hx : (v.slot, x) ∈ m.vertices.live) :
    removeVertex v m = .ok ⟨x, (m.incident .outgoing v).length +
      ((m.dropIncident .outgoing v).incident .incoming v).length⟩
        ((m.dropAround v).dropVertex v) := by
  have hget : (m.dropAround v).vertices.get? v.slot = some x := by
    rw [vertices_dropAround]
    exact (Ledger.get?_eq_some h.nodup_live_vertices).mpr hx
  have hout : emptyCircle v .outgoing m = .ok _ (m.dropIncident .outgoing v) := rfl
  have hin : emptyCircle v .incoming (m.dropIncident .outgoing v) = .ok _ (m.dropAround v) := rfl
  refine (Change.bind_ok (requireVertex_ok (mem_vertexIds.mpr ⟨x, hx⟩))).trans
    ((Change.bind_ok hout).trans ((Change.bind_ok hin).trans ?_))
  rw [hget]

theorem removeVertex_error {v : VertexId} (hv : v ∉ m.vertexIds) :
    removeVertex v m = .error (.deadVertex v) m := Change.bind_error (requireVertex_error hv)

theorem eraseVertex_ok (h : m.Sound) {v : VertexId} {x : V} (hx : (v.slot, x) ∈ m.vertices.live) :
    eraseVertex v m = .ok ⟨successor? v m.vertexIds, (m.incident .outgoing v).length +
      ((m.dropIncident .outgoing v).incident .incoming v).length⟩
        ((m.dropAround v).dropVertex v) :=
  (Change.bind_ok (nextVertex_ok (mem_vertexIds.mpr ⟨x, hx⟩))).trans
    (Change.bind_ok (removeVertex_ok h hx))

theorem updateVertex_ok (h : m.Sound) {v : VertexId} {x : V}
    (hx : (v.slot, x) ∈ m.vertices.live) (f : V → V) :
    updateVertex v f m = .ok x { m with vertices := m.vertices.update v.slot f } := by
  refine (Change.bind_ok (x := some x) ?_).trans rfl
  rw [updateVertex?, (Ledger.get?_eq_some h.nodup_live_vertices).mpr hx]

theorem updateVertex_error (h : m.Sound) {v : VertexId} (hv : v ∉ m.vertexIds) (f : V → V) :
    updateVertex v f m = .error (.deadVertex v) m := by
  have hnone : ∀ x, (v.slot, x) ∉ m.vertices.live := fun x hx => hv (mem_vertexIds.mpr ⟨x, hx⟩)
  have hrun : updateVertex? v f m = .ok none m := by
    rw [updateVertex?, get?_vertex_eq_none h hv, Ledger.update_eq_self hnone]
  exact (Change.bind_ok hrun).trans rfl

theorem leaves_updateVertex (h : m.Sound) {Q : Roster V E → Prop} {v : VertexId} {f : V → V}
    (hm : Q m) (hafter : Q { m with vertices := m.vertices.update v.slot f }) :
    Change.Leaves Q (updateVertex v f m) := by
  by_cases hv : v ∈ m.vertexIds
  · obtain ⟨x, hx⟩ := mem_vertexIds.mp hv
    exact .of_ok (updateVertex_ok h hx f) hafter
  · exact .of_error (updateVertex_error h hv f) hm

theorem leaves_insertEdge {Q : Roster V E → Prop} {source target : VertexId} {x : E} (hm : Q m)
    (hafter : Q { m with edges := m.edges.insert ⟨x, source, target⟩ }) :
    Change.Leaves Q (insertEdge source target x m) := by
  by_cases hs : source ∈ m.vertexIds
  · by_cases ht : target ∈ m.vertexIds
    · exact .of_ok (insertEdge_ok hs ht x) hafter
    · exact .of_error (insertEdge_error_target hs ht x) hm
  · exact .of_error (insertEdge_error_source hs target x) hm

theorem arcOf_ok (h : m.Sound) {e : EdgeId} {r : Arc E} (hr : (e.slot, r) ∈ m.edges.live) :
    arcOf e m = .ok r m := by
  rw [arcOf, (Ledger.get?_eq_some h.nodup_live_edges).mpr hr]

theorem arcOf_error (h : m.Sound) {e : EdgeId} (he : e ∉ m.edgeIds) :
    arcOf e m = .error (.deadEdge e) m := by
  rw [arcOf, get?_edge_eq_none h he]

theorem nextEdge_ok (h : m.Sound) {e : EdgeId} {r : Arc E} (hr : (e.slot, r) ∈ m.edges.live) :
    nextEdge e m = .ok (successor? e m.edgeIds) m := Change.bind_ok (arcOf_ok h hr)

theorem nextIncident_ok (h : m.Sound) (d : Direction) {e : EdgeId} {r : Arc E}
    (hr : (e.slot, r) ∈ m.edges.live) :
    nextIncident d e m = .ok (successor? e (m.incident d (r.endpoint d))) m :=
  Change.bind_ok (arcOf_ok h hr)

theorem removeEdge_ok (h : m.Sound) {e : EdgeId} {r : Arc E} (hr : (e.slot, r) ∈ m.edges.live) :
    removeEdge e m = .ok r.payload (m.dropEdge e) := Change.bind_ok (arcOf_ok h hr)

theorem eraseEdge_ok (h : m.Sound) {e : EdgeId} {r : Arc E} (hr : (e.slot, r) ∈ m.edges.live) :
    eraseEdge e m = .ok (successor? e m.edgeIds) (m.dropEdge e) :=
  (Change.bind_ok (nextEdge_ok h hr)).trans (Change.bind_ok (removeEdge_ok h hr))

theorem leaves_eraseEdge (h : m.Sound) {Q : Roster V E → Prop} {e : EdgeId} (hm : Q m)
    (hafter : Q (m.dropEdge e)) : Change.Leaves Q (eraseEdge e m) := by
  by_cases he : e ∈ m.edgeIds
  · obtain ⟨r, hr⟩ := mem_edgeIds.mp he
    exact .of_ok (eraseEdge_ok h hr) hafter
  · exact .of_error (Change.bind_error (Change.bind_error (arcOf_error h he))) hm

theorem eraseIncident_ok (h : m.Sound) (d : Direction) {e : EdgeId} {r : Arc E}
    (hr : (e.slot, r) ∈ m.edges.live) :
    eraseIncident d e m =
      .ok (successor? e (m.incident d (r.endpoint d))) (m.dropEdge e) :=
  (Change.bind_ok (nextIncident_ok h d hr)).trans (Change.bind_ok (removeEdge_ok h hr))

theorem edgeOf_ok (h : m.Sound) {e : EdgeId} (he : e ∈ m.edgeIds) :
    edgeOf e.index m = .ok e m := by
  obtain ⟨r, hr⟩ := mem_edgeIds.mp he
  have hp := (Ledger.record?_eq_some h.nodup_live_edges).mpr ⟨hr, rfl⟩
  rw [EdgeId.index, edgeOf, hp]

theorem edgeOf_error {i : Nat} (hi : i ∉ m.edges.liveIndices) :
    edgeOf i m = .error (.deadEdgeDescriptor i) m := by
  rw [edgeOf, Ledger.record?_eq_none.mpr hi]

theorem updateEdge_ok (h : m.Sound) {e : EdgeId} {r : Arc E}
    (hr : (e.slot, r) ∈ m.edges.live) (f : E → E) :
    updateEdge e f m =
      .ok r.payload { m with edges := m.edges.update e.slot (Arc.withPayload f) } := by
  refine (Change.bind_ok (x := some r.payload) ?_).trans rfl
  rw [updateEdge?, (Ledger.get?_eq_some h.nodup_live_edges).mpr hr]
  rfl

theorem updateEdge_error (h : m.Sound) {e : EdgeId} (he : e ∉ m.edgeIds) (f : E → E) :
    updateEdge e f m = .error (.deadEdge e) m := by
  have hnone : ∀ r, (e.slot, r) ∉ m.edges.live := fun r hr => he (mem_edgeIds.mpr ⟨r, hr⟩)
  have hrun : updateEdge? e f m = .ok none m := by
    rw [updateEdge?, get?_edge_eq_none h he, Ledger.update_eq_self hnone]
    rfl
  exact (Change.bind_ok hrun).trans rfl

end SlotGraph.Roster

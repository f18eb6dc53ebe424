import SlotGraph.Proofs.Multigraph.Represents
set_option autoImplicit false

namespace SlotGraph

theorem Arc.get_ends {E : Type} (r : Arc E) (d : Direction) :
    PerDirection.get ⟨r.source, r.target⟩ d = r.endpoint d := by cases d <;> rfl

namespace Multigraph

variable {V E : Type} {g : Multigraph V E} {m : Roster V E}

open LinkStore (next? prev?)

theorem checkVertex_dead {v : VertexId} (h : g.containsVertex v = false) :
    g.checkVertex v = .error (.deadVertex v) := if_neg (Bool.eq_false_iff.mp h)

theorem checkEdge_dead {e : EdgeId} (h : g.containsEdge e = false) :
    g.checkEdge e = .error (.deadEdge e) := if_neg (Bool.eq_false_iff.mp h)

theorem vertexRecord_dead {v : VertexId} (h : g.containsVertex v = false) :
    g.vertexRecord v = .error (.deadVertex v) := by
  rw [vertexRecord, Table.get?_of_dead h]

theorem edgeRecord_dead {e : EdgeId} (h : g.containsEdge e = false) :
    g.edgeRecord e = .error (.deadEdge e) := by
  rw [edgeRecord, Table.get?_of_dead h]

theorem Holds.vertex?_eq (h : Holds g m) (v : VertexId) : g.vertex? v = m.vertices.get? v.slot :=
  h.vertices.get?_map v.slot

theorem Holds.edge?_eq (h : Holds g m) (e : EdgeId) :
    g.edge? e = (m.edges.get? e.slot).map Arc.payload := by
  rw [← h.edges.get?_map, Option.map_map]
  rfl

theorem Holds.payloads_eq (h : Holds g m) :
    g.payloads = m.vertices.live.map fun q => (⟨q.1⟩, q.2) := by
  rw [← h.vertices.toList_map, List.map_map]
  rfl

theorem Holds.containsVertex_iff (h : Holds g m) {v : VertexId} :
    g.containsVertex v = true ↔ v ∈ m.vertexIds := by
  rw [containsVertex, h.vertices.contains_iff, Roster.mem_vertexIds]

theorem Holds.containsEdge_iff (h : Holds g m) {e : EdgeId} :
    g.containsEdge e = true ↔ e ∈ m.edgeIds := by
  rw [containsEdge, h.edges.contains_iff, Roster.mem_edgeIds]

theorem Holds.containsVertex_eq_false (h : Holds g m) {v : VertexId} (hv : v ∉ m.vertexIds) :
    g.containsVertex v = false :=
  Bool.eq_false_iff.mpr fun hlive => hv (h.containsVertex_iff.mp hlive)

theorem Holds.containsEdge_eq_false (h : Holds g m) {e : EdgeId} (he : e ∉ m.edgeIds) :
    g.containsEdge e = false :=
  Bool.eq_false_iff.mpr fun hlive => he (h.containsEdge_iff.mp hlive)

theorem Holds.checkVertex_ok (h : Holds g m) {v : VertexId} (hv : v ∈ m.vertexIds) :
    g.checkVertex v = .ok () := by
  rw [checkVertex, if_pos (h.containsVertex_iff.mpr hv)]

theorem Holds.checkVertex_error (h : Holds g m) {v : VertexId} (hv : v ∉ m.vertexIds) :
    g.checkVertex v = .error (.deadVertex v) := checkVertex_dead (h.containsVertex_eq_false hv)

theorem Holds.checkEdge_ok (h : Holds g m) {e : EdgeId} (he : e ∈ m.edgeIds) :
    g.checkEdge e = .ok () := by
  rw [checkEdge, if_pos (h.containsEdge_iff.mpr he)]

theorem Holds.checkEdge_error (h : Holds g m) {e : EdgeId} (he : e ∉ m.edgeIds) :
    g.checkEdge e = .error (.deadEdge e) := checkEdge_dead (h.containsEdge_eq_false he)

theorem Holds.vertexRecord_ok (h : Holds g m) {v : VertexId} {x : V}
    (hv : (v.slot, x) ∈ m.vertices.live) :
    ∃ r, g.vertexRecord v = .ok r ∧ g.vertices.at? v.index = some r ∧ r.payload = x := by
  obtain ⟨r, hget, hat, hx⟩ := h.vertices.get?_eq_at? hv
  exact ⟨r, by simp [vertexRecord, hget], hat, hx⟩

theorem Holds.edgeRecord_ok (h : Holds g m) {e : EdgeId} {a : Arc E}
    (he : (e.slot, a) ∈ m.edges.live) :
    ∃ r, g.edgeRecord e = .ok r ∧ g.edges.at? e.index = some r ∧ r.arc = a := by
  obtain ⟨r, hget, hat, hx⟩ := h.edges.get?_eq_at? he
  exact ⟨r, by simp [edgeRecord, hget], hat, hx⟩

theorem Holds.vertexRecord_error (h : Holds g m) {v : VertexId} (hv : v ∉ m.vertexIds) :
    g.vertexRecord v = .error (.deadVertex v) := vertexRecord_dead (h.containsVertex_eq_false hv)

theorem Holds.edgeRecord_error (h : Holds g m) {e : EdgeId} (he : e ∉ m.edgeIds) :
    g.edgeRecord e = .error (.deadEdge e) := edgeRecord_dead (h.containsEdge_eq_false he)

theorem Represents.degreeIn_ok (h : Represents g m) {v : VertexId} (hv : v ∈ m.vertexIds) :
    ∃ r, g.vertexRecord v = .ok r ∧ ∀ d, r.degree.get d = (m.incident d v).length := by
  obtain ⟨x, hx⟩ := Roster.mem_vertexIds.mp hv
  obtain ⟨r, hr, hat, -⟩ := h.holds.vertexRecord_ok hx
  refine ⟨r, hr, fun d => ?_⟩
  have hcount := h.counts v hv d
  simpa [count?, hat] using hcount

theorem Represents.degreeIn_eq (h : Represents g m) {v : VertexId} (hv : v ∈ m.vertexIds)
    (d : Direction) : g.degreeIn d v = .ok (m.incident d v).length := by
  obtain ⟨r, hr, hcount⟩ := h.degreeIn_ok hv
  rw [degreeIn, hr, ← hcount d]
  rfl

theorem Represents.degree_eq (h : Represents g m) {v : VertexId} (hv : v ∈ m.vertexIds) :
    g.degree v = .ok ((m.incident .outgoing v).length + (m.incident .incoming v).length) := by
  obtain ⟨r, hr, hcount⟩ := h.degreeIn_ok hv
  rw [degree, hr, ← hcount .outgoing, ← hcount .incoming]
  rfl

theorem Holds.endpoints_eq (h : Holds g m) {e : EdgeId} {r : Arc E}
    (hr : (e.slot, r) ∈ m.edges.live) : g.endpoints e = .ok (r.source, r.target) := by
  obtain ⟨record, hrecord, -, rfl⟩ := h.edgeRecord_ok hr
  rw [endpoints, hrecord]
  rfl

theorem Holds.vertexId?_eq (h : Holds g m) (i : Nat) :
    g.vertexId? i = (m.vertices.record? i).map fun p => ⟨p.1⟩ := by
  rw [vertexId?, h.vertices.find?_eq, Option.map_map]
  rfl

theorem Holds.edgeId?_eq (h : Holds g m) (i : Nat) :
    g.edgeId? i = (m.edges.record? i).map fun p => ⟨p.1⟩ := by
  rw [edgeId?, h.edges.find?_eq, Option.map_map]
  rfl

theorem Holds.vertexId?_eq_some (h : Holds g m) {i : Nat} {v : VertexId} :
    g.vertexId? i = some v ↔ v ∈ m.vertexIds ∧ v.index = i := by
  rw [vertexId?, Option.map_eq_some_iff, Roster.mem_vertexIds]
  constructor
  · intro hfind
    obtain ⟨id, hid, rfl⟩ := hfind
    exact h.vertices.find?_eq_some.mp hid
  · intro hlive
    exact ⟨v.slot, h.vertices.find?_eq_some.mpr hlive, rfl⟩

theorem Holds.edgeId?_eq_some (h : Holds g m) {i : Nat} {e : EdgeId} :
    g.edgeId? i = some e ↔ e ∈ m.edgeIds ∧ e.index = i := by
  rw [edgeId?, Option.map_eq_some_iff, Roster.mem_edgeIds]
  constructor
  · intro hfind
    obtain ⟨id, hid, rfl⟩ := hfind
    exact h.edges.find?_eq_some.mp hid
  · intro hlive
    exact ⟨e.slot, h.edges.find?_eq_some.mpr hlive, rfl⟩

theorem Holds.vertexId?_of_mem (h : Holds g m) {v : VertexId} (hv : v ∈ m.vertexIds) :
    g.vertexId? v.index = some v := h.vertexId?_eq_some.mpr ⟨hv, rfl⟩

theorem Holds.edgeId?_of_mem (h : Holds g m) {e : EdgeId} (he : e ∈ m.edgeIds) :
    g.edgeId? e.index = some e := h.edgeId?_eq_some.mpr ⟨he, rfl⟩

end Multigraph

end SlotGraph

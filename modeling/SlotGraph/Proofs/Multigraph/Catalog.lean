import SlotGraph.Proofs.Multigraph.Admission
set_option autoImplicit false

/-!
A multigraph as two lists. A catalog lists the live vertices and the live edges in the order of
insertion and knows nothing of slots: it appends what is inserted under the handle that was given
out, and filters its lists on removal.
-/

namespace SlotGraph

structure Catalog (V E : Type) where
  vertices : List (VertexId × V) := []
  edges : List (EdgeId × Arc E) := []
  deriving DecidableEq

namespace Catalog

variable {V E : Type}

open Multigraph (Edit Answer)

def vertexIds (c : Catalog V E) : List VertexId := c.vertices.map Prod.fst

def edgeIds (c : Catalog V E) : List EdgeId := c.edges.map Prod.fst

/-- The edges that leave or enter a vertex, oldest first. -/
def incident (c : Catalog V E) (d : Direction) (v : VertexId) : List EdgeId :=
  (c.edges.filter fun p => p.2.endpoint d == v).map Prod.fst

def keep (c : Catalog V E) (p : EdgeId × Arc E → Bool) : Catalog V E :=
  { c with edges := c.edges.filter p }

def dropEdge (c : Catalog V E) (e : EdgeId) : Catalog V E := c.keep fun p => p.1 != e

def dropIncident (c : Catalog V E) (d : Direction) (v : VertexId) : Catalog V E :=
  c.keep fun p => p.2.endpoint d != v

def dropVertex (c : Catalog V E) (v : VertexId) : Catalog V E where
  vertices := c.vertices.filter fun p => p.1 != v
  edges := c.edges.filter fun p => p.2.source != v && p.2.target != v

def updateVertex (c : Catalog V E) (v : VertexId) (f : V → V) : Catalog V E :=
  { c with vertices := c.vertices.map fun p => if p.1 = v then (p.1, f p.2) else p }

def updateEdge (c : Catalog V E) (e : EdgeId) (f : E → E) : Catalog V E :=
  { c with edges := c.edges.map fun p => if p.1 = e then (p.1, p.2.withPayload f) else p }

theorem keep_congr {c : Catalog V E} {p q : EdgeId × Arc E → Bool}
    (h : ∀ x ∈ c.edges, p x = q x) : c.keep p = c.keep q := by
  simp only [keep, List.filter_congr h]

theorem keep_keep (c : Catalog V E) (p q : EdgeId × Arc E → Bool) :
    (c.keep p).keep q = c.keep fun x => q x && p x := by
  simp only [keep, List.filter_filter]

/-- One edit by handles that went through. An insertion takes its handle from the answer. -/
def step (c : Catalog V E) : Edit V E → Answer V E → Catalog V E
  | .insertVertex x, .vertex v => { c with vertices := c.vertices ++ [(v, x)] }
  | .insertEdge source target x, .edge e =>
    { c with edges := c.edges ++ [(e, ⟨x, source, target⟩)] }
  | .eraseVertex v, _ | .removeVertex v, _ => c.dropVertex v
  | .eraseEdge e, _ | .eraseIncident _ e, _ | .removeEdge e, _ => c.dropEdge e
  | .updateVertex? v f, _ | .updateVertex v f, _ => c.updateVertex v f
  | .updateEdge? e f, _ | .updateEdge e f, _ => c.updateEdge e f
  | .clearIncident d v, _ => c.dropIncident d v
  | .clearVertexEdges v, _ => (c.dropIncident .outgoing v).dropIncident .incoming v
  | .clearEdges, _ => { c with edges := [] }
  | .clear, _ => {}
  | _, _ => c

/-- A catalog kept beside a multigraph. It stays as it is where an edit stops. -/
def follow : List (Edit V E) → Multigraph V E → Catalog V E → Multigraph V E × Catalog V E
  | [], g, c => (g, c)
  | edit :: rest, g, c =>
    match edit.apply g with
    | .ok (answer, _) g => follow rest g (c.step edit answer)
    | .error _ g => follow rest g c

end Catalog

namespace Multigraph

variable {V E : Type}

def Edit.ByHandle : Edit V E → Prop
  | .addVertexAt _ | .removeVertexAt _ | .clearVertexAt _ | .addEdgeAt _ _ _ | .removeEdgeAt _
  | .removeEdgesIf _ | .removeIncidentIf _ _ _ => False
  | _ => True

/-- Everything that a multigraph says of itself is what a catalog says. -/
structure Agrees (g : Multigraph V E) (c : Catalog V E) : Prop where
  vertexCount : g.vertexCount = c.vertices.length
  edgeCount : g.edgeCount = c.edges.length
  isEmpty : g.isEmpty = c.vertices.isEmpty
  vertices : TwoEnded.toList g.vertexIds = c.vertexIds
  verticesReversed : TwoEnded.toListReversed g.vertexIds = c.vertexIds.reverse
  edges : TwoEnded.toList g.edgeIds = c.edgeIds
  edgesReversed : TwoEnded.toListReversed g.edgeIds = c.edgeIds.reverse
  nodupVertices : c.vertexIds.Nodup
  nodupEdges : c.edgeIds.Nodup
  containsVertex (v : VertexId) : g.containsVertex v = true ↔ v ∈ c.vertexIds
  containsEdge (e : EdgeId) : g.containsEdge e = true ↔ e ∈ c.edgeIds
  vertex : ∀ p ∈ c.vertices, g.vertex p.1 = .ok p.2 ∧ g.vertex? p.1 = some p.2
  edge : ∀ p ∈ c.edges, g.edge p.1 = .ok p.2.payload ∧ g.edge? p.1 = some p.2.payload
  endpoints : ∀ p ∈ c.edges, g.source p.1 = .ok p.2.source ∧ g.target p.1 = .ok p.2.target ∧
    g.endpoints p.1 = .ok (p.2.source, p.2.target)
  deadVertex : ∀ v, v ∉ c.vertexIds → g.vertex v = .error (.deadVertex v) ∧ g.vertex? v = none
  deadEdge : ∀ e, e ∉ c.edgeIds → g.edge e = .error (.deadEdge e) ∧ g.edge? e = none
  ends : ∀ p ∈ c.edges, p.2.source ∈ c.vertexIds ∧ p.2.target ∈ c.vertexIds
  incidentEdges : ∀ v ∈ c.vertexIds, ∀ d, ∃ it, g.incidentEdges d v = .ok it ∧
    TwoEnded.toList it = c.incident d v ∧
    TwoEnded.toListReversed it = (c.incident d v).reverse
  degreeIn : ∀ v ∈ c.vertexIds, ∀ d, g.degreeIn d v = .ok (c.incident d v).length
  degree : ∀ v ∈ c.vertexIds,
    g.degree v = .ok ((c.incident .outgoing v).length + (c.incident .incoming v).length)
  completes (edit : Edit V E) :
    (∃ r g', edit.apply g = .ok r g') ↔
      (∀ v ∈ edit.vertices, v ∈ c.vertexIds) ∧ (∀ e ∈ edit.edges, e ∈ c.edgeIds) ∧
      (∀ i ∈ edit.vertexSlots, ∃ v ∈ c.vertexIds, v.index = i) ∧
      ∀ i ∈ edit.edgeSlots, ∃ e ∈ c.edgeIds, e.index = i

end Multigraph

namespace Roster

variable {V E : Type} {m : Roster V E}

open Multigraph (Edit Answer)

def catalog (m : Roster V E) : Catalog V E where
  vertices := m.vertices.live.map fun p => (⟨p.1⟩, p.2)
  edges := m.edges.live.map fun p => (⟨p.1⟩, p.2)

@[simp] theorem vertexIds_catalog (m : Roster V E) : m.catalog.vertexIds = m.vertexIds := by
  simp [Catalog.vertexIds, catalog, vertexIds]

@[simp] theorem edgeIds_catalog (m : Roster V E) : m.catalog.edgeIds = m.edgeIds := by
  simp [Catalog.edgeIds, catalog, edgeIds]

@[simp] theorem incident_catalog (m : Roster V E) (d : Direction) (v : VertexId) :
    m.catalog.incident d v = m.incident d v := by
  simp [Catalog.incident, catalog, incident, List.filter_map, Function.comp_def]

theorem catalog_dropEdge (m : Roster V E) (e : EdgeId) :
    (m.dropEdge e).catalog = m.catalog.dropEdge e := by
  obtain ⟨id⟩ := e
  simp [catalog, dropEdge, Catalog.dropEdge, Catalog.keep, Ledger.drop, List.filter_map,
    Function.comp_def, bne, beq_eq_decide]

theorem catalog_dropEdges (m : Roster V E) (es : List EdgeId) :
    (m.dropEdges es).catalog = m.catalog.keep fun p => p.1 ∉ es := by
  simp [catalog, Catalog.keep, vertices_dropEdges, live_dropEdges, List.filter_map,
    Function.comp_def]

theorem Sound.catalog_dropIncident (h : m.Sound) (d : Direction) (v : VertexId) :
    (m.dropIncident d v).catalog = m.catalog.dropIncident d v := by
  rw [Roster.dropIncident, catalog_dropEdges]
  refine Catalog.keep_congr fun p hp => ?_
  obtain ⟨q, hq, rfl⟩ := List.mem_map.mp hp
  have hmem : EdgeId.mk q.1 ∈ m.incident d v ↔ q.2.endpoint d = v := by
    rw [mem_incident]
    constructor
    · intro hincident
      obtain ⟨r, hr, hend⟩ := hincident
      rwa [h.arc_eq hq hr]
    · intro hend
      exact ⟨q.2, hq, hend⟩
  simp [hmem, bne, beq_eq_decide]

theorem Sound.catalog_dropAround (h : m.Sound) (v : VertexId) :
    (m.dropAround v).catalog =
      (m.catalog.dropIncident .outgoing v).dropIncident .incoming v := by
  rw [Roster.dropAround, (h.dropIncident .outgoing v).catalog_dropIncident, h.catalog_dropIncident]

theorem Sound.catalog_dropVertex (h : m.Sound) (v : VertexId) :
    ((m.dropAround v).dropVertex v).catalog = m.catalog.dropVertex v := by
  have hvertices : ((m.dropAround v).dropVertex v).catalog.vertices =
      m.catalog.vertices.filter fun p => p.1 != v := by
    obtain ⟨id⟩ := v
    simp [catalog, Roster.dropVertex, vertices_dropAround, Ledger.drop, List.filter_map,
      Function.comp_def, bne, beq_eq_decide]
  have hedges : ((m.dropAround v).dropVertex v).catalog.edges =
      m.catalog.edges.filter fun p => p.2.source != v && p.2.target != v := by
    show (m.dropAround v).catalog.edges = _
    rw [h.catalog_dropAround, Catalog.dropIncident, Catalog.dropIncident, Catalog.keep_keep]
    exact List.filter_congr fun p _ => Bool.and_comm ..
  show Catalog.mk _ _ = Catalog.mk _ _
  rw [← hvertices, ← hedges]
  rfl

theorem catalog_updateVertex (m : Roster V E) (v : VertexId) (f : V → V) :
    catalog { m with vertices := m.vertices.update v.slot f } = m.catalog.updateVertex v f := by
  obtain ⟨id⟩ := v
  simp only [catalog, Catalog.updateVertex, Ledger.update, List.map_map]
  congr 1
  refine List.map_congr_left fun p _ => ?_
  by_cases hp : p.1 = id <;> simp [hp]

theorem catalog_updateEdge (m : Roster V E) (e : EdgeId) (f : E → E) :
    catalog { m with edges := m.edges.update e.slot (Arc.withPayload f) } =
      m.catalog.updateEdge e f := by
  obtain ⟨id⟩ := e
  simp only [catalog, Catalog.updateEdge, Ledger.update, List.map_map]
  congr 1
  refine List.map_congr_left fun p _ => ?_
  by_cases hp : p.1 = id <;> simp [hp]

theorem catalog_clearEdges (m : Roster V E) :
    (m.dropEdges m.edgeIds).catalog = { m.catalog with edges := [] } := by
  have hnone : m.catalog.edges.filter (fun p => p.1 ∉ m.edgeIds) = [] := by
    refine List.filter_eq_nil_iff.mpr fun p hp => ?_
    have hmem : p.1 ∈ m.edgeIds := by
      rw [← edgeIds_catalog]
      exact List.mem_map_of_mem hp
    simpa using hmem
  rw [catalog_dropEdges, Catalog.keep, hnone]

theorem Sound.catalog_after (h : m.Sound) {edit : Edit V E} (hedit : edit.ByHandle)
    (ha : m.Admits edit) {r : Answer V E × List Event}
    (hrun : apply edit m = .ok r (m.after edit)) :
    (m.after edit).catalog = m.catalog.step edit r.1 := by
  cases edit with
  | insertVertex x =>
    have hr : r = (.vertex ⟨m.vertices.fresh⟩, []) := by
      cases hrun
      rfl
    simp [hr, after, Catalog.step, catalog, Ledger.insert]
  | insertEdge s t x =>
    have hs := ha.vertices s (by simp [Edit.vertices])
    have ht := ha.vertices t (by simp [Edit.vertices])
    have hr : r = (.edge ⟨m.edges.fresh⟩, []) := by
      have hok := hrun.symm.trans (Change.bind_ok (insertEdge_ok hs ht x))
      cases hok
      rfl
    simp [hr, after, Catalog.step, catalog, Ledger.insert]
  | eraseVertex v | removeVertex v => exact h.catalog_dropVertex v
  | updateVertex? v f | updateVertex v f => exact catalog_updateVertex m v f
  | eraseEdge e | removeEdge e => exact catalog_dropEdge m e
  | eraseIncident d e => exact catalog_dropEdge m e
  | updateEdge? e f | updateEdge e f => exact catalog_updateEdge m e f
  | clearIncident d v => exact h.catalog_dropIncident d v
  | clearVertexEdges v => exact h.catalog_dropAround v
  | clearEdges => exact catalog_clearEdges m
  | clear => rfl
  | _ => exact hedit.elim

end Roster

namespace Multigraph

variable {V E : Type} {g : Multigraph V E} {m : Roster V E}

theorem Represents.completes_iff (h : Represents g m) (edit : Edit V E) :
    (∃ r g', edit.apply g = .ok r g') ↔ m.Admits edit := by
  rw [← h.live_iff]
  constructor
  · intro hcompletes
    obtain ⟨r, g', hrun⟩ := hcompletes
    by_contra hdead
    obtain ⟨f, g'', hrun', -⟩ := h.apply_error hdead
    rw [hrun] at hrun'
    cases hrun'
  · intro hlive
    obtain ⟨r, g', hrun, -⟩ := h.apply_ok hlive
    exact ⟨r, g', hrun⟩

theorem Represents.agrees (h : Represents g m) : Agrees g m.catalog where
  vertexCount := by simp [h.holds.vertexCount_eq, Roster.catalog, Roster.vertexIds]
  edgeCount := by simp [h.holds.edgeCount_eq, Roster.catalog, Roster.edgeIds]
  isEmpty := by
    have hsize := h.holds.vertices.size_eq
    rw [isEmpty, Table.isEmpty, hsize, Roster.catalog]
    cases m.vertices.live <;> rfl
  vertices := by rw [h.holds.vertexIds_gives.toList_eq, Roster.vertexIds_catalog]
  verticesReversed := by rw [h.holds.vertexIds_gives.toListReversed_eq, Roster.vertexIds_catalog]
  edges := by rw [h.holds.edgeIds_gives.toList_eq, Roster.edgeIds_catalog]
  edgesReversed := by rw [h.holds.edgeIds_gives.toListReversed_eq, Roster.edgeIds_catalog]
  nodupVertices := by
    rw [Roster.vertexIds_catalog]
    exact h.sound.nodup_vertexIds
  nodupEdges := by
    rw [Roster.edgeIds_catalog]
    exact h.sound.nodup_edgeIds
  containsVertex v := by rw [h.holds.containsVertex_iff, Roster.vertexIds_catalog]
  containsEdge e := by rw [h.holds.containsEdge_iff, Roster.edgeIds_catalog]
  vertex p hp := by
    obtain ⟨q, hq, rfl⟩ := List.mem_map.mp hp
    obtain ⟨r, hr, -, hx⟩ := h.holds.vertexRecord_ok (v := ⟨q.1⟩) hq
    have hget := (Ledger.get?_eq_some h.sound.nodup_live_vertices).mpr hq
    refine ⟨?_, (h.holds.vertex?_eq ⟨q.1⟩).trans hget⟩
    simp [vertex, hr, hx, bind, Except.bind, pure, Except.pure]
  edge p hp := by
    obtain ⟨q, hq, rfl⟩ := List.mem_map.mp hp
    obtain ⟨r, hr, -, harc⟩ := h.holds.edgeRecord_ok (e := ⟨q.1⟩) hq
    have hget := (Ledger.get?_eq_some h.sound.nodup_live_edges).mpr hq
    refine ⟨?_, by simp [h.holds.edge?_eq, hget]⟩
    simp [edge, hr, ← harc, EdgeRecord.arc, bind, Except.bind, pure, Except.pure]
  endpoints p hp := by
    obtain ⟨q, hq, rfl⟩ := List.mem_map.mp hp
    obtain ⟨r, hr, -, harc⟩ := h.holds.edgeRecord_ok (e := ⟨q.1⟩) hq
    simp [source, target, endpoints, hr, ← harc, EdgeRecord.arc, bind, Except.bind, pure,
      Except.pure]
  deadVertex v hv := by
    rw [Roster.vertexIds_catalog] at hv
    refine ⟨by simp [vertex, h.holds.vertexRecord_error hv, bind, Except.bind], ?_⟩
    rw [h.holds.vertex?_eq, Roster.get?_vertex_eq_none h.sound hv]
  deadEdge e he := by
    rw [Roster.edgeIds_catalog] at he
    refine ⟨by simp [edge, h.holds.edgeRecord_error he, bind, Except.bind], ?_⟩
    rw [h.holds.edge?_eq, Roster.get?_edge_eq_none h.sound he]
    rfl
  ends p hp := by
    obtain ⟨q, hq, rfl⟩ := List.mem_map.mp hp
    rw [Roster.vertexIds_catalog]
    exact ⟨h.ends q hq .outgoing, h.ends q hq .incoming⟩
  incidentEdges v hv d := by
    rw [Roster.vertexIds_catalog] at hv
    rw [Roster.incident_catalog]
    obtain ⟨it, hrun, hit⟩ := h.incidentEdges_ok hv d
    exact ⟨it, hrun, hit.toList_eq, hit.toListReversed_eq⟩
  degreeIn v hv d := by
    rw [Roster.vertexIds_catalog] at hv
    rw [Roster.incident_catalog, h.degreeIn_eq hv d]
  degree v hv := by
    rw [Roster.vertexIds_catalog] at hv
    rw [Roster.incident_catalog, Roster.incident_catalog, h.degree_eq hv]
  completes edit := by
    rw [h.completes_iff, Roster.vertexIds_catalog, Roster.edgeIds_catalog]
    constructor
    · intro ha
      exact ⟨ha.vertices, ha.edges, ha.vertexSlots, ha.edgeSlots⟩
    · rintro ⟨hv, he, hvs, hes⟩
      exact ⟨hv, he, hvs, hes⟩

end Multigraph

namespace Catalog

variable {V E : Type} {g : Multigraph V E} {m : Roster V E}

open Multigraph (Edit Represents Agrees)

theorem follow_cons_ok {c : Catalog V E} {edit : Edit V E} {rest : List (Edit V E)}
    {g' : Multigraph V E} {r : Multigraph.Answer V E × List Event}
    (h : edit.apply g = .ok r g') :
    follow (edit :: rest) g c = follow rest g' (c.step edit r.1) := by
  simp [follow, h]

theorem follow_cons_error {c : Catalog V E} {edit : Edit V E} {rest : List (Edit V E)}
    {g' : Multigraph V E} {f : Fault} (h : edit.apply g = .error f g') :
    follow (edit :: rest) g c = follow rest g' c := by
  simp [follow, h]

theorem follow_ok (h : Represents g m) {edits : List (Edit V E)}
    (hedits : ∀ edit ∈ edits, edit.ByHandle) :
    ∃ m', follow edits g m.catalog = (Edit.applyAll g edits, m'.catalog) ∧
      Represents (Edit.applyAll g edits) m' := by
  induction edits generalizing g m with
  | nil => exact ⟨m, rfl, h⟩
  | cons edit rest ih =>
    obtain ⟨hedit, hrest⟩ := List.forall_mem_cons.mp hedits
    by_cases hlive : edit.Live g
    · obtain ⟨r, g', hrun, hroster, h'⟩ := h.apply_ok hlive
      have hstep := h.sound.catalog_after hedit ((h.live_iff edit).mp hlive) hroster
      rw [follow_cons_ok hrun, Multigraph.applyAll_cons_ok hrun, ← hstep]
      exact ih h' hrest
    · obtain ⟨f, g', hrun, -, h'⟩ := h.apply_error hlive
      rw [follow_cons_error hrun, Multigraph.applyAll_cons_error hrun]
      exact ih h' hrest

/-- However a multigraph has been edited by handles since it was empty, it is the two lists that
went through the same edits. -/
theorem follow_agrees (edits : List (Edit V E)) (hedits : ∀ edit ∈ edits, edit.ByHandle) :
    (follow edits .empty {}).1 = Edit.applyAll .empty edits ∧
      Agrees (follow edits .empty {}).1 (follow edits .empty {}).2 := by
  obtain ⟨m, hfollow, h⟩ := follow_ok Multigraph.represents_empty hedits
  rw [show follow edits Multigraph.empty {} = _ from hfollow]
  exact ⟨rfl, h.agrees⟩

def reuseHistory : List (Edit Nat Nat) :=
  [.insertVertex 10, .insertVertex 20, .insertEdge ⟨0, 0⟩ ⟨0, 0⟩ 1,
    .insertEdge ⟨0, 0⟩ ⟨1, 0⟩ 2, .insertEdge ⟨0, 0⟩ ⟨1, 0⟩ 3, .removeEdge ⟨1, 0⟩,
    .eraseVertex ⟨1, 0⟩, .insertVertex 30, .removeVertex ⟨1, 0⟩, .insertEdge ⟨1, 1⟩ ⟨0, 0⟩ 4]

theorem follow_agrees_after_reuse :
    (∀ edit ∈ reuseHistory, edit.ByHandle) ∧
      Agrees (Edit.applyAll .empty reuseHistory)
        ⟨[(⟨0, 0⟩, 10), (⟨1, 1⟩, 30)],
          [(⟨0, 0⟩, ⟨1, ⟨0, 0⟩, ⟨0, 0⟩⟩), (⟨2, 1⟩, ⟨4, ⟨1, 1⟩, ⟨0, 0⟩⟩)]⟩ := by
  have hhandle : ∀ edit ∈ reuseHistory, edit.ByHandle := by simp [reuseHistory, Edit.ByHandle]
  have hlists : (follow reuseHistory .empty {}).2 =
      ⟨[(⟨0, 0⟩, 10), (⟨1, 1⟩, 30)],
        [(⟨0, 0⟩, ⟨1, ⟨0, 0⟩, ⟨0, 0⟩⟩), (⟨2, 1⟩, ⟨4, ⟨1, 1⟩, ⟨0, 0⟩⟩)]⟩ := by decide +kernel
  obtain ⟨hfollow, hagrees⟩ := follow_agrees reuseHistory hhandle
  rw [hfollow, hlists] at hagrees
  exact ⟨hhandle, hagrees⟩

end Catalog

end SlotGraph

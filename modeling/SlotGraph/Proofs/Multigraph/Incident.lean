import SlotGraph.Proofs.Multigraph.Roster
set_option autoImplicit false

namespace SlotGraph

theorem successor?_eq {α : Type} [DecidableEq α] {x : α} {l r : List α} (h : x ∉ l) :
    successor? x (l ++ x :: r) = r.head? := by
  induction l with
  | nil => simp [successor?]
  | cons y l ih =>
    have hne : y ≠ x := fun heq => h (by simp [heq])
    have hl : x ∉ l := fun hmem => h (List.mem_cons_of_mem y hmem)
    simp [successor?, hne, ih hl]

namespace Roster

variable {V E : Type}

structure Sound (m : Roster V E) : Prop where
  vertices : m.vertices.indices.Nodup
  edges : m.edges.indices.Nodup
  ends : ∀ p ∈ m.edges.live, ∀ d, p.2.endpoint d ∈ m.vertexIds

theorem mem_vertexIds {m : Roster V E} {v : VertexId} :
    v ∈ m.vertexIds ↔ ∃ x, (v.slot, x) ∈ m.vertices.live := by
  constructor
  · intro h
    obtain ⟨p, hp, rfl⟩ := List.mem_map.mp h
    exact ⟨p.2, hp⟩
  · intro hlive
    obtain ⟨x, hx⟩ := hlive
    exact List.mem_map_of_mem (f := fun p : SlotId × V => VertexId.mk p.1) hx

theorem mem_edgeIds {m : Roster V E} {e : EdgeId} :
    e ∈ m.edgeIds ↔ ∃ r, (e.slot, r) ∈ m.edges.live := by
  constructor
  · intro h
    obtain ⟨p, hp, rfl⟩ := List.mem_map.mp h
    exact ⟨p.2, hp⟩
  · intro hlive
    obtain ⟨r, hr⟩ := hlive
    exact List.mem_map_of_mem (f := fun p : SlotId × Arc E => EdgeId.mk p.1) hr

theorem mem_incident {m : Roster V E} {d : Direction} {v : VertexId} {e : EdgeId} :
    e ∈ m.incident d v ↔ ∃ r, (e.slot, r) ∈ m.edges.live ∧ r.endpoint d = v := by
  constructor
  · intro h
    obtain ⟨p, hp, rfl⟩ := List.mem_map.mp h
    obtain ⟨hlive, hend⟩ := List.mem_filter.mp hp
    exact ⟨p.2, hlive, by simpa using hend⟩
  · intro hlive
    obtain ⟨r, hr, rfl⟩ := hlive
    refine List.mem_map.mpr ⟨(e.slot, r), List.mem_filter.mpr ⟨hr, by simp⟩, rfl⟩

theorem mem_edgeIds_of_incident {m : Roster V E} {d : Direction} {v : VertexId} {e : EdgeId}
    (h : e ∈ m.incident d v) : e ∈ m.edgeIds := by
  obtain ⟨r, hr, -⟩ := mem_incident.mp h
  exact mem_edgeIds.mpr ⟨r, hr⟩

theorem incident_sublist (m : Roster V E) (d : Direction) (v : VertexId) :
    (m.incident d v).Sublist m.edgeIds :=
  List.Sublist.map _ List.filter_sublist

theorem length_edgeIds (m : Roster V E) : m.edgeIds.length = m.edges.live.length :=
  List.length_map ..

section

variable {m : Roster V E}

theorem Sound.nodup_live_vertices (h : m.Sound) : m.vertices.liveIndices.Nodup :=
  (List.nodup_append.mp h.vertices).1

theorem Sound.nodup_live_edges (h : m.Sound) : m.edges.liveIndices.Nodup :=
  (List.nodup_append.mp h.edges).1

theorem map_index_vertexIds (m : Roster V E) :
    m.vertexIds.map VertexId.index = m.vertices.liveIndices := by
  simp only [vertexIds, Ledger.liveIndices, List.map_map]
  rfl

theorem map_index_edgeIds (m : Roster V E) :
    m.edgeIds.map EdgeId.index = m.edges.liveIndices := by
  simp only [edgeIds, Ledger.liveIndices, List.map_map]
  rfl

theorem Sound.vertex_eq (h : m.Sound) {v w : VertexId} (hv : v ∈ m.vertexIds)
    (hw : w ∈ m.vertexIds) (hi : v.index = w.index) : v = w := by
  have hd := h.nodup_live_vertices
  rw [← map_index_vertexIds] at hd
  exact List.inj_on_of_nodup_map hd hv hw hi

theorem Sound.edge_eq (h : m.Sound) {e f : EdgeId} (he : e ∈ m.edgeIds)
    (hf : f ∈ m.edgeIds) (hi : e.index = f.index) : e = f := by
  have hd := h.nodup_live_edges
  rw [← map_index_edgeIds] at hd
  exact List.inj_on_of_nodup_map hd he hf hi

theorem Sound.nodup_vertexIds (h : m.Sound) : m.vertexIds.Nodup := by
  have hd := h.nodup_live_vertices
  rw [← map_index_vertexIds] at hd
  exact hd.of_map

theorem Sound.nodup_edgeIds (h : m.Sound) : m.edgeIds.Nodup := by
  have hd := h.nodup_live_edges
  rw [← map_index_edgeIds] at hd
  exact hd.of_map

theorem Sound.nodup_incident (h : m.Sound) (d : Direction) (v : VertexId) :
    (m.incident d v).Nodup := h.nodup_edgeIds.sublist (m.incident_sublist d v)

theorem Sound.arc_eq (h : m.Sound) {id : SlotId} {r r' : Arc E} (hr : (id, r) ∈ m.edges.live)
    (hr' : (id, r') ∈ m.edges.live) : r = r' :=
  (Prod.mk.inj (Ledger.eq_of_index_eq h.nodup_live_edges hr hr' rfl)).2

theorem Sound.mem_filter_iff (h : m.Sound) {p : SlotId × Arc E → Bool} {q : SlotId × Arc E}
    (hq : q ∈ m.edges.live) :
    ⟨q.1⟩ ∈ (m.edges.live.filter p).map (fun q => EdgeId.mk q.1) ↔ p q = true := by
  constructor
  · intro hmem
    obtain ⟨q', hq', hid⟩ := List.mem_map.mp hmem
    obtain ⟨hlive, htrue⟩ := List.mem_filter.mp hq'
    have hindex : q'.1.index = q.1.index := congrArg EdgeId.index hid
    rwa [Ledger.eq_of_index_eq h.nodup_live_edges hlive hq hindex] at htrue
  · intro htrue
    exact List.mem_map.mpr ⟨q, List.mem_filter.mpr ⟨hq, htrue⟩, rfl⟩

theorem Sound.mem_incident_iff (h : m.Sound) {e : EdgeId} {r : Arc E}
    (hr : (e.slot, r) ∈ m.edges.live) {d : Direction} {v : VertexId} :
    e ∈ m.incident d v ↔ r.endpoint d = v := (h.mem_filter_iff hr).trans beq_iff_eq

theorem Sound.incident_unique (h : m.Sound) {d : Direction} {v w : VertexId} {e : EdgeId}
    (hv : e ∈ m.incident d v) (hw : e ∈ m.incident d w) : v = w := by
  obtain ⟨r, hr, rfl⟩ := mem_incident.mp hv
  obtain ⟨r', hr', rfl⟩ := mem_incident.mp hw
  rw [h.arc_eq hr hr']

end

theorem edgeIds_dropEdge (m : Roster V E) (e : EdgeId) :
    (m.dropEdge e).edgeIds = m.edgeIds.filter (· != e) := by
  obtain ⟨id⟩ := e
  simp only [dropEdge, edgeIds, Ledger.drop, List.filter_map]
  congr 1
  exact List.filter_congr fun p _ => by simp [bne, beq_eq_decide]

theorem incident_dropEdge (m : Roster V E) (e : EdgeId) (d : Direction) (v : VertexId) :
    (m.dropEdge e).incident d v = (m.incident d v).filter (· != e) := by
  obtain ⟨id⟩ := e
  simp only [dropEdge, incident, Ledger.drop, List.filter_map, List.filter_filter]
  congr 1
  refine List.filter_congr fun p _ => ?_
  simp [bne, beq_eq_decide, Bool.and_comm]

theorem mem_edgeIds_dropEdge {m : Roster V E} {e f : EdgeId} :
    f ∈ (m.dropEdge e).edgeIds ↔ f ∈ m.edgeIds ∧ f ≠ e := by
  rw [edgeIds_dropEdge, List.mem_filter, bne_iff_ne]

theorem mem_incident_dropEdge {m : Roster V E} {d : Direction} {v : VertexId} {e f : EdgeId} :
    f ∈ (m.dropEdge e).incident d v ↔ f ∈ m.incident d v ∧ f ≠ e := by
  rw [incident_dropEdge, List.mem_filter, bne_iff_ne]

theorem Sound.incident_dropEdge_middle {m : Roster V E} (h : m.Sound) {e : EdgeId}
    {d : Direction} {v : VertexId} {l r : List EdgeId} (hsplit : m.incident d v = l ++ e :: r) :
    (m.dropEdge e).incident d v = l ++ r := by
  have hd := h.nodup_incident d v
  rw [hsplit] at hd
  rw [incident_dropEdge, hsplit]
  exact filter_key_ne (f := id) (by simpa using hd)

theorem incident_dropEdge_of_notMem {m : Roster V E} {e : EdgeId} {d : Direction} {v : VertexId}
    (h : e ∉ m.incident d v) : (m.dropEdge e).incident d v = m.incident d v := by
  rw [incident_dropEdge, List.filter_eq_self]
  intro f hf
  exact bne_iff_ne.mpr fun heq => h (heq ▸ hf)

theorem Sound.dropEdge {m : Roster V E} (h : m.Sound) {e : EdgeId} (he : e ∈ m.edgeIds) :
    (m.dropEdge e).Sound := by
  obtain ⟨r, hr⟩ := mem_edgeIds.mp he
  obtain ⟨l, l', hlive⟩ := List.append_of_mem hr
  refine ⟨h.vertices, ?_, fun p hp => h.ends p (List.mem_filter.mp hp).1⟩
  exact (Ledger.indices_drop_perm h.nodup_live_edges hlive).nodup_iff.mpr h.edges

theorem vertices_dropEdges (m : Roster V E) (es : List EdgeId) :
    (m.dropEdges es).vertices = m.vertices := by
  induction es generalizing m with
  | nil => rfl
  | cons e es ih => exact ih (m.dropEdge e)

theorem vertexIds_dropEdges (m : Roster V E) (es : List EdgeId) :
    (m.dropEdges es).vertexIds = m.vertexIds := by
  rw [vertexIds, vertices_dropEdges]
  rfl

theorem live_dropEdges (m : Roster V E) (es : List EdgeId) :
    (m.dropEdges es).edges.live = m.edges.live.filter fun p => decide (⟨p.1⟩ ∉ es) := by
  induction es generalizing m with
  | nil => simp [dropEdges]
  | cons e es ih =>
    obtain ⟨id⟩ := e
    rw [show m.dropEdges (⟨id⟩ :: es) = (m.dropEdge ⟨id⟩).dropEdges es from rfl, ih]
    simp only [dropEdge, Ledger.drop, List.filter_filter]
    refine List.filter_congr fun p _ => ?_
    by_cases hp : p.1 = id <;> simp [hp]

theorem edgeIds_dropEdges (m : Roster V E) (es : List EdgeId) :
    (m.dropEdges es).edgeIds = m.edgeIds.filter (· ∉ es) := by
  rw [edgeIds, live_dropEdges, edgeIds, List.filter_map]
  rfl

theorem mem_edgeIds_dropEdges {m : Roster V E} {es : List EdgeId} {e : EdgeId} :
    e ∈ (m.dropEdges es).edgeIds ↔ e ∈ m.edgeIds ∧ e ∉ es := by
  rw [edgeIds_dropEdges, List.mem_filter, decide_eq_true_eq]

theorem incident_dropEdges (m : Roster V E) (es : List EdgeId) (d : Direction) (v : VertexId) :
    (m.dropEdges es).incident d v = (m.incident d v).filter fun e => decide (e ∉ es) := by
  simp only [incident, live_dropEdges, List.filter_map, List.filter_filter]
  congr 1
  exact List.filter_congr fun p _ => Bool.and_comm ..

theorem mem_incident_dropEdges {m : Roster V E} {es : List EdgeId} {d : Direction} {v : VertexId}
    {f : EdgeId} : f ∈ (m.dropEdges es).incident d v ↔ f ∈ m.incident d v ∧ f ∉ es := by
  rw [incident_dropEdges, List.mem_filter, decide_eq_true_eq]

theorem mem_edgeIds_dropEdge_of_later {m : Roster V E} {e : EdgeId} {es : List EdgeId}
    (hd : (e :: es).Nodup) (hes : ∀ f ∈ e :: es, f ∈ m.edgeIds) :
    ∀ f ∈ es, f ∈ (m.dropEdge e).edgeIds := by
  intro f hf
  have hnot := (List.nodup_cons.mp hd).1
  exact mem_edgeIds_dropEdge.mpr
    ⟨hes f (List.mem_cons_of_mem e hf), fun heq => hnot (heq ▸ hf)⟩

theorem Sound.dropEdges {m : Roster V E} (h : m.Sound) {es : List EdgeId} (hd : es.Nodup)
    (hes : ∀ e ∈ es, e ∈ m.edgeIds) : (m.dropEdges es).Sound := by
  induction es generalizing m with
  | nil => exact h
  | cons e es ih =>
    exact ih (h.dropEdge (hes e (List.mem_cons_self ..))) hd.of_cons
      (mem_edgeIds_dropEdge_of_later hd hes)

theorem Sound.dropIncident {m : Roster V E} (h : m.Sound) (d : Direction) (v : VertexId) :
    (m.dropIncident d v).Sound :=
  h.dropEdges (h.nodup_incident d v) fun _ he => mem_edgeIds_of_incident he

theorem vertexIds_dropIncident (m : Roster V E) (d : Direction) (v : VertexId) :
    (m.dropIncident d v).vertexIds = m.vertexIds := m.vertexIds_dropEdges _

theorem incident_dropIncident (m : Roster V E) (d : Direction) (v : VertexId) :
    (m.dropIncident d v).incident d v = [] := by
  refine List.eq_nil_iff_forall_not_mem.mpr fun f hf => ?_
  obtain ⟨hmem, hnot⟩ := mem_incident_dropEdges.mp hf
  exact hnot hmem

theorem incident_dropAround (m : Roster V E) (v : VertexId) (d : Direction) :
    (m.dropAround v).incident d v = [] := by
  cases d with
  | outgoing =>
    refine List.eq_nil_iff_forall_not_mem.mpr fun f hf => ?_
    obtain ⟨hmem, -⟩ := mem_incident_dropEdges.mp hf
    rw [incident_dropIncident] at hmem
    exact List.not_mem_nil hmem
  | incoming => exact incident_dropIncident _ _ _

theorem dropAround_of_bare {m : Roster V E} {v : VertexId} (h : ∀ d, m.incident d v = []) :
    m.dropAround v = m := by
  have hout : m.dropIncident .outgoing v = m := by
    rw [dropIncident, h .outgoing]
    rfl
  rw [dropAround, hout, dropIncident, h .incoming]
  rfl

theorem vertices_dropAround (m : Roster V E) (v : VertexId) :
    (m.dropAround v).vertices = m.vertices := by
  rw [dropAround, dropIncident, vertices_dropEdges, dropIncident, vertices_dropEdges]

theorem vertexIds_dropAround (m : Roster V E) (v : VertexId) :
    (m.dropAround v).vertexIds = m.vertexIds := by
  rw [vertexIds, vertices_dropAround]
  rfl

theorem mem_edgeIds_dropAround {m : Roster V E} {v : VertexId} {e : EdgeId} :
    e ∈ (m.dropAround v).edgeIds ↔ e ∈ m.edgeIds ∧ ∀ d, e ∉ m.incident d v := by
  rw [dropAround, dropIncident, mem_edgeIds_dropEdges, dropIncident, mem_edgeIds_dropEdges,
    mem_incident_dropEdges]
  constructor
  · rintro ⟨⟨he, hout⟩, hin⟩
    refine ⟨he, fun d => ?_⟩
    cases d with
    | outgoing => exact hout
    | incoming => exact fun hmem => hin ⟨hmem, hout⟩
  · rintro ⟨he, hnone⟩
    exact ⟨⟨he, hnone .outgoing⟩, fun hmem => hnone .incoming hmem.1⟩

theorem Sound.dropAround {m : Roster V E} (h : m.Sound) (v : VertexId) :
    (m.dropAround v).Sound := (h.dropIncident .outgoing v).dropIncident .incoming v

theorem vertexIds_dropVertex (m : Roster V E) (v : VertexId) :
    (m.dropVertex v).vertexIds = m.vertexIds.filter (· != v) := by
  obtain ⟨id⟩ := v
  simp only [dropVertex, vertexIds, Ledger.drop, List.filter_map]
  congr 1
  exact List.filter_congr fun p _ => by simp [bne, beq_eq_decide]

theorem mem_vertexIds_dropVertex {m : Roster V E} {v w : VertexId} :
    w ∈ (m.dropVertex v).vertexIds ↔ w ∈ m.vertexIds ∧ w ≠ v := by
  rw [vertexIds_dropVertex, List.mem_filter, bne_iff_ne]

theorem ends_dropVertex {m : Roster V E} {v : VertexId}
    (hends : ∀ p ∈ m.edges.live, ∀ d, p.2.endpoint d ∈ m.vertexIds)
    (hnone : ∀ d, m.incident d v = []) :
    ∀ p ∈ (m.dropVertex v).edges.live, ∀ d, p.2.endpoint d ∈ (m.dropVertex v).vertexIds := by
  intro p hp d
  refine mem_vertexIds_dropVertex.mpr ⟨hends p hp d, fun hend => ?_⟩
  have hmem : EdgeId.mk p.1 ∈ m.incident d v := mem_incident.mpr ⟨p.2, hp, hend⟩
  rw [hnone] at hmem
  exact List.not_mem_nil hmem

theorem Sound.dropVertex {m : Roster V E} (h : m.Sound) {v : VertexId} (hv : v ∈ m.vertexIds)
    (hnone : ∀ d, m.incident d v = []) : (m.dropVertex v).Sound := by
  obtain ⟨x, hx⟩ := mem_vertexIds.mp hv
  obtain ⟨l, r, hlive⟩ := List.append_of_mem hx
  refine ⟨?_, h.edges, ends_dropVertex h.ends hnone⟩
  exact (Ledger.indices_drop_perm h.nodup_live_vertices hlive).nodup_iff.mpr h.vertices

theorem vertexIds_insertVertex (m : Roster V E) (x : V) :
    vertexIds { m with vertices := m.vertices.insert x } =
      m.vertexIds ++ [⟨m.vertices.fresh⟩] := by
  simp [vertexIds, Ledger.insert]

theorem vertexIds_updateVertex (m : Roster V E) (id : SlotId) (f : V → V) :
    vertexIds { m with vertices := m.vertices.update id f } = m.vertexIds := by
  simp only [vertexIds, Ledger.update, List.map_map]
  refine List.map_congr_left fun p _ => ?_
  by_cases hp : p.1 = id <;> simp [hp]

theorem edgeIds_updateEdge (m : Roster V E) (id : SlotId) (f : E → E) :
    edgeIds { m with edges := m.edges.update id (Arc.withPayload f) } = m.edgeIds := by
  simp only [edgeIds, Ledger.update, List.map_map]
  refine List.map_congr_left fun p _ => ?_
  by_cases hp : p.1 = id <;> simp [hp]

theorem mem_updateEdge {m : Roster V E} {id : SlotId} {f : E → E} {p : SlotId × Arc E}
    (hp : p ∈ (m.edges.update id (Arc.withPayload f)).live) :
    ∃ q ∈ m.edges.live, q.1 = p.1 ∧ ∀ d, q.2.endpoint d = p.2.endpoint d := by
  obtain ⟨q, hq, rfl⟩ := List.mem_map.mp hp
  refine ⟨q, hq, ?_, fun d => ?_⟩
  · by_cases hid : q.1 = id <;> simp [hid]
  · by_cases hid : q.1 = id
    · cases d <;> simp [hid, Arc.withPayload, Arc.endpoint]
    · simp [hid]

theorem incident_updateEdge (m : Roster V E) (id : SlotId) (f : E → E) :
    incident { m with edges := m.edges.update id (Arc.withPayload f) } = m.incident := by
  funext d v
  simp only [incident, Ledger.update, List.filter_map, List.map_map]
  have hfilter : m.edges.live.filter ((fun p : SlotId × Arc E => p.2.endpoint d == v) ∘
      fun p => if p.1 = id then (p.1, p.2.withPayload f) else p) =
      m.edges.live.filter fun p => p.2.endpoint d == v := by
    refine List.filter_congr fun p _ => ?_
    by_cases hid : p.1 = id
    · cases d <;> simp [hid, Arc.withPayload, Arc.endpoint]
    · simp [hid]
  rw [hfilter]
  refine List.map_congr_left fun p _ => ?_
  by_cases hid : p.1 = id <;> simp [hid]

theorem mem_edgeIds_insertEdge {m : Roster V E} {e : EdgeId} (he : e ∈ m.edgeIds) (r : Arc E) :
    e ∈ edgeIds { m with edges := m.edges.insert r } := by
  simp only [edgeIds, Ledger.insert, List.map_append]
  exact List.mem_append_left _ he

theorem incident_insertEdge (m : Roster V E) (r : Arc E) (d : Direction) (v : VertexId) :
    incident { m with edges := m.edges.insert r } d v =
      m.incident d v ++ if r.endpoint d = v then [⟨m.edges.fresh⟩] else [] := by
  simp only [incident, Ledger.insert, List.filter_append, List.map_append, List.filter_singleton]
  by_cases hv : r.endpoint d = v
  · simp [hv]
  · have hb : (r.endpoint d == v) = false := by simpa using hv
    simp [hv, hb]

end Roster

end SlotGraph

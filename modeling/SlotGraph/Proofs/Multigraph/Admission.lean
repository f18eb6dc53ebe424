import SlotGraph.Proofs.Multigraph.History
set_option autoImplicit false

namespace SlotGraph

namespace Multigraph.Edit

variable {V E : Type}

/-- The vertices that an edit requires to be live. -/
def vertices : Edit V E → List VertexId
  | .eraseVertex v | .removeVertex v | .updateVertex v _ | .clearIncident _ v
  | .clearVertexEdges v => [v]
  | .insertEdge source target _ => [source, target]
  | _ => []

def edges : Edit V E → List EdgeId
  | .eraseEdge e | .eraseIncident _ e | .removeEdge e | .updateEdge e _ => [e]
  | _ => []

/-- The descriptors that an edit requires to be those of live vertices. -/
def vertexSlots : Edit V E → List Nat
  | .removeVertexAt i | .clearVertexAt i | .removeIncidentIf _ i _ => [i]
  | .addEdgeAt source target _ => [source, target]
  | _ => []

def edgeSlots : Edit V E → List Nat
  | .removeEdgeAt i => [i]
  | _ => []

/-- Everything that an edit requires is live in the multigraph. -/
structure Live (g : Multigraph V E) (edit : Edit V E) : Prop where
  vertices : ∀ v ∈ edit.vertices, g.containsVertex v = true
  edges : ∀ e ∈ edit.edges, g.containsEdge e = true
  vertexSlots : ∀ i ∈ edit.vertexSlots, (g.vertexId? i).isSome
  edgeSlots : ∀ i ∈ edit.edgeSlots, (g.edgeId? i).isSome

end Multigraph.Edit

namespace Roster

variable {V E : Type} {m : Roster V E}

open Multigraph (Edit Answer)

structure Admits (m : Roster V E) (edit : Edit V E) : Prop where
  vertices : ∀ v ∈ edit.vertices, v ∈ m.vertexIds
  edges : ∀ e ∈ edit.edges, e ∈ m.edgeIds
  vertexSlots : ∀ i ∈ edit.vertexSlots, ∃ v ∈ m.vertexIds, v.index = i
  edgeSlots : ∀ i ∈ edit.edgeSlots, ∃ e ∈ m.edgeIds, e.index = i

def vertexAt? (m : Roster V E) (i : Nat) : Option VertexId :=
  (m.vertices.record? i).map fun p => ⟨p.1⟩

def edgeAt? (m : Roster V E) (i : Nat) : Option EdgeId :=
  (m.edges.record? i).map fun p => ⟨p.1⟩

/-- The roster after an edit that goes through. -/
def after (m : Roster V E) : Edit V E → Roster V E
  | .insertVertex x | .addVertexAt x => { m with vertices := m.vertices.insert x }
  | .eraseVertex v | .removeVertex v => (m.dropAround v).dropVertex v
  | .updateVertex? v f | .updateVertex v f =>
    { m with vertices := m.vertices.update v.slot f }
  | .insertEdge source target x => { m with edges := m.edges.insert ⟨x, source, target⟩ }
  | .eraseEdge e | .eraseIncident _ e | .removeEdge e => m.dropEdge e
  | .updateEdge? e f | .updateEdge e f =>
    { m with edges := m.edges.update e.slot (Arc.withPayload f) }
  | .clearIncident d v => m.dropIncident d v
  | .clearVertexEdges v => m.dropAround v
  | .clearEdges => m.dropEdges m.edgeIds
  | .clear => {}
  | .removeVertexAt i => (m.vertexAt? i).elim m fun v => (m.dropAround v).dropVertex v
  | .clearVertexAt i => (m.vertexAt? i).elim m m.dropAround
  | .addEdgeAt source target x =>
    match m.vertexAt? source, m.vertexAt? target with
    | some v, some w => { m with edges := m.edges.insert ⟨x, v, w⟩ }
    | _, _ => m
  | .removeEdgeAt i => (m.edgeAt? i).elim m m.dropEdge
  | .removeEdgesIf p => m.dropEdges (sift (Edit.remember p) m.edgeIds []).1
  | .removeIncidentIf d i p =>
    (m.vertexAt? i).elim m fun v => m.dropEdges (sift (Edit.remember p) (m.incident d v) []).1

theorem Sound.vertexAt?_eq (h : m.Sound) {v : VertexId} (hv : v ∈ m.vertexIds) :
    m.vertexAt? v.index = some v := by
  obtain ⟨x, hx⟩ := mem_vertexIds.mp hv
  have hp := (Ledger.record?_eq_some h.nodup_live_vertices).mpr ⟨hx, rfl⟩
  rw [VertexId.index, vertexAt?, hp]
  rfl

theorem Sound.edgeAt?_eq (h : m.Sound) {e : EdgeId} (he : e ∈ m.edgeIds) :
    m.edgeAt? e.index = some e := by
  obtain ⟨r, hr⟩ := mem_edgeIds.mp he
  have hp := (Ledger.record?_eq_some h.nodup_live_edges).mpr ⟨hr, rfl⟩
  rw [EdgeId.index, edgeAt?, hp]
  rfl

theorem apply_ok (h : m.Sound) {edit : Edit V E} (ha : m.Admits edit) :
    ∃ r, apply edit m = .ok r (m.after edit) := by
  have hvertices := ha.vertices
  have hedges := ha.edges
  have hvertexSlots := ha.vertexSlots
  have hedgeSlots := ha.edgeSlots
  cases edit with
  | insertVertex x | addVertexAt x | updateVertex? v f | updateEdge? e f | clearEdges | clear
  | removeEdgesIf p => exact ⟨_, rfl⟩
  | eraseVertex v =>
    obtain ⟨x, hx⟩ := mem_vertexIds.mp (hvertices v (by simp [Edit.vertices]))
    exact ⟨_, Change.bind_ok (eraseVertex_ok h hx)⟩
  | removeVertex v =>
    obtain ⟨x, hx⟩ := mem_vertexIds.mp (hvertices v (by simp [Edit.vertices]))
    exact ⟨_, Change.bind_ok (removeVertex_ok h hx)⟩
  | updateVertex v f =>
    obtain ⟨x, hx⟩ := mem_vertexIds.mp (hvertices v (by simp [Edit.vertices]))
    exact ⟨_, Change.bind_ok (updateVertex_ok h hx f)⟩
  | insertEdge s t x =>
    have hs := hvertices s (by simp [Edit.vertices])
    have ht := hvertices t (by simp [Edit.vertices])
    exact ⟨_, Change.bind_ok (insertEdge_ok hs ht x)⟩
  | eraseEdge e =>
    obtain ⟨r, hr⟩ := mem_edgeIds.mp (hedges e (by simp [Edit.edges]))
    exact ⟨_, Change.bind_ok (eraseEdge_ok h hr)⟩
  | eraseIncident d e =>
    obtain ⟨r, hr⟩ := mem_edgeIds.mp (hedges e (by simp [Edit.edges]))
    exact ⟨_, Change.bind_ok (eraseIncident_ok h d hr)⟩
  | removeEdge e =>
    obtain ⟨r, hr⟩ := mem_edgeIds.mp (hedges e (by simp [Edit.edges]))
    exact ⟨_, Change.bind_ok (removeEdge_ok h hr)⟩
  | updateEdge e f =>
    obtain ⟨r, hr⟩ := mem_edgeIds.mp (hedges e (by simp [Edit.edges]))
    exact ⟨_, Change.bind_ok (updateEdge_ok h hr f)⟩
  | clearIncident d v =>
    have hv := hvertices v (by simp [Edit.vertices])
    exact ⟨_, Change.bind_ok (clearIncident_ok d hv)⟩
  | clearVertexEdges v =>
    have hv := hvertices v (by simp [Edit.vertices])
    exact ⟨_, Change.bind_ok (clearVertexEdges_ok hv)⟩
  | removeVertexAt i =>
    obtain ⟨v, hv, rfl⟩ := hvertexSlots i (by simp [Edit.vertexSlots])
    obtain ⟨x, hx⟩ := mem_vertexIds.mp hv
    rw [after, h.vertexAt?_eq hv]
    exact ⟨_, (Change.bind_ok (vertexOf_ok h hv)).trans (Change.bind_ok (removeVertex_ok h hx))⟩
  | clearVertexAt i =>
    obtain ⟨v, hv, rfl⟩ := hvertexSlots i (by simp [Edit.vertexSlots])
    rw [after, h.vertexAt?_eq hv]
    exact ⟨_, (Change.bind_ok (vertexOf_ok h hv)).trans (Change.bind_ok (clearVertexEdges_ok hv))⟩
  | addEdgeAt s t x =>
    obtain ⟨v, hv, rfl⟩ := hvertexSlots s (by simp [Edit.vertexSlots])
    obtain ⟨w, hw, rfl⟩ := hvertexSlots t (by simp [Edit.vertexSlots])
    simp only [after, h.vertexAt?_eq hv, h.vertexAt?_eq hw]
    exact ⟨_, (Change.bind_ok (vertexOf_ok h hv)).trans
      ((Change.bind_ok (vertexOf_ok h hw)).trans (Change.bind_ok (insertEdge_ok hv hw x)))⟩
  | removeEdgeAt i =>
    obtain ⟨e, he, rfl⟩ := hedgeSlots i (by simp [Edit.edgeSlots])
    obtain ⟨r, hr⟩ := mem_edgeIds.mp he
    rw [after, h.edgeAt?_eq he]
    exact ⟨_, (Change.bind_ok (edgeOf_ok h he)).trans (Change.bind_ok (removeEdge_ok h hr))⟩
  | removeIncidentIf d i p =>
    obtain ⟨v, hv, rfl⟩ := hvertexSlots i (by simp [Edit.vertexSlots])
    rw [after, h.vertexAt?_eq hv]
    exact ⟨_, Change.bind_ok (Change.bind_ok (vertexOf_ok h hv))⟩

/-- The edit stops at a handle or descriptor that is not live, before its first write. -/
def Refuses (m : Roster V E) (edit : Edit V E) : Prop :=
  ∃ f, apply edit m = .error f m ∧ ∀ c, f ≠ .corrupt c

theorem refuses_of_vertex (h : m.Sound) {edit : Edit V E} {v : VertexId} (hv : v ∈ edit.vertices)
    (hdead : v ∉ m.vertexIds) : m.Refuses edit := by
  have hrequire := requireVertex_error hdead
  cases edit <;> simp only [Edit.vertices, List.mem_singleton, List.not_mem_nil] at hv
  case eraseVertex w =>
    subst hv
    exact ⟨_, Change.bind_error (Change.bind_error (nextVertex_error hdead)), by simp⟩
  case removeVertex w =>
    subst hv
    exact ⟨_, Change.bind_error (removeVertex_error hdead), by simp⟩
  case updateVertex w f =>
    subst hv
    refine ⟨.deadVertex v, Change.bind_error (updateVertex_error h hdead f), by simp⟩
  case clearIncident d w =>
    subst hv
    exact ⟨_, Change.bind_error (Change.bind_error hrequire), by simp⟩
  case clearVertexEdges w =>
    subst hv
    exact ⟨_, Change.bind_error (Change.bind_error hrequire), by simp⟩
  case insertEdge s t x =>
    by_cases hs : s ∈ m.vertexIds
    · have ht : t ∉ m.vertexIds := by
        rcases List.mem_cons.mp hv with rfl | hv
        · exact absurd hs hdead
        · rwa [← List.mem_singleton.mp hv]
      exact ⟨_, Change.bind_error (insertEdge_error_target hs ht x), by simp⟩
    · exact ⟨_, Change.bind_error (insertEdge_error_source hs t x), by simp⟩

theorem refuses_of_edge (h : m.Sound) {edit : Edit V E} {e : EdgeId} (he : e ∈ edit.edges)
    (hdead : e ∉ m.edgeIds) : m.Refuses edit := by
  have harc := arcOf_error h hdead
  cases edit <;> simp only [Edit.edges, List.mem_singleton, List.not_mem_nil] at he
  case eraseEdge e' =>
    subst he
    exact ⟨_, Change.bind_error (Change.bind_error (Change.bind_error harc)), by simp⟩
  case eraseIncident d e' =>
    subst he
    exact ⟨_, Change.bind_error (Change.bind_error (Change.bind_error harc)), by simp⟩
  case removeEdge e' =>
    subst he
    exact ⟨_, Change.bind_error (Change.bind_error harc), by simp⟩
  case updateEdge e' f =>
    subst he
    exact ⟨.deadEdge e, Change.bind_error (updateEdge_error h hdead f), by simp⟩

theorem refuses_of_vertexSlot (h : m.Sound) {edit : Edit V E} {i : Nat}
    (hi : i ∈ edit.vertexSlots) (hdead : ∀ v ∈ m.vertexIds, v.index ≠ i) : m.Refuses edit := by
  have hnot : i ∉ m.vertices.liveIndices := by
    rw [← map_index_vertexIds]
    intro hmem
    obtain ⟨v, hv, hvi⟩ := List.mem_map.mp hmem
    exact hdead v hv hvi
  have hof := vertexOf_error hnot
  cases edit <;> simp only [Edit.vertexSlots, List.mem_singleton, List.not_mem_nil] at hi
  case removeVertexAt j =>
    subst hi
    exact ⟨_, Change.bind_error hof, by simp⟩
  case clearVertexAt j =>
    subst hi
    exact ⟨_, Change.bind_error hof, by simp⟩
  case removeIncidentIf d j p =>
    subst hi
    exact ⟨_, Change.bind_error (Change.bind_error hof), by simp⟩
  case addEdgeAt s t x =>
    by_cases hs : s ∈ m.vertices.liveIndices
    · have ht : t ∉ m.vertices.liveIndices := by
        rcases List.mem_cons.mp hi with rfl | hi
        · exact absurd hs hnot
        · rwa [← List.mem_singleton.mp hi]
      rw [← map_index_vertexIds] at hs
      obtain ⟨v, hv, rfl⟩ := List.mem_map.mp hs
      exact ⟨_, (Change.bind_ok (vertexOf_ok h hv)).trans
        (Change.bind_error (vertexOf_error ht)), by simp⟩
    · exact ⟨_, Change.bind_error (vertexOf_error hs), by simp⟩

theorem refuses_of_edgeSlot {edit : Edit V E} {i : Nat} (hi : i ∈ edit.edgeSlots)
    (hdead : ∀ e ∈ m.edgeIds, e.index ≠ i) : m.Refuses edit := by
  have hnot : i ∉ m.edges.liveIndices := by
    rw [← map_index_edgeIds]
    intro hmem
    obtain ⟨e, he, hei⟩ := List.mem_map.mp hmem
    exact hdead e he hei
  cases edit <;> simp only [Edit.edgeSlots, List.mem_singleton, List.not_mem_nil] at hi
  case removeEdgeAt j =>
    subst hi
    exact ⟨_, Change.bind_error (edgeOf_error hnot), by simp⟩

theorem apply_error (h : m.Sound) {edit : Edit V E} (ha : ¬ m.Admits edit) : m.Refuses edit := by
  by_contra hgo
  refine ha ⟨fun v hv => ?_, fun e he => ?_, fun i hi => ?_, fun i hi => ?_⟩
  · by_contra hdead
    exact hgo (refuses_of_vertex h hv hdead)
  · by_contra hdead
    exact hgo (refuses_of_edge h he hdead)
  · by_contra hdead
    exact hgo (refuses_of_vertexSlot h hi fun v hv hvi => hdead ⟨v, hv, hvi⟩)
  · by_contra hdead
    exact hgo (refuses_of_edgeSlot hi fun e he hei => hdead ⟨e, he, hei⟩)

theorem leaves_apply (h : m.Sound) {Q : Roster V E → Prop} {edit : Edit V E} (hm : Q m)
    (hafter : Q (m.after edit)) : Change.Leaves Q (apply edit m) := by
  by_cases ha : m.Admits edit
  · obtain ⟨r, hrun⟩ := apply_ok h ha
    exact .of_ok hrun hafter
  · obtain ⟨f, hrun, -⟩ := apply_error h ha
    exact .of_error hrun hm

end Roster

namespace Multigraph

variable {V E : Type} {g : Multigraph V E} {m : Roster V E}

theorem Represents.live_iff (h : Represents g m) (edit : Edit V E) :
    edit.Live g ↔ m.Admits edit := by
  have hvertex : ∀ i, (g.vertexId? i).isSome ↔ ∃ v ∈ m.vertexIds, v.index = i := fun i => by
    rw [Option.isSome_iff_exists]
    exact exists_congr fun v => h.holds.vertexId?_eq_some
  have hedge : ∀ i, (g.edgeId? i).isSome ↔ ∃ e ∈ m.edgeIds, e.index = i := fun i => by
    rw [Option.isSome_iff_exists]
    exact exists_congr fun e => h.holds.edgeId?_eq_some
  constructor
  · intro hlive
    exact ⟨fun v hv => h.holds.containsVertex_iff.mp (hlive.vertices v hv),
      fun e he => h.holds.containsEdge_iff.mp (hlive.edges e he),
      fun i hi => (hvertex i).mp (hlive.vertexSlots i hi),
      fun i hi => (hedge i).mp (hlive.edgeSlots i hi)⟩
  · intro ha
    exact ⟨fun v hv => h.holds.containsVertex_iff.mpr (ha.vertices v hv),
      fun e he => h.holds.containsEdge_iff.mpr (ha.edges e he),
      fun i hi => (hvertex i).mpr (ha.vertexSlots i hi),
      fun i hi => (hedge i).mpr (ha.edgeSlots i hi)⟩

/-- An edit goes through exactly when everything that it requires is live. -/
theorem Represents.apply_ok (h : Represents g m) {edit : Edit V E} (hlive : edit.Live g) :
    ∃ r g', edit.apply g = .ok r g' ∧ Roster.apply edit m = .ok r (m.after edit) ∧
      Represents g' (m.after edit) := by
  obtain ⟨r, hrun⟩ := Roster.apply_ok h.sound ((h.live_iff edit).mp hlive)
  obtain ⟨g', hrun', h'⟩ := (tally_apply h edit).exists_ok hrun
  exact ⟨r, g', hrun', hrun, h'⟩

theorem Represents.apply_error (h : Represents g m) {edit : Edit V E} (hdead : ¬ edit.Live g) :
    ∃ f g', edit.apply g = .error f g' ∧ (∀ c, f ≠ .corrupt c) ∧ Represents g' m := by
  obtain ⟨f, hrun, hfault⟩ :=
    Roster.apply_error h.sound fun ha => hdead ((h.live_iff edit).mpr ha)
  obtain ⟨g', hrun', h'⟩ := (tally_apply h edit).exists_error hrun
  exact ⟨f, g', hrun', hfault, h'⟩

theorem applyAll_cons_ok {edit : Edit V E} {rest : List (Edit V E)} {g' : Multigraph V E}
    {r : Answer V E × List Event} (h : edit.apply g = .ok r g') :
    Edit.applyAll g (edit :: rest) = Edit.applyAll g' rest := by
  simp [Edit.applyAll, h]

theorem applyAll_cons_error {edit : Edit V E} {rest : List (Edit V E)} {g' : Multigraph V E}
    {f : Fault} (h : edit.apply g = .error f g') :
    Edit.applyAll g (edit :: rest) = Edit.applyAll g' rest := by
  simp [Edit.applyAll, h]

theorem Represents.applyAll (h : Represents g m) (edits : List (Edit V E)) :
    ∃ m', Represents (Edit.applyAll g edits) m' := by
  induction edits generalizing g m with
  | nil => exact ⟨m, h⟩
  | cons edit rest ih =>
    by_cases hlive : edit.Live g
    · obtain ⟨r, g', hrun, -, h'⟩ := h.apply_ok hlive
      rw [applyAll_cons_ok hrun]
      exact ih h'
    · obtain ⟨f, g', hrun, -, h'⟩ := h.apply_error hlive
      rw [applyAll_cons_error hrun]
      exact ih h'

end Multigraph

end SlotGraph

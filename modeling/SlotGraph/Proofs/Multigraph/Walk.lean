import SlotGraph.Proofs.Multigraph.Lookup
set_option autoImplicit false

namespace SlotGraph

namespace Roster

variable {V E : Type} {m : Roster V E}

theorem Sound.successor_vertex (h : m.Sound) {l r : List (SlotId × V)} {p : SlotId × V}
    (hlive : m.vertices.live = l ++ p :: r) :
    successor? ⟨p.1⟩ m.vertexIds = r.head?.map fun q => ⟨q.1⟩ := by
  have hd := h.nodup_vertexIds
  rw [vertexIds, hlive, List.map_append, List.map_cons] at hd ⊢
  have hnot := (List.nodup_middle.mp hd).notMem
  rw [successor?_eq fun hl => hnot (List.mem_append_left _ hl), List.head?_map]

theorem Sound.successor_edge (h : m.Sound) {l r : List (SlotId × Arc E)} {p : SlotId × Arc E}
    (hlive : m.edges.live = l ++ p :: r) :
    successor? ⟨p.1⟩ m.edgeIds = r.head?.map fun q => ⟨q.1⟩ := by
  have hd := h.nodup_edgeIds
  rw [edgeIds, hlive, List.map_append, List.map_cons] at hd ⊢
  have hnot := (List.nodup_middle.mp hd).notMem
  rw [successor?_eq fun hl => hnot (List.mem_append_left _ hl), List.head?_map]

end Roster

namespace Multigraph

variable {V E : Type} {g : Multigraph V E} {m : Roster V E}

open LinkStore (next? prev?)

theorem Holds.vertexCount_eq (h : Holds g m) : g.vertexCount = m.vertexIds.length := by
  rw [vertexCount, h.vertices.size_eq, Roster.vertexIds, List.length_map]

theorem Holds.edgeCount_eq (h : Holds g m) : g.edgeCount = m.edgeIds.length := by
  rw [edgeCount, h.edges.size_eq, Roster.length_edgeIds]

theorem Represents.length_incident_le (h : Represents g m) (d : Direction) (v : VertexId) :
    (m.incident d v).length ≤ g.edgeCount := by
  rw [h.holds.edgeCount_eq]
  exact (m.incident_sublist d v).length_le

theorem Represents.firstVertex?_eq (h : Represents g m) : g.firstVertex? = m.vertexIds.head? := by
  rw [firstVertex?, h.holds.vertices.head_eq, ← Roster.map_index_vertexIds, List.head?_map]
  cases hv : m.vertexIds with
  | nil => rfl
  | cons v vs => exact h.holds.vertexId?_of_mem (by simp [hv])

theorem Represents.firstEdge?_eq (h : Represents g m) : g.firstEdge? = m.edgeIds.head? := by
  rw [firstEdge?, h.holds.edges.head_eq, ← Roster.map_index_edgeIds, List.head?_map]
  cases he : m.edgeIds with
  | nil => rfl
  | cons e es => exact h.holds.edgeId?_of_mem (by simp [he])

theorem Represents.nextVertex_ok (h : Represents g m) {v : VertexId} (hv : v ∈ m.vertexIds) :
    g.nextVertex v = .ok (successor? v m.vertexIds) := by
  obtain ⟨x, hx⟩ := Roster.mem_vertexIds.mp hv
  obtain ⟨l, r, hlive⟩ := List.append_of_mem hx
  have hnext : g.vertices.next? v.index = r.head?.map fun q => q.1.index :=
    h.holds.vertices.next?_eq hlive
  have hsucc : successor? v m.vertexIds = r.head?.map fun q => ⟨q.1⟩ :=
    h.sound.successor_vertex hlive
  rw [nextVertex, h.holds.checkVertex_ok hv, hnext, hsucc]
  cases r with
  | nil => rfl
  | cons q r =>
    have hq : VertexId.mk q.1 ∈ m.vertexIds :=
      Roster.mem_vertexIds.mpr ⟨q.2, by rw [hlive]; simp⟩
    exact congrArg Except.ok (h.holds.vertexId?_of_mem hq)

theorem Represents.next?_edge (h : Represents g m) {e : EdgeId} (he : e ∈ m.edgeIds) :
    (g.edges.next? e.index).bind g.edgeId? = successor? e m.edgeIds := by
  obtain ⟨x, hx⟩ := Roster.mem_edgeIds.mp he
  obtain ⟨l, r, hlive⟩ := List.append_of_mem hx
  have hnext : g.edges.next? e.index = r.head?.map fun q => q.1.index :=
    h.holds.edges.next?_eq hlive
  have hsucc : successor? e m.edgeIds = r.head?.map fun q => ⟨q.1⟩ :=
    h.sound.successor_edge hlive
  rw [hnext, hsucc]
  cases r with
  | nil => rfl
  | cons q r =>
    have hq : EdgeId.mk q.1 ∈ m.edgeIds :=
      Roster.mem_edgeIds.mpr ⟨q.2, by rw [hlive]; simp⟩
    exact h.holds.edgeId?_of_mem hq

theorem Represents.nextEdge_ok (h : Represents g m) {e : EdgeId} (he : e ∈ m.edgeIds) :
    g.nextEdge e = .ok (successor? e m.edgeIds) := by
  rw [nextEdge, h.holds.checkEdge_ok he, h.next?_edge he]
  rfl

theorem Holds.edgeAfter_ok (h : Holds g m) {n : Node} {d : Direction} {i : Nat} {es : List EdgeId}
    (hnext : next? g d n = some ((nodes es).headD (.head i))) (hes : ∀ e ∈ es, e ∈ m.edgeIds) :
    g.edgeAfter n d = .ok es.head? := by
  obtain ⟨l, hl, hln⟩ := Option.map_eq_some_iff.mp hnext
  have hlink : LinkStore.link g n d = .ok l := LinkStore.link_eq hl
  cases es with
  | nil =>
    replace hln : l.next = .head i := hln
    simp [edgeAfter, hlink, hln, bind, Except.bind, pure, Except.pure]
  | cons e es =>
    replace hln : l.next = .edge e.index := hln
    have hid : g.edgeIdAt e.index = .ok e := by
      rw [edgeIdAt, h.edgeId?_of_mem (hes e (by simp))]
    simp [edgeAfter, hlink, hln, hid, bind, Except.bind, pure, Except.pure]

theorem Represents.edgeAfter_head (h : Represents g m) {v : VertexId} (hv : v ∈ m.vertexIds)
    (d : Direction) : g.edgeAfter (.head v.index) d = .ok (m.incident d v).head? :=
  h.holds.edgeAfter_ok (h.circled d v hv).next_eq fun _ he => Roster.mem_edgeIds_of_incident he

theorem Represents.edgeAfter_edge (h : Represents g m) {d : Direction} {v : VertexId}
    {e : EdgeId} (hv : v ∈ m.vertexIds) (he : e ∈ m.incident d v) :
    g.edgeAfter (.edge e.index) d = .ok (successor? e (m.incident d v)) := by
  obtain ⟨l, r, hsplit⟩ := List.append_of_mem he
  have hring := h.circled d v hv
  have hd := h.sound.nodup_incident d v
  rw [hsplit] at hd
  have hnot : e ∉ l := fun hl => (List.nodup_middle.mp hd).notMem (List.mem_append_left _ hl)
  rw [hsplit, nodes_append, nodes_cons] at hring
  rw [hsplit, successor?_eq hnot]
  refine h.holds.edgeAfter_ok hring.next_member fun f hf => ?_
  exact Roster.mem_edgeIds_of_incident (d := d) (v := v) (by rw [hsplit]; simp [hf])

theorem Represents.firstIncident_ok (h : Represents g m) {v : VertexId} (hv : v ∈ m.vertexIds)
    (d : Direction) : g.firstIncident d v = .ok (m.incident d v).head? := by
  rw [firstIncident, h.holds.checkVertex_ok hv, ← h.edgeAfter_head hv d]
  rfl

theorem Represents.nextIncident_ok (h : Represents g m) {d : Direction} {v : VertexId}
    {e : EdgeId} (hv : v ∈ m.vertexIds) (he : e ∈ m.incident d v) :
    g.nextIncident d e = .ok (successor? e (m.incident d v)) := by
  rw [nextIncident, h.holds.checkEdge_ok (Roster.mem_edgeIds_of_incident he),
    ← h.edgeAfter_edge hv he]
  rfl

theorem Holds.vertexIds_gives (h : Holds g m) : TwoEnded.Gives g.vertexIds m.vertexIds :=
  h.vertices.handles_gives VertexId.mk

theorem Holds.edgeIds_gives (h : Holds g m) : TwoEnded.Gives g.edgeIds m.edgeIds :=
  h.edges.handles_gives EdgeId.mk

/-- A reader of a circle between what it gave at the front and what it gave at the back. -/
def Rounds (it : IncidentEdges V E) (xs : List EdgeId) : Prop :=
  ∃ m v l r, Represents it.graph m ∧ v ∈ m.vertexIds ∧
    m.incident it.direction v = l ++ (xs ++ r) ∧
    it.front = (nodes (xs ++ r)).headD (.head v.index) ∧
    it.back = (nodes (l ++ xs)).getLastD (.head v.index) ∧ it.remaining = xs.length

theorem exact_rounds : TwoEnded.Exact (Rounds (V := V) (E := E)) where
  remaining := fun ⟨_, _, _, _, _, _, _, _, _, hn⟩ => hn
  next_nil := by
    intro it hit
    obtain ⟨g, d, front, back, n⟩ := it
    obtain ⟨m, v, l, r, h, hv, hsplit, hf, hb, hn⟩ := hit
    obtain rfl : n = 0 := hn
    rfl
  next_cons := by
    intro it e xs hit
    obtain ⟨g, d, front, back, n⟩ := it
    obtain ⟨m, v, l, r, h, hv, hsplit, hf, hb, hn⟩ := hit
    obtain rfl : n = xs.length + 1 := hn
    obtain rfl : front = .edge e.index := hf
    have hid := h.holds.edgeId?_of_mem (Roster.mem_edgeIds_of_incident (e := e) (d := d) (v := v)
      (by rw [hsplit]; simp))
    have hring := h.circled d v hv
    rw [hsplit, List.cons_append, nodes_append, nodes_cons] at hring
    obtain ⟨k, hk, hnext⟩ := Option.map_eq_some_iff.mp hring.next_member
    replace hk : g.link? (.edge e.index) d = some k := hk
    refine ⟨⟨g, d, k.next, back, xs.length⟩, ?_, m, v, l ++ [e], r, h, hv, by simpa using hsplit,
      hnext, by simpa using hb, rfl⟩
    show IncidentEdges.next? _ = _
    simp only [IncidentEdges.next?, hid, hk]
  back_nil := by
    intro it hit
    obtain ⟨g, d, front, back, n⟩ := it
    obtain ⟨m, v, l, r, h, hv, hsplit, hf, hb, hn⟩ := hit
    obtain rfl : n = 0 := hn
    rfl
  back_snoc := by
    intro it e xs hit
    obtain ⟨g, d, front, back, n⟩ := it
    obtain ⟨m, v, l, r, h, hv, hsplit, hf, hb, hn⟩ := hit
    obtain rfl : n = xs.length + 1 := by simpa using hn
    obtain rfl : back = .edge e.index := by simpa [nodes] using hb
    have hid := h.holds.edgeId?_of_mem (Roster.mem_edgeIds_of_incident (e := e) (d := d) (v := v)
      (by rw [hsplit]; simp))
    have hring := h.circled d v hv
    have hsplit' : m.incident d v = (l ++ xs) ++ e :: r := by simpa using hsplit
    rw [hsplit', nodes_append, nodes_cons] at hring
    obtain ⟨k, hk, hprev⟩ := Option.map_eq_some_iff.mp hring.prev_member
    replace hk : g.link? (.edge e.index) d = some k := hk
    refine ⟨⟨g, d, front, k.prev, xs.length⟩, ?_, m, v, l, e :: r, h, hv, by simpa using hsplit,
      by simpa using hf, hprev, rfl⟩
    show IncidentEdges.nextBack? _ = _
    simp only [IncidentEdges.nextBack?, hid, hk]

theorem Represents.incidentEdges_rounds (h : Represents g m) {v : VertexId}
    (hv : v ∈ m.vertexIds) (d : Direction) :
    ∃ it, g.incidentEdges d v = .ok it ∧ Rounds it (m.incident d v) := by
  obtain ⟨x, hx⟩ := Roster.mem_vertexIds.mp hv
  obtain ⟨r, hr, hat, -⟩ := h.holds.vertexRecord_ok hx
  have hring := h.circled d v hv
  have hlink : g.link? (.head v.index) d = some (r.heads.get d) := by simp [link?, hat]
  have hcount := h.counts v hv d
  simp only [count?, hat, Option.map_some, Option.some.injEq] at hcount
  refine ⟨⟨g, d, (r.heads.get d).next, (r.heads.get d).prev, r.degree.get d⟩, ?_,
    m, v, [], [], h, hv, by simp, ?_, ?_, hcount⟩
  · simp [incidentEdges, hr, bind, Except.bind, pure, Except.pure]
  · rw [List.append_nil]
    simpa [next?, LinkStore.link?, hlink] using hring.next_eq
  · rw [List.nil_append]
    simpa [prev?, LinkStore.link?, hlink] using hring.prev_eq

theorem Represents.incidentEdges_ok (h : Represents g m) {v : VertexId} (hv : v ∈ m.vertexIds)
    (d : Direction) :
    ∃ it, g.incidentEdges d v = .ok it ∧ TwoEnded.Gives it (m.incident d v) := by
  obtain ⟨it, hrun, hit⟩ := h.incidentEdges_rounds hv d
  exact ⟨it, hrun, Rounds, exact_rounds, hit⟩

end Multigraph

end SlotGraph

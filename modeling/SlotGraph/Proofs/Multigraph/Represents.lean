import SlotGraph.Proofs.Incidence.Circle
import SlotGraph.Proofs.Multigraph.Incident
import SlotGraph.Proofs.Multigraph.View
set_option autoImplicit false

/-!
A multigraph and the roster that it stands for. The tables hold the records of the roster, every
vertex has a circle through its edges of each direction, and every count is the length of a list.
-/

namespace SlotGraph

def nodes (es : List EdgeId) : List Node := es.map fun e => .edge e.index

@[simp] theorem nodes_nil : nodes [] = [] := rfl

@[simp] theorem nodes_cons (e : EdgeId) (es : List EdgeId) :
    nodes (e :: es) = .edge e.index :: nodes es := rfl

@[simp] theorem nodes_append (es fs : List EdgeId) : nodes (es ++ fs) = nodes es ++ nodes fs :=
  List.map_append ..

theorem edge_mem_nodes {es : List EdgeId} {i : Nat} :
    .edge i ∈ nodes es ↔ ∃ e ∈ es, e.index = i := by simp [nodes]

theorem head_not_mem_nodes {es : List EdgeId} {i : Nat} : Node.head i ∉ nodes es := by
  simp [nodes]

namespace Multigraph

variable {V E : Type}

open LinkStore (next? prev?)

/-- Each of the vertices has a circle of direction `d` through the edges listed for it. -/
def Circled (g : Multigraph V E) (d : Direction) (vs : List VertexId)
    (es : VertexId → List EdgeId) : Prop :=
  ∀ v ∈ vs, Ring (next? g d) (prev? g d) (.head v.index) (nodes (es v))

structure Represents (g : Multigraph V E) (m : Roster V E) : Prop where
  holds : Holds g m
  ends : ∀ p ∈ m.edges.live, ∀ d, p.2.endpoint d ∈ m.vertexIds
  circled : ∀ d, Circled g d m.vertexIds (m.incident d)
  counts : ∀ v ∈ m.vertexIds, ∀ d, g.count? d v.index = some (m.incident d v).length

theorem Represents.sound {g : Multigraph V E} {m : Roster V E} (h : Represents g m) : m.Sound :=
  ⟨h.holds.vertices.nodup, h.holds.edges.nodup, h.ends⟩

theorem represents_empty : Represents (empty : Multigraph V E) {} where
  holds := ⟨⟨{}, Table.represents_empty, rfl⟩, ⟨{}, Table.represents_empty, rfl⟩⟩
  ends _ hp := nomatch hp
  circled _ _ hv := nomatch hv
  counts _ hv := nomatch hv

section

variable {m : Roster V E}

theorem nodup_circle (h : m.Sound) (d : Direction) (v : VertexId) (i : Nat) :
    (Node.head i :: nodes (m.incident d v)).Nodup := by
  refine List.nodup_cons.mpr ⟨head_not_mem_nodes, ?_⟩
  refine List.Nodup.map_on (fun e he f hf heq => ?_) (h.nodup_incident d v)
  exact h.edge_eq (Roster.mem_edgeIds_of_incident he) (Roster.mem_edgeIds_of_incident hf)
    (Node.edge.inj heq)

theorem Circled.circle {g : Multigraph V E} {d : Direction} {vs : List VertexId}
    (hc : Circled g d vs (m.incident d)) (h : m.Sound) {v : VertexId} (hv : v ∈ vs) :
    LinkStore.Circle g d (.head v.index) (nodes (m.incident d v)) :=
  ⟨hc v hv, nodup_circle h d v v.index⟩

theorem circle_unique (h : m.Sound) {d : Direction} {v w : VertexId} (hv : v ∈ m.vertexIds)
    (hw : w ∈ m.vertexIds) {n : Node} (hnv : n ∈ .head v.index :: nodes (m.incident d v))
    (hnw : n ∈ .head w.index :: nodes (m.incident d w)) : v = w := by
  cases n with
  | head i =>
    have hiv : i = v.index := by simpa [head_not_mem_nodes] using hnv
    have hiw : i = w.index := by simpa [head_not_mem_nodes] using hnw
    exact h.vertex_eq hv hw (hiv.symm.trans hiw)
  | edge i =>
    obtain ⟨e, he, hei⟩ := edge_mem_nodes.mp (by simpa using hnv)
    obtain ⟨f, hf, hfi⟩ := edge_mem_nodes.mp (by simpa using hnw)
    have hef : e = f := h.edge_eq (Roster.mem_edgeIds_of_incident he)
      (Roster.mem_edgeIds_of_incident hf) (hei.trans hfi.symm)
    exact h.incident_unique he (hef ▸ hf)

end

def recountEnds (g : Multigraph V E) (r : Arc E) (f : Nat → Nat) : Multigraph V E :=
  (g.recount r.source.index .outgoing f).recount r.target.index .incoming f

theorem count?_recountEnds {m : Roster V E} (h : m.Sound) {r : Arc E}
    (hr : ∀ d, r.endpoint d ∈ m.vertexIds) {v : VertexId} (hv : v ∈ m.vertexIds)
    (g : Multigraph V E) (f : Nat → Nat) (d : Direction) :
    (g.recountEnds r f).count? d v.index =
      if r.endpoint d = v then (g.count? d v.index).map f else g.count? d v.index := by
  have hindex : v.index = (r.endpoint d).index ↔ r.endpoint d = v :=
    ⟨fun heq => (h.vertex_eq hv (hr d) heq).symm, fun heq => by rw [heq]⟩
  cases d with
  | outgoing =>
    simp only [recountEnds, count?_recount, reduceCtorEq, and_false, and_true, ite_false]
    exact if_congr hindex rfl rfl
  | incoming =>
    simp only [recountEnds, count?_recount, reduceCtorEq, and_false, and_true, ite_false]
    exact if_congr hindex rfl rfl

theorem steps_recountEnds (g : Multigraph V E) (r : Arc E) (f : Nat → Nat) (d : Direction) :
    next? (g.recountEnds r f) d = next? g d ∧ prev? (g.recountEnds r f) d = prev? g d := by
  have hlink : ∀ n, (g.recountEnds r f).link? n d = g.link? n d := fun n => by
    rw [recountEnds, link?_recount, link?_recount]
  constructor
  · funext n
    exact congrArg (Option.map Link.next) (hlink n)
  · funext n
    exact congrArg (Option.map Link.prev) (hlink n)

section

variable {g : Multigraph V E} (g' : Multigraph V E) {d : Direction} {i : Nat}

theorem link?_head_congr (h : g'.vertices.at? i = g.vertices.at? i) :
    g'.link? (.head i) d = g.link? (.head i) d := by simp only [link?, h]

theorem link?_edge_congr (h : g'.edges.at? i = g.edges.at? i) :
    g'.link? (.edge i) d = g.link? (.edge i) d := by simp only [link?, h]

theorem count?_congr (h : g'.vertices.at? i = g.vertices.at? i) :
    g'.count? d i = g.count? d i := by simp only [count?, h]

variable {vs : List VertexId} {es : VertexId → List EdgeId}

theorem Circled.of_steps {g' : Multigraph V E} (h : Circled g d vs es)
    (hstep : next? g' d = next? g d ∧ prev? g' d = prev? g d) : Circled g' d vs es := by
  intro v hv
  rw [hstep.1, hstep.2]
  exact h v hv

theorem Circled.of_records (h : Circled g d vs es)
    (hvertex : ∀ v ∈ vs, g'.vertices.at? v.index = g.vertices.at? v.index)
    (hedge : ∀ v ∈ vs, ∀ e ∈ es v, g'.edges.at? e.index = g.edges.at? e.index) :
    Circled g' d vs es := by
  intro v hv
  have hlink : ∀ n ∈ Node.head v.index :: nodes (es v), g'.link? n d = g.link? n d := by
    intro n hn
    rcases List.mem_cons.mp hn with rfl | hn
    · exact link?_head_congr g' (hvertex v hv)
    · obtain ⟨e, he, rfl⟩ := List.mem_map.mp hn
      exact link?_edge_congr g' (hedge v hv e he)
  refine (h v hv).congr (fun n hn => ?_) (fun n hn => ?_)
  · exact congrArg (Option.map Link.next) (hlink n hn)
  · exact congrArg (Option.map Link.prev) (hlink n hn)

end

end Multigraph

end SlotGraph

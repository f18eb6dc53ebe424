import SlotGraph.Multigraph.Report
import SlotGraph.Proofs.Multigraph.Admission
set_option autoImplicit false

namespace SlotGraph

def firstDead? {ι : Type} (live : ι → Bool) (fault : ι → Fault) (l : List ι) : Option Fault :=
  (l.find? fun x => !live x).map fault

section

variable {ι : Type} {live : ι → Bool} {fault : ι → Fault}

@[simp] theorem firstDead?_nil : firstDead? live fault [] = none := rfl

theorem firstDead?_eq_none {l : List ι} :
    firstDead? live fault l = none ↔ ∀ x ∈ l, live x = true := by
  simp [firstDead?]

theorem firstDead?_one {x : ι} {f : Fault} :
    firstDead? live fault [x] = some f ↔ live x = false ∧ fault x = f := by
  cases hx : live x <;> simp [firstDead?, hx]

theorem firstDead?_two {x y : ι} {f : Fault} : firstDead? live fault [x, y] = some f ↔
    live x = false ∧ fault x = f ∨ live x = true ∧ live y = false ∧ fault y = f := by
  cases hx : live x <;> cases hy : live y <;> simp [firstDead?, hx, hy]

end

namespace Multigraph

variable {V E : Type} {g : Multigraph V E}

open Change

theorem vertexOf_dead {i : Nat} (h : g.vertexId? i = none) :
    Descriptor.vertexOf g i = .error (.deadVertexDescriptor i) := by
  simp [Descriptor.vertexOf, h]

theorem edgeOf_dead {i : Nat} (h : g.edgeId? i = none) :
    Descriptor.edgeOf g i = .error (.deadEdgeDescriptor i) := by
  simp [Descriptor.edgeOf, h]

theorem error_bind {α β : Type} {r : Except Fault α} {f : α → Except Fault β} {e : Fault}
    (h : r = .error e) : (r >>= f) = .error e := by
  rw [h]
  rfl

section

variable {v : VertexId} (h : g.containsVertex v = false)

include h

theorem eraseVertex_dead : eraseVertex v g = .error (.deadVertex v) g :=
  ask_bind_error (error_bind (checkVertex_dead h))

theorem removeVertex_dead : removeVertex v g = .error (.deadVertex v) g :=
  ask_bind_error (checkVertex_dead h)

theorem updateVertex_dead (f : V → V) : updateVertex v f g = .error (.deadVertex v) g := by
  have hrun : updateVertex? v f g = .ok (g.vertex? v) { g with
      vertices := g.vertices.update v.slot fun r => { r with payload := f r.payload } } := rfl
  rw [Table.update_of_dead h, vertex?, Table.get?_of_dead h] at hrun
  exact bind_ok hrun

theorem clearIncident_dead (d : Direction) : clearIncident d v g = .error (.deadVertex v) g :=
  ask_bind_error (checkVertex_dead h)

theorem clearVertexEdges_dead : clearVertexEdges v g = .error (.deadVertex v) g :=
  ask_bind_error (checkVertex_dead h)

end

theorem insertEdge_dead_source {s : VertexId} (hs : g.containsVertex s = false) (t : VertexId)
    (x : E) : insertEdge s t x g = .error (.deadVertex s) g :=
  ask_bind_error (checkVertex_dead hs)

theorem insertEdge_dead_target {s t : VertexId} (hs : g.containsVertex s = true)
    (ht : g.containsVertex t = false) (x : E) : insertEdge s t x g = .error (.deadVertex t) g := by
  have hcheck : g.checkVertex s = .ok () := by simp [checkVertex, hs]
  refine (ask_bind_ok (x := ()) ?_).trans (ask_bind_error ?_)
  · exact hcheck
  · exact checkVertex_dead ht

section

variable {e : EdgeId} (h : g.containsEdge e = false)

include h

theorem eraseEdge_dead : eraseEdge e g = .error (.deadEdge e) g :=
  ask_bind_error (error_bind (checkEdge_dead h))

theorem eraseIncident_dead (d : Direction) : eraseIncident d e g = .error (.deadEdge e) g :=
  ask_bind_error (error_bind (checkEdge_dead h))

theorem removeEdge_dead : removeEdge e g = .error (.deadEdge e) g :=
  ask_bind_error (checkEdge_dead h)

theorem updateEdge_dead (f : E → E) : updateEdge e f g = .error (.deadEdge e) g := by
  have hrun : updateEdge? e f g = .ok (g.edge? e) { g with
      edges := g.edges.update e.slot fun r => { r with payload := f r.payload } } := rfl
  rw [Table.update_of_dead h, edge?, Table.get?_of_dead h] at hrun
  exact bind_ok hrun

end

/-- The fault at the first handle or descriptor of an edit that is not live, in the order in which
they are checked. -/
def Edit.firstDead? (g : Multigraph V E) (edit : Edit V E) : Option Fault :=
  (SlotGraph.firstDead? g.containsVertex .deadVertex edit.vertices).or <|
    (SlotGraph.firstDead? g.containsEdge .deadEdge edit.edges).or <|
      (SlotGraph.firstDead? (fun i => (g.vertexId? i).isSome) .deadVertexDescriptor
        edit.vertexSlots).or <|
        SlotGraph.firstDead? (fun i => (g.edgeId? i).isSome) .deadEdgeDescriptor edit.edgeSlots

theorem Edit.firstDead?_eq_none {edit : Edit V E} : edit.firstDead? g = none ↔ edit.Live g := by
  simp only [Edit.firstDead?, Option.or_eq_none_iff, SlotGraph.firstDead?_eq_none]
  exact ⟨fun ⟨hv, he, hi, hj⟩ => ⟨hv, he, hi, hj⟩, fun ⟨hv, he, hi, hj⟩ => ⟨hv, he, hi, hj⟩⟩

theorem apply_of_firstDead? {edit : Edit V E} {f : Fault} (h : edit.firstDead? g = some f) :
    edit.apply g = .error f g := by
  cases edit <;> simp only [Edit.firstDead?, Edit.vertices, Edit.edges, Edit.vertexSlots,
    Edit.edgeSlots, firstDead?_nil, Option.or_none, Option.none_or, reduceCtorEq, firstDead?_one,
    firstDead?_two, Option.isSome_eq_false_iff, Option.isNone_iff_eq_none] at h
  case eraseVertex v =>
    obtain ⟨hdead, rfl⟩ := h
    exact bind_error (eraseVertex_dead hdead)
  case removeVertex v =>
    obtain ⟨hdead, rfl⟩ := h
    exact bind_error (removeVertex_dead hdead)
  case updateVertex v u =>
    obtain ⟨hdead, rfl⟩ := h
    exact bind_error (updateVertex_dead hdead u)
  case insertEdge s t x =>
    rcases h with ⟨hsource, rfl⟩ | ⟨hsource, htarget, rfl⟩
    · exact bind_error (insertEdge_dead_source hsource t x)
    · exact bind_error (insertEdge_dead_target hsource htarget x)
  case eraseEdge e =>
    obtain ⟨hdead, rfl⟩ := h
    exact bind_error (eraseEdge_dead hdead)
  case eraseIncident d e =>
    obtain ⟨hdead, rfl⟩ := h
    exact bind_error (eraseIncident_dead hdead d)
  case removeEdge e =>
    obtain ⟨hdead, rfl⟩ := h
    exact bind_error (removeEdge_dead hdead)
  case updateEdge e u =>
    obtain ⟨hdead, rfl⟩ := h
    exact bind_error (updateEdge_dead hdead u)
  case clearIncident d v =>
    obtain ⟨hdead, rfl⟩ := h
    exact bind_error (clearIncident_dead hdead d)
  case clearVertexEdges v =>
    obtain ⟨hdead, rfl⟩ := h
    exact bind_error (clearVertexEdges_dead hdead)
  case removeVertexAt i =>
    obtain ⟨hdead, rfl⟩ := h
    exact bind_error (ask_bind_error (vertexOf_dead hdead))
  case clearVertexAt i =>
    obtain ⟨hdead, rfl⟩ := h
    exact bind_error (ask_bind_error (vertexOf_dead hdead))
  case addEdgeAt i j x =>
    rcases h with ⟨hsource, rfl⟩ | ⟨hsource, htarget, rfl⟩
    · exact bind_error (ask_bind_error (vertexOf_dead hsource))
    · obtain ⟨s, hs⟩ := Option.isSome_iff_exists.mp hsource
      have hof : Descriptor.vertexOf g i = .ok s := by rw [Descriptor.vertexOf, hs]
      refine bind_error ((ask_bind_ok (x := s) ?_).trans (ask_bind_error ?_))
      · exact hof
      · exact vertexOf_dead htarget
  case removeEdgeAt i =>
    obtain ⟨hdead, rfl⟩ := h
    exact bind_error (ask_bind_error (edgeOf_dead hdead))
  case removeIncidentIf d i p =>
    obtain ⟨hdead, rfl⟩ := h
    exact bind_error (ask_bind_error (vertexOf_dead hdead))

/-- Whatever requires a handle or a descriptor that is not live stops at the first such. An edit
that stops there leaves the multigraph as it was, with its slots, links and counts. -/
structure ChecksFirst (g : Multigraph V E) : Prop where
  edits (edit : Edit V E) : ¬ edit.Live g →
    ∃ f, edit.firstDead? g = some f ∧ edit.apply g = .error f g
  vertex {v : VertexId} : g.containsVertex v = false →
    g.checkVertex v = .error (.deadVertex v) ∧ g.vertex v = .error (.deadVertex v) ∧
      g.vertexReport v = .error (.deadVertex v)
  degrees {v : VertexId} : g.containsVertex v = false →
    g.outDegree v = .error (.deadVertex v) ∧ g.inDegree v = .error (.deadVertex v) ∧
      g.degree v = .error (.deadVertex v)
  incidentEdges {v : VertexId} : g.containsVertex v = false →
    g.outEdges v = .error (.deadVertex v) ∧ g.inEdges v = .error (.deadVertex v)
  vertexCursors {v : VertexId} : g.containsVertex v = false →
    g.nextVertex v = .error (.deadVertex v) ∧ ∀ d, g.firstIncident d v = .error (.deadVertex v)
  edge {e : EdgeId} : g.containsEdge e = false →
    g.checkEdge e = .error (.deadEdge e) ∧ g.edge e = .error (.deadEdge e) ∧
      g.edgeReport e = .error (.deadEdge e)
  endpoints {e : EdgeId} : g.containsEdge e = false →
    g.source e = .error (.deadEdge e) ∧ g.target e = .error (.deadEdge e) ∧
      g.endpoints e = .error (.deadEdge e)
  edgeCursors {e : EdgeId} : g.containsEdge e = false →
    g.nextEdge e = .error (.deadEdge e) ∧ ∀ d, g.nextIncident d e = .error (.deadEdge e)
  vertexSlot {i : Nat} : g.vertexId? i = none →
    Descriptor.outDegree g i = .error (.deadVertexDescriptor i) ∧
      Descriptor.inDegree g i = .error (.deadVertexDescriptor i) ∧
      Descriptor.degree g i = .error (.deadVertexDescriptor i) ∧
      ∀ d, Descriptor.incidentEdges g d i = .error (.deadVertexDescriptor i)
  edgeSlot {i : Nat} : g.edgeId? i = none →
    Descriptor.source g i = .error (.deadEdgeDescriptor i) ∧
      Descriptor.target g i = .error (.deadEdgeDescriptor i)

theorem checksFirst (g : Multigraph V E) : ChecksFirst g where
  edits edit hdead := by
    obtain ⟨f, hf⟩ := Option.ne_none_iff_exists'.mp fun hnone =>
      hdead (Edit.firstDead?_eq_none.mp hnone)
    exact ⟨f, hf, apply_of_firstDead? hf⟩
  vertex h :=
    have hrecord := vertexRecord_dead h
    ⟨checkVertex_dead h, error_bind hrecord, error_bind (error_bind hrecord)⟩
  degrees h :=
    have hrecord := vertexRecord_dead h
    ⟨error_bind hrecord, error_bind hrecord, error_bind hrecord⟩
  incidentEdges h :=
    have hrecord := vertexRecord_dead h
    ⟨error_bind hrecord, error_bind hrecord⟩
  vertexCursors h :=
    have hcheck := checkVertex_dead h
    ⟨error_bind hcheck, fun _ => error_bind hcheck⟩
  edge h :=
    have hrecord := edgeRecord_dead h
    ⟨checkEdge_dead h, error_bind hrecord, error_bind (error_bind hrecord)⟩
  endpoints h :=
    have hrecord := edgeRecord_dead h
    ⟨error_bind hrecord, error_bind hrecord, error_bind hrecord⟩
  edgeCursors h :=
    have hcheck := checkEdge_dead h
    ⟨error_bind hcheck, fun _ => error_bind hcheck⟩
  vertexSlot h :=
    have hof := vertexOf_dead h
    ⟨error_bind hof, error_bind hof, error_bind hof, fun _ => error_bind hof⟩
  edgeSlot h :=
    have hof := edgeOf_dead h
    ⟨error_bind hof, error_bind hof⟩

end Multigraph

end SlotGraph

import SlotGraph.Proofs.KeyedGraph.Recorded
import SlotGraph.Proofs.Multigraph.Refusal
set_option autoImplicit false

namespace SlotGraph

namespace KeyedGraph

variable {V E K I : Type}

open Change

namespace Edit

def vertices : Edit V E → List VertexId
  | .eraseVertex v | .removeVertex v | .modifyVertex v _ | .clearIncident _ v
  | .clearVertexEdges v => [v]
  | .insertEdge source target _ => [source, target]
  | _ => []

def edges : Edit V E → List EdgeId
  | .eraseEdge e | .removeEdge e | .eraseEdgeAndBareEnds e | .updateEdge e _ => [e]
  | _ => []

/-- Everything that an edit requires is live in the graph. -/
structure Live (g : Multigraph V E) (edit : Edit V E) : Prop where
  vertices : ∀ v ∈ edit.vertices, g.containsVertex v = true
  edges : ∀ e ∈ edit.edges, g.containsEdge e = true

/-- The fault at the first handle of an edit that is not live, in the order in which they are
checked. -/
def firstDead? (g : Multigraph V E) (edit : Edit V E) : Option Fault :=
  (SlotGraph.firstDead? g.containsVertex .deadVertex edit.vertices).or <|
    SlotGraph.firstDead? g.containsEdge .deadEdge edit.edges

theorem firstDead?_eq_none {g : Multigraph V E} {edit : Edit V E} :
    edit.firstDead? g = none ↔ edit.Live g := by
  simp only [firstDead?, Option.or_eq_none_iff, SlotGraph.firstDead?_eq_none]
  exact ⟨fun ⟨hv, he⟩ => ⟨hv, he⟩, fun ⟨hv, he⟩ => ⟨hv, he⟩⟩

end Edit

variable {k : KeyedGraph V E K I}

theorem plain_error {edit : Multigraph.Edit V E} {f : Fault}
    (h : edit.apply k.graph = .error f k.graph) : Edit.plain edit k = .error f k :=
  bind_error (onGraph_error h)

variable [KeyIndex I K]

theorem insertVertex_taken {x : V} {v : VertexId} (h : k.find? (k.keyOf x) = some v) :
    insertVertex x k = .ok (.error (.taken (k.keyOf x))) k := by
  simp only [insertVertex, get_bind, h]
  rfl

theorem Stands.insertVertex_free {keyOf : V → K} {p : Register V E K} (h : Stands keyOf k p) {x : V}
    (hfree : k.find? (k.keyOf x) = none) : ∃ v k', insertVertex x k = .ok (.ok v) k' := by
  obtain ⟨g', hrun, -⟩ := Multigraph.insertVertex_ok h.graph x
  simp only [insertVertex, get_bind, hfree]
  exact ⟨_, _, bind_ok (bind_ok (onGraph_ok hrun))⟩

variable [DecidableEq K]

theorem modifyVertex_dead {α : Type} {v : VertexId} (h : k.graph.containsVertex v = false)
    (f : V → α × V) : modifyVertex v f k = .error (.deadVertex v) k :=
  bind_error (ask_error (Multigraph.error_bind (Multigraph.vertexRecord_dead h)))

theorem apply_of_firstDead? {edit : Edit V E} {f : Fault} (h : edit.firstDead? k.graph = some f) :
    edit.apply k = .error f k := by
  cases edit <;> simp only [Edit.firstDead?, Edit.vertices, Edit.edges, firstDead?_nil,
    Option.or_none, Option.none_or, reduceCtorEq, firstDead?_one, firstDead?_two] at h
  case eraseVertex v =>
    obtain ⟨hdead, rfl⟩ := h
    exact bind_error (bind_error (onGraph_error (Multigraph.eraseVertex_dead hdead)))
  case removeVertex v =>
    obtain ⟨hdead, rfl⟩ := h
    exact bind_error (bind_error (onGraph_error (Multigraph.removeVertex_dead hdead)))
  case modifyVertex v u =>
    obtain ⟨hdead, rfl⟩ := h
    exact bind_error (modifyVertex_dead hdead _)
  case insertEdge s t x =>
    rcases h with ⟨hsource, rfl⟩ | ⟨hsource, htarget, rfl⟩
    · exact plain_error (bind_error (Multigraph.insertEdge_dead_source hsource t x))
    · exact plain_error (bind_error (Multigraph.insertEdge_dead_target hsource htarget x))
  case eraseEdge e =>
    obtain ⟨hdead, rfl⟩ := h
    exact plain_error (bind_error (Multigraph.eraseEdge_dead hdead))
  case removeEdge e =>
    obtain ⟨hdead, rfl⟩ := h
    exact plain_error (bind_error (Multigraph.removeEdge_dead hdead))
  case eraseEdgeAndBareEnds e =>
    obtain ⟨hdead, rfl⟩ := h
    have hends : k.graph.endpoints e = .error (.deadEdge e) :=
      Multigraph.error_bind (Multigraph.edgeRecord_dead hdead)
    exact bind_error (ask_bind_error hends)
  case updateEdge e u =>
    obtain ⟨hdead, rfl⟩ := h
    exact plain_error (bind_error (Multigraph.updateEdge_dead hdead u))
  case clearIncident d v =>
    obtain ⟨hdead, rfl⟩ := h
    exact plain_error (bind_error (Multigraph.clearIncident_dead hdead d))
  case clearVertexEdges v =>
    obtain ⟨hdead, rfl⟩ := h
    exact plain_error (bind_error (Multigraph.clearVertexEdges_dead hdead))

/-- Whatever requires a handle that is not live stops at the first such, and a payload is refused
exactly if a live vertex has its key on record. All is then as it was, graph and index. -/
structure ChecksFirst (k : KeyedGraph V E K I) : Prop where
  graph : k.graph.ChecksFirst
  edits (edit : Edit V E) : ¬ edit.Live k.graph →
    ∃ f, edit.firstDead? k.graph = some f ∧ edit.apply k = .error f k
  modifyVertex {α : Type} {v : VertexId} (f : V → α × V) : k.graph.containsVertex v = false →
    modifyVertex v f k = .error (.deadVertex v) k
  insertVertex (x : V) : ∃ r k', insertVertex x k = .ok r k'
  refused {x : V} {e : KeyError K} {k' : KeyedGraph V E K I} :
    KeyedGraph.insertVertex x k = .ok (.error e) k' ↔
      e = .taken (k.keyOf x) ∧ k' = k ∧
        ∃ v, k.graph.containsVertex v = true ∧ k.keyOf? v = some (k.keyOf x)

variable [LawfulKeyIndex I]

theorem Stands.checksFirst {keyOf : V → K} {p : Register V E K} (h : Stands keyOf k p) :
    ChecksFirst k where
  graph := k.graph.checksFirst
  edits edit hdead := by
    obtain ⟨f, hf⟩ := Option.ne_none_iff_exists'.mp fun hnone =>
      hdead (Edit.firstDead?_eq_none.mp hnone)
    exact ⟨f, hf, apply_of_firstDead? hf⟩
  modifyVertex f hdead := modifyVertex_dead hdead f
  insertVertex x := by
    cases hfind : k.find? (k.keyOf x) with
    | some v => exact ⟨_, _, insertVertex_taken hfind⟩
    | none =>
      obtain ⟨v, k', hrun⟩ := h.insertVertex_free hfind
      exact ⟨_, _, hrun⟩
  refused {x e k'} := by
    constructor
    · intro hrun
      cases hfind : k.find? (k.keyOf x) with
      | some v =>
        rw [insertVertex_taken hfind] at hrun
        cases hrun
        have hkey := (h.paired.inverse _ v).mp hfind
        refine ⟨rfl, rfl, v, ?_, hkey⟩
        rw [← h.paired.live, hkey]
        rfl
      | none =>
        obtain ⟨v, k'', hrun'⟩ := h.insertVertex_free hfind
        rw [hrun] at hrun'
        cases hrun'
    · rintro ⟨rfl, rfl, v, -, hkey⟩
      exact insertVertex_taken ((h.paired.inverse _ v).mpr hkey)

theorem Made.checksFirst {keyOf : V → K} (h : Made keyOf k) (edits : List (Edit V E)) :
    ChecksFirst (k.applyAll edits) := by
  obtain ⟨p, hp⟩ := h.stands_applyAll edits
  exact hp.checksFirst

end KeyedGraph

namespace KeyedGraph

variable {V E K : Type} [DecidableEq K]

/-- However a graph has been edited, with or without keys, by live or dead handles and whether or
not edits stopped on the way, what it refuses it refuses before it changes. -/
theorem checksFirst_applyAll (keyOf : V → K) (edits : List (Edit V E)) :
    (∀ g : Multigraph V E, g.ChecksFirst) ∧
    (∀ [BEq K] [LawfulBEq K] [Hashable K] [Footprint K] {k : KeyedGraph V E K (HashedIndex K)},
      Made keyOf k → ChecksFirst (k.applyAll edits)) ∧
    ∀ [Ord K] [Std.TransOrd K] [Std.LawfulEqOrd K] {k : KeyedGraph V E K (OrderedIndex K)},
      Made keyOf k → ChecksFirst (k.applyAll edits) :=
  ⟨Multigraph.checksFirst, fun hmade => hmade.checksFirst edits,
    fun hmade => hmade.checksFirst edits⟩

def staleEdits : List (Edit (Nat × Nat) Nat) :=
  [.connect (1, 10) (2, 20) 5, .modifyVertex ⟨⟨1, 0⟩⟩ fun x => (3, x.2), .eraseVertex ⟨⟨0, 0⟩⟩,
    .insertVertex (4, 40)]

theorem checksFirst_staleEdits :
    ChecksFirst (applyAll (withIndex Prod.fst ({} : HashedIndex Nat)) staleEdits) ∧
      ChecksFirst (applyAll (withIndex Prod.fst ({} : OrderedIndex Nat)) staleEdits) := by
  obtain ⟨-, hhashed, hordered⟩ := checksFirst_applyAll (Prod.fst : Nat × Nat → Nat) staleEdits
  exact ⟨hhashed (.withIndex {}), hordered (.withIndex {})⟩

end KeyedGraph

end SlotGraph

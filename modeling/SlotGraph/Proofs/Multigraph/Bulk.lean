import SlotGraph.Proofs.Multigraph.Canonical
import SlotGraph.Proofs.Multigraph.Reach
set_option autoImplicit false

/-!
Removal in bulk. An operation that takes many edges leaves the very multigraph that is left when
they are taken one after the other: the links and the counts are the same, and so are the free slots
and their order, which later insertions follow.
-/

namespace SlotGraph

namespace Change

variable {σ α β : Type}

/-- From this state both changes go through, and they leave the same state. -/
def LeaveSame (a : Change σ α) (b : Change σ β) (s : σ) : Prop :=
  ∃ x y t, a s = .ok x t ∧ b s = .ok y t

end Change

namespace Multigraph

variable {V E α β : Type} {g : Multigraph V E} {m m' : Roster V E}

open Change

theorem leaveSame_of_represents {a : Change (Multigraph V E) α} {b : Change (Multigraph V E) β}
    (ha : ∃ x g', a g = .ok x g' ∧ Represents g' m')
    (hb : ∃ y g', b g = .ok y g' ∧ Represents g' m') : LeaveSame a b g := by
  obtain ⟨x, g₁, hrun₁, h₁⟩ := ha
  obtain ⟨y, g₂, hrun₂, h₂⟩ := hb
  rw [h₁.unique h₂] at hrun₂
  exact ⟨x, y, g₁, hrun₁, hrun₂⟩

theorem Represents.mapM_ok {drop : EdgeId → Change (Multigraph V E) α}
    (hdrop : ∀ {g m e}, Represents g m → e ∈ m.edgeIds →
      ∃ x g', drop e g = .ok x g' ∧ Represents g' (m.dropEdge e))
    (h : Represents g m) {es : List EdgeId} (hd : es.Nodup) (hes : ∀ e ∈ es, e ∈ m.edgeIds) :
    ∃ xs g', es.mapM drop g = .ok xs g' ∧ Represents g' (m.dropEdges es) := by
  induction es generalizing g m with
  | nil => exact ⟨[], g, by simp, h⟩
  | cons e es ih =>
    obtain ⟨x, g₁, hrun₁, h₁⟩ := hdrop h (hes e (List.mem_cons_self ..))
    obtain ⟨xs, g₂, hrun₂, h₂⟩ := ih h₁ hd.of_cons (Roster.mem_edgeIds_dropEdge_of_later hd hes)
    refine ⟨x :: xs, g₂, ?_, h₂⟩
    rw [List.mapM_cons, bind_ok hrun₁, bind_ok hrun₂]
    rfl

theorem Represents.removeEdge_ok (h : Represents g m) {e : EdgeId} (he : e ∈ m.edgeIds) :
    ∃ x g', removeEdge e g = .ok x g' ∧ Represents g' (m.dropEdge e) := by
  obtain ⟨r, hr⟩ := Roster.mem_edgeIds.mp he
  exact ⟨_, (tally_removeEdge h e).exists_ok (Roster.removeEdge_ok h.sound hr)⟩

theorem Represents.removeEdgesIf_all (h : Represents g m) {σ : Type} {p : σ → Nat → Bool × σ}
    (hp : ∀ s i, (p s i).1 = true) (s : σ) :
    ∃ s' g', Descriptor.removeEdgesIf p s g = .ok s' g' ∧
      Represents g' (m.dropEdges m.edgeIds) := by
  obtain ⟨g', hrun, h'⟩ := h.removeEdgesIf_ok p s
  rw [Roster.sift_all hp] at h'
  exact ⟨_, g', hrun, h'⟩

theorem Represents.clearIncident_ok (h : Represents g m) {v : VertexId} (hv : v ∈ m.vertexIds)
    (d : Direction) :
    ∃ g', clearIncident d v g = .ok () g' ∧ Represents g' (m.dropIncident d v) :=
  (tally_clearIncident h d v).exists_ok (Roster.clearIncident_ok d hv)

theorem Represents.removeIncidentIf_all (h : Represents g m) {v : VertexId}
    (hv : v ∈ m.vertexIds) (d : Direction) {σ : Type} {p : σ → Nat → Bool × σ}
    (hp : ∀ s i, (p s i).1 = true) (s : σ) :
    ∃ s' g', Descriptor.removeIncidentIf d v.index p s g = .ok s' g' ∧
      Represents g' (m.dropIncident d v) := by
  obtain ⟨g', hrun, h'⟩ := h.removeIncidentIf_ok d hv p s
  rw [Roster.sift_all hp] at h'
  exact ⟨_, g', hrun, h'⟩

theorem Represents.clearVertexEdges_ok (h : Represents g m) {v : VertexId}
    (hv : v ∈ m.vertexIds) :
    ∃ g', clearVertexEdges v g = .ok () g' ∧ Represents g' (m.dropAround v) :=
  (tally_clearVertexEdges h v).exists_ok (Roster.clearVertexEdges_ok hv)

theorem Represents.eraseVertex_ok (h : Represents g m) {v : VertexId} (hv : v ∈ m.vertexIds) :
    ∃ n g', eraseVertex v g = .ok ⟨successor? v m.vertexIds, n⟩ g' ∧
      Represents g' ((m.dropAround v).dropVertex v) := by
  obtain ⟨x, hx⟩ := Roster.mem_vertexIds.mp hv
  exact ⟨_, (tally_eraseVertex h v).exists_ok (Roster.eraseVertex_ok h.sound hx)⟩

/-- Each removal in bulk leaves what is left when its edges go one by one. -/
structure BulkAgrees (g : Multigraph V E) : Prop where
  edges : LeaveSame clearEdges ((TwoEnded.toList g.edgeIds).mapM eraseEdge) g
  edgesIf {σ : Type} (p : σ → Nat → Bool × σ) (s : σ) : (∀ s i, (p s i).1 = true) →
    LeaveSame clearEdges (Descriptor.removeEdgesIf p s) g
  incident (d : Direction) {v : VertexId} : g.containsVertex v = true →
    ∃ it, g.incidentEdges d v = .ok it ∧
      LeaveSame (clearIncident d v) ((TwoEnded.toList it).mapM removeEdge) g
  incidentIf (d : Direction) {v : VertexId} {σ : Type} (p : σ → Nat → Bool × σ) (s : σ) :
    g.containsVertex v = true → (∀ s i, (p s i).1 = true) →
    LeaveSame (clearIncident d v) (Descriptor.removeIncidentIf d v.index p s) g
  around {v : VertexId} : g.containsVertex v = true →
    LeaveSame (clearVertexEdges v) (do clearIncident .outgoing v; clearIncident .incoming v) g
  /-- Clearing around a vertex first changes neither what its erasure leaves nor where it leads. -/
  vertex {v : VertexId} : g.containsVertex v = true →
    ∃ erasure erasure' g', eraseVertex v g = .ok erasure g' ∧
      (do clearVertexEdges v; eraseVertex v : Change _ Erasure) g = .ok erasure' g' ∧
      erasure'.next = erasure.next

theorem Represents.bulkAgrees (h : Represents g m) : BulkAgrees g where
  edges := by
    rw [h.holds.edgeIds_gives.toList_eq]
    exact leaveSame_of_represents ⟨_, clearEdges_ok h⟩
      (h.mapM_ok (fun h he => ⟨_, swept_edgeIds.erase h he⟩) h.sound.nodup_edgeIds fun _ he => he)
  edgesIf p s hp := leaveSame_of_represents ⟨_, clearEdges_ok h⟩ (h.removeEdgesIf_all hp s)
  incident d v hv := by
    replace hv := h.holds.containsVertex_iff.mp hv
    obtain ⟨it, hrun, hit⟩ := h.incidentEdges_ok hv d
    refine ⟨it, hrun, ?_⟩
    rw [hit.toList_eq]
    exact leaveSame_of_represents ⟨_, h.clearIncident_ok hv d⟩
      (h.mapM_ok (fun h he => h.removeEdge_ok he) (h.sound.nodup_incident d v)
        fun _ he => Roster.mem_edgeIds_of_incident he)
  incidentIf d v σ p s hv hp := by
    replace hv := h.holds.containsVertex_iff.mp hv
    exact leaveSame_of_represents ⟨_, h.clearIncident_ok hv d⟩ (h.removeIncidentIf_all hv d hp s)
  around {v} hv := by
    replace hv := h.holds.containsVertex_iff.mp hv
    obtain ⟨g₁, hrun₁, h₁⟩ := h.clearIncident_ok hv .outgoing
    have hv₁ : v ∈ (m.dropIncident .outgoing v).vertexIds := by
      rwa [Roster.vertexIds_dropIncident]
    obtain ⟨g₂, hrun₂, h₂⟩ := h₁.clearIncident_ok hv₁ .incoming
    exact leaveSame_of_represents ⟨_, h.clearVertexEdges_ok hv⟩
      ⟨_, g₂, (bind_ok hrun₁).trans hrun₂, h₂⟩
  vertex {v} hv := by
    replace hv := h.holds.containsVertex_iff.mp hv
    obtain ⟨n, g', hrun, h'⟩ := h.eraseVertex_ok hv
    obtain ⟨g₁, hrun₁, h₁⟩ := h.clearVertexEdges_ok hv
    have hids := m.vertexIds_dropAround v
    obtain ⟨n₂, g₂, hrun₂, h₂⟩ := h₁.eraseVertex_ok (hids ▸ hv)
    -- the second cascade finds no edges, so both ways come to the same roster
    rw [Roster.dropAround_of_bare (m.incident_dropAround v)] at h₂
    rw [h'.unique h₂, hids] at hrun₂
    exact ⟨_, _, g', hrun, (bind_ok hrun₁).trans hrun₂, rfl⟩

/-- In every multigraph that there can be, removal in bulk is removal one by one. -/
theorem Reached.bulkRemoval_agrees (hg : g.Reached) : BulkAgrees g := by
  obtain ⟨m, h⟩ := hg.represents
  exact h.bulkAgrees

def loopAndParallels : List (Edit Nat Nat) :=
  [.insertVertex 10, .insertVertex 20, .insertVertex 30, .insertEdge ⟨0, 0⟩ ⟨0, 0⟩ 1,
    .insertEdge ⟨0, 0⟩ ⟨1, 0⟩ 2, .insertEdge ⟨1, 0⟩ ⟨0, 0⟩ 3, .insertEdge ⟨0, 0⟩ ⟨1, 0⟩ 4,
    .removeEdge ⟨1, 0⟩, .insertEdge ⟨2, 0⟩ ⟨0, 0⟩ 5]

theorem bulkRemoval_agrees_loopAndParallels :
    (Edit.applyAll .empty loopAndParallels).Reached ∧
      (Edit.applyAll .empty loopAndParallels).containsVertex ⟨0, 0⟩ = true ∧
      TwoEnded.toList (Edit.applyAll .empty loopAndParallels).edgeIds =
        [⟨0, 0⟩, ⟨2, 0⟩, ⟨3, 0⟩, ⟨1, 1⟩] ∧
      BulkAgrees (Edit.applyAll .empty loopAndParallels) := by
  have hreached : (Edit.applyAll .empty loopAndParallels).Reached :=
    Reached.empty.applyAll loopAndParallels
  exact ⟨hreached, by decide +kernel, by decide +kernel, hreached.bulkRemoval_agrees⟩

end Multigraph

end SlotGraph

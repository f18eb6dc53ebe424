import SlotGraph.Proofs.Multigraph.Bulk
import SlotGraph.Proofs.Multigraph.Reports
set_option autoImplicit false

namespace SlotGraph

/-- What is left of the report on a vertex when edges go. -/
def VertexReport.withoutAll {V : Type} (gone : List EdgeId) (r : VertexReport V) :
    VertexReport V :=
  let outEdges := r.outEdges.filter (· ∉ gone)
  let inEdges := r.inEdges.filter (· ∉ gone)
  { r with
    outEdges, inEdges
    outDegree := outEdges.length
    inDegree := inEdges.length
    degree := outEdges.length + inEdges.length }

namespace Roster

variable {V E : Type}

theorem vertexReports_dropEdges (m : Roster V E) (es : List EdgeId) :
    (m.dropEdges es).vertexReports = m.vertexReports.map (VertexReport.withoutAll es) := by
  simp only [vertexReports, vertices_dropEdges, List.map_map]
  refine List.map_congr_left fun q _ => ?_
  simp only [vertexReport, incident_dropEdges]
  rfl

theorem edgeReports_dropEdges (m : Roster V E) (es : List EdgeId) :
    (m.dropEdges es).edgeReports = m.edgeReports.filter fun r => decide (r.id ∉ es) := by
  simp only [edgeReports, live_dropEdges, List.filter_map]
  rfl

end Roster

namespace Descriptor

variable {V E σ : Type}

/-- Asks a predicate about edges one after the other, and lists the answers. -/
def consult (p : σ → Nat → Bool × σ) : List EdgeId → σ → List (EdgeId × Bool) × σ :=
  threaded fun s e =>
    let (hit, s) := p s e.index
    ((e, hit), s)

/-- The edges to which the answer was yes. -/
def picked (answers : List (EdgeId × Bool)) : List EdgeId :=
  (answers.filter Prod.snd).map Prod.fst

/-- What was asked, by descriptor, and what was answered. -/
def minutes (answers : List (EdgeId × Bool)) : List (Nat × Bool) :=
  answers.map fun q => (q.1.index, q.2)

/-- The predicate, with the minutes of its questions and answers in its state. -/
def minuted (p : σ → Nat → Bool × σ) (s : σ × List (Nat × Bool)) (i : Nat) :
    Bool × σ × List (Nat × Bool) :=
  let (hit, t) := p s.1 i
  (hit, t, s.2 ++ [(i, hit)])

theorem consult_asks (p : σ → Nat → Bool × σ) (es : List EdgeId) (s : σ) :
    (consult p es s).1.map Prod.fst = es := by
  induction es generalizing s with
  | nil => rfl
  | cons e es ih => exact congrArg (e :: ·) (ih (p s e.index).2)

theorem sift_eq (p : σ → Nat → Bool × σ) (es : List EdgeId) (s : σ) :
    Roster.sift p es s = (picked (consult p es s).1, (consult p es s).2) := by
  induction es generalizing s with
  | nil => rfl
  | cons e es ih =>
    simp only [Roster.sift, ih, consult, threaded]
    cases (p s e.index).1 <;> rfl

theorem sift_minuted (p : σ → Nat → Bool × σ) (es : List EdgeId) (s : σ)
    (before : List (Nat × Bool)) :
    Roster.sift (minuted p) es (s, before) =
      (picked (consult p es s).1, (consult p es s).2, before ++ minutes (consult p es s).1) := by
  induction es generalizing s before with
  | nil => simp [Roster.sift, consult, threaded, picked, minutes]
  | cons e es ih =>
    simp only [Roster.sift, minuted, ih, consult, threaded]
    cases (p s e.index).1 <;> simp [picked, minutes]

/-- These edges are gone. Every other edge is as it was, and so are the vertices but for their lists
and degrees; no list has another order. -/
structure Without (gone : List EdgeId) (g g' : Multigraph V E) : Prop where
  vertexReports : ∃ reports, g.vertexReports = .ok reports ∧
    g'.vertexReports = .ok (reports.map (VertexReport.withoutAll gone))
  edgeReports : ∃ reports, g.edgeReports = .ok reports ∧
    g'.edgeReports = .ok (reports.filter fun r => decide (r.id ∉ gone))
  containsVertex (v : VertexId) : g'.containsVertex v = g.containsVertex v
  containsEdge (e : EdgeId) : g'.containsEdge e = (g.containsEdge e && decide (e ∉ gone))

/-- The removal goes through for every predicate. It asks about the edges of the list, once each and
in their order, and removes those that are picked. -/
structure Culls (remove : {τ : Type} → (τ → Nat → Bool × τ) → τ → Change (Multigraph V E) τ)
    (es : List EdgeId) (g : Multigraph V E) : Prop where
  nodup : es.Nodup
  asks {τ : Type} (p : τ → Nat → Bool × τ) (s : τ) : (consult p es s).1.map Prod.fst = es
  removes {τ : Type} (p : τ → Nat → Bool × τ) (s : τ) : ∃ g',
    remove p s g = .ok (consult p es s).2 g' ∧ Without (picked (consult p es s).1) g g' ∧
      remove (minuted p) (s, []) g = .ok ((consult p es s).2, minutes (consult p es s).1) g'

end Descriptor

namespace Multigraph

variable {V E : Type} {g g' : Multigraph V E} {m : Roster V E}

open Descriptor

theorem Represents.without (h : Represents g m) {gone : List EdgeId}
    (h' : Represents g' (m.dropEdges gone)) : Without gone g g' where
  vertexReports := by
    refine ⟨_, h.vertexReports_ok, ?_⟩
    rw [h'.vertexReports_ok, m.vertexReports_dropEdges]
  edgeReports := by
    refine ⟨_, h.holds.edgeReports_ok, ?_⟩
    rw [h'.holds.edgeReports_ok, m.edgeReports_dropEdges]
  containsVertex v := by
    rw [Bool.eq_iff_iff, h.holds.containsVertex_iff, h'.holds.containsVertex_iff,
      m.vertexIds_dropEdges]
  containsEdge e := by
    rw [Bool.eq_iff_iff, Bool.and_eq_true, h.holds.containsEdge_iff, h'.holds.containsEdge_iff]
    simp [Roster.mem_edgeIds_dropEdges]

theorem Represents.culls (h : Represents g m) {es : List EdgeId} (hd : es.Nodup)
    {remove : {τ : Type} → (τ → Nat → Bool × τ) → τ → Change (Multigraph V E) τ}
    (hremove : ∀ {τ : Type} (p : τ → Nat → Bool × τ) (s : τ), ∃ g',
      remove p s g = .ok (Roster.sift p es s).2 g' ∧
        Represents g' (m.dropEdges (Roster.sift p es s).1)) : Culls remove es g where
  nodup := hd
  asks p s := consult_asks p es s
  removes {τ} p s := by
    obtain ⟨g₁, hrun₁, h₁⟩ := hremove p s
    obtain ⟨g₂, hrun₂, h₂⟩ := hremove (minuted p) (s, [])
    rw [sift_eq] at hrun₁ h₁
    rw [sift_minuted, List.nil_append] at hrun₂ h₂
    -- taking the minutes does not change what is picked
    rw [h₁.unique h₂] at hrun₂
    exact ⟨g₁, hrun₁, h.without h₁, hrun₂⟩

/-- In every multigraph that there can be, a conditional removal asks its predicate about each edge
once, in table order, and one at a live vertex about each edge there, in the order of its list. -/
theorem Reached.conditionalRemovals_cull (hg : g.Reached) :
    Culls removeEdgesIf (TwoEnded.toList g.edgeIds) g ∧
      ∀ d v, g.containsVertex v = true → ∃ it, g.incidentEdges d v = .ok it ∧
        Culls (removeIncidentIf d v.index) (TwoEnded.toList it) g := by
  obtain ⟨m, h⟩ := hg.represents
  constructor
  · rw [h.holds.edgeIds_gives.toList_eq]
    exact h.culls h.sound.nodup_edgeIds fun p s => h.removeEdgesIf_ok p s
  · intro d v hv
    replace hv := h.holds.containsVertex_iff.mp hv
    obtain ⟨it, hrun, hit⟩ := h.incidentEdges_ok hv d
    refine ⟨it, hrun, ?_⟩
    rw [hit.toList_eq]
    exact h.culls (h.sound.nodup_incident d v) fun p s => h.removeIncidentIf_ok d hv p s

def alternate (pick : Bool) (_ : Nat) : Bool × Bool := (pick, !pick)

theorem conditionalRemovals_cull_loopAndParallels :
    (Edit.applyAll .empty loopAndParallels).Reached ∧
      TwoEnded.toList (Edit.applyAll .empty loopAndParallels).edgeIds =
        [⟨0, 0⟩, ⟨2, 0⟩, ⟨3, 0⟩, ⟨1, 1⟩] ∧
      (∃ g', removeEdgesIf alternate true (Edit.applyAll .empty loopAndParallels) = .ok true g' ∧
        Without [⟨0, 0⟩, ⟨3, 0⟩] (Edit.applyAll .empty loopAndParallels) g') ∧
      (Edit.applyAll .empty loopAndParallels).containsVertex ⟨0, 0⟩ = true ∧
      ∃ it, (Edit.applyAll .empty loopAndParallels).incidentEdges .outgoing ⟨0, 0⟩ = .ok it ∧
        Culls (removeIncidentIf .outgoing 0) (TwoEnded.toList it)
          (Edit.applyAll .empty loopAndParallels) := by
  have hreached : (Edit.applyAll .empty loopAndParallels).Reached :=
    Reached.empty.applyAll loopAndParallels
  have hedges : TwoEnded.toList (Edit.applyAll .empty loopAndParallels).edgeIds =
      [⟨0, 0⟩, ⟨2, 0⟩, ⟨3, 0⟩, ⟨1, 1⟩] := by decide +kernel
  have hlive : (Edit.applyAll .empty loopAndParallels).containsVertex ⟨0, 0⟩ = true := by
    decide +kernel
  obtain ⟨hall, hincident⟩ := hreached.conditionalRemovals_cull
  obtain ⟨g', hrun, hwithout, -⟩ := hall.removes alternate true
  rw [hedges] at hrun hwithout
  exact ⟨hreached, hedges, ⟨g', hrun, hwithout⟩, hlive, hincident .outgoing ⟨0, 0⟩ hlive⟩

end Multigraph

end SlotGraph

import SlotGraph.Proofs.Multigraph.Catalog
import SlotGraph.Proofs.Multigraph.Copying
import SlotGraph.Proofs.Multigraph.Reports
set_option autoImplicit false

namespace SlotGraph.Multigraph

variable {V E : Type} {g : Multigraph V E} {m : Roster V E}

/-- Every operation whose handles and descriptors are live completes, and no edit at all finds
links, counts or slots that contradict each other. -/
structure Intact (g : Multigraph V E) : Prop where
  edits (edit : Edit V E) : edit.Live g → ∃ r g', edit.apply g = .ok r g'
  faults {edit : Edit V E} {f : Fault} {g' : Multigraph V E} :
    edit.apply g = .error f g' → ∀ c, f ≠ .corrupt c
  vertices : ∃ vs, TwoEnded.Gives g.vertexIds vs
  edges : ∃ es, TwoEnded.Gives g.edgeIds es
  vertex (v : VertexId) : g.containsVertex v = true → (g.vertex v).isOk
  degrees (v : VertexId) : g.containsVertex v = true →
    (g.outDegree v).isOk ∧ (g.inDegree v).isOk ∧ (g.degree v).isOk
  incidentEdges (v : VertexId) : g.containsVertex v = true →
    ∀ d, ∃ it es, g.incidentEdges d v = .ok it ∧ TwoEnded.Gives it es
  vertexReport (v : VertexId) : g.containsVertex v = true → (g.vertexReport v).isOk
  nextVertex (v : VertexId) : g.containsVertex v = true → (g.nextVertex v).isOk
  firstIncident (v : VertexId) : g.containsVertex v = true → ∀ d, (g.firstIncident d v).isOk
  edge (e : EdgeId) : g.containsEdge e = true → (g.edge e).isOk
  endpoints (e : EdgeId) : g.containsEdge e = true →
    (g.source e).isOk ∧ (g.target e).isOk ∧ (g.endpoints e).isOk
  edgeReport (e : EdgeId) : g.containsEdge e = true → (g.edgeReport e).isOk
  nextEdge (e : EdgeId) : g.containsEdge e = true → (g.nextEdge e).isOk
  nextIncident (e : EdgeId) : g.containsEdge e = true → ∀ d, (g.nextIncident d e).isOk
  descriptors : (∃ is, TwoEnded.Gives (Descriptor.vertices g) is) ∧
    ∃ is, TwoEnded.Gives (Descriptor.edges g) is
  vertexSlot (i : Nat) : (g.vertexId? i).isSome →
    (Descriptor.outDegree g i).isOk ∧ (Descriptor.inDegree g i).isOk ∧
      (Descriptor.degree g i).isOk ∧
      ∀ d, ∃ it is, Descriptor.incidentEdges g d i = .ok it ∧ TwoEnded.Gives it is
  edgeSlot (i : Nat) : (g.edgeId? i).isSome →
    (Descriptor.source g i).isOk ∧ (Descriptor.target g i).isOk
  copies {V' E' σ : Type} (f : σ → V → V' × σ) (k : σ → E → E' × σ) (s : σ) :
    (g.mapAccum f k s).isOk

theorem isOk_of_eq {α : Type} {r : Except Fault α} {x : α} (h : r = .ok x) : r.isOk := by
  rw [h]
  rfl

theorem isOk_bind {α β : Type} {r : Except Fault α} {f : α → Except Fault β} {x : α}
    (h : r = .ok x) (hf : (f x).isOk) : (r >>= f).isOk := by
  rw [h]
  exact hf

theorem vertexRecord_of_contains {v : VertexId} (h : g.containsVertex v = true) :
    ∃ r, g.vertexRecord v = .ok r := by
  obtain ⟨r, hr⟩ := Option.isSome_iff_exists.mp h
  exact ⟨r, by simp [vertexRecord, hr]⟩

theorem edgeRecord_of_contains {e : EdgeId} (h : g.containsEdge e = true) :
    ∃ r, g.edgeRecord e = .ok r := by
  obtain ⟨r, hr⟩ := Option.isSome_iff_exists.mp h
  exact ⟨r, by simp [edgeRecord, hr]⟩

theorem Holds.vertexOf_ok (h : Holds g m) {i : Nat} (hi : (g.vertexId? i).isSome) :
    ∃ v, Descriptor.vertexOf g i = .ok v ∧ v ∈ m.vertexIds := by
  obtain ⟨v, hv⟩ := Option.isSome_iff_exists.mp hi
  exact ⟨v, by simp [Descriptor.vertexOf, hv], (h.vertexId?_eq_some.mp hv).1⟩

theorem Holds.edgeOf_ok (h : Holds g m) {i : Nat} (hi : (g.edgeId? i).isSome) :
    ∃ e, Descriptor.edgeOf g i = .ok e ∧ e ∈ m.edgeIds := by
  obtain ⟨e, he⟩ := Option.isSome_iff_exists.mp hi
  exact ⟨e, by simp [Descriptor.edgeOf, he], (h.edgeId?_eq_some.mp he).1⟩

theorem Represents.intact (h : Represents g m) : Intact g where
  edits edit hlive := by
    obtain ⟨r, g', hrun, -⟩ := h.apply_ok hlive
    exact ⟨r, g', hrun⟩
  faults {edit f g'} hrun := by
    have hdead : ¬ edit.Live g := fun hlive => by
      obtain ⟨r, g'', hrun', -⟩ := h.apply_ok hlive
      rw [hrun] at hrun'
      cases hrun'
    obtain ⟨f', g'', hrun', hfault, -⟩ := h.apply_error hdead
    rw [hrun] at hrun'
    cases hrun'
    exact hfault
  vertices := ⟨_, h.holds.vertexIds_gives⟩
  edges := ⟨_, h.holds.edgeIds_gives⟩
  vertex v hv := by
    obtain ⟨r, hr⟩ := vertexRecord_of_contains hv
    exact isOk_bind hr rfl
  degrees v hv := by
    obtain ⟨r, hr⟩ := vertexRecord_of_contains hv
    exact ⟨isOk_bind hr rfl, isOk_bind hr rfl, isOk_bind hr rfl⟩
  incidentEdges v hv d := by
    obtain ⟨it, hrun, hit⟩ := h.incidentEdges_ok (h.holds.containsVertex_iff.mp hv) d
    exact ⟨it, _, hrun, hit⟩
  vertexReport v hv := by
    obtain ⟨x, hx⟩ := Roster.mem_vertexIds.mp (h.holds.containsVertex_iff.mp hv)
    exact isOk_of_eq (h.vertexReport_ok hx)
  nextVertex v hv := isOk_of_eq (h.nextVertex_ok (h.holds.containsVertex_iff.mp hv))
  firstIncident v hv d := isOk_of_eq (h.firstIncident_ok (h.holds.containsVertex_iff.mp hv) d)
  edge e he := by
    obtain ⟨r, hr⟩ := edgeRecord_of_contains he
    exact isOk_bind hr rfl
  endpoints e he := by
    obtain ⟨r, hr⟩ := edgeRecord_of_contains he
    exact ⟨isOk_bind hr rfl, isOk_bind hr rfl, isOk_bind hr rfl⟩
  edgeReport e he := by
    obtain ⟨r, hr⟩ := Roster.mem_edgeIds.mp (h.holds.containsEdge_iff.mp he)
    exact isOk_of_eq (h.holds.edgeReport_ok hr)
  nextEdge e he := isOk_of_eq (h.nextEdge_ok (h.holds.containsEdge_iff.mp he))
  nextIncident e he d := by
    obtain ⟨r, hr⟩ := Roster.mem_edgeIds.mp (h.holds.containsEdge_iff.mp he)
    exact isOk_of_eq (h.nextIncident_ok (h.ends _ hr d) (Roster.mem_incident.mpr ⟨r, hr, rfl⟩))
  descriptors :=
    ⟨⟨_, h.holds.vertexIds_gives.mapped _⟩, ⟨_, h.holds.edgeIds_gives.mapped _⟩⟩
  vertexSlot i hi := by
    obtain ⟨v, hof, hv⟩ := h.holds.vertexOf_ok hi
    obtain ⟨r, hr⟩ := vertexRecord_of_contains (h.holds.containsVertex_iff.mpr hv)
    refine ⟨isOk_bind hof (isOk_bind hr rfl), isOk_bind hof (isOk_bind hr rfl),
      isOk_bind hof (isOk_bind hr rfl), fun d => ?_⟩
    obtain ⟨it, hrun, hit⟩ := h.incidentEdges_ok hv d
    refine ⟨⟨it, EdgeId.index⟩, _, ?_, hit.mapped _⟩
    simp [Descriptor.incidentEdges, hof, hrun, bind, Except.bind, pure, Except.pure]
  edgeSlot i hi := by
    obtain ⟨e, hof, he⟩ := h.holds.edgeOf_ok hi
    obtain ⟨r, hr⟩ := edgeRecord_of_contains (h.holds.containsEdge_iff.mpr he)
    have hsource : g.source e = .ok r.source := by
      simp [source, hr, bind, Except.bind, pure, Except.pure]
    have htarget : g.target e = .ok r.target := by
      simp [target, hr, bind, Except.bind, pure, Except.pure]
    exact ⟨isOk_bind hof (isOk_bind hsource rfl), isOk_bind hof (isOk_bind htarget rfl)⟩
  copies f k s := by
    obtain ⟨copy, hrun, -⟩ := h.mapAccum_ok f k s
    exact isOk_of_eq hrun

/-- However a multigraph has been edited since it was empty, by live or dead handles and whether or
not edits stopped on the way, it is free of corruption. -/
theorem intact_applyAll (edits : List (Edit V E)) : Intact (Edit.applyAll .empty edits) := by
  obtain ⟨m, h⟩ := represents_empty.applyAll edits
  exact h.intact

end SlotGraph.Multigraph

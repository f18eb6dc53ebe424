import SlotGraph.Proofs.Multigraph.ConditionalRemoval
import SlotGraph.Proofs.Multigraph.RemovalOrder
set_option autoImplicit false

namespace SlotGraph

namespace Item

variable {E : Type} {vs : List VertexId}

theorem all_sparesVertex {w : VertexId} :
    (vs.map Item.vertex).all (·.sparesVertex w) = true ↔ w ∉ vs := by
  simp only [List.all_map, List.all_eq_true, Function.comp_apply, sparesVertex, bne_iff_ne]
  exact ⟨fun hall hmem => hall w hmem rfl, fun hnot v hv heq => hnot (heq ▸ hv)⟩

theorem all_sparesEdge {r : EdgeReport E} :
    (vs.map Item.vertex).all (·.sparesEdge r) = true ↔ r.source ∉ vs ∧ r.target ∉ vs := by
  simp only [List.all_map, List.all_eq_true, Function.comp_apply, sparesEdge, Bool.and_eq_true,
    bne_iff_ne]
  constructor
  · intro hall
    exact ⟨fun hmem => (hall _ hmem).1 rfl, fun hmem => (hall _ hmem).2 rfl⟩
  · rintro ⟨hsource, htarget⟩ v hv
    exact ⟨fun heq => hsource (heq ▸ hv), fun heq => htarget (heq ▸ hv)⟩

end Item

namespace Roster

variable {V E : Type} {m m' : Roster V E}

theorem Sound.live_filter (h : m.Sound) (p : SlotId × Arc E → Bool) :
    (m.dropEdges ((m.edges.live.filter fun q => !p q).map fun q => ⟨q.1⟩)).edges.live =
      m.edges.live.filter p := by
  rw [live_dropEdges]
  refine List.filter_congr fun q hq => ?_
  have hgone : ⟨q.1⟩ ∈ (m.edges.live.filter fun q => !p q).map (fun q => EdgeId.mk q.1) ↔
      (!p q) = true := h.mem_filter_iff hq
  rw [Bool.eq_iff_iff, decide_eq_true_eq, hgone, Bool.not_eq_true', Bool.not_eq_false]

structure Induces (keep : VertexId → Bool) (m m' : Roster V E) : Prop where
  vertices : m'.vertices.live = m.vertices.live.filter fun q => keep ⟨q.1⟩
  edges : m'.edges.live = m.edges.live.filter fun q => keep q.2.source && keep q.2.target

theorem Struck.induces (hm : m.Sound) {keep : VertexId → Bool}
    (h : m.Struck ((m.vertexIds.filter fun v => !keep v).map .vertex) m') :
    m.Induces keep m' := by
  have hspared : ∀ v ∈ m.vertexIds, v ∉ (m.vertexIds.filter fun v => !keep v) ↔ keep v = true :=
    fun v hv => by simp [hv]
  constructor
  · rw [h.vertices.live]
    refine List.filter_congr fun q hq => ?_
    rw [Bool.eq_iff_iff, Item.all_sparesVertex]
    exact hspared _ (Roster.mem_vertexIds.mpr ⟨q.2, hq⟩)
  · rw [h.edges.live]
    refine List.filter_congr fun q hq => ?_
    rw [Bool.eq_iff_iff, Item.all_sparesEdge, Bool.and_eq_true]
    exact and_congr (hspared _ (hm.ends q hq .outgoing)) (hspared _ (hm.ends q hq .incoming))

end Roster

/-- Both ends of the edge are to be kept. -/
def EdgeReport.within {E : Type} (keep : VertexId → Bool) (r : EdgeReport E) : Bool :=
  keep r.source && keep r.target

namespace Multigraph

variable {V E : Type} {g g' : Multigraph V E} {m m' : Roster V E} {keep : VertexId → Bool}

/-- From a cursor the loop comes to these vertices, steps over those to keep, erases the others, and
ends. -/
inductive Winnows (keep : VertexId → Bool) :
    Multigraph V E → Option VertexId → List VertexId → Multigraph V E → Prop where
  | done {g : Multigraph V E} : Winnows keep g none [] g
  | keep {g g' : Multigraph V E} {v : VertexId} {next : Option VertexId} {vs : List VertexId} :
    keep v = true → g.nextVertex v = .ok next → Winnows keep g next vs g' →
    Winnows keep g (some v) (v :: vs) g'
  | erase {g g₁ g' : Multigraph V E} {v : VertexId} {erasure : Erasure} {vs : List VertexId} :
    keep v = false → eraseVertex v g = .ok erasure g₁ → Winnows keep g₁ erasure.next vs g' →
    Winnows keep g (some v) (v :: vs) g'

theorem Winnows.unique {c : Option VertexId} {vs vs' : List VertexId} {g'' : Multigraph V E}
    (h : Winnows keep g c vs g') (h' : Winnows keep g c vs' g'') : vs' = vs ∧ g'' = g' := by
  induction h generalizing vs' g'' with
  | done =>
    cases h'
    exact ⟨rfl, rfl⟩
  | keep hkeep hnext _ ih =>
    cases h' with
    | keep _ hnext' hrest =>
      rw [hnext] at hnext'
      cases hnext'
      obtain ⟨rfl, rfl⟩ := ih hrest
      exact ⟨rfl, rfl⟩
    | erase hkeep' _ _ =>
      rw [hkeep] at hkeep'
      cases hkeep'
  | erase hkeep hrun _ ih =>
    cases h' with
    | keep hkeep' _ _ =>
      rw [hkeep] at hkeep'
      cases hkeep'
    | erase _ hrun' hrest =>
      rw [hrun] at hrun'
      cases hrun'
      obtain ⟨rfl, rfl⟩ := ih hrest
      exact ⟨rfl, rfl⟩

/-- The vertices to keep and the edges between them are left as they were, in the same order in
the tables and in the lists around each vertex. -/
def Induced (keep : VertexId → Bool) (g g' : Multigraph V E) : Prop :=
  ∃ vertices edges, g.vertexReports = .ok vertices ∧ g.edgeReports = .ok edges ∧
    g'.vertexReports = .ok ((vertices.filter fun r => keep r.id).map (VertexReport.withoutAll
      ((edges.filter fun r => !r.within keep).map EdgeReport.id))) ∧
    g'.edgeReports = .ok (edges.filter (EdgeReport.within keep))

theorem Represents.induced (h : Represents g m) (h' : Represents g' m') (hm : m.Induces keep m') :
    Induced keep g g' := by
  refine ⟨m.vertexReports, m.edgeReports, h.vertexReports_ok, h.holds.edgeReports_ok, ?_, ?_⟩
  · rw [h'.vertexReports_ok]
    have hgone : ((m.edgeReports.filter fun r => !r.within keep).map EdgeReport.id) =
        (m.edges.live.filter fun q => !(keep q.2.source && keep q.2.target)).map fun q =>
          (⟨q.1⟩ : EdgeId) := by
      rw [Roster.edgeReports, List.filter_map, List.map_map]
      rfl
    rw [hgone, Roster.vertexReports, hm.vertices,
      Roster.vertexReport_congr (hm.edges.trans (h.sound.live_filter _).symm),
      Roster.vertexReports, List.filter_map, List.map_map]
    refine congrArg Except.ok (List.map_congr_left fun q _ => ?_)
    simp only [Roster.vertexReport, Roster.incident_dropEdges]
    rfl
  · rw [h'.holds.edgeReports_ok, Roster.edgeReports, hm.edges, Roster.edgeReports,
      List.filter_map]
    rfl

theorem Represents.winnows (h : Represents g m) (keep : VertexId → Bool)
    (passed vs : List VertexId) (hsplit : m.vertexIds = passed ++ vs) :
    ∃ g' m', Winnows keep g vs.head? vs g' ∧ Represents g' m' ∧
      m.Struck ((vs.filter fun v => !keep v).map .vertex) m' := by
  -- on the vertices still to come; those kept so far lie before the cursor
  induction vs generalizing g m passed with
  | nil => exact ⟨g, m, .done, h, Roster.struck_nil m⟩
  | cons v vs ih =>
    have hv : v ∈ m.vertexIds := by simp [hsplit]
    have hd := h.sound.nodup_vertexIds
    rw [hsplit] at hd
    have hnext : successor? v m.vertexIds = vs.head? := by
      rw [hsplit, successor?_eq fun hl =>
        (List.nodup_middle.mp hd).notMem (List.mem_append_left _ hl)]
    cases hkeep : keep v with
    | true =>
      obtain ⟨g', m', hrest, h', hstruck⟩ := ih h (passed ++ [v]) (by simp [hsplit])
      have hrun := h.nextVertex_ok hv
      rw [hnext] at hrun
      refine ⟨g', m', .keep hkeep hrun hrest, h', ?_⟩
      simpa [hkeep] using hstruck
    | false =>
      obtain ⟨n, g₁, hrun, h₁⟩ := h.eraseVertex_ok hv
      have hsplit₁ : (m.strike (.vertex v)).vertexIds = passed ++ vs := by
        rw [Roster.strike, Roster.vertexIds_dropVertex, Roster.vertexIds_dropAround, hsplit]
        exact filter_key_ne (f := id) (by simpa using hd)
      obtain ⟨g', m', hrest, h', hstruck⟩ := ih h₁ passed hsplit₁
      rw [hnext] at hrun
      have hfirst : m.Struck [.vertex v] (m.strike (.vertex v)) :=
        Roster.struck_strike h.sound fun w hw => Item.vertex.inj hw ▸ hv
      refine ⟨g', m', .erase hkeep hrun hrest, h', ?_⟩
      simpa [hkeep] using hfirst.cons hstruck

/-- In every multigraph that there can be, the loop over the vertices ends, comes to each of them
once and in table order, and leaves what the vertices to keep induce. -/
theorem Reached.winnowing_induces (hg : g.Reached) (keep : VertexId → Bool) :
    (TwoEnded.toList g.vertexIds).Nodup ∧
      (∀ v, v ∈ TwoEnded.toList g.vertexIds ↔ g.containsVertex v = true) ∧
      ∃ g', (∀ vs g'', Winnows keep g g.firstVertex? vs g'' ↔
          vs = TwoEnded.toList g.vertexIds ∧ g'' = g') ∧
        Induced keep g g' := by
  obtain ⟨m, h⟩ := hg.represents
  obtain ⟨g', m', hwinnows, h', hstruck⟩ := h.winnows keep [] _ rfl
  rw [h.holds.vertexIds_gives.toList_eq, h.firstVertex?_eq]
  refine ⟨h.sound.nodup_vertexIds, fun v => h.holds.containsVertex_iff.symm, g', ?_,
    h.induced h' (hstruck.induces h.sound)⟩
  intro vs g''
  constructor
  · exact hwinnows.unique
  · rintro ⟨rfl, rfl⟩
    exact hwinnows

def evenAndOddEnds : List (Edit Nat Nat) :=
  [.insertVertex 10, .insertVertex 20, .insertVertex 30, .insertEdge ⟨0, 0⟩ ⟨0, 0⟩ 1,
    .insertEdge ⟨0, 0⟩ ⟨1, 0⟩ 2, .removeVertex ⟨0, 0⟩, .insertVertex 40, .insertVertex 50,
    .insertEdge ⟨2, 0⟩ ⟨0, 1⟩ 3, .insertEdge ⟨0, 1⟩ ⟨2, 0⟩ 4, .insertEdge ⟨1, 0⟩ ⟨2, 0⟩ 5,
    .insertEdge ⟨1, 0⟩ ⟨1, 0⟩ 6, .insertEdge ⟨2, 0⟩ ⟨0, 1⟩ 7, .insertEdge ⟨3, 0⟩ ⟨1, 0⟩ 8]

theorem winnowing_induces_evenAndOddEnds :
    (Edit.applyAll .empty evenAndOddEnds).Reached ∧
      TwoEnded.toList (Edit.applyAll .empty evenAndOddEnds).vertexIds =
        [⟨1, 0⟩, ⟨2, 0⟩, ⟨0, 1⟩, ⟨3, 0⟩] ∧
      ∃ g', (∀ vs g'', Winnows (fun v => v.index % 2 == 0) (Edit.applyAll .empty evenAndOddEnds)
          (Edit.applyAll .empty evenAndOddEnds).firstVertex? vs g'' ↔
            vs = TwoEnded.toList (Edit.applyAll .empty evenAndOddEnds).vertexIds ∧ g'' = g') ∧
        Induced (fun v => v.index % 2 == 0) (Edit.applyAll .empty evenAndOddEnds) g' := by
  have hreached : (Edit.applyAll .empty evenAndOddEnds).Reached :=
    Reached.empty.applyAll evenAndOddEnds
  obtain ⟨-, -, hloop⟩ := hreached.winnowing_induces fun v => v.index % 2 == 0
  exact ⟨hreached, by decide +kernel, hloop⟩

end Multigraph

end SlotGraph

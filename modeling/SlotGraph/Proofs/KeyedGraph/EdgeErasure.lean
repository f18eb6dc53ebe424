import SlotGraph.Proofs.KeyedGraph.Collection
import SlotGraph.Proofs.Multigraph.Reports
set_option autoImplicit false

namespace SlotGraph

def VertexReport.hasOnly {V : Type} (e : EdgeId) (r : VertexReport V) : Bool :=
  (r.outEdges ++ r.inEdges).contains e && (r.outEdges ++ r.inEdges).all (· == e)

namespace Register

variable {V E K : Type} {p : Register V E K} {e : EdgeId} {r : Arc E}

def goesWith (p : Register V E K) (e : EdgeId) (r : Arc E) (v : VertexId) : Bool :=
  r.isEnd v && (p.dropEdge e).isBare v

/-- A vertex has the edges that an erasure leaves it, and one for each end of the edge that goes. -/
theorem degreeOf_dropEdge (h : p.Sound) (hr : (e.slot, r) ∈ p.roster.edges.live) (v : VertexId) :
    p.degreeOf v = (p.dropEdge e).degreeOf v +
      ((if v = r.source then 1 else 0) + if v = r.target then 1 else 0) := by
  have hlength : ∀ d, (p.roster.incident d v).length =
      ((p.dropEdge e).roster.incident d v).length + if v = r.endpoint d then 1 else 0 := by
    intro d
    rw [← h.roster.count_incident hr d v, ← length_filter_ne e (p.roster.incident d v),
      ← Roster.incident_dropEdge]
    rfl
  rw [degreeOf, hlength .outgoing, hlength .incoming, degreeOf, Nat.add_add_add_comm]
  rfl

theorem goesWith_iff_degreeOf (h : p.Sound) (hr : (e.slot, r) ∈ p.roster.edges.live)
    (v : VertexId) : p.goesWith e r v = true ↔
      (v = r.source ∨ v = r.target) ∧ p.degreeOf v = if r.source = r.target then 2 else 1 := by
  have hdegree := degreeOf_dropEdge h hr v
  simp only [goesWith, isBare, Arc.isEnd, Bool.and_eq_true, Bool.or_eq_true, beq_iff_eq]
  refine and_congr_right fun hend => ?_
  by_cases hloop : r.source = r.target
  · rw [if_pos hloop]
    have hv : v = r.target := hend.elim (fun hv => hv.trans hloop) id
    rw [if_pos (hv.trans hloop.symm), if_pos hv] at hdegree
    omega
  · rw [if_neg hloop]
    obtain rfl | rfl := hend
    · rw [if_pos rfl, if_neg hloop] at hdegree
      omega
    · rw [if_neg (Ne.symm hloop), if_pos rfl] at hdegree
      omega

theorem hasOnly_vertexReport (h : p.Sound) (hr : (e.slot, r) ∈ p.roster.edges.live)
    (q : SlotId × V) : (p.roster.vertexReport q).hasOnly e = p.goesWith e r ⟨q.1⟩ := by
  have hend : e ∈ p.roster.incident .outgoing ⟨q.1⟩ ++ p.roster.incident .incoming ⟨q.1⟩ ↔
      r.isEnd ⟨q.1⟩ = true := by
    rw [List.mem_append, h.roster.mem_incident_iff hr, h.roster.mem_incident_iff hr, Arc.isEnd,
      Bool.or_eq_true, beq_iff_eq, beq_iff_eq, eq_comm, @eq_comm _ _ r.target]
    rfl
  have hbare : (p.dropEdge e).isBare ⟨q.1⟩ = true ↔
      ∀ f ∈ p.roster.incident .outgoing ⟨q.1⟩ ++ p.roster.incident .incoming ⟨q.1⟩, f = e := by
    simp [isBare, degreeOf, dropEdge, Roster.incident_dropEdge, or_imp, forall_and]
  rw [Bool.eq_iff_iff]
  simp only [VertexReport.hasOnly, Roster.vertexReport, goesWith, Bool.and_eq_true,
    List.contains_iff_mem, List.all_eq_true, beq_iff_eq, hend, hbare]

theorem sieves_eraseEdge (p : Register V E K) (e : EdgeId) (r : Arc E) :
    p.Sieves (fun v => !p.goesWith e r v) ((p.dropEdge e).dropBareEnds r) :=
  ⟨(sieves_dropBareEnds (p.dropEdge e) r).vertices, (sieves_dropBareEnds (p.dropEdge e) r).keys⟩

theorem mem_vertexIds_eraseEdge {v : VertexId} :
    v ∈ ((p.dropEdge e).dropBareEnds r).roster.vertexIds ↔
      v ∈ p.roster.vertexIds ∧ p.goesWith e r v = false := by
  simp [Roster.mem_vertexIds, (p.sieves_eraseEdge e r).vertices]

theorem vertexReports_eraseEdge (h : p.Sound) (hr : (e.slot, r) ∈ p.roster.edges.live) :
    ((p.dropEdge e).dropBareEnds r).roster.vertexReports =
      (p.roster.vertexReports.filter fun report => !report.hasOnly e).map
        (VertexReport.without e) := by
  have hreport : ((p.dropEdge e).dropBareEnds r).roster.vertexReport =
      VertexReport.without e ∘ p.roster.vertexReport := by
    funext q
    rw [Roster.vertexReport_congr (congrArg Ledger.live (edges_dropBareEnds _ r))]
    exact p.roster.vertexReport_dropEdge e q
  have hkeep : (fun report => !report.hasOnly e) ∘ p.roster.vertexReport =
      fun q => !p.goesWith e r ⟨q.1⟩ := by
    funext q
    exact congrArg (! ·) (hasOnly_vertexReport h hr q)
  rw [Roster.vertexReports, Roster.vertexReports, List.filter_map, List.map_map, hkeep, hreport,
    (p.sieves_eraseEdge e r).vertices]

end Register

namespace KeyedGraph

variable {V E K I : Type} [KeyIndex I K] {keyOf : V → K} {k : KeyedGraph V E K I}
  {p : Register V E K}

/-- The edge `e` from `s` to `t` goes, with the ends that had no other, and what was recorded of
other edges and vertices stays as it was. -/
structure Erased (k : KeyedGraph V E K I) (e : EdgeId) (s t : VertexId) (next : Option EdgeId)
    (k' : KeyedGraph V E K I) : Prop where
  ends : k.graph.endpoints e = .ok (s, t)
  edges : ∃ before report after, k.graph.edgeReports = .ok (before ++ report :: after) ∧
    report.id = e ∧ k'.graph.edgeReports = .ok (before ++ after) ∧
    next = after.head?.map EdgeReport.id
  nextLive (f : EdgeId) : next = some f → k'.graph.containsEdge f = true
  vertices : ∃ reports, k.graph.vertexReports = .ok reports ∧
    k'.graph.vertexReports =
      .ok ((reports.filter fun r => !r.hasOnly e).map (VertexReport.without e))
  gone (v : VertexId) : k.graph.containsVertex v = true →
    (k'.graph.containsVertex v = false ↔
      (v = s ∨ v = t) ∧ k.graph.degree v = .ok (if s = t then 2 else 1))
  find? (key : K) (v : VertexId) : k'.find? key = some v ↔
    k.find? key = some v ∧ k'.graph.containsVertex v = true
  keyOf? (v : VertexId) (key : K) : k'.keyOf? v = some key ↔
    k.keyOf? v = some key ∧ k'.graph.containsVertex v = true
  size : KeyIndex.size k'.index = k'.graph.vertexCount

/-- Whatever live edge is erased, the erasure goes through and is exact. -/
def ErasesExactly (k : KeyedGraph V E K I) : Prop :=
  ∀ e, k.graph.containsEdge e = true → ∃ s t erasure k',
    eraseEdgeAndBareEnds e k = .ok erasure k' ∧ Erased k e s t erasure.next k'

theorem Stands.erased (h : Stands keyOf k p) {e : EdgeId} {r : Arc E}
    (hr : (e.slot, r) ∈ p.roster.edges.live) {k' : KeyedGraph V E K I}
    (h' : Stands keyOf k' ((p.dropEdge e).dropBareEnds r)) :
    Erased k e r.source r.target (successor? e p.roster.edgeIds) k' := by
  obtain ⟨before, after, hlive⟩ := List.append_of_mem hr
  have hlive' : ((p.dropEdge e).dropBareEnds r).roster.edges.live = before ++ after := by
    rw [Register.edges_dropBareEnds]
    exact Ledger.live_drop h.graph.sound.nodup_live_edges hlive
  have hnext : successor? e p.roster.edgeIds = after.head?.map fun q => ⟨q.1⟩ := by
    have hd := h.graph.sound.nodup_edgeIds
    simp only [Roster.edgeIds, hlive, List.map_append, List.map_cons] at hd ⊢
    have hnot := (List.nodup_middle.mp hd).notMem
    rw [successor?_eq fun hmem => hnot (List.mem_append_left _ hmem), List.head?_map]
  have hlives : ∀ v, k'.graph.containsVertex v = true ↔
      k.graph.containsVertex v = true ∧ p.goesWith e r v = false := by
    intro v
    rw [h'.graph.holds.containsVertex_iff, Register.mem_vertexIds_eraseEdge,
      h.graph.holds.containsVertex_iff]
  have hkeys : ∀ v key, (v, key) ∈ ((p.dropEdge e).dropBareEnds r).keys ↔
      (v, key) ∈ p.keys ∧ k'.graph.containsVertex v = true := by
    intro v key
    rw [(p.sieves_eraseEdge e r).keys, List.mem_filter, hlives]
    refine and_congr_right fun hkey => ?_
    simp [h.containsVertex_iff.mpr ⟨key, hkey⟩]
  constructor
  case ends => exact h.graph.holds.endpoints_eq hr
  case edges =>
    refine ⟨before.map Roster.edgeReport, Roster.edgeReport (e.slot, r),
      after.map Roster.edgeReport, ?_, rfl, ?_, ?_⟩
    · rw [h.graph.holds.edgeReports_ok, Roster.edgeReports, hlive, List.map_append, List.map_cons]
    · rw [h'.graph.holds.edgeReports_ok, Roster.edgeReports, hlive', List.map_append]
    · rw [hnext, List.head?_map, Option.map_map]
      rfl
  case nextLive =>
    intro f hf
    rw [hnext, Option.map_eq_some_iff] at hf
    obtain ⟨q, hq, rfl⟩ := hf
    have hmem : q ∈ before ++ after := List.mem_append_right before (List.mem_of_head? hq)
    exact h'.graph.holds.containsEdge_iff.mpr (Roster.mem_edgeIds.mpr ⟨q.2, hlive' ▸ hmem⟩)
  case vertices =>
    exact ⟨_, h.graph.vertexReports_ok,
      Register.vertexReports_eraseEdge h.sound hr ▸ h'.graph.vertexReports_ok⟩
  case gone =>
    intro v hv
    rw [← Bool.not_eq_true, hlives, h.degree_ok (h.graph.holds.containsVertex_iff.mp hv)]
    simp [hv, Register.goesWith_iff_degreeOf h.sound hr]
  case find? => exact fun key v => by rw [h'.find?_eq_some, h.find?_eq_some, hkeys]
  case keyOf? => exact fun v key => by rw [h'.keyOf?_eq_some, h.keyOf?_eq_some, hkeys]
  case size =>
    rw [h'.enters.size, h'.graph.holds.vertexCount_eq, ← h'.vertices, List.length_map]

variable [DecidableEq K] [LawfulKeyIndex I]

theorem Stands.erasesExactly (h : Stands keyOf k p) : ErasesExactly k := by
  intro e he
  obtain ⟨r, hr⟩ := Roster.mem_edgeIds.mp (h.graph.holds.containsEdge_iff.mp he)
  obtain ⟨gone, hrun⟩ := Register.eraseEdgeAndBareEnds_ok h.sound hr
  obtain ⟨k', herase, h'⟩ := (tally_eraseEdgeAndBareEnds h e).exists_ok hrun
  exact ⟨r.source, r.target, _, k', herase, h.erased hr h'⟩

theorem Made.erasesExactly (h : Made keyOf k) (edits : List (Edit V E)) :
    ErasesExactly (k.applyAll edits) := by
  obtain ⟨p, hp⟩ := h.stands_applyAll edits
  exact hp.erasesExactly

end KeyedGraph

namespace KeyedGraph

variable {V E K : Type} [DecidableEq K]

/-- However a keyed graph has been edited since it was made, by live or dead handles, with payloads
changed to other keys and whether or not edits stopped on the way, a live edge is erased exactly. -/
theorem erasesExactly_applyAll (keyOf : V → K) (edits : List (Edit V E)) :
    (∀ [BEq K] [LawfulBEq K] [Hashable K] [Footprint K] {k : KeyedGraph V E K (HashedIndex K)},
      Made keyOf k → ErasesExactly (k.applyAll edits)) ∧
    ∀ [Ord K] [Std.TransOrd K] [Std.LawfulEqOrd K] {k : KeyedGraph V E K (OrderedIndex K)},
      Made keyOf k → ErasesExactly (k.applyAll edits) :=
  ⟨fun hmade => hmade.erasesExactly edits, fun hmade => hmade.erasesExactly edits⟩

def loneLoopAndParallels : List (Edit (Nat × Nat) Nat) :=
  [.connect (1, 10) (1, 10) 5, .connect (2, 20) (3, 30) 6, .connect (2, 20) (3, 30) 7,
    .connect (3, 30) (4, 40) 8]

theorem erasesExactly_loneLoopAndParallels :
    ((applyAll (withIndex Prod.fst ({} : HashedIndex Nat)) loneLoopAndParallels).ErasesExactly ∧
      (applyAll (withIndex Prod.fst ({} : OrderedIndex Nat)) loneLoopAndParallels).ErasesExactly) ∧
    (applyAll (withIndex Prod.fst ({} : OrderedIndex Nat)) loneLoopAndParallels).graph.edgeReports =
        .ok [⟨⟨0, 0⟩, 5, ⟨0, 0⟩, ⟨0, 0⟩⟩, ⟨⟨1, 0⟩, 6, ⟨1, 0⟩, ⟨2, 0⟩⟩, ⟨⟨2, 0⟩, 7, ⟨1, 0⟩, ⟨2, 0⟩⟩,
          ⟨⟨3, 0⟩, 8, ⟨2, 0⟩, ⟨3, 0⟩⟩] := by
  obtain ⟨hhashed, hordered⟩ :=
    erasesExactly_applyAll (Prod.fst : Nat × Nat → Nat) loneLoopAndParallels
  exact ⟨⟨hhashed (.withIndex {}), hordered (.withIndex {})⟩, by decide +kernel⟩

end KeyedGraph

end SlotGraph

import SlotGraph.Proofs.KeyedGraph.Recorded
set_option autoImplicit false

namespace SlotGraph

namespace Arc

variable {E : Type} {r : Arc E}

def isEnd (r : Arc E) (v : VertexId) : Bool := v == r.source || v == r.target

theorem isEnd_iff {v : VertexId} : r.isEnd v = true ↔ ∃ d, r.endpoint d = v := by
  simp only [isEnd, Bool.or_eq_true, beq_iff_eq]
  constructor
  · rintro (rfl | rfl)
    · exact ⟨.outgoing, rfl⟩
    · exact ⟨.incoming, rfl⟩
  · rintro ⟨_ | _, rfl⟩
    · exact .inl rfl
    · exact .inr rfl

end Arc

namespace Register

variable {V E K : Type} {p p' p'' : Register V E K}

def isBare (p : Register V E K) (v : VertexId) : Bool := p.degreeOf v == 0

theorem isBare_iff {v : VertexId} : p.isBare v = true ↔ ∀ d, p.roster.incident d v = [] := by
  simp only [isBare, degreeOf, beq_iff_eq, Nat.add_eq_zero_iff, List.length_eq_zero_iff]
  constructor
  · rintro ⟨hout, hin⟩ d
    cases d <;> assumption
  · intro hnone
    exact ⟨hnone .outgoing, hnone .incoming⟩

theorem isBare_congr (h : p'.roster.edges = p.roster.edges) : p'.isBare = p.isBare := by
  funext v
  simp only [isBare, degreeOf, Roster.incident, h]

theorem isBare_dropEdge (h : p.Sound) {e : EdgeId} {r : Arc E}
    (hr : (e.slot, r) ∈ p.roster.edges.live) (v : VertexId) :
    p.isBare v = (!r.isEnd v && (p.dropEdge e).isBare v) := by
  have hmem : ∀ d, e ∈ p.roster.incident d v ↔ r.endpoint d = v := fun _ =>
    h.roster.mem_incident_iff hr
  by_cases hend : ∃ d, r.endpoint d = v
  · rw [Arc.isEnd_iff.mpr hend, Bool.not_true, Bool.false_and, Bool.eq_false_iff]
    intro hbare
    obtain ⟨d, hd⟩ := hend
    have he := (hmem d).mpr hd
    rw [isBare_iff.mp hbare d] at he
    exact List.not_mem_nil he
  · rw [Bool.eq_false_iff.mpr fun htrue => hend (Arc.isEnd_iff.mp htrue), Bool.not_false,
      Bool.true_and, Bool.eq_iff_iff, isBare_iff, isBare_iff]
    refine forall_congr' fun d => ?_
    show _ ↔ (p.roster.dropEdge e).incident d v = []
    rw [Roster.incident_dropEdge_of_notMem fun he => hend ⟨d, (hmem d).mp he⟩]

structure Sieves (p : Register V E K) (keep : VertexId → Bool) (p' : Register V E K) : Prop where
  vertices : p'.roster.vertices.live = p.roster.vertices.live.filter fun q => keep ⟨q.1⟩
  keys : p'.keys = p.keys.filter fun q => keep q.1

theorem Sieves.trans {keep keep' : VertexId → Bool} (h : p.Sieves keep p')
    (h' : p'.Sieves keep' p'') : p.Sieves (fun v => keep v && keep' v) p'' where
  vertices := by
    rw [h'.vertices, h.vertices, List.filter_filter]
    simp only [Bool.and_comm]
  keys := by
    rw [h'.keys, h.keys, List.filter_filter]
    simp only [Bool.and_comm]

theorem sieves_all {keep : VertexId → Bool} (h : ∀ v, keep v = true) : p.Sieves keep p where
  vertices := (List.filter_eq_self.mpr fun _ _ => h _).symm
  keys := (List.filter_eq_self.mpr fun _ _ => h _).symm

theorem dropAround_of_bare {v : VertexId} (h : p.isBare v = true) :
    p.roster.dropAround v = p.roster := Roster.dropAround_of_bare (isBare_iff.mp h)

theorem edges_dropIfBare (p : Register V E K) (v : VertexId) :
    (p.dropIfBare v).roster.edges = p.roster.edges := by
  by_cases h : p.degreeOf v = 0
  · rw [dropIfBare, if_pos h]
    show (p.roster.dropAround v).edges = p.roster.edges
    rw [dropAround_of_bare (beq_iff_eq.mpr h)]
  · rw [dropIfBare, if_neg h]

theorem sieves_dropIfBare (p : Register V E K) (v : VertexId) :
    p.Sieves (fun w => !(w == v && p.isBare w)) (p.dropIfBare v) := by
  obtain ⟨id⟩ := v
  by_cases h : p.degreeOf ⟨id⟩ = 0
  · have hbare : p.isBare ⟨id⟩ = true := beq_iff_eq.mpr h
    have hkeep : ∀ w : VertexId, (!(w == ⟨id⟩ && p.isBare w)) = (w != ⟨id⟩) := by
      intro w
      by_cases hw : w = ⟨id⟩
      · simp [hw, hbare]
      · simp [bne, beq_eq_false_iff_ne.mpr hw]
    rw [dropIfBare, if_pos h]
    constructor
    · show ((p.roster.dropAround ⟨id⟩).vertices.drop id).live = _
      rw [Roster.vertices_dropAround]
      refine List.filter_congr fun q _ => ?_
      rw [hkeep]
      simp [bne, beq_eq_decide]
    · exact List.filter_congr fun q _ => (hkeep q.1).symm
  · rw [dropIfBare, if_neg h]
    refine sieves_all fun w => ?_
    by_cases hw : w = ⟨id⟩
    · simp [hw, isBare, h]
    · simp [hw]

theorem edges_dropBareEnds (p : Register V E K) (r : Arc E) :
    (p.dropBareEnds r).roster.edges = p.roster.edges := by
  unfold dropBareEnds
  split
  · exact p.edges_dropIfBare r.source
  · exact (edges_dropIfBare _ r.target).trans (p.edges_dropIfBare r.source)

theorem sieves_dropBareEnds (p : Register V E K) (r : Arc E) :
    p.Sieves (fun v => !(r.isEnd v && p.isBare v)) (p.dropBareEnds r) := by
  by_cases hloop : r.target = r.source
  · rw [dropBareEnds, if_pos hloop]
    have hends : r.isEnd = fun v => v == r.source := by
      funext v
      simp [Arc.isEnd, hloop]
    rw [hends]
    exact p.sieves_dropIfBare r.source
  · rw [dropBareEnds, if_neg hloop]
    have hboth := (p.sieves_dropIfBare r.source).trans (sieves_dropIfBare _ r.target)
    rw [isBare_congr (p.edges_dropIfBare r.source)] at hboth
    have hkeep : (fun v => !(v == r.source && p.isBare v) && !(v == r.target && p.isBare v)) =
        fun v => !(r.isEnd v && p.isBare v) := by
      funext v
      cases hbare : p.isBare v <;> simp [Arc.isEnd]
    rwa [hkeep] at hboth

theorem Sieves.isBare_eraseEdge (h : p.Sound) {e : EdgeId} {r : Arc E}
    (hr : (e.slot, r) ∈ p.roster.edges.live)
    (hrest : ((p.dropEdge e).dropBareEnds r).Sieves ((p.dropEdge e).dropBareEnds r).isBare p') :
    p.Sieves p.isBare p' := by
  have hboth := (sieves_dropBareEnds (p.dropEdge e) r).trans hrest
  rw [isBare_congr (edges_dropBareEnds _ r)] at hboth
  have hkeep : (fun v => !(r.isEnd v && (p.dropEdge e).isBare v) && (p.dropEdge e).isBare v) =
      p.isBare := by
    funext v
    rw [isBare_dropEdge h hr]
    cases r.isEnd v <;> cases (p.dropEdge e).isBare v <;> rfl
  rw [hkeep] at hboth
  exact ⟨hboth.vertices, hboth.keys⟩

end Register

def Multigraph.isBare {V E : Type} (g : Multigraph V E) (v : VertexId) : Bool :=
  match g.degree v with
  | .ok n => n == 0
  | .error _ => false

namespace KeyedGraph

variable {V E K I : Type} [KeyIndex I K] {keyOf : V → K} {k : KeyedGraph V E K I}
  {p : Register V E K}

/-- From a cursor the loop comes to these edges, erases each with the ends that are then bare, and
ends. -/
inductive Collects :
    KeyedGraph V E K I → Option EdgeId → List EdgeId → KeyedGraph V E K I → Prop where
  | done {k : KeyedGraph V E K I} : Collects k none [] k
  | round {k k₁ k' : KeyedGraph V E K I} {e : EdgeId} {erasure : EdgeErasure} {es : List EdgeId} :
    eraseEdgeAndBareEnds e k = .ok erasure k₁ → Collects k₁ erasure.next es k' →
    Collects k (some e) (e :: es) k'

theorem Collects.unique {c : Option EdgeId} {es es' : List EdgeId} {k' k'' : KeyedGraph V E K I}
    (h : Collects k c es k') (h' : Collects k c es' k'') : es' = es ∧ k'' = k' := by
  induction h generalizing es' k'' with
  | done =>
    cases h'
    exact ⟨rfl, rfl⟩
  | round hrun _ ih =>
    cases h' with
    | round hrun' hrest =>
      rw [hrun] at hrun'
      cases hrun'
      obtain ⟨rfl, rfl⟩ := ih hrest
      exact ⟨rfl, rfl⟩

theorem Stands.isBare_eq (h : Stands keyOf k p) {v : VertexId} (hv : v ∈ p.roster.vertexIds) :
    k.graph.isBare v = p.isBare v := by
  rw [Multigraph.isBare, h.degree_ok hv, Register.isBare]

/-- No edges are left, and the bare vertices, in their order, with their keys. -/
structure LeavesBare (k k' : KeyedGraph V E K I) : Prop where
  edgeCount : k'.graph.edgeCount = 0
  payloads : k'.graph.payloads = k.graph.payloads.filter fun q => k.graph.isBare q.1
  find? (key : K) (v : VertexId) :
    k'.find? key = some v ↔ k.find? key = some v ∧ k.graph.isBare v = true
  keyOf? (v : VertexId) (key : K) :
    k'.keyOf? v = some key ↔ k.keyOf? v = some key ∧ k.graph.isBare v = true
  size : KeyIndex.size k'.index = k'.graph.vertexCount

theorem Stands.leavesBare (h : Stands keyOf k p) {k' : KeyedGraph V E K I} {p' : Register V E K}
    (h' : Stands keyOf k' p') (hnone : p'.roster.edgeIds = []) (hsieves : p.Sieves p.isBare p') :
    k.LeavesBare k' := by
  have hentry : ∀ v key, (v, key) ∈ p'.keys ↔ (v, key) ∈ p.keys ∧ k.graph.isBare v = true := by
    intro v key
    rw [hsieves.keys, List.mem_filter]
    refine and_congr_right fun hkey => ?_
    have hv : v ∈ p.roster.vertexIds := h.vertices ▸ List.mem_map_of_mem hkey
    rw [h.isBare_eq hv]
  refine ⟨?_, ?_, fun key v => ?_, fun v key => ?_, ?_⟩
  · rw [h'.graph.holds.edgeCount_eq, hnone, List.length_nil]
  · rw [h'.graph.holds.payloads_eq, h.graph.holds.payloads_eq, hsieves.vertices, List.filter_map]
    refine congrArg _ (List.filter_congr fun q hq => ?_)
    exact (h.isBare_eq (Roster.mem_vertexIds.mpr ⟨q.2, hq⟩)).symm
  · rw [h'.find?_eq_some, h.find?_eq_some, hentry]
  · rw [h'.keyOf?_eq_some, h.keyOf?_eq_some, hentry]
  · rw [h'.enters.size, h'.graph.holds.vertexCount_eq, ← h'.vertices, List.length_map]

/-- The loop from the first edge ends, comes to every edge once, in their order, and leaves the
bare vertices. -/
def CollectsAll (k : KeyedGraph V E K I) : Prop :=
  (TwoEnded.toList k.graph.edgeIds).Nodup ∧
    (TwoEnded.toList k.graph.edgeIds).length = k.graph.edgeCount ∧
    ∃ k', (∀ es k'', Collects k k.graph.firstEdge? es k'' ↔
        es = TwoEnded.toList k.graph.edgeIds ∧ k'' = k') ∧
      k.LeavesBare k'

variable [DecidableEq K] [LawfulKeyIndex I]

theorem Stands.collects (h : Stands keyOf k p) :
    ∃ k' p', Collects k p.roster.edgeIds.head? p.roster.edgeIds k' ∧ Stands keyOf k' p' ∧
      p'.roster.edgeIds = [] ∧ p.Sieves p.isBare p' := by
  generalize hes : p.roster.edgeIds = es
  -- on the edges still to come, so the cursor is always at the first of those that are left
  induction es generalizing k p with
  | nil =>
    refine ⟨k, p, .done, h, hes, Register.sieves_all fun v => Register.isBare_iff.mpr fun d => ?_⟩
    have hsub := p.roster.incident_sublist d v
    rwa [hes, List.sublist_nil] at hsub
  | cons e rest ih =>
    obtain ⟨r, hr⟩ := Roster.mem_edgeIds.mp (hes ▸ List.mem_cons_self ..)
    obtain ⟨gone, hrun⟩ := Register.eraseEdgeAndBareEnds_ok h.sound hr
    obtain ⟨k₁, hround, h₁⟩ := (tally_eraseEdgeAndBareEnds h e).exists_ok hrun
    have hnext : successor? e p.roster.edgeIds = rest.head? := by
      rw [hes]
      exact successor?_eq (l := []) List.not_mem_nil
    have hrest : ((p.dropEdge e).dropBareEnds r).roster.edgeIds = rest := by
      have hd := h.graph.sound.nodup_edgeIds
      rw [hes] at hd
      rw [Roster.edgeIds, Register.edges_dropBareEnds]
      show (p.roster.dropEdge e).edgeIds = rest
      rw [Roster.edgeIds_dropEdge, hes]
      exact filter_key_ne (f := id) (l := []) (by simpa using hd)
    obtain ⟨k', p', hcollects, h', hnone, hsieves⟩ := ih h₁ hrest
    rw [← hnext] at hcollects
    exact ⟨k', p', .round hround hcollects, h', hnone, hsieves.isBare_eraseEdge h.sound hr⟩

theorem Stands.collectsAll (h : Stands keyOf k p) : k.CollectsAll := by
  obtain ⟨k', p', hcollects, h', hnone, hsieves⟩ := h.collects
  unfold CollectsAll
  rw [h.graph.holds.edgeIds_gives.toList_eq, h.graph.holds.edgeCount_eq, h.graph.firstEdge?_eq]
  refine ⟨h.graph.sound.nodup_edgeIds, rfl, k', fun es k'' => ?_, h.leavesBare h' hnone hsieves⟩
  constructor
  · exact hcollects.unique
  · rintro ⟨rfl, rfl⟩
    exact hcollects

theorem Made.collectsAll (h : Made keyOf k) (edits : List (Edit V E)) :
    CollectsAll (k.applyAll edits) := by
  obtain ⟨p, hp⟩ := h.stands_applyAll edits
  exact hp.collectsAll

end KeyedGraph

namespace KeyedGraph

variable {V E K : Type} [DecidableEq K]

/-- However a keyed graph has been edited since it was made, by live or dead handles, with payloads
changed to other keys and whether or not edits stopped on the way, the loop over its edges leaves
the vertices that had none. -/
theorem collectsAll_applyAll (keyOf : V → K) (edits : List (Edit V E)) :
    (∀ [BEq K] [LawfulBEq K] [Hashable K] [Footprint K] {k : KeyedGraph V E K (HashedIndex K)},
      Made keyOf k → CollectsAll (k.applyAll edits)) ∧
    ∀ [Ord K] [Std.TransOrd K] [Std.LawfulEqOrd K] {k : KeyedGraph V E K (OrderedIndex K)},
      Made keyOf k → CollectsAll (k.applyAll edits) :=
  ⟨fun hmade => hmade.collectsAll edits, fun hmade => hmade.collectsAll edits⟩

def loopAndBareVertex : List (Edit (Nat × Nat) Nat) :=
  [.connect (1, 10) (1, 10) 5, .insertVertex (2, 20), .connect (3, 30) (1, 10) 6,
    .connect (3, 30) (1, 10) 7, .eraseEdge ⟨⟨1, 0⟩⟩, .connect (4, 40) (1, 10) 8]

theorem collectsAll_loopAndBareVertex :
    CollectsAll (applyAll (withIndex Prod.fst ({} : HashedIndex Nat)) loopAndBareVertex) ∧
      CollectsAll (applyAll (withIndex Prod.fst ({} : OrderedIndex Nat)) loopAndBareVertex) := by
  obtain ⟨hhashed, hordered⟩ := collectsAll_applyAll (Prod.fst : Nat × Nat → Nat) loopAndBareVertex
  exact ⟨hhashed (.withIndex {}), hordered (.withIndex {})⟩

end KeyedGraph

end SlotGraph

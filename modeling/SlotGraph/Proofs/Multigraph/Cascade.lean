import SlotGraph.Proofs.Multigraph.RemovalOrder
set_option autoImplicit false

/-!
What goes with a vertex. Its removal detaches the edges that leave it and then those that enter it
from elsewhere, each once and in the order of its list. Every other vertex loses the edges that it
shared with the one removed, and the slots of the edges are given out again from the last one back.
-/

namespace SlotGraph

/-- The handle that the slot of an edge gives out after this one. -/
def EdgeId.succ (e : EdgeId) : EdgeId := ⟨e.slot.succ⟩

/-- Of these edges, those from one vertex to another. -/
def edgesBetween {E : Type} (es : List (EdgeReport E)) (v w : VertexId) : List EdgeId :=
  (es.filter fun r => r.source == v && r.target == w).map EdgeReport.id

/-- The edges that go with a vertex: those that leave it, then those that enter it and do not leave
it. -/
def VertexReport.company {V E : Type} (r : VertexReport V) (es : List (EdgeReport E)) :
    List EdgeId :=
  r.outEdges ++ r.inEdges.filter (· ∉ edgesBetween es r.id r.id)

namespace Roster

variable {V E : Type} {m : Roster V E} {v w : VertexId}

theorem dropEdges_append (m : Roster V E) (es fs : List EdgeId) :
    m.dropEdges (es ++ fs) = (m.dropEdges es).dropEdges fs := List.foldl_append ..

theorem free_dropEdges (m : Roster V E) (es : List EdgeId) :
    (m.dropEdges es).edges.free = es.reverse.map (fun e => e.slot.succ) ++ m.edges.free := by
  induction es generalizing m with
  | nil => rfl
  | cons e es ih =>
    rw [show m.dropEdges (e :: es) = (m.dropEdge e).dropEdges es from rfl, ih]
    simp [dropEdge, Ledger.drop]

def between (m : Roster V E) (v w : VertexId) : List EdgeId :=
  (m.edges.live.filter fun q => q.2.source == v && q.2.target == w).map fun q => ⟨q.1⟩

theorem edgesBetween_edgeReports (m : Roster V E) (v w : VertexId) :
    edgesBetween m.edgeReports v w = m.between v w := by
  rw [edgesBetween, edgeReports, List.filter_map, List.map_map]
  rfl

theorem Sound.mem_between (h : m.Sound) {q : SlotId × Arc E} (hq : q ∈ m.edges.live) :
    ⟨q.1⟩ ∈ m.between v w ↔ q.2.source = v ∧ q.2.target = w := by
  rw [between, h.mem_filter_iff hq, Bool.and_eq_true, beq_iff_eq, beq_iff_eq]

theorem between_sublist_outgoing (m : Roster V E) (v w : VertexId) :
    (m.between v w).Sublist (m.incident .outgoing v) := by
  refine (List.monotone_filter_right _ fun q hq => ?_).map _
  exact (Bool.and_eq_true_iff.mp hq).1

theorem between_sublist_incoming (m : Roster V E) (v w : VertexId) :
    (m.between v w).Sublist (m.incident .incoming w) := by
  refine (List.monotone_filter_right _ fun q hq => ?_).map _
  exact (Bool.and_eq_true_iff.mp hq).2

theorem Sound.length_without_between (h : m.Sound) {d : Direction} {u : VertexId}
    (hsub : (m.between v w).Sublist (m.incident d u)) :
    ((m.incident d u).filter (· ∉ m.between v w)).length + (m.between v w).length =
      (m.incident d u).length :=
  length_filter_notMem (h.nodup_incident d u) ((h.nodup_incident d u).sublist hsub)
    fun _ he => hsub.subset he

def company (m : Roster V E) (v : VertexId) : List EdgeId :=
  m.incident .outgoing v ++ (m.incident .incoming v).filter (· ∉ m.between v v)

theorem Sound.mem_company (h : m.Sound) {q : SlotId × Arc E} (hq : q ∈ m.edges.live) :
    ⟨q.1⟩ ∈ m.company v ↔ q.2.source = v ∨ q.2.target = v := by
  have hout : EdgeId.mk q.1 ∈ m.incident .outgoing v ↔ q.2.source = v := h.mem_incident_iff hq
  have hin : EdgeId.mk q.1 ∈ m.incident .incoming v ↔ q.2.target = v := h.mem_incident_iff hq
  rw [company, List.mem_append, List.mem_filter, decide_eq_true_eq, h.mem_between hq, hout, hin]
  tauto

theorem Sound.nodup_company (h : m.Sound) (v : VertexId) : (m.company v).Nodup := by
  refine List.nodup_append.mpr ⟨h.nodup_incident _ v, (h.nodup_incident _ v).filter _, ?_⟩
  rintro e hout f hin rfl
  obtain ⟨hentering, hnot⟩ := List.mem_filter.mp hin
  obtain ⟨r, hr, hsource⟩ := mem_incident.mp hout
  have htarget := (h.mem_incident_iff hr).mp hentering
  exact of_decide_eq_true hnot ((h.mem_between hr).mpr ⟨hsource, htarget⟩)

theorem mem_edgeIds_of_company {e : EdgeId} (he : e ∈ m.company v) : e ∈ m.edgeIds := by
  rcases List.mem_append.mp he with he | he
  · exact mem_edgeIds_of_incident he
  · exact mem_edgeIds_of_incident (List.mem_of_mem_filter he)

theorem filter_incident_congr {d : Direction} {u : VertexId} {es fs : List EdgeId}
    (h : ∀ q ∈ m.edges.live, q.2.endpoint d = u → (⟨q.1⟩ ∈ es ↔ ⟨q.1⟩ ∈ fs)) :
    (m.incident d u).filter (· ∉ es) = (m.incident d u).filter (· ∉ fs) := by
  refine List.filter_congr fun e he => ?_
  obtain ⟨r, hr, hend⟩ := mem_incident.mp he
  rw [Bool.eq_iff_iff, decide_eq_true_eq, decide_eq_true_eq]
  exact not_congr (h (e.slot, r) hr hend)

/-- Once the edges that leave a vertex are gone, those that enter it are its loops no longer. -/
theorem Sound.entering_eq (h : m.Sound) (v : VertexId) :
    (m.dropIncident .outgoing v).incident .incoming v =
      (m.incident .incoming v).filter (· ∉ m.between v v) := by
  rw [Roster.dropIncident, incident_dropEdges]
  refine filter_incident_congr fun q hq (htarget : q.2.target = v) => ?_
  have hout : EdgeId.mk q.1 ∈ m.incident .outgoing v ↔ q.2.source = v := h.mem_incident_iff hq
  rw [hout, h.mem_between hq, htarget]
  simp

theorem Sound.dropAround_eq (h : m.Sound) (v : VertexId) :
    m.dropAround v = m.dropEdges (m.company v) := by
  rw [company, dropEdges_append, ← h.entering_eq]
  rfl

theorem Sound.outgoing_dropAround (h : m.Sound) (hw : w ≠ v) :
    (m.dropAround v).incident .outgoing w =
      (m.incident .outgoing w).filter (· ∉ m.between w v) := by
  rw [h.dropAround_eq, incident_dropEdges]
  refine filter_incident_congr fun q hq (hsource : q.2.source = w) => ?_
  rw [h.mem_company hq, h.mem_between hq, hsource]
  simp [hw]

theorem Sound.incoming_dropAround (h : m.Sound) (hw : w ≠ v) :
    (m.dropAround v).incident .incoming w =
      (m.incident .incoming w).filter (· ∉ m.between v w) := by
  rw [h.dropAround_eq, incident_dropEdges]
  refine filter_incident_congr fun q hq (htarget : q.2.target = w) => ?_
  rw [h.mem_company hq, h.mem_between hq, htarget]
  simp [hw]

end Roster

namespace Multigraph

variable {V E : Type} {g : Multigraph V E} {m : Roster V E} {v : VertexId}

/-- To empty the circle is to detach exactly these edges, in this order. -/
def Empties (i : Nat) (d : Direction) (g : Multigraph V E) (es : List EdgeId)
    (g' : Multigraph V E) : Prop :=
  emptyCircle i d g = .ok es.length g' ∧
    ∀ es' g'', Drains i d g es' g'' ↔ es' = es ∧ g'' = g'

theorem Represents.empties (h : Represents g m) (hv : v ∈ m.vertexIds) {d : Direction}
    {g' : Multigraph V E} (hrun : emptyCircle v.index d g = .ok (m.incident d v).length g')
    (h' : Represents g' (m.dropIncident d v)) : Empties v.index d g (m.incident d v) g' := by
  obtain ⟨g₁, hdrains, h₁⟩ := drains_ok h hv rfl
  obtain rfl : g₁ = g' := h'.unique h₁
  refine ⟨hrun, fun es' g'' => ⟨hdrains.unique, ?_⟩⟩
  rintro ⟨rfl, rfl⟩
  exact hdrains

theorem Represents.insertEdges_ok (h : Represents g m) (calls : List (VertexId × VertexId × E))
    (hcalls : ∀ c ∈ calls, c.1 ∈ m.vertexIds ∧ c.2.1 ∈ m.vertexIds) :
    ∃ ids g', calls.mapM (fun c => Multigraph.insertEdge c.1 c.2.1 c.2.2) g = .ok ids g' ∧
      ids.take m.edges.free.length = (m.edges.free.map EdgeId.mk).take calls.length := by
  induction calls generalizing g m with
  | nil => exact ⟨[], g, by simp, by simp⟩
  | cons c calls ih =>
    obtain ⟨⟨hsource, htarget⟩, hrest⟩ := List.forall_mem_cons.mp hcalls
    obtain ⟨g₁, hrun₁, h₁⟩ := insertEdge_ok h hsource htarget c.2.2
    obtain ⟨ids, g', hrun, hids⟩ := ih h₁ hrest
    refine ⟨⟨m.edges.fresh⟩ :: ids, g', ?_, ?_⟩
    · rw [List.mapM_cons, Change.bind_ok hrun₁, Change.bind_ok hrun]
      rfl
    · cases hfree : m.edges.free with
      | nil => simp
      | cons id free =>
        replace hids : ids.take free.length = (free.map EdgeId.mk).take calls.length := by
          simpa [Ledger.insert, hfree] using hids
        simp [Ledger.fresh, hfree, hids]

/-- The removal of `v`, as the reports on the vertex and on all edges foretell it. -/
structure Cascades (g : Multigraph V E) (v : VertexId) (r : VertexReport V)
    (es : List (EdgeReport E)) (g' : Multigraph V E) : Prop where
  nodup : (r.company es).Nodup
  remove : removeVertex v g = .ok ⟨r.payload, (r.company es).length⟩ g'
  removeEvent : (Edit.removeVertex v).apply g = .ok (.vertexPayload (some r.payload),
    [.erasingVertex v.index (r.company es).length]) g'
  eraseEvent : ∃ next, (Edit.eraseVertex v).apply g = .ok (.nextVertex next,
    [.erasingVertex v.index (r.company es).length]) g'
  /-- First the edges that leave the vertex are detached, then those of the others that enter it. -/
  detaches : ∃ g₁ g₂ record, Empties v.index .outgoing g r.outEdges g₁ ∧
    Empties v.index .incoming g₁ (r.inEdges.filter (· ∉ edgesBetween es v v)) g₂ ∧
    onVertices (Table.remove v.slot) g₂ = .ok (some record) g'
  /-- A loop is in both lists and goes once. -/
  cascaded : (r.company es).length + (edgesBetween es v v).length = r.outDegree + r.inDegree
  edgeCount : g'.edgeCount + (r.company es).length = g.edgeCount
  outDegree {w : VertexId} : w ≠ v → g.containsVertex w = true → ∃ n, g'.outDegree w = .ok n ∧
    g.outDegree w = .ok (n + (edgesBetween es w v).length)
  inDegree {w : VertexId} : w ≠ v → g.containsVertex w = true → ∃ n, g'.inDegree w = .ok n ∧
    g.inDegree w = .ok (n + (edgesBetween es v w).length)
  /-- New edges take the slots of those that went, the last one first, and then the slots that were
  free before. -/
  reuse : ∃ older, Table.Stacked g.edges.hole? g.edges.freeHead older ∧
    ∀ calls : List (VertexId × VertexId × E),
      (∀ c ∈ calls, g'.containsVertex c.1 = true ∧ g'.containsVertex c.2.1 = true) →
      ∃ ids g'', calls.mapM (fun c => insertEdge c.1 c.2.1 c.2.2) g' = .ok ids g'' ∧
        ids.take ((r.company es).length + older.length) =
          ((r.company es).reverse.map EdgeId.succ ++ older.map EdgeId.mk).take calls.length

theorem company_vertexReport (m : Roster V E) (q : SlotId × V) :
    (m.vertexReport q).company m.edgeReports = m.company ⟨q.1⟩ := by
  rw [VertexReport.company, Roster.edgesBetween_edgeReports]
  rfl

theorem Represents.removeVertex_company (h : Represents g m) {x : V}
    (hx : (v.slot, x) ∈ m.vertices.live) :
    ∃ g', removeVertex v g = .ok ⟨x, (m.company v).length⟩ g' ∧
      Represents g' ((m.dropEdges (m.company v)).dropVertex v) := by
  obtain ⟨g', hrun, h'⟩ := removeVertex_ok h hx
  rw [h.sound.entering_eq, ← List.length_append] at hrun
  rw [h.sound.dropAround_eq] at h'
  exact ⟨g', hrun, h'⟩

theorem Represents.eraseVertex_company (h : Represents g m) (hv : v ∈ m.vertexIds)
    {r : Removal V} {g' : Multigraph V E} (hremove : Multigraph.removeVertex v g = .ok r g') :
    Multigraph.eraseVertex v g = .ok ⟨successor? v m.vertexIds, r.cascaded⟩ g' := by
  refine (Change.ask_bind_ok (x := successor? v m.vertexIds) ?_).trans ?_
  · exact h.nextVertex_ok hv
  · exact Change.bind_ok hremove

theorem Represents.degreeIn_dropVertex (h : Represents g m) {g' : Multigraph V E}
    (h' : Represents g' ((m.dropAround v).dropVertex v)) {d : Direction} {w s t : VertexId}
    (hw : w ≠ v) (hlive : g.containsVertex w = true)
    (hsub : (m.between s t).Sublist (m.incident d w))
    (hlost : (m.dropAround v).incident d w = (m.incident d w).filter (· ∉ m.between s t)) :
    ∃ n, g'.degreeIn d w = .ok n ∧
      g.degreeIn d w = .ok (n + (edgesBetween m.edgeReports s t).length) := by
  replace hlive := h.holds.containsVertex_iff.mp hlive
  have hlive' : w ∈ ((m.dropAround v).dropVertex v).vertexIds := by
    rw [Roster.mem_vertexIds_dropVertex, m.vertexIds_dropAround]
    exact ⟨hlive, hw⟩
  refine ⟨_, h'.degreeIn_eq hlive' d, ?_⟩
  rw [h.degreeIn_eq hlive d, Roster.edgesBetween_edgeReports,
    ← h.sound.length_without_between hsub, ← hlost]
  rfl

theorem Represents.reuse_company (h : Represents g m) {g' : Multigraph V E}
    (h' : Represents g' ((m.dropAround v).dropVertex v))
    {calls : List (VertexId × VertexId × E)}
    (hcalls : ∀ c ∈ calls, g'.containsVertex c.1 = true ∧ g'.containsVertex c.2.1 = true) :
    ∃ ids g'', calls.mapM (fun c => Multigraph.insertEdge c.1 c.2.1 c.2.2) g' = .ok ids g'' ∧
      ids.take ((m.company v).length + m.edges.free.length) =
        ((m.company v).reverse.map EdgeId.succ ++ m.edges.free.map EdgeId.mk).take
          calls.length := by
  obtain ⟨ids, g'', hrun, hids⟩ := h'.insertEdges_ok calls fun c hc =>
    ⟨h'.holds.containsVertex_iff.mp (hcalls c hc).1, h'.holds.containsVertex_iff.mp (hcalls c hc).2⟩
  have hfree : ((m.dropAround v).dropVertex v).edges.free =
      (m.company v).reverse.map (fun e => e.slot.succ) ++ m.edges.free := by
    rw [h.sound.dropAround_eq]
    exact m.free_dropEdges (m.company v)
  refine ⟨ids, g'', hrun, ?_⟩
  rw [hfree, List.length_append, List.length_map, List.length_reverse, List.map_append,
    List.map_map] at hids
  exact hids

theorem Represents.cascades (h : Represents g m) {q : SlotId × V} (hq : q ∈ m.vertices.live) :
    ∃ g', Cascades g ⟨q.1⟩ (m.vertexReport q) m.edgeReports g' := by
  have hv : ⟨q.1⟩ ∈ m.vertexIds := Roster.mem_vertexIds.mpr ⟨q.2, hq⟩
  obtain ⟨g₁, g₂, g', record, hrun₁, h₁, hrun₂, h₂, hrun₃, -, h'⟩ :=
    removeVertex_steps (v := ⟨q.1⟩) h hq
  obtain ⟨g'', hremove, h''⟩ := h.removeVertex_company (v := ⟨q.1⟩) hq
  rw [← h.sound.dropAround_eq] at h''
  obtain rfl : g'' = g' := h'.unique h''
  have herase := h.eraseVertex_company hv hremove
  have hv₁ : ⟨q.1⟩ ∈ (m.dropIncident .outgoing ⟨q.1⟩).vertexIds := by
    rwa [Roster.vertexIds_dropIncident]
  have hout := h.empties hv hrun₁ h₁
  have hin := h₁.empties hv₁ hrun₂ h₂
  rw [h.sound.entering_eq] at hin
  refine ⟨g'', ?_⟩
  constructor
  case nodup => exact company_vertexReport m q ▸ h.sound.nodup_company _
  case remove => exact company_vertexReport m q ▸ hremove
  case removeEvent => exact company_vertexReport m q ▸ Change.bind_ok hremove
  case eraseEvent => exact ⟨_, company_vertexReport m q ▸ Change.bind_ok herase⟩
  case detaches =>
    rw [Roster.edgesBetween_edgeReports]
    exact ⟨g₁, g₂, record, hout, hin, hrun₃⟩
  case cascaded =>
    rw [company_vertexReport, Roster.edgesBetween_edgeReports, Roster.company, List.length_append,
      Nat.add_assoc, h.sound.length_without_between (m.between_sublist_incoming _ _)]
    rfl
  case edgeCount =>
    have hlength := length_filter_notMem h.sound.nodup_edgeIds (h.sound.nodup_company ⟨q.1⟩)
      fun _ he => Roster.mem_edgeIds_of_company he
    rw [h.holds.edgeCount_eq, company_vertexReport, ← hlength, ← Roster.edgeIds_dropEdges,
      ← h.sound.dropAround_eq, h'.holds.edgeCount_eq]
    rfl
  case outDegree =>
    intro w hw hlive
    exact h.degreeIn_dropVertex h' hw hlive (m.between_sublist_outgoing w _)
      (h.sound.outgoing_dropAround hw)
  case inDegree =>
    intro w hw hlive
    exact h.degreeIn_dropVertex h' hw hlive (m.between_sublist_incoming _ w)
      (h.sound.incoming_dropAround hw)
  case reuse =>
    obtain ⟨b, hb, hmap⟩ := h.holds.edges
    have hfree : b.free = m.edges.free := congrArg Ledger.free hmap
    refine ⟨m.edges.free, hfree ▸ hb.stacked, fun calls hcalls => ?_⟩
    rw [company_vertexReport]
    exact h.reuse_company h' hcalls

/-- In every multigraph that there can be, the removal of a live vertex detaches each edge at it
once, in the order of its lists, tells how many they were and leaves their slots to the next
edges. -/
theorem Reached.removeVertex_cascades (hg : g.Reached) (hv : g.containsVertex v = true) :
    ∃ r es g', g.vertexReport v = .ok r ∧ g.edgeReports = .ok es ∧ Cascades g v r es g' := by
  obtain ⟨m, h⟩ := hg.represents
  obtain ⟨x, hx⟩ := Roster.mem_vertexIds.mp (h.holds.containsVertex_iff.mp hv)
  obtain ⟨g', hcascades⟩ := h.cascades hx
  exact ⟨m.vertexReport (v.slot, x), m.edgeReports, g', h.vertexReport_ok hx,
    h.holds.edgeReports_ok, hcascades⟩

def loopedVertex : List (Edit Nat Nat) :=
  [.insertVertex 10, .insertVertex 20, .insertVertex 30, .insertEdge ⟨0, 0⟩ ⟨2, 0⟩ 1,
    .insertEdge ⟨0, 0⟩ ⟨1, 0⟩ 2, .insertEdge ⟨1, 0⟩ ⟨1, 0⟩ 3, .insertEdge ⟨1, 0⟩ ⟨0, 0⟩ 4,
    .insertEdge ⟨1, 0⟩ ⟨2, 0⟩ 5, .insertEdge ⟨0, 0⟩ ⟨1, 0⟩ 6, .insertEdge ⟨2, 0⟩ ⟨0, 0⟩ 7,
    .removeEdge ⟨0, 0⟩]

theorem removeVertex_cascades_loopedVertex :
    (Edit.applyAll .empty loopedVertex).Reached ∧
      (Edit.applyAll .empty loopedVertex).containsVertex ⟨1, 0⟩ = true ∧
      (((Edit.applyAll .empty loopedVertex).vertexReport ⟨1, 0⟩).bind fun r =>
        (Edit.applyAll .empty loopedVertex).edgeReports.map r.company) =
          .ok [⟨2, 0⟩, ⟨3, 0⟩, ⟨4, 0⟩, ⟨1, 0⟩, ⟨5, 0⟩] ∧
      ∃ r es g', (Edit.applyAll .empty loopedVertex).vertexReport ⟨1, 0⟩ = .ok r ∧
        (Edit.applyAll .empty loopedVertex).edgeReports = .ok es ∧
        Cascades (Edit.applyAll .empty loopedVertex) ⟨1, 0⟩ r es g' := by
  have hreached : (Edit.applyAll .empty loopedVertex).Reached := Reached.empty.applyAll loopedVertex
  have hlive : (Edit.applyAll .empty loopedVertex).containsVertex ⟨1, 0⟩ = true := by decide +kernel
  exact ⟨hreached, hlive, by decide +kernel, hreached.removeVertex_cascades hlive⟩

end Multigraph

end SlotGraph

import SlotGraph.Proofs.Multigraph.Canonical
import SlotGraph.Proofs.Multigraph.Peak
import SlotGraph.Proofs.Multigraph.Reports
set_option autoImplicit false

namespace SlotGraph

def VertexReport.renumber {V V' : Type} (vs : List VertexId) (es : List EdgeId)
    (r : VertexReport V) (x : V') : VertexReport V' where
  id := r.id.renumber vs
  payload := x
  outEdges := r.outEdges.map (EdgeId.renumber es)
  inEdges := r.inEdges.map (EdgeId.renumber es)
  outDegree := r.outDegree
  inDegree := r.inDegree
  degree := r.degree

def EdgeReport.renumber {E E' : Type} (vs : List VertexId) (es : List EdgeId) (r : EdgeReport E)
    (y : E') : EdgeReport E' :=
  ⟨r.id.renumber es, y, r.source.renumber vs, r.target.renumber vs⟩

namespace Roster

variable {V E V' E' V'' E'' : Type} {m : Roster V E} {xs : List V'} {ys : List E'}

theorem map_slot_vertexIds (m : Roster V E) :
    m.vertexIds.map VertexId.slot = m.vertices.live.map Prod.fst := by
  rw [vertexIds, List.map_map]
  rfl

theorem map_slot_edgeIds (m : Roster V E) :
    m.edgeIds.map EdgeId.slot = m.edges.live.map Prod.fst := by
  rw [edgeIds, List.map_map]
  rfl

theorem Sound.live_vertices_copied (h : m.Sound) (hx : xs.length = m.vertices.live.length)
    (ys : List E') : (m.copied xs ys).vertices.live =
      List.zipWith (fun q x => (q.1.renumber (m.vertexIds.map VertexId.slot), x))
        m.vertices.live xs := by
  have hxs : List.zipWith (fun _ x => x) m.vertices.live xs = xs := zipWith_snd hx
  have hlive := Ledger.live_compact_zipWith h.nodup_live_vertices (fun _ x => x) xs
  rwa [hxs, ← m.map_slot_vertexIds] at hlive

theorem Sound.live_edges_copied (h : m.Sound) (xs : List V') (ys : List E') :
    (m.copied xs ys).edges.live =
      List.zipWith (fun p y => (p.1.renumber (m.edgeIds.map EdgeId.slot),
        p.2.renumber m.vertexIds y)) m.edges.live ys := by
  rw [map_slot_edgeIds]
  exact Ledger.live_compact_zipWith h.nodup_live_edges _ ys

theorem vertexIds_copied (m : Roster V E) (xs : List V') (ys : List E') :
    (m.copied xs ys).vertexIds = (List.range xs.length).map fun i => ⟨⟨i, 0⟩⟩ := by
  have hids := congrArg (List.map VertexId.mk) (Ledger.map_fst_compact xs)
  rw [List.map_map, List.map_map] at hids
  exact hids

theorem edgeIds_copied (m : Roster V E) (xs : List V') (hy : ys.length = m.edges.live.length) :
    (m.copied xs ys).edgeIds = (List.range ys.length).map fun i => ⟨⟨i, 0⟩⟩ := by
  have hids := congrArg (List.map EdgeId.mk) (Ledger.map_fst_compact
    (List.zipWith (fun p y => p.2.renumber m.vertexIds y) m.edges.live ys))
  rw [List.map_map, List.map_map, List.length_zipWith, hy, Nat.min_self] at hids
  rw [hy]
  exact hids

theorem vertexPayloads_copied (m : Roster V E) (xs : List V') (ys : List E') :
    (m.copied xs ys).vertexPayloads = xs := Ledger.map_snd_compact xs

theorem edgePayloads_copied (m : Roster V E) (xs : List V')
    (hy : ys.length = m.edges.live.length) : (m.copied xs ys).edgePayloads = ys := by
  have harcs := congrArg (List.map Arc.payload) (Ledger.map_snd_compact
    (List.zipWith (fun p y => p.2.renumber m.vertexIds y) m.edges.live ys))
  have hys : List.zipWith (fun _ y => y) m.edges.live ys = ys := zipWith_snd hy
  rw [List.map_map, List.map_zipWith] at harcs
  exact harcs.trans hys

theorem Sound.incident_copied (h : m.Sound) (xs : List V')
    (hy : ys.length = m.edges.live.length) (d : Direction) (v : VertexId) :
    (m.copied xs ys).incident d (v.renumber m.vertexIds) =
      (m.incident d v).map (EdgeId.renumber m.edgeIds) := by
  have hend : ∀ p ∈ m.edges.live, ∀ y : E',
      ((p.2.renumber m.vertexIds y).endpoint d == v.renumber m.vertexIds) =
        (p.2.endpoint d == v) := by
    intro p hp y
    rw [Bool.eq_iff_iff, beq_iff_eq, beq_iff_eq, Arc.endpoint_renumber]
    exact VertexId.renumber_inj (h.ends p hp d)
  rw [incident, h.live_edges_copied, incident, List.map_map]
  refine map_filter_zipWith ?_ ?_ hy.symm
  · exact hend
  · exact fun _ _ _ => rfl

theorem Sound.vertexReports_copied (h : m.Sound) (hx : xs.length = m.vertices.live.length)
    (hy : ys.length = m.edges.live.length) : (m.copied xs ys).vertexReports =
      List.zipWith (VertexReport.renumber m.vertexIds m.edgeIds) m.vertexReports xs := by
  have hreport : ∀ (q : SlotId × V) (x : V'), (m.copied xs ys).vertexReport
      (q.1.renumber (m.vertexIds.map VertexId.slot), x) =
        (m.vertexReport q).renumber m.vertexIds m.edgeIds x := by
    intro q x
    have hincident : ∀ d, (m.copied xs ys).incident d
        ⟨q.1.renumber (m.vertexIds.map VertexId.slot)⟩ =
          (m.incident d ⟨q.1⟩).map (EdgeId.renumber m.edgeIds) :=
      fun d => h.incident_copied xs hy d ⟨q.1⟩
    simp only [vertexReport, hincident, List.length_map]
    rfl
  rw [vertexReports, h.live_vertices_copied hx, List.map_zipWith, vertexReports,
    List.zipWith_map_left]
  simp only [hreport]

theorem Sound.edgeReports_copied (h : m.Sound) (xs : List V') (ys : List E') :
    (m.copied xs ys).edgeReports =
      List.zipWith (EdgeReport.renumber m.vertexIds m.edgeIds) m.edgeReports ys := by
  rw [edgeReports, h.live_edges_copied, List.map_zipWith, edgeReports, List.zipWith_map_left]
  rfl

theorem renumber_copied {v : VertexId} (hv : v ∈ m.vertexIds)
    (hx : xs.length = m.vertices.live.length) (ys : List E') :
    (v.renumber m.vertexIds).renumber (m.copied xs ys).vertexIds = v.renumber m.vertexIds := by
  have hlt := List.idxOf_lt_length_of_mem (VertexId.mem_map_slot.mpr hv)
  have hd : ((m.copied xs ys).vertexIds.map VertexId.slot).Nodup := by
    rw [vertexIds_copied, List.map_map]
    exact List.nodup_range.map fun i j heq => congrArg SlotId.index heq
  have hplace := hd.idxOf_getElem ((m.vertexIds.map VertexId.slot).idxOf v.slot)
    (by simpa [m.map_slot_vertexIds, vertexIds_copied, hx] using hlt)
  simpa [VertexId.renumber, SlotId.renumber, vertexIds_copied] using hplace

theorem Sound.copied_copied (h : m.Sound) (hx : xs.length = m.vertices.live.length)
    (hy : ys.length = m.edges.live.length) (xs' : List V'') (ys' : List E'') :
    (m.copied xs ys).copied xs' ys' = m.copied xs' ys' := by
  have hedges : List.zipWith (fun p y => p.2.renumber (m.copied xs ys).vertexIds y)
      (m.copied xs ys).edges.live ys' =
        List.zipWith (fun p y => p.2.renumber m.vertexIds y) m.edges.live ys' := by
    rw [h.live_edges_copied]
    refine List.ext_getElem (by simp [hy]) fun i hi _ => ?_
    have hi' : i < m.edges.live.length := by
      simp only [List.length_zipWith] at hi
      omega
    have hends := fun d => renumber_copied (h.ends _ (List.getElem_mem hi') d) hx ys
    have hsource := hends .outgoing
    have htarget := hends .incoming
    simp only [Arc.endpoint] at hsource htarget
    simp [Arc.renumber, hsource, htarget]
  rw [copied, hedges, copied]

theorem map_id_vertexReports (m : Roster V E) :
    m.vertexReports.map VertexReport.id = m.vertexIds := by
  rw [vertexReports, List.map_map]
  rfl

theorem map_payload_vertexReports (m : Roster V E) :
    m.vertexReports.map VertexReport.payload = m.vertexPayloads := by
  rw [vertexReports, List.map_map]
  rfl

theorem map_id_edgeReports (m : Roster V E) : m.edgeReports.map EdgeReport.id = m.edgeIds := by
  rw [edgeReports, List.map_map]
  rfl

theorem map_payload_edgeReports (m : Roster V E) :
    m.edgeReports.map EdgeReport.payload = m.edgePayloads := by
  rw [edgeReports, List.map_map]
  rfl

end Roster

namespace Multigraph

variable {V E V' E' V'' E'' : Type} {g : Multigraph V E} {m : Roster V E}

/-- The copy has the shape of `g`, which reports `vs` and `es`, with other payloads. Its vertices
and edges are numbered from 0 on in table order, and no slot is to spare. -/
structure CopyOf (g : Multigraph V E) (vs : List (VertexReport V)) (es : List (EdgeReport E))
    (xs : List V') (ys : List E') (copy : Multigraph V' E') : Prop where
  vertexIds : TwoEnded.toList copy.vertexIds = (List.range g.vertexCount).map fun i => ⟨⟨i, 0⟩⟩
  edgeIds : TwoEnded.toList copy.edgeIds = (List.range g.edgeCount).map fun i => ⟨⟨i, 0⟩⟩
  vertexReports : copy.vertexReports = .ok (List.zipWith
    (VertexReport.renumber (vs.map VertexReport.id) (es.map EdgeReport.id)) vs xs)
  edgeReports : copy.edgeReports = .ok (List.zipWith
    (EdgeReport.renumber (vs.map VertexReport.id) (es.map EdgeReport.id)) es ys)
  vertexCapacity : copy.vertexCapacity = g.vertexCount
  edgeCapacity : copy.edgeCapacity = g.edgeCount

theorem Represents.copyOf (h : Represents g m) {xs : List V'} {ys : List E'}
    (hx : xs.length = m.vertices.live.length) (hy : ys.length = m.edges.live.length)
    {copy : Multigraph V' E'} (hcopy : Represents copy (m.copied xs ys)) :
    CopyOf g m.vertexReports m.edgeReports xs ys copy := by
  have hvertexCount : g.vertexCount = xs.length := h.holds.vertices.size_eq.trans hx.symm
  have hedgeCount : g.edgeCount = ys.length := h.holds.edges.size_eq.trans hy.symm
  have hslots := Compact.capacities ⟨_, hcopy, rfl, rfl⟩
  constructor
  case vertexIds =>
    rw [hcopy.holds.vertexIds_gives.toList_eq, m.vertexIds_copied, hvertexCount]
  case edgeIds =>
    rw [hcopy.holds.edgeIds_gives.toList_eq, m.edgeIds_copied xs hy, hedgeCount]
  case vertexReports =>
    rw [hcopy.vertexReports_ok, h.sound.vertexReports_copied hx hy, m.map_id_vertexReports,
      m.map_id_edgeReports]
  case edgeReports =>
    rw [hcopy.holds.edgeReports_ok, h.sound.edgeReports_copied, m.map_id_vertexReports,
      m.map_id_edgeReports]
  case vertexCapacity =>
    rw [hslots.1, vertexCount, hcopy.holds.vertices.size_eq, hvertexCount]
    simp [Roster.copied, Ledger.compact]
  case edgeCapacity =>
    rw [hslots.2, edgeCount, hcopy.holds.edges.size_eq, hedgeCount]
    simp [Roster.copied, Ledger.compact, hy]

theorem Represents.map_ok (h : Represents g m) (f : V → V') (k : E → E') :
    ∃ copy, g.map f k = .ok copy ∧
      Represents copy (m.copied (m.vertexPayloads.map f) (m.edgePayloads.map k)) := by
  obtain ⟨copy, hrun, hcopy⟩ :=
    h.mapAccum_ok (fun _ x => (f x, ())) (fun _ x => (k x, ())) ()
  refine ⟨copy, ?_, ?_⟩
  · rw [map, hrun]
    rfl
  · simpa [Roster.mapAccum, threaded_stateless] using hcopy

theorem Represents.map_map (h : Represents g m) (f : V → V') (k : E → E') (f' : V' → V'')
    (k' : E' → E'') : ∃ copy, g.map (f' ∘ f) (k' ∘ k) = .ok copy ∧
      (g.map f k >>= fun g' => g'.map f' k') = .ok copy ∧
      Represents copy (m.copied (m.vertexPayloads.map (f' ∘ f)) (m.edgePayloads.map (k' ∘ k))) := by
  have hx : (m.vertexPayloads.map f).length = m.vertices.live.length := by
    simp [Roster.vertexPayloads]
  have hy : (m.edgePayloads.map k).length = m.edges.live.length := by simp [Roster.edgePayloads]
  obtain ⟨once, hrun, honce⟩ := h.map_ok (f' ∘ f) (k' ∘ k)
  obtain ⟨first, hfirst, h₁⟩ := h.map_ok f k
  obtain ⟨second, hsecond, h₂⟩ := h₁.map_ok f' k'
  rw [m.vertexPayloads_copied, m.edgePayloads_copied _ hy, List.map_map, List.map_map,
    h.sound.copied_copied hx hy] at h₂
  refine ⟨once, hrun, ?_, honce⟩
  rw [hfirst]
  exact hsecond.trans (congrArg Except.ok (honce.unique h₂))

/-- Every multigraph that there can be is copied in its shape and in table order, by any functions
on payloads, with a state or without. -/
theorem Reached.copies_compactly (hg : g.Reached) :
    ∃ vs es, g.vertexReports = .ok vs ∧ g.edgeReports = .ok es ∧
      (∀ {V' E' σ : Type} (f : σ → V → V' × σ) (k : σ → E → E' × σ) (s : σ),
        ∃ xs s₁ ys s₂ copy, threaded f (vs.map VertexReport.payload) s = (xs, s₁) ∧
          threaded k (es.map EdgeReport.payload) s₁ = (ys, s₂) ∧
          g.mapAccum f k s = .ok (copy, s₂) ∧ CopyOf g vs es xs ys copy) ∧
      ∀ {V' E' V'' E'' : Type} (f : V → V') (k : E → E') (f' : V' → V'') (k' : E' → E''),
        ∃ copy, g.map (f' ∘ f) (k' ∘ k) = .ok copy ∧
          (g.map f k >>= fun g' => g'.map f' k') = .ok copy ∧
          CopyOf g vs es (vs.map fun r => f' (f r.payload)) (es.map fun r => k' (k r.payload))
            copy := by
  obtain ⟨m, h⟩ := hg.represents
  refine ⟨_, _, h.vertexReports_ok, h.holds.edgeReports_ok, fun f k s => ?_, fun f k f' k' => ?_⟩
  · obtain ⟨copy, hrun, hcopy⟩ := h.mapAccum_ok f k s
    rw [m.map_payload_vertexReports, m.map_payload_edgeReports]
    exact ⟨_, _, _, _, copy, rfl, rfl, hrun, h.copyOf
      (by simp [length_threaded, Roster.vertexPayloads])
      (by simp [length_threaded, Roster.edgePayloads]) hcopy⟩
  · obtain ⟨copy, honce, htwice, hcopy⟩ := h.map_map f k f' k'
    refine ⟨copy, honce, htwice, ?_⟩
    have hshape := h.copyOf (by simp [Roster.vertexPayloads]) (by simp [Roster.edgePayloads]) hcopy
    rw [← m.map_payload_vertexReports, ← m.map_payload_edgeReports, List.map_map,
      List.map_map] at hshape
    exact hshape

/-- The oldest vertex went and its slot was taken again, so the order of the slots is not that of
the table; there is a slot to spare, a loop and two edges side by side. -/
def firstVertexReplaced : List (Edit Nat Nat) :=
  [.insertVertex 10, .insertVertex 20, .insertVertex 30, .insertVertex 40, .removeVertex ⟨0, 0⟩,
    .insertVertex 50, .removeVertex ⟨3, 0⟩, .insertEdge ⟨0, 1⟩ ⟨1, 0⟩ 1,
    .insertEdge ⟨2, 0⟩ ⟨2, 0⟩ 2, .insertEdge ⟨0, 1⟩ ⟨1, 0⟩ 3, .removeEdge ⟨0, 0⟩,
    .insertEdge ⟨0, 1⟩ ⟨1, 0⟩ 4]

def serial (n x : Nat) : Nat × Nat := (x + n, n + 1)

theorem copies_compactly_firstVertexReplaced :
    (Edit.applyAll .empty firstVertexReplaced).Reached ∧ ∃ vs es,
      (Edit.applyAll .empty firstVertexReplaced).vertexReports = .ok vs ∧
      (Edit.applyAll .empty firstVertexReplaced).edgeReports = .ok es ∧
      vs.map VertexReport.id = [⟨1, 0⟩, ⟨2, 0⟩, ⟨0, 1⟩] ∧
      es.map EdgeReport.id = [⟨1, 0⟩, ⟨2, 0⟩, ⟨0, 1⟩] ∧
      ∃ copy, (Edit.applyAll .empty firstVertexReplaced).mapAccum serial serial 0 = .ok (copy, 6) ∧
        CopyOf (Edit.applyAll .empty firstVertexReplaced) vs es [20, 31, 52] [5, 7, 9] copy ∧
        copy.edgeReports = .ok [⟨⟨0, 0⟩, 5, ⟨1, 0⟩, ⟨1, 0⟩⟩, ⟨⟨1, 0⟩, 7, ⟨2, 0⟩, ⟨0, 0⟩⟩,
          ⟨⟨2, 0⟩, 9, ⟨2, 0⟩, ⟨0, 0⟩⟩] := by
  have hreached : (Edit.applyAll .empty firstVertexReplaced).Reached :=
    Reached.empty.applyAll firstVertexReplaced
  have hvertices : (Edit.applyAll .empty firstVertexReplaced).vertexReports = .ok
      [⟨⟨1, 0⟩, 20, [], [⟨2, 0⟩, ⟨0, 1⟩], 0, 2, 2⟩, ⟨⟨2, 0⟩, 30, [⟨1, 0⟩], [⟨1, 0⟩], 1, 1, 2⟩,
        ⟨⟨0, 1⟩, 50, [⟨2, 0⟩, ⟨0, 1⟩], [], 2, 0, 2⟩] := by decide +kernel
  have hedges : (Edit.applyAll .empty firstVertexReplaced).edgeReports = .ok
      [⟨⟨1, 0⟩, 2, ⟨2, 0⟩, ⟨2, 0⟩⟩, ⟨⟨2, 0⟩, 3, ⟨0, 1⟩, ⟨1, 0⟩⟩,
        ⟨⟨0, 1⟩, 4, ⟨0, 1⟩, ⟨1, 0⟩⟩] := by decide +kernel
  obtain ⟨vs, es, hvs, hes, hcopies, -⟩ := hreached.copies_compactly
  obtain rfl := Except.ok.inj (hvs.symm.trans hvertices)
  obtain rfl := Except.ok.inj (hes.symm.trans hedges)
  obtain ⟨xs, s₁, ys, s₂, copy, hxs, hys, hrun, hcopy⟩ := hcopies serial serial 0
  cases hxs
  cases hys
  exact ⟨hreached, _, _, hvs, hes, rfl, rfl, copy, hrun, hcopy, hcopy.edgeReports⟩

end Multigraph

end SlotGraph

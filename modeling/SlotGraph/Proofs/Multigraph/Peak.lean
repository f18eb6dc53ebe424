import SlotGraph.Proofs.Multigraph.Lifetime
import SlotGraph.Proofs.Table.Peak
set_option autoImplicit false

namespace SlotGraph

namespace Roster

variable {V E : Type} {m : Roster V E}

open Multigraph (Edit)

structure Fits (m m' : Roster V E) : Prop where
  vertices : m.vertices.Fits m'.vertices
  edges : m.edges.Fits m'.edges

theorem Fits.refl (m : Roster V E) : m.Fits m := ⟨.of_eq rfl, .of_eq rfl⟩

theorem Sound.slotCount_dropEdges (h : m.Sound) {es : List EdgeId} (hd : es.Nodup)
    (hes : ∀ e ∈ es, e ∈ m.edgeIds) : (m.dropEdges es).edges.slotCount = m.edges.slotCount := by
  induction es generalizing m with
  | nil => rfl
  | cons e es ih =>
    have he : e ∈ m.edgeIds := hes e (List.mem_cons_self ..)
    obtain ⟨r, hr⟩ := mem_edgeIds.mp he
    have hrest := ih (h.dropEdge he) hd.of_cons (mem_edgeIds_dropEdge_of_later hd hes)
    exact hrest.trans (Ledger.slotCount_drop h.nodup_live_edges hr)

theorem Sound.fits_dropEdges (h : m.Sound) {es : List EdgeId} (hes : es.Sublist m.edgeIds) :
    m.Fits (m.dropEdges es) where
  vertices := .of_eq (by rw [vertices_dropEdges])
  edges := .of_eq (h.slotCount_dropEdges (h.nodup_edgeIds.sublist hes) hes.subset)

theorem Sound.slotCount_dropAround (h : m.Sound) (v : VertexId) :
    (m.dropAround v).edges.slotCount = m.edges.slotCount := by
  have hincident : ∀ {m : Roster V E} (d : Direction), m.Sound →
      (m.dropIncident d v).edges.slotCount = m.edges.slotCount := fun d hm =>
    hm.slotCount_dropEdges (hm.nodup_incident d v) fun _ he => mem_edgeIds_of_incident he
  exact (hincident .incoming (h.dropIncident .outgoing v)).trans (hincident .outgoing h)

theorem Sound.fits_dropAround (h : m.Sound) (v : VertexId) : m.Fits (m.dropAround v) where
  vertices := .of_eq (by rw [vertices_dropAround])
  edges := .of_eq (h.slotCount_dropAround v)

theorem Sound.fits_dropVertex (h : m.Sound) {v : VertexId} (hv : v ∈ m.vertexIds) :
    m.Fits ((m.dropAround v).dropVertex v) where
  vertices := by
    obtain ⟨x, hx⟩ := mem_vertexIds.mp hv
    refine .of_eq ?_
    show ((m.dropAround v).vertices.drop v.slot).slotCount = _
    rw [vertices_dropAround]
    exact Ledger.slotCount_drop h.nodup_live_vertices hx
  edges := .of_eq (h.slotCount_dropAround v)

theorem fits_insertEdge (m : Roster V E) (r : Arc E) :
    m.Fits { m with edges := m.edges.insert r } := ⟨.of_eq rfl, Ledger.fits_insert _ r⟩

theorem Sound.mem_of_vertexAt? (h : m.Sound) {i : Nat} {v : VertexId}
    (hv : m.vertexAt? i = some v) : v ∈ m.vertexIds := by
  obtain ⟨p, hp, rfl⟩ := Option.map_eq_some_iff.mp hv
  exact mem_vertexIds.mpr ⟨p.2, ((Ledger.record?_eq_some h.nodup_live_vertices).mp hp).1⟩

theorem Sound.mem_of_edgeAt? (h : m.Sound) {i : Nat} {e : EdgeId}
    (he : m.edgeAt? i = some e) : e ∈ m.edgeIds := by
  obtain ⟨p, hp, rfl⟩ := Option.map_eq_some_iff.mp he
  exact mem_edgeIds.mpr ⟨p.2, ((Ledger.record?_eq_some h.nodup_live_edges).mp hp).1⟩

theorem Sound.fits_after (h : m.Sound) {edit : Edit V E} (ha : m.Admits edit)
    (hedit : edit ≠ .clear) : m.Fits (m.after edit) := by
  have hvertices := ha.vertices
  have hedges := ha.edges
  cases edit with
  | insertVertex x | addVertexAt x => exact ⟨Ledger.fits_insert _ x, .of_eq rfl⟩
  | eraseVertex v | removeVertex v =>
    exact h.fits_dropVertex (hvertices v (by simp [Edit.vertices]))
  | updateVertex? v f | updateVertex v f =>
    exact ⟨.of_eq (Ledger.slotCount_update _ v.slot f), .of_eq rfl⟩
  | insertEdge s t x => exact m.fits_insertEdge ⟨x, s, t⟩
  | eraseEdge e | removeEdge e | eraseIncident d e =>
    have he : e ∈ m.edgeIds := hedges e (by simp [Edit.edges])
    exact h.fits_dropEdges (List.singleton_sublist.mpr he)
  | updateEdge? e f | updateEdge e f =>
    exact ⟨.of_eq rfl, .of_eq (Ledger.slotCount_update _ e.slot _)⟩
  | clearIncident d v => exact h.fits_dropEdges (m.incident_sublist d v)
  | clearVertexEdges v => exact h.fits_dropAround v
  | clearEdges => exact h.fits_dropEdges (List.Sublist.refl _)
  | clear => exact absurd rfl hedit
  | removeVertexAt i =>
    rw [after]
    cases hv : m.vertexAt? i with
    | none => exact .refl m
    | some v => exact h.fits_dropVertex (h.mem_of_vertexAt? hv)
  | clearVertexAt i =>
    rw [after]
    cases m.vertexAt? i with
    | none => exact .refl m
    | some v => exact h.fits_dropAround v
  | addEdgeAt s t x =>
    rw [after]
    cases m.vertexAt? s with
    | none => exact .refl m
    | some v =>
      cases m.vertexAt? t with
      | none => exact .refl m
      | some w => exact m.fits_insertEdge ⟨x, v, w⟩
  | removeEdgeAt i =>
    rw [after]
    cases he : m.edgeAt? i with
    | none => exact .refl m
    | some e => exact h.fits_dropEdges (List.singleton_sublist.mpr (h.mem_of_edgeAt? he))
  | removeEdgesIf p => exact h.fits_dropEdges (sift_sublist _ _ _)
  | removeIncidentIf d i p =>
    rw [after]
    cases m.vertexAt? i with
    | none => exact .refl m
    | some v => exact h.fits_dropEdges ((sift_sublist _ _ _).trans (m.incident_sublist d v))

end Roster

namespace Multigraph

variable {V E V' E' σ : Type} {g : Multigraph V E} {m : Roster V E}

open Table (GrowsIfFull)

theorem Represents.fits_step (h : Represents g m) {edit : Edit V E} (hedit : edit ≠ .clear) :
    ∃ m', Represents (g.step edit) m' ∧ m.Fits m' := by
  by_cases hlive : edit.Live g
  · obtain ⟨r, g', hrun, -, h'⟩ := h.apply_ok hlive
    rw [step_ok hrun]
    exact ⟨_, h', h.sound.fits_after ((h.live_iff edit).mp hlive) hedit⟩
  -- an edit that stops has not dropped anything, so both ledgers are as before
  · obtain ⟨f, g', hrun, -, h'⟩ := h.apply_error hlive
    rw [Multigraph.step, hrun]
    exact ⟨_, h', .refl m⟩

theorem Represents.vertexCapacity_step (h : Represents g m) {edit : Edit V E}
    (hedit : edit ≠ .clear) :
    (g.step edit).vertexCapacity = max g.vertexCapacity (g.step edit).vertexCount := by
  obtain ⟨m', h', hfits⟩ := h.fits_step hedit
  exact h.holds.vertices.capacity_fits h'.holds.vertices hfits.vertices

theorem Represents.edgeCapacity_step (h : Represents g m) {edit : Edit V E}
    (hedit : edit ≠ .clear) :
    (g.step edit).edgeCapacity = max g.edgeCapacity (g.step edit).edgeCount := by
  obtain ⟨m', h', hfits⟩ := h.fits_step hedit
  exact h.holds.edges.capacity_fits h'.holds.edges hfits.edges

theorem Reached.isGreatest_since (level room : Multigraph V E → Nat)
    (hempty : room .empty = level .empty)
    (hstep : ∀ {g m edit}, Represents g m → edit ≠ .clear →
      room (g.step edit) = max (room g) (level (g.step edit)))
    (hg : g.Reached) (hstart : room g = level g) (edits : List (Edit V E)) :
    IsGreatest (level '' Since (Edit.applyAll g) .clear edits) (room (Edit.applyAll g edits)) := by
  refine SlotGraph.isGreatest_since level room hstart (fun edits => ?_)
    (fun edits edit hedit => ?_) edits
  · rw [applyAll_concat]
    exact hempty
  · obtain ⟨m, h⟩ := (hg.applyAll edits).represents
    rw [applyAll_concat]
    exact hstep h hedit

theorem Represents.insertVertex_grows (h : Represents g m) (x : V) :
    ∃ v g', Multigraph.insertVertex x g = .ok v g' ∧ GrowsIfFull g.vertices g'.vertices ∧
      g'.edgeCapacity = g.edgeCapacity := by
  obtain ⟨g', hrun, h'⟩ := insertVertex_ok h x
  refine ⟨_, g', hrun, h.holds.vertices.growsIfFull h'.holds.vertices, ?_⟩
  exact h'.holds.edges.capacity_eq.trans h.holds.edges.capacity_eq.symm

theorem Represents.insertEdge_grows (h : Represents g m) {s t : VertexId}
    (hs : g.containsVertex s = true) (ht : g.containsVertex t = true) (x : E) :
    ∃ e g', Multigraph.insertEdge s t x g = .ok e g' ∧ GrowsIfFull g.edges g'.edges ∧
      g'.vertexCapacity = g.vertexCapacity := by
  obtain ⟨g', hrun, h'⟩ := insertEdge_ok h (h.holds.containsVertex_iff.mp hs)
    (h.holds.containsVertex_iff.mp ht) x
  refine ⟨_, g', hrun, h.holds.edges.growsIfFull h'.holds.edges, ?_⟩
  exact h'.holds.vertices.capacity_eq.trans h.holds.vertices.capacity_eq.symm

/-- The multigraph is empty, or a copy on which nothing has been done yet. -/
inductive Made : {V E : Type} → Multigraph V E → Prop where
  | empty {V E : Type} : Made (empty : Multigraph V E)
  | withRoom {V E : Type} [Footprint V] [Footprint E] {v e : Nat} {g : Multigraph V E} :
    withRoom v e = .ok g → Made g
  | copy {V E V' E' σ : Type} {g : Multigraph V E} {f : σ → V → V' × σ} {k : σ → E → E' × σ}
    {s s' : σ} {g' : Multigraph V' E'} :
    Reached g → g.mapAccum f k s = .ok (g', s') → Made g'

theorem Made.reached {V E : Type} {g : Multigraph V E} (h : Made g) : Reached g := by
  cases h with
  | empty => exact .empty
  | withRoom hroom => exact .withRoom hroom
  | copy hg hcopy => exact .copy hg hcopy

def Compact (g : Multigraph V E) : Prop :=
  ∃ m, Represents g m ∧ m.vertices.free = [] ∧ m.edges.free = []

theorem compact_empty : Compact (empty : Multigraph V E) := ⟨{}, represents_empty, rfl, rfl⟩

theorem Reached.compact_mapAccum {g : Multigraph V E} {f : σ → V → V' × σ} {k : σ → E → E' × σ}
    {s s' : σ} {g' : Multigraph V' E'} (hg : g.Reached) (h : g.mapAccum f k s = .ok (g', s')) :
    Compact g' := by
  obtain ⟨m, hm⟩ := hg.represents
  obtain ⟨copy, hrun, hcopy⟩ := hm.mapAccum_ok f k s
  rw [h] at hrun
  cases hrun
  exact ⟨_, hcopy, rfl, rfl⟩

theorem Compact.capacities (h : Compact g) :
    g.vertexCapacity = g.vertexCount ∧ g.edgeCapacity = g.edgeCount := by
  obtain ⟨m, h, hvertices, hedges⟩ := h
  constructor
  · rw [vertexCapacity, h.holds.vertices.capacity_eq, vertexCount, h.holds.vertices.size_eq,
      Ledger.slotCount, hvertices]
    rfl
  · rw [edgeCapacity, h.holds.edges.capacity_eq, edgeCount, h.holds.edges.size_eq,
      Ledger.slotCount, hedges]
    rfl

theorem Made.compact {V E : Type} {g : Multigraph V E} (h : Made g) : Compact g := by
  cases h with
  | empty => exact compact_empty
  | withRoom hroom =>
    rw [withRoom_eq hroom]
    exact compact_empty
  | copy hg hcopy => exact hg.compact_mapAccum hcopy

/-- After the edits, either table has as many slots as there were records in it at most since the
last `clear`, and an insertion adds one exactly if no slot is free. -/
structure AtPeak (start : Multigraph V E) (edits : List (Edit V E)) : Prop where
  vertices : IsGreatest (vertexCount '' Since (Edit.applyAll start) .clear edits)
    (Edit.applyAll start edits).vertexCapacity
  edges : IsGreatest (edgeCount '' Since (Edit.applyAll start) .clear edits)
    (Edit.applyAll start edits).edgeCapacity
  insertVertex (x : V) : ∃ v g', Multigraph.insertVertex x (Edit.applyAll start edits) = .ok v g' ∧
    GrowsIfFull (Edit.applyAll start edits).vertices g'.vertices ∧
    g'.edgeCapacity = (Edit.applyAll start edits).edgeCapacity
  insertEdge {s t : VertexId} (x : E) : (Edit.applyAll start edits).containsVertex s = true →
    (Edit.applyAll start edits).containsVertex t = true →
    ∃ e g', Multigraph.insertEdge s t x (Edit.applyAll start edits) = .ok e g' ∧
      GrowsIfFull (Edit.applyAll start edits).edges g'.edges ∧
      g'.vertexCapacity = (Edit.applyAll start edits).vertexCapacity
  keeps {edit : Edit V E} : edit ≠ .clear →
    (Edit.applyAll start edits).vertexCapacity ≤
      ((Edit.applyAll start edits).step edit).vertexCapacity ∧
    (Edit.applyAll start edits).edgeCapacity ≤ ((Edit.applyAll start edits).step edit).edgeCapacity

theorem Made.atPeak (hg : g.Made) (edits : List (Edit V E)) : AtPeak g edits := by
  obtain ⟨m, h⟩ := (hg.reached.applyAll edits).represents
  obtain ⟨hvertices, hedges⟩ := hg.compact.capacities
  constructor
  case vertices =>
    exact hg.reached.isGreatest_since vertexCount vertexCapacity rfl
      (fun h hedit => h.vertexCapacity_step hedit) hvertices edits
  case edges =>
    exact hg.reached.isGreatest_since edgeCount edgeCapacity rfl
      (fun h hedit => h.edgeCapacity_step hedit) hedges edits
  case insertVertex => exact h.insertVertex_grows
  case insertEdge =>
    intro s t x hs ht
    exact h.insertEdge_grows hs ht x
  case keeps =>
    intro edit hedit
    rw [h.vertexCapacity_step hedit, h.edgeCapacity_step hedit]
    exact ⟨Nat.le_max_left .., Nat.le_max_left ..⟩

/-- A table, and either table of a multigraph, has as many slots as it ever had records at once
since it was made or cleared; room asked for in advance is not counted. -/
theorem Made.capacity_peaks {α : Type} [Footprint α] {t : Table α}
    (ht : t = .empty ∨ ∃ n, Table.withRoom n = .ok t) (hg : g.Made) :
    (∀ edits, t.AtPeak edits) ∧ ∀ edits, g.AtPeak edits := by
  have hempty : t = .empty := by
    rcases ht with rfl | ⟨n, hn⟩
    · rfl
    · exact (Table.withRoom_eq_ok_iff.mp hn).2
  rw [hempty]
  exact ⟨Table.atPeak_empty, hg.atPeak⟩

def firstSlotReused : List (Table.Edit Nat) := [.insert 10, .insert 20, .remove ⟨0, 0⟩, .insert 30]

def clearedThenReused : List (Edit Nat Nat) :=
  [.insertVertex 10, .insertVertex 20, .insertVertex 30, .clear, .insertVertex 10,
    .insertVertex 20, .insertEdge ⟨0, 0⟩ ⟨1, 0⟩ 1, .insertEdge ⟨1, 0⟩ ⟨0, 0⟩ 2,
    .removeVertex ⟨1, 0⟩, .insertVertex 30, .insertEdge ⟨0, 0⟩ ⟨0, 0⟩ 3]

theorem capacity_peaks_clearedThenReused :
    Table.withRoom 5 = .ok (.empty : Table Nat) ∧
      withRoom 4 9 = .ok (.empty : Multigraph Nat Nat) ∧
      (Table.applyAll .empty firstSlotReused).capacity = 2 ∧ Table.AtPeak .empty firstSlotReused ∧
      (Edit.applyAll .empty clearedThenReused).vertexCapacity = 2 ∧
      (Edit.applyAll .empty clearedThenReused).edgeCapacity = 2 ∧
      (Edit.applyAll .empty clearedThenReused).edgeCount = 1 ∧ AtPeak .empty clearedThenReused := by
  have htable : Table.withRoom 5 = .ok (.empty : Table Nat) := rfl
  have hgraph : withRoom 4 9 = .ok (.empty : Multigraph Nat Nat) := rfl
  obtain ⟨htablePeaks, hpeaks⟩ := (Made.withRoom hgraph).capacity_peaks (.inr ⟨5, htable⟩)
  exact ⟨htable, hgraph, by decide +kernel, htablePeaks firstSlotReused, by decide +kernel,
    by decide +kernel, by decide +kernel, hpeaks clearedThenReused⟩

end Multigraph

end SlotGraph

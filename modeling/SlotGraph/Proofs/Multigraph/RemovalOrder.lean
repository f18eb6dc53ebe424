import SlotGraph.Proofs.Multigraph.Bulk
import SlotGraph.Proofs.Multigraph.Reports
import SlotGraph.Proofs.Table.Struck
set_option autoImplicit false

namespace SlotGraph

inductive Item where
  | vertex (v : VertexId)
  | edge (e : EdgeId)
  deriving DecidableEq, Repr

namespace Item

variable {V E : Type}

/-- Removes a vertex, or an edge that has not gone with one of its ends. -/
def remove : Item → Change (Multigraph V E) Unit
  | .vertex v => do
    let _ ← Multigraph.removeVertex v
  | .edge e => do
    if (← get).containsEdge e then
      let _ ← Multigraph.removeEdge e

def isLive (g : Multigraph V E) : Item → Bool
  | .vertex v => g.containsVertex v
  | .edge e => g.containsEdge e

def sparesVertex : Item → VertexId → Bool
  | .vertex v, w => w != v
  | .edge _, _ => true

/-- An edge goes by itself or with one of its ends. -/
def sparesEdge : Item → EdgeReport E → Bool
  | .vertex v, r => r.source != v && r.target != v
  | .edge e, r => r.id != e

end Item

namespace Roster

variable {V E : Type} {m m' m'' : Roster V E} {items : List Item}

def strike (m : Roster V E) : Item → Roster V E
  | .vertex v => (m.dropAround v).dropVertex v
  | .edge e => if e ∈ m.edgeIds then m.dropEdge e else m

/-- The items have been removed in some order. -/
structure Struck (items : List Item) (m m' : Roster V E) : Prop where
  vertices : Ledger.Struck (fun q => items.all (·.sparesVertex ⟨q.1⟩)) m.vertices m'.vertices
  edges : Ledger.Struck (fun q => items.all (·.sparesEdge (edgeReport q))) m.edges m'.edges

theorem struck_nil (m : Roster V E) : Struck [] m m :=
  ⟨Ledger.struck_refl m.vertices, Ledger.struck_refl m.edges⟩

theorem Struck.cons {item : Item} (h : Struck [item] m m') (h' : Struck items m' m'') :
    Struck (item :: items) m m'' where
  vertices := (h.vertices.trans h'.vertices).congr fun q _ => by simp
  edges := (h.edges.trans h'.edges).congr fun q _ => by simp

theorem struck_dropEdges (h : m.Sound) {es : List EdgeId} (hd : es.Nodup)
    (hes : ∀ e ∈ es, e ∈ m.edgeIds) :
    Ledger.Struck (fun q => decide (⟨q.1⟩ ∉ es)) m.edges (m.dropEdges es).edges := by
  induction es generalizing m with
  | nil => exact (Ledger.struck_refl m.edges).congr fun q _ => by simp
  | cons e es ih =>
    have he := hes e (List.mem_cons_self ..)
    obtain ⟨r, hr⟩ := mem_edgeIds.mp he
    have hrest := ih (h.dropEdge he) hd.of_cons (mem_edgeIds_dropEdge_of_later hd hes)
    refine ((Ledger.struck_drop h.nodup_live_edges hr).trans hrest).congr fun q _ => ?_
    obtain ⟨id⟩ := e
    by_cases hq : q.1 = id <;> simp [hq]

theorem struck_dropAround (h : m.Sound) (v : VertexId) :
    Ledger.Struck (fun q => q.2.source != v && q.2.target != v) m.edges (m.dropAround v).edges := by
  have hout := struck_dropEdges h (h.nodup_incident .outgoing v)
    fun _ he => mem_edgeIds_of_incident he
  have h' := h.dropIncident .outgoing v
  have hin := struck_dropEdges h' (h'.nodup_incident .incoming v)
    fun _ he => mem_edgeIds_of_incident he
  refine (hout.trans hin).congr fun q hq => ?_
  have hsource : EdgeId.mk q.1 ∈ m.incident .outgoing v ↔ q.2.source = v := h.mem_incident_iff hq
  have htarget : EdgeId.mk q.1 ∈ m.incident .incoming v ↔ q.2.target = v := h.mem_incident_iff hq
  rw [dropIncident, Bool.eq_iff_iff]
  simp only [bne_iff_ne, Bool.and_eq_true, decide_eq_true_eq, mem_incident_dropEdges, hsource,
    htarget]
  tauto

theorem struck_strike (h : m.Sound) {item : Item}
    (hitem : ∀ v, item = .vertex v → v ∈ m.vertexIds) : Struck [item] m (m.strike item) := by
  cases item with
  | vertex v =>
    obtain ⟨x, hx⟩ := mem_vertexIds.mp (hitem v rfl)
    constructor
    · show Ledger.Struck _ m.vertices ((m.dropAround v).vertices.drop v.slot)
      rw [vertices_dropAround]
      refine (Ledger.struck_drop h.nodup_live_vertices hx).congr fun q _ => ?_
      obtain ⟨id⟩ := v
      simp [Item.sparesVertex, bne, beq_eq_decide]
    · refine (struck_dropAround h v).congr fun q _ => ?_
      simp [Item.sparesEdge, edgeReport]
  | edge e =>
    have hvertices : Ledger.Struck (fun q => [Item.edge e].all (·.sparesVertex ⟨q.1⟩)) m.vertices
        m.vertices := (Ledger.struck_refl m.vertices).congr fun q _ => by simp [Item.sparesVertex]
    by_cases he : e ∈ m.edgeIds
    · obtain ⟨r, hr⟩ := mem_edgeIds.mp he
      rw [strike, if_pos he]
      refine ⟨hvertices, (Ledger.struck_drop h.nodup_live_edges hr).congr fun q _ => ?_⟩
      obtain ⟨id⟩ := e
      simp [Item.sparesEdge, edgeReport, bne, beq_eq_decide]
    · rw [strike, if_neg he]
      refine ⟨hvertices, (Ledger.struck_refl m.edges).congr fun q hq => ?_⟩
      have hne : EdgeId.mk q.1 ≠ e := fun heq => he (heq ▸ mem_edgeIds.mpr ⟨q.2, hq⟩)
      simpa [Item.sparesEdge, edgeReport] using hne

theorem Struck.mem_vertexIds (h : Struck items m m') {v : VertexId} :
    v ∈ m'.vertexIds ↔ v ∈ m.vertexIds ∧ items.all (·.sparesVertex v) = true := by
  simp only [Roster.mem_vertexIds, h.vertices.live, List.mem_filter, exists_and_right]

theorem Struck.sameLive {order : List Item} (h : Struck items m m') (h' : Struck order m m'')
    (hperm : order.Perm items) :
    m'.SameLive m'' ∧ m''.vertices.free.Perm m'.vertices.free ∧
      m''.edges.free.Perm m'.edges.free := by
  have hvertices := h'.vertices.congr fun q _ =>
    (hperm.all_eq (f := (·.sparesVertex ⟨q.1⟩))).symm
  have hedges := h'.edges.congr fun q _ => (hperm.all_eq (f := (·.sparesEdge (edgeReport q)))).symm
  obtain ⟨hlive, hfree⟩ := h.vertices.perm hvertices
  obtain ⟨hlive', hfree'⟩ := h.edges.perm hedges
  exact ⟨⟨hlive, hlive'⟩, hfree, hfree'⟩

end Roster

namespace Multigraph

variable {V E : Type} {g g' : Multigraph V E} {m m' : Roster V E} {items : List Item}

/-- The items are gone, and with them the edges at the vertices among them. -/
structure LeftBy (items : List Item) (g g' : Multigraph V E) : Prop where
  payloads : g'.payloads = g.payloads.filter fun q => items.all (·.sparesVertex q.1)
  edgeReports : ∃ reports, g.edgeReports = .ok reports ∧
    g'.edgeReports = .ok (reports.filter fun r => items.all (·.sparesEdge r))

/-- The same vertices and edges with the same lists around them, in slots that differ at most in
the order in which the free ones are stacked. -/
structure SameButStacks (g g' : Multigraph V E) : Prop where
  vertexReports : ∃ reports, g.vertexReports = .ok reports ∧ g'.vertexReports = .ok reports
  edgeReports : ∃ reports, g.edgeReports = .ok reports ∧ g'.edgeReports = .ok reports
  vertexCapacity : g'.vertexCapacity = g.vertexCapacity
  edgeCapacity : g'.edgeCapacity = g.edgeCapacity
  vertices : Table.SameButStack g.vertices g'.vertices
  edges : Table.SameButStack g.edges g'.edges

theorem Represents.remove_ok (h : Represents g m) {item : Item}
    (hitem : ∀ v, item = .vertex v → v ∈ m.vertexIds) :
    ∃ g', item.remove g = .ok () g' ∧ Represents g' (m.strike item) := by
  cases item with
  | vertex v =>
    obtain ⟨x, hx⟩ := Roster.mem_vertexIds.mp (hitem v rfl)
    obtain ⟨g', hrun, h'⟩ := removeVertex_ok h hx
    exact ⟨g', Change.bind_ok hrun, h'⟩
  | edge e =>
    by_cases he : e ∈ m.edgeIds
    · obtain ⟨x, g', hrun, h'⟩ := h.removeEdge_ok he
      rw [Roster.strike, if_pos he]
      refine ⟨g', (Change.get_bind ..).trans ?_, h'⟩
      rw [if_pos (h.holds.containsEdge_iff.mpr he)]
      exact Change.bind_ok hrun
    · rw [Roster.strike, if_neg he]
      refine ⟨g, (Change.get_bind ..).trans ?_, h⟩
      rw [h.holds.containsEdge_eq_false he]
      rfl

theorem Represents.forM_remove_ok (h : Represents g m) (hd : items.Nodup)
    (hlive : ∀ v, Item.vertex v ∈ items → v ∈ m.vertexIds) :
    ∃ g' m', items.forM Item.remove g = .ok () g' ∧ Represents g' m' ∧ m.Struck items m' := by
  induction items generalizing g m with
  | nil => exact ⟨g, m, rfl, h, Roster.struck_nil m⟩
  | cons item items ih =>
    have hitem : ∀ v, item = .vertex v → v ∈ m.vertexIds := by
      rintro v rfl
      exact hlive v (List.mem_cons_self ..)
    obtain ⟨g₁, hrun₁, h₁⟩ := h.remove_ok hitem
    have hstruck := Roster.struck_strike h.sound hitem
    -- a vertex that is still to go is none of those that have gone
    have hrest : ∀ v, Item.vertex v ∈ items → v ∈ (m.strike item).vertexIds := by
      intro v hv
      refine hstruck.mem_vertexIds.mpr ⟨hlive v (List.mem_cons_of_mem _ hv), ?_⟩
      have hne : item ≠ .vertex v := fun heq => (List.nodup_cons.mp hd).1 (heq ▸ hv)
      cases item with
      | vertex w =>
        have hvw : v ≠ w := fun heq => hne (heq ▸ rfl)
        simpa [Item.sparesVertex] using hvw
      | edge e => rfl
    obtain ⟨g', m', hrun, h', hstruck'⟩ := ih h₁ hd.of_cons hrest
    exact ⟨g', m', (Change.bind_ok hrun₁).trans hrun, h', hstruck.cons hstruck'⟩

theorem Represents.leftBy (h : Represents g m) (h' : Represents g' m') (hm : m.Struck items m') :
    LeftBy items g g' where
  payloads := by
    rw [h'.holds.payloads_eq, h.holds.payloads_eq, hm.vertices.live, List.filter_map]
    rfl
  edgeReports := by
    refine ⟨_, h.holds.edgeReports_ok, ?_⟩
    rw [h'.holds.edgeReports_ok, Roster.edgeReports, hm.edges.live, Roster.edgeReports,
      List.filter_map]
    rfl

theorem Represents.sameButStacks (h : Represents g m) (h' : Represents g' m')
    (hm : m.SameLive m') (hvertices : m'.vertices.free.Perm m.vertices.free)
    (hedges : m'.edges.free.Perm m.edges.free) : SameButStacks g g' := by
  have hvertexTable : Table.SameButStack g.vertices g'.vertices :=
    h.holds.vertices.sameButStack h'.holds.vertices hm.vertices hvertices fun p hp =>
      h.vertices_at? h' hm (v := ⟨p.1⟩) (Roster.mem_vertexIds.mpr ⟨p.2, hp⟩)
  have hedgeTable : Table.SameButStack g.edges g'.edges :=
    h.holds.edges.sameButStack h'.holds.edges hm.edges hedges fun p hp =>
      h.edges_at? h' hm (e := ⟨p.1⟩) (Roster.mem_edgeIds.mpr ⟨p.2, hp⟩)
  have hvertexReports : m'.vertexReports = m.vertexReports := by
    rw [Roster.vertexReports, hm.vertices, Roster.vertexReport_congr hm.edges]
    rfl
  have hedgeReports : m'.edgeReports = m.edgeReports := by
    rw [Roster.edgeReports, hm.edges]
    rfl
  exact {
    vertexReports := ⟨_, h.vertexReports_ok, hvertexReports ▸ h'.vertexReports_ok⟩
    edgeReports := ⟨_, h.holds.edgeReports_ok, hedgeReports ▸ h'.holds.edgeReports_ok⟩
    vertexCapacity := hvertexTable.capacity_eq
    edgeCapacity := hedgeTable.capacity_eq
    vertices := hvertexTable
    edges := hedgeTable }

/-- In whatever order live vertices and edges are removed, the removals go through, and they leave
the rest of the graph in slots that differ at most in the order in which the free ones are
stacked. -/
theorem Reached.removalOrders_agree (hg : g.Reached) {order : List Item} (hd : items.Nodup)
    (hlive : ∀ item ∈ items, item.isLive g = true) (hperm : order.Perm items) :
    ∃ g₁ g₂, items.forM Item.remove g = .ok () g₁ ∧ order.forM Item.remove g = .ok () g₂ ∧
      LeftBy items g g₁ ∧ SameButStacks g₁ g₂ := by
  obtain ⟨m, h⟩ := hg.represents
  have hvertices : ∀ v, Item.vertex v ∈ items → v ∈ m.vertexIds := fun v hv =>
    h.holds.containsVertex_iff.mp (hlive _ hv)
  obtain ⟨g₁, m₁, hrun₁, h₁, hstruck₁⟩ := h.forM_remove_ok hd hvertices
  obtain ⟨g₂, m₂, hrun₂, h₂, hstruck₂⟩ := h.forM_remove_ok (hperm.nodup_iff.mpr hd)
    fun v hv => hvertices v (hperm.mem_iff.mp hv)
  obtain ⟨hm, hfree, hfree'⟩ := hstruck₁.sameLive hstruck₂ hperm
  exact ⟨g₁, g₂, hrun₁, hrun₂, h.leftBy h₁ hstruck₁, h₁.sameButStacks h₂ hm hfree hfree'⟩

def parallelsAndReusedSlot : List (Edit Nat Nat) :=
  [.insertVertex 10, .insertVertex 20, .insertVertex 30, .insertEdge ⟨0, 0⟩ ⟨0, 0⟩ 1,
    .insertEdge ⟨0, 0⟩ ⟨1, 0⟩ 2, .insertEdge ⟨0, 0⟩ ⟨1, 0⟩ 3, .removeEdge ⟨1, 0⟩,
    .insertEdge ⟨1, 0⟩ ⟨2, 0⟩ 4, .insertEdge ⟨2, 0⟩ ⟨0, 0⟩ 5]

theorem removalOrders_agree_parallelsAndReusedSlot :
    (Edit.applyAll .empty parallelsAndReusedSlot).Reached ∧
      ∃ g₁ g₂, [.edge ⟨0, 0⟩, .edge ⟨1, 1⟩, .vertex ⟨0, 0⟩].forM Item.remove
          (Edit.applyAll .empty parallelsAndReusedSlot) = .ok () g₁ ∧
        [.vertex ⟨0, 0⟩, .edge ⟨0, 0⟩, .edge ⟨1, 1⟩].forM Item.remove
          (Edit.applyAll .empty parallelsAndReusedSlot) = .ok () g₂ ∧
        LeftBy [.edge ⟨0, 0⟩, .edge ⟨1, 1⟩, .vertex ⟨0, 0⟩]
          (Edit.applyAll .empty parallelsAndReusedSlot) g₁ ∧
        SameButStacks g₁ g₂ := by
  have hreached : (Edit.applyAll .empty parallelsAndReusedSlot).Reached :=
    Reached.empty.applyAll parallelsAndReusedSlot
  exact ⟨hreached, hreached.removalOrders_agree (by decide) (by decide +kernel) (by decide)⟩

end Multigraph

end SlotGraph

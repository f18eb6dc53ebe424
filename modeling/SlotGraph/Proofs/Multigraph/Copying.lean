import SlotGraph.Multigraph.Copy
import SlotGraph.Proofs.Multigraph.Insertion
set_option autoImplicit false

namespace SlotGraph

theorem Table.Shows.lt_capacity {α β : Type} {f : α → β} {t : Table α} {a : Ledger β}
    (h : Table.Shows f t a) {p : SlotId × β} (hp : p ∈ a.live) : p.1.index < t.capacity := by
  obtain ⟨b, hb, rfl⟩ := h
  obtain ⟨q, hq, rfl⟩ := List.mem_map.mp hp
  exact lt_size_of_record? (hb.entries q hq)

/-- The handle of a record when those of a list are inserted, in its order, into an empty table. -/
def SlotId.renumber (ids : List SlotId) (id : SlotId) : SlotId := ⟨ids.idxOf id, 0⟩

def VertexId.renumber (vs : List VertexId) (v : VertexId) : VertexId :=
  ⟨v.slot.renumber (vs.map VertexId.slot)⟩

def EdgeId.renumber (es : List EdgeId) (e : EdgeId) : EdgeId :=
  ⟨e.slot.renumber (es.map EdgeId.slot)⟩

def Arc.renumber {E E' : Type} (vs : List VertexId) (r : Arc E) (y : E') : Arc E' :=
  ⟨y, r.source.renumber vs, r.target.renumber vs⟩

@[simp] theorem Arc.endpoint_renumber {E E' : Type} (vs : List VertexId) (r : Arc E) (y : E')
    (d : Direction) : (r.renumber vs y).endpoint d = (r.endpoint d).renumber vs := by
  cases d <;> rfl

theorem VertexId.mem_map_slot {vs : List VertexId} {v : VertexId} :
    v.slot ∈ vs.map VertexId.slot ↔ v ∈ vs := by
  constructor
  · intro h
    obtain ⟨w, hw, heq⟩ := List.mem_map.mp h
    have hwv : w = v := congrArg VertexId.mk heq
    exact hwv ▸ hw
  · exact List.mem_map_of_mem

theorem VertexId.renumber_inj {vs : List VertexId} {v w : VertexId} (hv : v ∈ vs) :
    v.renumber vs = w.renumber vs ↔ v = w := by
  constructor
  · intro h
    have hindex : (vs.map VertexId.slot).idxOf v.slot = (vs.map VertexId.slot).idxOf w.slot :=
      congrArg VertexId.index h
    exact congrArg VertexId.mk ((List.idxOf_inj (VertexId.mem_map_slot.mpr hv)).mp hindex)
  · intro h
    rw [h]

namespace Ledger

variable {α β γ : Type}

/-- The ledger of a table that has only ever been inserted into. -/
def compact (xs : List α) : Ledger α := ⟨xs.mapIdx fun i x => (⟨i, 0⟩, x), []⟩

@[simp] theorem fresh_compact (xs : List α) : (compact xs).fresh = ⟨xs.length, 0⟩ := by
  simp [fresh, compact]

theorem insert_compact (xs : List α) (x : α) : (compact xs).insert x = compact (xs ++ [x]) := by
  rw [insert, fresh_compact]
  simp [compact, List.mapIdx_append]

theorem map_fst_compact (xs : List α) :
    (compact xs).live.map Prod.fst = (List.range xs.length).map fun i => ⟨i, 0⟩ :=
  List.ext_getElem (by simp [compact]) fun i _ _ => by simp [compact]

theorem map_snd_compact (xs : List α) : (compact xs).live.map Prod.snd = xs :=
  List.ext_getElem (by simp [compact]) fun i _ _ => by simp [compact]

theorem live_compact_zipWith {a : Ledger α} (hd : a.liveIndices.Nodup)
    (k : SlotId × α → β → γ) (ys : List β) :
    (compact (List.zipWith k a.live ys)).live =
      List.zipWith (fun p y => (p.1.renumber (a.live.map Prod.fst), k p y)) a.live ys := by
  refine List.ext_getElem (by simp [compact]) fun i h₁ h₂ => ?_
  have hi : i < (a.live.map Prod.fst).length := by
    simp only [compact, List.length_mapIdx, List.length_zipWith, List.length_map] at h₁ ⊢
    omega
  have hplace := (nodup_handles hd).idxOf_getElem i hi
  rw [List.getElem_map] at hplace
  simp [compact, SlotId.renumber, hplace]

end Ledger

namespace Roster

variable {V E V' E' σ : Type}

def vertexPayloads (m : Roster V E) : List V := m.vertices.live.map Prod.snd

def edgePayloads (m : Roster V E) : List E := m.edges.live.map fun p => p.2.payload

def copied (m : Roster V E) (xs : List V') (ys : List E') : Roster V' E' where
  vertices := .compact xs
  edges := .compact (List.zipWith (fun p y => p.2.renumber m.vertexIds y) m.edges.live ys)

def mapAccum (m : Roster V E) (f : σ → V → V' × σ) (k : σ → E → E' × σ) (s : σ) :
    Roster V' E' × σ :=
  let (xs, s) := threaded f m.vertexPayloads s
  let (ys, s) := threaded k m.edgePayloads s
  (m.copied xs ys, s)

theorem renumber_mem_vertexIds {vs : List VertexId} {v : VertexId} (hv : v ∈ vs) {xs : List V'}
    (hlength : vs.length = xs.length) (a : Ledger (Arc E')) :
    v.renumber vs ∈ (Roster.mk (.compact xs) a).vertexIds := by
  have hlt := List.idxOf_lt_length_of_mem (VertexId.mem_map_slot.mpr hv)
  rw [List.length_map, hlength] at hlt
  refine List.mem_map.mpr ⟨(⟨_, 0⟩, xs[(vs.map VertexId.slot).idxOf v.slot]), ?_, rfl⟩
  exact List.mem_mapIdx.mpr ⟨_, hlt, rfl⟩

end Roster

namespace Multigraph

variable {V E V' E' σ : Type} {g : Multigraph V' E'}

/-- The images of these vertices, all that have been copied so far, are their new numbers. -/
def Placed (images : Array (Option VertexId)) (done : List VertexId) : Prop :=
  ∀ v ∈ done, imageOf images v = some (v.renumber done)

theorem Placed.insert {images : Array (Option VertexId)} {done : List VertexId} {v : VertexId}
    (h : Placed images done) (hv : v.index ∉ done.map VertexId.index)
    (hlt : v.index < images.size) :
    Placed (images.setIfInBounds v.index (some ⟨⟨done.length, 0⟩⟩)) (done ++ [v]) := by
  intro w hw
  rcases List.mem_append.mp hw with hw | hw
  · have hindex : v.index ≠ w.index := fun heq => hv (heq ▸ List.mem_map_of_mem hw)
    have hsame : w.renumber (done ++ [v]) = w.renumber done := by
      rw [VertexId.renumber, SlotId.renumber, List.map_append,
        List.idxOf_append_of_mem (VertexId.mem_map_slot.mpr hw)]
      rfl
    rw [hsame, ← h w hw, imageOf, Array.getElem?_setIfInBounds_ne hindex]
    rfl
  · obtain rfl := List.mem_singleton.mp hw
    have hnot : w.slot ∉ done.map VertexId.slot := fun hmem =>
      hv (List.mem_map_of_mem (VertexId.mem_map_slot.mp hmem))
    simp [imageOf, hlt, VertexId.renumber, SlotId.renumber, List.idxOf_append_of_notMem hnot]

theorem copyVertices_ok (f : σ → V → V' × σ) {list : List (SlotId × VertexRecord V)}
    {done : List VertexId} {xs : List V'} {a : Ledger (Arc E')} (h : Represents g ⟨.compact xs, a⟩)
    (hlength : done.length = xs.length) {images : Array (Option VertexId)}
    (hplaced : Placed images done)
    (hd : ((done ++ list.map fun p => VertexId.mk p.1).map VertexId.index).Nodup)
    (hlt : ∀ p ∈ list, p.1.index < images.size) (s : σ) :
    ∃ images' g', copyVertices f list images s g =
        .ok (images', (threaded f (list.map fun p => p.2.payload) s).2) g' ∧
      Placed images' (done ++ list.map fun p => ⟨p.1⟩) ∧
      Represents g' ⟨.compact (xs ++ (threaded f (list.map fun p => p.2.payload) s).1), a⟩ := by
  induction list generalizing g done xs images s with
  | nil => exact ⟨images, g, rfl, by simpa using hplaced, by simpa [threaded] using h⟩
  | cons p rest ih =>
    obtain ⟨id, r⟩ := p
    obtain ⟨hfirst, hrest⟩ := List.forall_mem_cons.mp hlt
    obtain ⟨g₁, hrun₁, h₁⟩ := insertVertex_ok h (f s r.payload).1
    rw [Ledger.insert_compact] at h₁
    rw [Ledger.fresh_compact, ← hlength] at hrun₁
    have hnew : (VertexId.mk id).index ∉ done.map VertexId.index := by
      rw [List.map_append, List.nodup_append] at hd
      exact fun hmem => hd.2.2 _ hmem _ (List.mem_cons_self ..) rfl
    obtain ⟨images', g', hrun, hplaced', h'⟩ := ih h₁ (by simp [hlength])
      (hplaced.insert hnew hfirst) (by simpa using hd) (by simpa using hrest) (f s r.payload).2
    refine ⟨images', g', (Change.bind_ok hrun₁).trans hrun, by simpa using hplaced', ?_⟩
    simpa [threaded] using h'

theorem copyEdges_ok (f : σ → E → E' × σ) {images : Array (Option VertexId)}
    {vs : List VertexId} (hplaced : Placed images vs) {list : List (SlotId × EdgeRecord E)}
    (hends : ∀ p ∈ list, ∀ d, p.2.arc.endpoint d ∈ vs) {xs : List V'}
    (hlength : vs.length = xs.length) {rs : List (Arc E')}
    (h : Represents g ⟨.compact xs, .compact rs⟩) (s : σ) :
    ∃ g', copyEdges f images list s g =
        .ok (threaded f (list.map fun p => p.2.payload) s).2 g' ∧
      Represents g' ⟨.compact xs, .compact (rs ++ List.zipWith (fun p y => p.2.arc.renumber vs y)
        list (threaded f (list.map fun p => p.2.payload) s).1)⟩ := by
  induction list generalizing g rs s with
  | nil => exact ⟨g, rfl, by simpa using h⟩
  | cons p rest ih =>
    obtain ⟨id, r⟩ := p
    obtain ⟨hfirst, hrest⟩ := List.forall_mem_cons.mp hends
    have hsource : r.source ∈ vs := hfirst .outgoing
    have htarget : r.target ∈ vs := hfirst .incoming
    obtain ⟨g₁, hrun₁, h₁⟩ := insertEdge_ok h (Roster.renumber_mem_vertexIds hsource hlength _)
      (Roster.renumber_mem_vertexIds htarget hlength _) (f s r.payload).1
    rw [Ledger.insert_compact] at h₁
    obtain ⟨g', hrun, h'⟩ := ih hrest h₁ (f s r.payload).2
    refine ⟨g', ?_, by simpa [threaded, Arc.renumber, EdgeRecord.arc] using h'⟩
    simp only [copyEdges, hplaced _ hsource, hplaced _ htarget]
    exact (Change.bind_ok hrun₁).trans hrun

section

variable {g : Multigraph V E} {m : Roster V E}

theorem Holds.toList_vertexIds (h : Holds g m) :
    g.vertices.toList.map (fun p => VertexId.mk p.1) = m.vertexIds := by
  rw [Roster.vertexIds, ← h.vertices.toList_map, List.map_map]
  rfl

theorem Holds.toList_vertexPayloads (h : Holds g m) :
    g.vertices.toList.map (fun p => p.2.payload) = m.vertexPayloads := by
  rw [Roster.vertexPayloads, ← h.vertices.toList_map, List.map_map]
  rfl

theorem Holds.toList_edgePayloads (h : Holds g m) :
    g.edges.toList.map (fun p => p.2.payload) = m.edgePayloads := by
  rw [Roster.edgePayloads, ← h.edges.toList_map, List.map_map]
  rfl

theorem Represents.placeAll_ok (h : Represents g m) (f : σ → V → V' × σ) (s : σ) :
    ∃ images g₁, copyVertices f g.vertices.toList (Array.replicate g.vertexCapacity none) s
        (empty : Multigraph V' E') = .ok (images, (threaded f m.vertexPayloads s).2) g₁ ∧
      Placed images m.vertexIds ∧
      Represents g₁ ⟨.compact (threaded f m.vertexPayloads s).1, .compact []⟩ := by
  have hempty : Represents (empty : Multigraph V' E') ⟨.compact [], .compact []⟩ :=
    represents_empty
  have hnone : Placed (Array.replicate g.vertexCapacity none) [] := by simp [Placed]
  have hd : (([] ++ g.vertices.toList.map fun p : SlotId × VertexRecord V =>
      VertexId.mk p.1).map VertexId.index).Nodup := by
    rw [List.nil_append, h.holds.toList_vertexIds, Roster.map_index_vertexIds]
    exact h.sound.nodup_live_vertices
  have hlt : ∀ p ∈ g.vertices.toList,
      p.1.index < (Array.replicate g.vertexCapacity (none : Option VertexId)).size := by
    intro p hp
    rw [Array.size_replicate]
    exact h.holds.vertices.lt_capacity (h.holds.vertices.toList_map ▸ List.mem_map_of_mem hp)
  have hcopied := copyVertices_ok f hempty rfl hnone hd hlt s
  rwa [List.nil_append, List.nil_append, h.holds.toList_vertexIds,
    h.holds.toList_vertexPayloads] at hcopied

theorem Represents.mapAccum_ok (h : Represents g m) (f : σ → V → V' × σ) (k : σ → E → E' × σ)
    (s : σ) : ∃ copy, g.mapAccum f k s = .ok (copy, (m.mapAccum f k s).2) ∧
      Represents copy (m.mapAccum f k s).1 := by
  have hedges := h.holds.edges.toList_map
  have hends : ∀ p ∈ g.edges.toList, ∀ d, p.2.arc.endpoint d ∈ m.vertexIds := fun p hp =>
    h.ends (p.1, p.2.arc) (hedges ▸ List.mem_map_of_mem hp)
  have hlength : m.vertexIds.length = (threaded f m.vertexPayloads s).1.length := by
    simp [length_threaded, Roster.vertexPayloads, Roster.vertexIds]
  obtain ⟨images, g₁, hrun₁, hplaced, h₁⟩ := h.placeAll_ok f s
  obtain ⟨g₂, hrun₂, h₂⟩ := copyEdges_ok k hplaced hends hlength h₁ _
  rw [h.holds.toList_edgePayloads] at hrun₂ h₂
  rw [List.nil_append] at h₂
  refine ⟨g₂, ?_, ?_⟩
  · unfold mapAccum
    dsimp only [EStateM.run]
    rw [Change.bind_ok hrun₁]
    dsimp only
    rw [hrun₂]
    rfl
  · simpa [Roster.mapAccum, Roster.copied, ← hedges, List.zipWith_map_left] using h₂

end

end Multigraph

end SlotGraph

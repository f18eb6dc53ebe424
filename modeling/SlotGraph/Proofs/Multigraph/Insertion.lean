import SlotGraph.Proofs.Multigraph.Lookup
set_option autoImplicit false

namespace SlotGraph.Multigraph

variable {V E : Type} {g : Multigraph V E} {m : Roster V E}

open LinkStore (circle_alone_iff insertBefore insertBefore_apart next? prev? Relinked SameElsewhere)

theorem index_ne_fresh (h : Represents g m) {v : VertexId} (hv : v ∈ m.vertexIds) :
    v.index ≠ m.vertices.fresh.index := by
  intro heq
  have hfresh := h.holds.vertices.fresh_not_mem
  rw [← Roster.map_index_vertexIds] at hfresh
  exact hfresh (heq ▸ List.mem_map_of_mem hv)

theorem incident_fresh (h : Represents g m) (d : Direction) :
    m.incident d ⟨m.vertices.fresh⟩ = [] := by
  refine List.eq_nil_iff_forall_not_mem.mpr fun e he => ?_
  obtain ⟨r, hr, hend⟩ := Roster.mem_incident.mp he
  exact index_ne_fresh h (h.ends _ hr d) (by rw [hend]; rfl)

theorem Represents.insertVertex (h : Represents g m) {x : V} {t : Table (VertexRecord V)}
    (ht : Table.Shows VertexRecord.payload t (m.vertices.insert x))
    (hat : ∀ i, t.at? i = if i = m.vertices.fresh.index
      then some (VertexRecord.isolated x m.vertices.fresh.index) else g.vertices.at? i) :
    Represents { g with vertices := t } { m with vertices := m.vertices.insert x } := by
  have hids := m.vertexIds_insertVertex x
  have hold : ∀ v ∈ m.vertexIds, t.at? v.index = g.vertices.at? v.index := fun v hv => by
    rw [hat, if_neg (index_ne_fresh h hv)]
  have hnew : t.at? m.vertices.fresh.index =
      some (VertexRecord.isolated x m.vertices.fresh.index) := by
    rw [hat, if_pos rfl]
  refine ⟨⟨ht, h.holds.edges⟩, fun p hp d => ?_, fun d v hv => ?_, fun v hv d => ?_⟩
  · rw [hids]
    exact List.mem_append_left _ (h.ends p hp d)
  · rw [hids, List.mem_append, List.mem_singleton] at hv
    rcases hv with hv | rfl
    · exact (h.circled d).of_records { g with vertices := t } hold
        (fun _ _ _ _ => rfl) v hv
    · have hnil := incident_fresh h d
      show Ring _ _ _ (nodes (m.incident d ⟨m.vertices.fresh⟩))
      rw [hnil]
      refine LinkStore.ring_alone ?_
      simp [LinkStore.link?, link?, VertexId.index, hnew, VertexRecord.isolated]
  · rw [hids, List.mem_append, List.mem_singleton] at hv
    rcases hv with hv | rfl
    · exact (count?_congr { g with vertices := t } (hold v hv)).trans (h.counts v hv d)
    · have hnil := incident_fresh h d
      show _ = some (m.incident d ⟨m.vertices.fresh⟩).length
      rw [hnil]
      simp [count?, VertexId.index, hnew, VertexRecord.isolated]

theorem insertVertex_ok (h : Represents g m) (x : V) :
    ∃ g', insertVertex x g = .ok ⟨m.vertices.fresh⟩ g' ∧
      Represents g' { m with vertices := m.vertices.insert x } := by
  have hindex := h.holds.vertices.nextIndex_eq
  obtain ⟨t, hrun, ht, hat⟩ :=
    h.holds.vertices.insert (VertexRecord.isolated x m.vertices.fresh.index)
  refine ⟨{ g with vertices := t }, ?_, h.insertVertex ht hat⟩
  unfold insertVertex
  rw [Change.get_bind, hindex]
  refine (Change.bind_ok (onVertices_ok hrun)).trans ?_
  rw [if_pos rfl]
  rfl

/-- A lone node spliced in front of the head of its end comes last in the circle there. -/
theorem circled_insertBefore (hm : m.Sound) {d : Direction} {r : Arc E}
    (hc : Circled g d m.vertexIds (m.incident d)) (hend : r.endpoint d ∈ m.vertexIds)
    (hlink : g.link? (.edge m.edges.fresh.index) d =
      some (Link.around (.edge m.edges.fresh.index))) :
    ∃ g', insertBefore (.edge m.edges.fresh.index) (.head (r.endpoint d).index) d g = .ok () g' ∧
      Relinked g g' ∧ SameElsewhere d g g' ∧
      Circled g' d m.vertexIds (Roster.incident { m with edges := m.edges.insert r } d) := by
  obtain ⟨g', hrun, hrelinked, hinserts⟩ :=
    insertBefore_apart (circle_alone_iff.mpr hlink) (hc.circle hm hend) (by simp)
  refine ⟨g', hrun, hrelinked, hinserts.elsewhere, fun v hv => ?_⟩
  rw [Roster.incident_insertEdge]
  by_cases hvr : r.endpoint d = v
  · subst hvr
    rw [if_pos rfl, nodes_append]
    exact (hinserts.grows (hc.circle hm hend)).ring
  · rw [if_neg hvr, List.append_nil]
    exact (hinserts.kept (hc.circle hm hv) (by simp) fun hmem =>
      hvr (circle_unique hm hend hv (List.mem_cons_self ..) hmem)).ring

theorem Represents.insertEdge (h : Represents g m) {g' : Multigraph V E} {r : Arc E}
    (hr : ∀ d, r.endpoint d ∈ m.vertexIds)
    (hholds : Holds g' { m with edges := m.edges.insert r }) (hcount : g'.count? = g.count?)
    (hc : ∀ d, Circled g' d m.vertexIds
      (Roster.incident { m with edges := m.edges.insert r } d)) :
    Represents (g'.recountEnds r (· + 1)) { m with edges := m.edges.insert r } where
  holds := (hholds.recount _ _ _).recount _ _ _
  ends := by
    intro p hp d
    rcases List.mem_append.mp hp with hp | hp
    · exact h.ends p hp d
    · rw [List.mem_singleton.mp hp]
      exact hr d
  circled d := (hc d).of_steps (steps_recountEnds g' r _ d)
  counts := by
    intro v hv d
    rw [count?_recountEnds h.sound hr hv, hcount, h.counts v hv, Roster.incident_insertEdge]
    by_cases hvr : r.endpoint d = v <;> simp [hvr]

theorem insertEdge_ok (h : Represents g m) {source target : VertexId}
    (hs : source ∈ m.vertexIds) (ht : target ∈ m.vertexIds) (x : E) :
    ∃ g', insertEdge source target x g = .ok ⟨m.edges.fresh⟩ g' ∧
      Represents g' { m with edges := m.edges.insert ⟨x, source, target⟩ } := by
  have hends : ∀ d, (Arc.mk x source target).endpoint d ∈ m.vertexIds := fun d => by
    cases d <;> assumption
  have hindex := h.holds.edges.nextIndex_eq
  have hfresh := h.holds.edges.fresh_not_mem
  obtain ⟨t, hrun, htable, hat⟩ :=
    h.holds.edges.insert (EdgeRecord.unlinked x source target m.edges.fresh.index)
  have hlink₁ : ∀ d, link? { g with edges := t } (.edge m.edges.fresh.index) d =
      some (Link.around (.edge m.edges.fresh.index)) := by
    intro d
    simp [link?, hat, EdgeRecord.unlinked]
  have hc₁ : ∀ d, Circled { g with edges := t } d m.vertexIds (m.incident d) := by
    intro d
    refine (h.circled d).of_records _ (fun _ _ => rfl) fun v _ e he => ?_
    have hne : e.index ≠ m.edges.fresh.index := by
      intro heq
      rw [← Roster.map_index_edgeIds] at hfresh
      exact hfresh (heq ▸ List.mem_map_of_mem (Roster.mem_edgeIds_of_incident he))
    rw [hat, if_neg hne]
  obtain ⟨g₂, hrun₂, hrelinked₂, helse₂, hc₂⟩ := circled_insertBefore h.sound
    (r := ⟨x, source, target⟩) (hc₁ .outgoing) (hends .outgoing) (hlink₁ .outgoing)
  have hin := helse₂.steps (e := .incoming) (by decide)
  obtain ⟨g₃, hrun₃, hrelinked₃, helse₃, hc₃⟩ := circled_insertBefore h.sound
    (r := ⟨x, source, target⟩) ((hc₁ .incoming).of_steps hin) (hends .incoming)
    ((helse₂ _ _ (by decide)).trans (hlink₁ .incoming))
  have hcount₂ : g₂.count? = count? { g with edges := t } := count?_relinked hrelinked₂
  have hcount : g₃.count? = g.count? := (count?_relinked hrelinked₃).trans hcount₂
  have hraise₁ : raiseDegree source.index .outgoing g₃ =
      .ok () (g₃.recount source.index .outgoing (· + 1)) :=
    raiseDegree_ok (by rw [hcount, h.counts source hs])
  have hraise₂ : raiseDegree target.index .incoming (g₃.recount source.index .outgoing (· + 1)) =
      .ok () (g₃.recountEnds ⟨x, source, target⟩ (· + 1)) :=
    raiseDegree_ok (by rw [count?_recount, if_neg (by simp), hcount, h.counts target ht])
  refine ⟨g₃.recountEnds ⟨x, source, target⟩ (· + 1), ?_, h.insertEdge hends ?_ hcount ?_⟩
  · unfold Multigraph.insertEdge
    refine (Change.ask_bind_ok (x := ()) ?_).trans ((Change.ask_bind_ok (x := ()) ?_).trans ?_)
    · exact h.holds.checkVertex_ok hs
    · exact h.holds.checkVertex_ok ht
    rw [Change.get_bind, hindex]
    refine (Change.bind_ok (onEdges_ok hrun)).trans ?_
    rw [if_pos rfl]
    refine (Change.bind_ok hrun₂).trans ((Change.bind_ok hrun₃).trans ?_)
    exact (Change.bind_ok hraise₁).trans (Change.bind_ok hraise₂)
  · have hholds : Holds { g with edges := t }
        { m with edges := m.edges.insert ⟨x, source, target⟩ } :=
      ⟨h.holds.vertices, htable⟩
    exact (hholds.relinked hrelinked₂).relinked hrelinked₃
  · intro d
    cases d with
    | outgoing => exact hc₂.of_steps (helse₃.steps (by decide))
    | incoming => exact hc₃

end SlotGraph.Multigraph

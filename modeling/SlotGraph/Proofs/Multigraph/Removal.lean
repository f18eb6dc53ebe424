import SlotGraph.Proofs.Multigraph.Walk
set_option autoImplicit false

namespace SlotGraph.Multigraph

variable {V E : Type} {g : Multigraph V E} {m : Roster V E}

open LinkStore (next? prev? unlink unlink_circle Relinked SameElsewhere)

theorem circled_unlink (hm : m.Sound) {d : Direction} {e : EdgeId} (he : e ∈ m.edgeIds)
    (hc : Circled g d m.vertexIds (m.incident d)) :
    ∃ g', unlink (.edge e.index) d g = .ok () g' ∧ Relinked g g' ∧ SameElsewhere d g g' ∧
      Circled g' d m.vertexIds ((m.dropEdge e).incident d) := by
  obtain ⟨r, hr⟩ := Roster.mem_edgeIds.mp he
  have hend := hm.ends _ hr d
  have hmem : e ∈ m.incident d (r.endpoint d) := Roster.mem_incident.mpr ⟨r, hr, rfl⟩
  obtain ⟨es, fs, hsplit⟩ := List.append_of_mem hmem
  have hcircle := hc.circle hm hend
  rw [hsplit, nodes_append, nodes_cons] at hcircle
  obtain ⟨g', hrun, hrelinked, hunlinks⟩ := unlink_circle hcircle.rotate
  refine ⟨g', hrun, hrelinked, hunlinks.elsewhere, fun v hv => ?_⟩
  -- the circle at the end of the edge loses a node; no other circle has this node
  by_cases hvr : r.endpoint d = v
  · subst hvr
    rw [hm.incident_dropEdge_middle hsplit, nodes_append]
    exact (hunlinks.shrinks hcircle).ring
  · have hnot : e ∉ m.incident d v := fun hev => hvr (hm.incident_unique hmem hev)
    rw [Roster.incident_dropEdge_of_notMem hnot]
    have hedge : Node.edge e.index ∈
        .head (r.endpoint d).index :: nodes (m.incident d (r.endpoint d)) :=
      List.mem_cons_of_mem _ (edge_mem_nodes.mpr ⟨e, hmem, rfl⟩)
    exact (hunlinks.kept (hc.circle hm hv) fun hev =>
      hvr (circle_unique hm hend hv hedge hev)).ring

theorem unlinkEdge_ok (h : Represents g m) {e : EdgeId} {r : Arc E}
    (hr : (e.slot, r) ∈ m.edges.live) :
    ∃ g', unlinkEdge e.index g = .ok () (g'.recountEnds r (· - 1)) ∧ Holds g' m ∧
      g'.count? = g.count? ∧ ∀ d, Circled g' d m.vertexIds ((m.dropEdge e).incident d) := by
  have he : e ∈ m.edgeIds := Roster.mem_edgeIds.mpr ⟨r, hr⟩
  obtain ⟨g₁, hrun₁, hrelinked₁, helse₁, hc₁⟩ := circled_unlink h.sound he (h.circled .outgoing)
  have hin := helse₁.steps (e := .incoming) (by decide)
  obtain ⟨g₂, hrun₂, hrelinked₂, helse₂, hc₂⟩ :=
    circled_unlink h.sound he ((h.circled .incoming).of_steps hin)
  have hholds := (h.holds.relinked hrelinked₁).relinked hrelinked₂
  have hcount := (count?_relinked hrelinked₂).trans (count?_relinked hrelinked₁)
  have hpos : ∀ d, ∃ k, g₂.count? d (r.endpoint d).index = some (k + 1) := by
    intro d
    have hmem : e ∈ m.incident d (r.endpoint d) := Roster.mem_incident.mpr ⟨r, hr, rfl⟩
    rw [hcount, h.counts _ (h.ends _ hr d)]
    exact ⟨(m.incident d (r.endpoint d)).length - 1, by grind⟩
  obtain ⟨k₁, hk₁⟩ := hpos .outgoing
  obtain ⟨k₂, hk₂⟩ := hpos .incoming
  obtain ⟨record, -, hat, harc⟩ := hholds.edgeRecord_ok hr
  have hlower₁ := lowerDegree_ok hk₁
  have hlower₂ : lowerDegree r.target.index .incoming
      (g₂.recount r.source.index .outgoing (· - 1)) = .ok () (g₂.recountEnds r (· - 1)) :=
    lowerDegree_ok (by rw [count?_recount, if_neg (by simp)]; exact hk₂)
  refine ⟨g₂, ?_, hholds, hcount, fun d => ?_⟩
  · unfold unlinkEdge
    refine (Change.bind_ok hrun₁).trans ((Change.bind_ok hrun₂).trans ?_)
    refine (Change.ask_bind_ok (x := record) ?_).trans ?_
    · simp [edgeRecordAt, hat]
    · subst harc
      exact (Change.bind_ok hlower₁).trans hlower₂
  · cases d with
    | outgoing => exact hc₁.of_steps (helse₂.steps (by decide))
    | incoming => exact hc₂

theorem Represents.dropEdge (h : Represents g m) {e : EdgeId} {r : Arc E}
    (hr : (e.slot, r) ∈ m.edges.live) {g' : Multigraph V E} {t : Table (EdgeRecord E)}
    (hholds : Holds g' m) (hcount : g'.count? = g.count?)
    (hc : ∀ d, Circled g' d m.vertexIds ((m.dropEdge e).incident d))
    (ht : Table.Shows EdgeRecord.arc t (m.edges.drop e.slot))
    (hat : ∀ i, i ≠ e.index → t.at? i = g'.edges.at? i) :
    Represents { g'.recountEnds r (· - 1) with edges := t } (m.dropEdge e) where
  holds := ⟨((hholds.recount _ _ _).recount _ _ _).vertices, ht⟩
  ends := (h.sound.dropEdge (Roster.mem_edgeIds.mpr ⟨r, hr⟩)).ends
  circled d := by
    refine ((hc d).of_steps (steps_recountEnds g' r _ d)).of_records _ (fun _ _ => rfl) ?_
    intro v _ f hf
    obtain ⟨hlive, hne⟩ := Roster.mem_incident_dropEdge.mp hf
    refine hat _ fun hindex => hne ?_
    exact h.sound.edge_eq (Roster.mem_edgeIds_of_incident hlive)
      (Roster.mem_edgeIds.mpr ⟨r, hr⟩) hindex
  counts := by
    intro v hv d
    show (g'.recountEnds r (· - 1)).count? d v.index = _
    rw [count?_recountEnds h.sound (h.ends _ hr) hv, hcount, h.counts v hv]
    by_cases hvr : r.endpoint d = v
    · have hmem : e ∈ m.incident d v := Roster.mem_incident.mpr ⟨r, hr, hvr⟩
      obtain ⟨es, fs, hsplit⟩ := List.append_of_mem hmem
      rw [if_pos hvr, h.sound.incident_dropEdge_middle hsplit, hsplit]
      simp
    · have hnot : e ∉ m.incident d v := fun hev =>
        hvr (h.sound.incident_unique (Roster.mem_incident.mpr ⟨r, hr, rfl⟩) hev)
      rw [if_neg hvr, Roster.incident_dropEdge_of_notMem hnot]

theorem dropEdge_ok (h : Represents g m) {e : EdgeId} {r : Arc E}
    (hr : (e.slot, r) ∈ m.edges.live) :
    ∃ g', dropEdge e.index g = .ok r.payload g' ∧ Represents g' (m.dropEdge e) := by
  obtain ⟨g₁, hrun₁, hholds₁, hcount₁, hc₁⟩ := unlinkEdge_ok h hr
  obtain ⟨record, t, hrun₂, harc, htable, hat⟩ := hholds₁.edges.removeAt hr
  refine ⟨_, ?_, h.dropEdge hr hholds₁ hcount₁ hc₁ htable hat⟩
  have hedges := onEdges_ok (g := g₁.recountEnds r (· - 1)) hrun₂
  unfold Multigraph.dropEdge
  refine (Change.bind_ok hrun₁).trans ((Change.bind_ok hedges).trans ?_)
  rw [← harc]
  rfl

/-- The loop over a circle detaches these edges, each as the first of those left, and comes to a
head. -/
inductive Drains (i : Nat) (d : Direction) :
    Multigraph V E → List EdgeId → Multigraph V E → Prop where
  | done {g : Multigraph V E} {l : Link} {j : Nat} :
    LinkStore.link g (.head i) d = .ok l → l.next = .head j → Drains i d g [] g
  | round {g g₁ g' : Multigraph V E} {l : Link} {e : EdgeId} {x : E} {es : List EdgeId} :
    LinkStore.link g (.head i) d = .ok l → l.next = .edge e.index →
    g.edgeId? e.index = some e → dropEdge e.index g = .ok x g₁ → Drains i d g₁ es g' →
    Drains i d g (e :: es) g'

theorem Drains.unique {i : Nat} {d : Direction} {es es' : List EdgeId} {g' g'' : Multigraph V E}
    (h : Drains i d g es g') (h' : Drains i d g es' g'') : es' = es ∧ g'' = g' := by
  induction h generalizing es' g'' with
  | done hlink hhead =>
    cases h' with
    | done => exact ⟨rfl, rfl⟩
    | round hlink' hedge _ _ _ =>
      obtain rfl := Except.ok.inj (hlink.symm.trans hlink')
      cases hhead.symm.trans hedge
  | round hlink hedge hid hrun _ ih =>
    cases h' with
    | done hlink' hhead =>
      obtain rfl := Except.ok.inj (hlink.symm.trans hlink')
      cases hedge.symm.trans hhead
    | round hlink' hedge' hid' hrun' hrest =>
      obtain rfl := Except.ok.inj (hlink.symm.trans hlink')
      rw [← Node.edge.inj (hedge.symm.trans hedge')] at hid' hrun'
      obtain rfl := Option.some.inj (hid.symm.trans hid')
      obtain ⟨-, rfl⟩ := EStateM.Result.ok.inj (hrun.symm.trans hrun')
      obtain ⟨rfl, rfl⟩ := ih hrest
      exact ⟨rfl, rfl⟩

theorem Drains.drain_ok {i : Nat} {d : Direction} {es : List EdgeId} {g' : Multigraph V E}
    (h : Drains i d g es g') {bound : Nat} (hbound : es.length ≤ bound) :
    drain i d bound g = .ok es.length g' := by
  induction h generalizing bound with
  | @done g l j hlink hhead =>
    cases bound with
    | zero => rfl
    | succ bound =>
      unfold drain
      refine (Change.ask_bind_ok (x := l) ?_).trans ?_
      · exact hlink
      · rw [hhead]
        rfl
  | @round g g₁ g' l e x es hlink hedge _ hrun _ ih =>
    obtain ⟨bound, rfl⟩ : ∃ b, bound = b + 1 := ⟨bound - 1, by grind⟩
    unfold drain
    refine (Change.ask_bind_ok (x := l) ?_).trans ?_
    · exact hlink
    · rw [hedge]
      exact (Change.bind_ok hrun).trans (Change.bind_ok (ih (Nat.le_of_succ_le_succ hbound)))

theorem drains_ok (h : Represents g m) {d : Direction} {v : VertexId} (hv : v ∈ m.vertexIds)
    {es : List EdgeId} (hes : m.incident d v = es) :
    ∃ g', Drains v.index d g es g' ∧ Represents g' (m.dropEdges es) := by
  -- each turn drops the first edge of the circle, and the shorter circle is represented again
  induction es generalizing g m with
  | nil =>
    obtain ⟨l, hl, hnext⟩ := Option.map_eq_some_iff.mp (h.circled d v hv).next_eq
    rw [hes] at hnext
    exact ⟨g, .done (LinkStore.link_eq hl) hnext, h⟩
  | cons e es ih =>
    obtain ⟨l, hl, hnext⟩ := Option.map_eq_some_iff.mp (h.circled d v hv).next_eq
    rw [hes] at hnext
    have hmem : e ∈ m.incident d v := by simp [hes]
    obtain ⟨r, hr, -⟩ := Roster.mem_incident.mp hmem
    obtain ⟨g₁, hrun₁, h₁⟩ := dropEdge_ok h hr
    have hes₁ : (m.dropEdge e).incident d v = es :=
      h.sound.incident_dropEdge_middle (l := []) hes
    obtain ⟨g₂, hdrains, h₂⟩ := ih h₁ hv hes₁
    have hid := h.holds.edgeId?_of_mem (Roster.mem_edgeIds_of_incident hmem)
    exact ⟨g₂, .round (LinkStore.link_eq hl) hnext hid hrun₁ hdrains, h₂⟩

theorem emptyCircle_ok (h : Represents g m) {v : VertexId} (hv : v ∈ m.vertexIds)
    (d : Direction) :
    ∃ g', emptyCircle v.index d g = .ok (m.incident d v).length g' ∧
      Represents g' (m.dropIncident d v) := by
  obtain ⟨g', hdrains, h'⟩ := drains_ok h hv rfl
  have hrun := hdrains.drain_ok (h.length_incident_le d v)
  refine ⟨g', ?_, h'⟩
  have hv' : v ∈ (m.dropIncident d v).vertexIds := by
    rwa [Roster.vertexIds_dropIncident]
  have hnil := m.incident_dropIncident d v
  have hring := h'.circled d v hv'
  have hcount := h'.counts v hv' d
  rw [← Roster.dropIncident, hnil] at hring hcount
  obtain ⟨r, hr, hdegree⟩ := vertexRecordAt_ok hcount
  unfold Multigraph.emptyCircle
  rw [Change.get_bind]
  refine (Change.bind_ok hrun).trans ?_
  refine (Change.ask_bind_ok (x := true) ?_).trans ((Change.ask_bind_ok (x := r) ?_).trans ?_)
  · exact LinkStore.isSingleton_alone (LinkStore.link?_of_alone hring)
  · exact hr
  · rw [if_pos (show r.degree.get d = 0 from hdegree)]
    rfl

theorem dropFrom_ok (h : Represents g m) {es : List EdgeId} (hes : m.edgeIds = es) :
    ∃ g', dropFrom es.length (es.head?.map EdgeId.index) g = .ok () g' ∧
      Represents g' (m.dropEdges es) := by
  induction es generalizing g m with
  | nil => exact ⟨g, rfl, h⟩
  | cons e es ih =>
    have he : e ∈ m.edgeIds := by simp [hes]
    obtain ⟨r, hr⟩ := Roster.mem_edgeIds.mp he
    obtain ⟨g₁, hrun₁, h₁⟩ := dropEdge_ok h hr
    have hes₁ : (m.dropEdge e).edgeIds = es := by
      have hd := h.sound.nodup_edgeIds
      rw [hes] at hd
      rw [Roster.edgeIds_dropEdge, hes]
      exact filter_key_ne (f := id) (l := []) (by simpa using hd)
    obtain ⟨g₂, hrun₂, h₂⟩ := ih h₁ hes₁
    refine ⟨g₂, ?_, h₂⟩
    -- the step is taken before the edge goes, so it is read from the table as it was
    have hnext : g.edges.next? e.index = es.head?.map EdgeId.index := by
      obtain ⟨p, rest, hlive, rfl, rfl⟩ := List.map_eq_cons_iff.mp hes
      rw [List.head?_map, Option.map_map]
      exact h.holds.edges.next?_eq (l := []) hlive
    show dropFrom (es.length + 1) (some e.index) g = _
    unfold dropFrom
    rw [Change.get_bind, hnext]
    exact (Change.bind_ok hrun₁).trans hrun₂

theorem clearEdges_ok (h : Represents g m) :
    ∃ g', clearEdges g = .ok m.edges.live.length g' ∧ Represents g' (m.dropEdges m.edgeIds) := by
  obtain ⟨g', hrun, h'⟩ := dropFrom_ok h rfl
  refine ⟨g', ?_, h'⟩
  have hhead : g.edges.head = m.edgeIds.head?.map EdgeId.index := by
    rw [h.holds.edges.head_eq, ← Roster.map_index_edgeIds, List.head?_map]
  unfold clearEdges
  rw [Change.get_bind, Change.get_bind, hhead, h.holds.edgeCount_eq]
  refine (Change.bind_ok hrun).trans ?_
  rw [Roster.length_edgeIds]
  rfl

theorem Represents.dropVertex (h : Represents g m) {v : VertexId} (hv : v ∈ m.vertexIds)
    (hnone : ∀ d, m.incident d v = []) {t : Table (VertexRecord V)}
    (ht : Table.Shows VertexRecord.payload t (m.vertices.drop v.slot))
    (hat : ∀ i, i ≠ v.index → t.at? i = g.vertices.at? i) :
    Represents { g with vertices := t } (m.dropVertex v) := by
  have hstay : ∀ w ∈ (m.dropVertex v).vertexIds, w ∈ m.vertexIds ∧
      t.at? w.index = g.vertices.at? w.index := by
    intro w hw
    obtain ⟨hlive, hne⟩ := Roster.mem_vertexIds_dropVertex.mp hw
    exact ⟨hlive, hat _ fun hindex => hne (h.sound.vertex_eq hlive hv hindex)⟩
  refine ⟨⟨ht, h.holds.edges⟩, Roster.ends_dropVertex h.ends hnone, fun d w hw => ?_,
    fun w hw d => ?_⟩
  · have hc : Circled { g with vertices := t } d (m.dropVertex v).vertexIds (m.incident d) :=
      Circled.of_records (g := g) _ (fun u hu => h.circled d u (hstay u hu).1)
        (fun u hu => (hstay u hu).2) (fun _ _ _ _ => rfl)
    exact hc w hw
  · exact (count?_congr { g with vertices := t } (hstay w hw).2).trans
      (h.counts w (hstay w hw).1 d)

theorem removeVertex_steps (h : Represents g m) {v : VertexId} {x : V}
    (hx : (v.slot, x) ∈ m.vertices.live) :
    ∃ g₁ g₂ g' r, emptyCircle v.index .outgoing g = .ok (m.incident .outgoing v).length g₁ ∧
      Represents g₁ (m.dropIncident .outgoing v) ∧
      emptyCircle v.index .incoming g₁ =
        .ok ((m.dropIncident .outgoing v).incident .incoming v).length g₂ ∧
      Represents g₂ (m.dropAround v) ∧
      onVertices (Table.remove v.slot) g₂ = .ok (some r) g' ∧ r.payload = x ∧
      Represents g' ((m.dropAround v).dropVertex v) := by
  have hv : v ∈ m.vertexIds := Roster.mem_vertexIds.mpr ⟨x, hx⟩
  obtain ⟨g₁, hrun₁, h₁⟩ := emptyCircle_ok h hv .outgoing
  have hv₁ : v ∈ (m.dropIncident .outgoing v).vertexIds := by
    rwa [Roster.vertexIds_dropIncident]
  obtain ⟨g₂, hrun₂, h₂⟩ := emptyCircle_ok h₁ hv₁ .incoming
  have hx₂ : (v.slot, x) ∈ (m.dropAround v).vertices.live := by
    rwa [Roster.vertices_dropAround]
  have hv₂ : v ∈ (m.dropAround v).vertexIds := Roster.mem_vertexIds.mpr ⟨x, hx₂⟩
  obtain ⟨r, t, hrun₃, hpayload, htable, hat⟩ := h₂.holds.vertices.remove hx₂
  exact ⟨g₁, g₂, { g₂ with vertices := t }, r, hrun₁, h₁, hrun₂, h₂, onVertices_ok hrun₃, hpayload,
    h₂.dropVertex hv₂ (Roster.incident_dropAround m v) htable hat⟩

theorem removeVertex_ok (h : Represents g m) {v : VertexId} {x : V}
    (hx : (v.slot, x) ∈ m.vertices.live) :
    ∃ g', removeVertex v g = .ok ⟨x, (m.incident .outgoing v).length +
        ((m.dropIncident .outgoing v).incident .incoming v).length⟩ g' ∧
      Represents g' ((m.dropAround v).dropVertex v) := by
  have hv : v ∈ m.vertexIds := Roster.mem_vertexIds.mpr ⟨x, hx⟩
  obtain ⟨g₁, g₂, g', r, hrun₁, -, hrun₂, -, hrun₃, hpayload, h'⟩ := removeVertex_steps h hx
  refine ⟨g', ?_, h'⟩
  unfold Multigraph.removeVertex
  refine (Change.ask_bind_ok (x := ()) ?_).trans ?_
  · exact h.holds.checkVertex_ok hv
  · refine (Change.bind_ok hrun₁).trans ((Change.bind_ok hrun₂).trans ?_)
    refine (Change.bind_ok hrun₃).trans ?_
    rw [← hpayload]
    rfl

end SlotGraph.Multigraph

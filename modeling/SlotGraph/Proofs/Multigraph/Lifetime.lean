import SlotGraph.Proofs.Multigraph.Reach
import SlotGraph.Proofs.Multigraph.Taken
import SlotGraph.Proofs.Table.Aging
set_option autoImplicit false

/-!
The lifetimes of handles. Along a history without `clear` in which no slot is freed as often as
there are generations, no handle is given out twice. A handle dies with the first edit that goes
through and takes it, and stays dead; the ends of an edge live as long as the edge does.
-/

namespace SlotGraph

namespace Roster

variable {V E : Type} {m : Roster V E}

open Multigraph (Edit)

/-- Both ledgers turn, and edges that stay keep their ends. -/
structure Turns (m m' : Roster V E) : Prop where
  vertices : Ledger.Turns m.vertices m'.vertices
  edges : Ledger.Turns m.edges m'.edges
  ends : ∀ p ∈ m'.edges.live, p.1 ∈ m.edges.handles →
    ∃ q ∈ m.edges.live, q.1 = p.1 ∧ ∀ d, q.2.endpoint d = p.2.endpoint d

theorem Turns.refl (m : Roster V E) : m.Turns m :=
  ⟨.refl _, .refl _, fun p hp _ => ⟨p, hp, rfl, fun _ => rfl⟩⟩

theorem shrinks_dropEdges (m : Roster V E) (es : List EdgeId) :
    Ledger.Shrinks m.edges (m.dropEdges es).edges := by
  induction es generalizing m with
  | nil => exact .refl _
  | cons e es ih => exact (Ledger.shrinks_drop m.edges e.slot).trans (ih (m.dropEdge e))

theorem mem_dropEdges {m : Roster V E} {es : List EdgeId} {p : SlotId × Arc E}
    (hp : p ∈ (m.dropEdges es).edges.live) : p ∈ m.edges.live := by
  rw [live_dropEdges] at hp
  exact List.mem_of_mem_filter hp

theorem turns_dropEdges (m : Roster V E) (es : List EdgeId) : m.Turns (m.dropEdges es) where
  vertices := by
    rw [vertices_dropEdges]
    exact .refl _
  edges := (shrinks_dropEdges m es).turns
  ends p hp _ := ⟨p, mem_dropEdges hp, rfl, fun _ => rfl⟩

theorem turns_dropAround (m : Roster V E) (v : VertexId) : m.Turns (m.dropAround v) where
  vertices := by
    rw [vertices_dropAround]
    exact .refl _
  edges := ((shrinks_dropEdges m _).trans (shrinks_dropEdges (m.dropIncident .outgoing v) _)).turns
  ends p hp _ := ⟨p, mem_dropEdges (mem_dropEdges hp), rfl, fun _ => rfl⟩

theorem turns_dropVertex (m : Roster V E) (v : VertexId) :
    m.Turns ((m.dropAround v).dropVertex v) where
  vertices := by
    show Ledger.Turns m.vertices ((m.dropAround v).vertices.drop v.slot)
    rw [vertices_dropAround]
    exact (Ledger.shrinks_drop _ _).turns
  edges := (turns_dropAround m v).edges
  ends := (turns_dropAround m v).ends

theorem turns_insertVertex (m : Roster V E) (x : V) :
    m.Turns { m with vertices := m.vertices.insert x } :=
  ⟨Ledger.turns_insert _ x, .refl _, (Turns.refl m).ends⟩

theorem turns_updateVertex (m : Roster V E) (v : VertexId) (f : V → V) :
    m.Turns { m with vertices := m.vertices.update v.slot f } :=
  ⟨Ledger.turns_update _ v.slot f, .refl _, (Turns.refl m).ends⟩

theorem turns_updateEdge (m : Roster V E) (e : EdgeId) (f : E → E) :
    m.Turns { m with edges := m.edges.update e.slot (Arc.withPayload f) } :=
  ⟨.refl _, Ledger.turns_update _ e.slot _, fun _ hp _ => mem_updateEdge hp⟩

theorem turns_insertEdge (hfresh : m.edges.fresh.index ∉ m.edges.liveIndices) (r : Arc E) :
    m.Turns { m with edges := m.edges.insert r } where
  vertices := .refl _
  edges := Ledger.turns_insert _ r
  ends p hp hold := by
    rcases List.mem_append.mp hp with hp | hp
    · exact ⟨p, hp, rfl, fun _ => rfl⟩
    · rw [List.mem_singleton.mp hp] at hold
      exact absurd (Ledger.mem_liveIndices hold) hfresh

theorem turns_after (hfresh : m.edges.fresh.index ∉ m.edges.liveIndices) {edit : Edit V E}
    (hedit : edit ≠ .clear) : m.Turns (m.after edit) := by
  cases edit with
  | insertVertex x | addVertexAt x => exact m.turns_insertVertex x
  | eraseVertex v | removeVertex v => exact m.turns_dropVertex v
  | updateVertex? v f | updateVertex v f => exact m.turns_updateVertex v f
  | insertEdge s t x => exact turns_insertEdge hfresh ⟨x, s, t⟩
  | eraseEdge e | removeEdge e => exact m.turns_dropEdges [e]
  | eraseIncident d e => exact m.turns_dropEdges [e]
  | updateEdge? e f | updateEdge e f => exact m.turns_updateEdge e f
  | clearIncident d v => exact m.turns_dropEdges _
  | clearVertexEdges v => exact m.turns_dropAround v
  | clearEdges => exact m.turns_dropEdges _
  | clear => exact absurd rfl hedit
  | removeVertexAt i =>
    rw [after]
    cases m.vertexAt? i with
    | none => exact .refl m
    | some v => exact m.turns_dropVertex v
  | clearVertexAt i =>
    rw [after]
    cases m.vertexAt? i with
    | none => exact .refl m
    | some v => exact m.turns_dropAround v
  | addEdgeAt s t x =>
    rw [after]
    cases m.vertexAt? s with
    | none => exact .refl m
    | some v =>
      cases m.vertexAt? t with
      | none => exact .refl m
      | some w => exact turns_insertEdge hfresh ⟨x, v, w⟩
  | removeEdgeAt i =>
    rw [after]
    cases m.edgeAt? i with
    | none => exact .refl m
    | some e => exact m.turns_dropEdges [e]
  | removeEdgesIf p => exact m.turns_dropEdges _
  | removeIncidentIf d i p =>
    rw [after]
    cases m.vertexAt? i with
    | none => exact .refl m
    | some v => exact m.turns_dropEdges _

end Roster

namespace Multigraph

variable {V E : Type} {g : Multigraph V E} {m : Roster V E}

def step (g : Multigraph V E) (edit : Edit V E) : Multigraph V E :=
  match edit.apply g with
  | .ok _ g | .error _ g => g

theorem step_ok {edit : Edit V E} {r : Answer V E × List Event} {g' : Multigraph V E}
    (h : edit.apply g = .ok r g') : g.step edit = g' := by rw [step, h]

theorem step_error {edit : Edit V E} {f : Fault} {g' : Multigraph V E}
    (h : edit.apply g = .error f g') : g.step edit = g' := by rw [step, h]

theorem applyAll_concat (g : Multigraph V E) (edits : List (Edit V E)) (edit : Edit V E) :
    Edit.applyAll g (edits ++ [edit]) = (Edit.applyAll g edits).step edit := List.foldl_concat ..

theorem Represents.step (h : Represents g m) (edit : Edit V E) :
    ∃ m', Represents (g.step edit) m' ∧ (m' = m ∨ m' = m.after edit) := by
  by_cases hlive : edit.Live g
  · obtain ⟨r, g', hrun, -, h'⟩ := h.apply_ok hlive
    rw [step_ok hrun]
    exact ⟨_, h', .inr rfl⟩
  · obtain ⟨f, g', hrun, -, h'⟩ := h.apply_error hlive
    rw [step_error hrun]
    exact ⟨_, h', .inl rfl⟩

theorem Represents.turns (h : Represents g m) {edit : Edit V E} (hedit : edit ≠ .clear) :
    ∃ m', Represents (g.step edit) m' ∧ m.Turns m' := by
  obtain ⟨m', h', rfl | rfl⟩ := h.step edit
  · exact ⟨_, h', .refl _⟩
  · exact ⟨_, h', Roster.turns_after h.holds.edges.fresh_not_mem hedit⟩

theorem Holds.endpoints_eq_ok (h : Holds g m) {e : EdgeId} {s t : VertexId} :
    g.endpoints e = .ok (s, t) ↔ ∃ r, (e.slot, r) ∈ m.edges.live ∧ r.source = s ∧ r.target = t := by
  constructor
  · intro heq
    by_cases he : e ∈ m.edgeIds
    · obtain ⟨r, hr⟩ := Roster.mem_edgeIds.mp he
      rw [h.endpoints_eq hr] at heq
      obtain ⟨rfl, rfl⟩ := Prod.mk.inj (Except.ok.inj heq)
      exact ⟨r, hr, rfl, rfl⟩
    · rw [endpoints, h.edgeRecord_error he] at heq
      cases heq
  · rintro ⟨r, hr, rfl, rfl⟩
    exact h.endpoints_eq hr

theorem Represents.containsVertex_of_endpoints (h : Represents g m) {e : EdgeId}
    {s t : VertexId} (hends : g.endpoints e = .ok (s, t)) :
    g.containsVertex s = true ∧ g.containsVertex t = true := by
  obtain ⟨r, hr, rfl, rfl⟩ := h.holds.endpoints_eq_ok.mp hends
  exact ⟨h.holds.containsVertex_iff.mpr (h.ends _ hr .outgoing),
    h.holds.containsVertex_iff.mpr (h.ends _ hr .incoming)⟩

theorem Represents.endpoints_of_contains (h : Represents g m) {e : EdgeId}
    (he : g.containsEdge e = true) : ∃ ends, g.endpoints e = .ok ends := by
  obtain ⟨r, hr⟩ := Roster.mem_edgeIds.mp (h.holds.containsEdge_iff.mp he)
  exact ⟨_, h.holds.endpoints_eq_ok.mpr ⟨r, hr, rfl, rfl⟩⟩

theorem Represents.endpoints_step (h : Represents g m) {edit : Edit V E} (hedit : edit ≠ .clear)
    {e : EdgeId} {ends : VertexId × VertexId} (he : g.containsEdge e = true)
    (hends : (g.step edit).endpoints e = .ok ends) : g.endpoints e = .ok ends := by
  obtain ⟨m', h', hturns⟩ := h.turns hedit
  obtain ⟨r, hr, hs, ht⟩ := h'.holds.endpoints_eq_ok.mp hends
  obtain ⟨a, ha⟩ := Roster.mem_edgeIds.mp (h.holds.containsEdge_iff.mp he)
  obtain ⟨⟨id, b⟩, hb, rfl, hkeep⟩ := hturns.ends _ hr (List.mem_map.mpr ⟨_, ha, rfl⟩)
  exact h.holds.endpoints_eq_ok.mpr
    ⟨b, hb, (hkeep .outgoing).trans hs, (hkeep .incoming).trans ht⟩

/-- A live vertex dies with an edit that goes through and takes it, and with no other. -/
theorem Represents.vertex_lost_iff (h : Represents g m) {edit : Edit V E} {v : VertexId}
    (hv : g.containsVertex v = true) : (g.step edit).containsVertex v = false ↔
      (∃ r g', edit.apply g = .ok r g') ∧ edit.TakesVertex g v := by
  have hmem := h.holds.containsVertex_iff.mp hv
  by_cases hlive : edit.Live g
  · obtain ⟨r, g', hrun, -, h'⟩ := h.apply_ok hlive
    rw [step_ok hrun, Bool.eq_false_iff, Ne, h'.holds.containsVertex_iff,
      ← h.takesVertex_iff hlive hmem]
    exact (and_iff_right ⟨r, g', hrun⟩).symm
  · obtain ⟨f, g', hrun, -, h'⟩ := h.apply_error hlive
    rw [step_error hrun, h'.holds.containsVertex_iff.mpr hmem, hrun]
    simp

theorem Represents.edge_lost_iff (h : Represents g m) {edit : Edit V E} {e : EdgeId}
    (he : g.containsEdge e = true) : (g.step edit).containsEdge e = false ↔
      (∃ r g', edit.apply g = .ok r g') ∧ edit.TakesEdge g e := by
  have hmem := h.holds.containsEdge_iff.mp he
  by_cases hlive : edit.Live g
  · obtain ⟨r, g', hrun, -, h'⟩ := h.apply_ok hlive
    rw [step_ok hrun, Bool.eq_false_iff, Ne, h'.holds.containsEdge_iff,
      ← h.takesEdge_iff hlive hmem]
    exact (and_iff_right ⟨r, g', hrun⟩).symm
  · obtain ⟨f, g', hrun, -, h'⟩ := h.apply_error hlive
    rw [step_error hrun, h'.holds.containsEdge_iff.mpr hmem, hrun]
    simp

def result? {σ α : Type} : EStateM.Result Fault σ α → Option α
  | .ok x _ => some x
  | .error _ _ => none

theorem result?_eq_some {σ α : Type} {r : EStateM.Result Fault σ α} {x : α} :
    result? r = some x ↔ ∃ s, r = .ok x s := by
  cases r <;> simp [result?]

/-- The handle of the vertex that an edit inserts. -/
def Edit.newVertex? (g : Multigraph V E) : Edit V E → Option VertexId
  | .insertVertex x | .addVertexAt x => result? (Multigraph.insertVertex x g)
  | _ => none

def Edit.newEdge? (g : Multigraph V E) : Edit V E → Option EdgeId
  | .insertEdge source target x => result? (Multigraph.insertEdge source target x g)
  | .addEdgeAt source target x => do
    result? (Multigraph.insertEdge (← g.vertexId? source) (← g.vertexId? target) x g)
  | _ => none

theorem Represents.newVertex? (h : Represents g m) {edit : Edit V E} {v : VertexId}
    (hv : edit.newVertex? g = some v) :
    g.containsVertex v = false ∧ (g.step edit).containsVertex v = true := by
  have hinsert {x : V} {g' : Multigraph V E} (hrun : Multigraph.insertVertex x g = .ok v g') :
      g.containsVertex v = false ∧ g'.containsVertex v = true := by
    obtain ⟨g'', hrun', h'⟩ := insertVertex_ok h x
    rw [hrun] at hrun'
    cases hrun'
    refine ⟨Bool.eq_false_iff.mpr fun hlive => ?_, h'.holds.containsVertex_iff.mpr ?_⟩
    · exact index_ne_fresh h (h.holds.containsVertex_iff.mp hlive) rfl
    · simp [Roster.vertexIds_insertVertex]
  cases edit with
  | insertVertex x =>
    obtain ⟨g', hrun⟩ := result?_eq_some.mp hv
    have hstep : (Edit.insertVertex x : Edit V E).apply g = .ok (.vertex v, []) g' :=
      Change.bind_ok hrun
    rw [step_ok hstep]
    exact hinsert hrun
  | addVertexAt x =>
    obtain ⟨g', hrun⟩ := result?_eq_some.mp hv
    have hadd : Descriptor.addVertex x g = .ok v.index g' := Change.bind_ok hrun
    have hstep : (Edit.addVertexAt x : Edit V E).apply g = .ok (.descriptor v.index, []) g' :=
      Change.bind_ok hadd
    rw [step_ok hstep]
    exact hinsert hrun
  | _ => cases hv

theorem insertEdge_eq_ok (h : Represents g m) {s t : VertexId} {x : E} {e : EdgeId}
    {g' : Multigraph V E} (hrun : Multigraph.insertEdge s t x g = .ok e g') :
    e = ⟨m.edges.fresh⟩ ∧ Represents g' { m with edges := m.edges.insert ⟨x, s, t⟩ } := by
  have htally := tally_insertEdge h s t x
  by_cases hs : s ∈ m.vertexIds
  · by_cases ht : t ∈ m.vertexIds
    · obtain ⟨g'', hrun', h'⟩ := insertEdge_ok h hs ht x
      rw [hrun] at hrun'
      cases hrun'
      exact ⟨rfl, h'⟩
    · obtain ⟨g'', hrun', -⟩ := htally.exists_error (Roster.insertEdge_error_target hs ht x)
      rw [hrun] at hrun'
      cases hrun'
  · obtain ⟨g'', hrun', -⟩ := htally.exists_error (Roster.insertEdge_error_source hs t x)
    rw [hrun] at hrun'
    cases hrun'

theorem Represents.newEdge? (h : Represents g m) {edit : Edit V E} {e : EdgeId}
    (he : edit.newEdge? g = some e) :
    g.containsEdge e = false ∧ (g.step edit).containsEdge e = true := by
  have hinsert {s t : VertexId} {x : E} {g' : Multigraph V E}
      (hrun : Multigraph.insertEdge s t x g = .ok e g') :
      g.containsEdge e = false ∧ g'.containsEdge e = true := by
    obtain ⟨rfl, h'⟩ := insertEdge_eq_ok h hrun
    refine ⟨Bool.eq_false_iff.mpr fun hlive => h.holds.edges.fresh_not_mem ?_, ?_⟩
    · rw [← Roster.map_index_edgeIds]
      exact List.mem_map_of_mem (f := EdgeId.index) (h.holds.containsEdge_iff.mp hlive)
    · exact h'.holds.containsEdge_iff.mpr (by simp [Roster.edgeIds, Ledger.insert])
  cases edit with
  | insertEdge s t x =>
    obtain ⟨g', hrun⟩ := result?_eq_some.mp he
    have hstep : (Edit.insertEdge s t x : Edit V E).apply g = .ok (.edge e, []) g' :=
      Change.bind_ok hrun
    rw [step_ok hstep]
    exact hinsert hrun
  | addEdgeAt i j x =>
    obtain ⟨s, hs, he⟩ := Option.bind_eq_some_iff.mp he
    obtain ⟨t, ht, he⟩ := Option.bind_eq_some_iff.mp he
    obtain ⟨g', hrun⟩ := result?_eq_some.mp he
    have hsource : Descriptor.vertexOf g i = .ok s := by rw [Descriptor.vertexOf, hs]
    have htarget : Descriptor.vertexOf g j = .ok t := by rw [Descriptor.vertexOf, ht]
    have hadd : Descriptor.addEdge i j x g = .ok (e.index, true) g' := by
      refine (Change.ask_bind_ok (x := s) ?_).trans ((Change.ask_bind_ok (x := t) ?_).trans ?_)
      · exact hsource
      · exact htarget
      · exact Change.bind_ok hrun
    have hstep : (Edit.addEdgeAt i j x : Edit V E).apply g = .ok (.added e.index true, []) g' :=
      Change.bind_ok hadd
    rw [step_ok hstep]
    exact hinsert hrun
  | _ => cases he

/-- The multigraph after the first `n` edits of a history. -/
def stateAt (g : Multigraph V E) (edits : List (Edit V E)) (n : Nat) : Multigraph V E :=
  Edit.applyAll g (edits.take n)

def newVertexAt? (g : Multigraph V E) (edits : List (Edit V E)) (n : Nat) : Option VertexId :=
  edits[n]?.bind (Edit.newVertex? (g.stateAt edits n))

def newEdgeAt? (g : Multigraph V E) (edits : List (Edit V E)) (n : Nat) : Option EdgeId :=
  edits[n]?.bind (Edit.newEdge? (g.stateAt edits n))

theorem stateAt_succ (g : Multigraph V E) {edits : List (Edit V E)} {n : Nat}
    (hn : n < edits.length) : g.stateAt edits (n + 1) = (g.stateAt edits n).step edits[n] := by
  rw [stateAt, List.take_succ_eq_append_getElem hn, applyAll_concat]
  rfl

/-- The handle is not live, it gives no payload, and no descriptor gives it. -/
def VertexGone (g : Multigraph V E) (v : VertexId) : Prop :=
  g.containsVertex v = false ∧ g.vertex? v = none ∧ ∀ i, g.vertexId? i ≠ some v

def EdgeGone (g : Multigraph V E) (e : EdgeId) : Prop :=
  g.containsEdge e = false ∧ g.edge? e = none ∧ ∀ i, g.edgeId? i ≠ some e

theorem vertexGone_of_dead {v : VertexId} (h : g.containsVertex v = false) : g.VertexGone v := by
  refine ⟨h, ?_, fun i hi => ?_⟩
  · rw [vertex?, Table.get?_of_dead h, Option.map_none]
  · obtain ⟨id, hid, rfl⟩ := Option.map_eq_some_iff.mp hi
    exact Table.find?_of_dead h i hid

theorem edgeGone_of_dead {e : EdgeId} (h : g.containsEdge e = false) : g.EdgeGone e := by
  refine ⟨h, ?_, fun i hi => ?_⟩
  · rw [edge?, Table.get?_of_dead h, Option.map_none]
  · obtain ⟨id, hid, rfl⟩ := Option.map_eq_some_iff.mp hi
    exact Table.find?_of_dead h i hid

/-- Handles are given out once. Each dies for good with the first edit that goes through and takes
it, and in no other way. An edge keeps its ends, which live as long as it does. The numbers are
times of the history. -/
structure Lasting (g : Multigraph V E) (edits : List (Edit V E)) : Prop where
  newVertex {n : Nat} {v : VertexId} : g.newVertexAt? edits n = some v →
    (∀ m ≤ n, (g.stateAt edits m).containsVertex v = false) ∧
      (g.stateAt edits (n + 1)).containsVertex v = true
  newEdge {n : Nat} {e : EdgeId} : g.newEdgeAt? edits n = some e →
    (∀ m ≤ n, (g.stateAt edits m).containsEdge e = false) ∧
      (g.stateAt edits (n + 1)).containsEdge e = true
  vertex_ne {m n : Nat} {v w : VertexId} : m < n → g.newVertexAt? edits m = some v →
    g.newVertexAt? edits n = some w → v ≠ w
  edge_ne {m n : Nat} {e f : EdgeId} : m < n → g.newEdgeAt? edits m = some e →
    g.newEdgeAt? edits n = some f → e ≠ f
  takenVertex {m n : Nat} {edit : Edit V E} {r : Answer V E × List Event} {g' : Multigraph V E}
    {v : VertexId} : edits[m]? = some edit → edit.apply (g.stateAt edits m) = .ok r g' →
    (g.stateAt edits m).containsVertex v = true → edit.TakesVertex (g.stateAt edits m) v →
    m < n → n ≤ edits.length → (g.stateAt edits n).VertexGone v
  takenEdge {m n : Nat} {edit : Edit V E} {r : Answer V E × List Event} {g' : Multigraph V E}
    {e : EdgeId} : edits[m]? = some edit → edit.apply (g.stateAt edits m) = .ok r g' →
    (g.stateAt edits m).containsEdge e = true → edit.TakesEdge (g.stateAt edits m) e →
    m < n → n ≤ edits.length → (g.stateAt edits n).EdgeGone e
  lostVertex {n : Nat} {v : VertexId} : (g.stateAt edits n).containsVertex v = true →
    (g.stateAt edits (n + 1)).containsVertex v = false →
    ∃ edit r g', edits[n]? = some edit ∧ edit.apply (g.stateAt edits n) = .ok r g' ∧
      edit.TakesVertex (g.stateAt edits n) v
  lostEdge {n : Nat} {e : EdgeId} : (g.stateAt edits n).containsEdge e = true →
    (g.stateAt edits (n + 1)).containsEdge e = false →
    ∃ edit r g', edits[n]? = some edit ∧ edit.apply (g.stateAt edits n) = .ok r g' ∧
      edit.TakesEdge (g.stateAt edits n) e
  deadVertex {l m n : Nat} {v : VertexId} : l ≤ m → m ≤ n → n ≤ edits.length →
    (g.stateAt edits l).containsVertex v = true →
    (g.stateAt edits m).containsVertex v = false → (g.stateAt edits n).VertexGone v
  deadEdge {l m n : Nat} {e : EdgeId} : l ≤ m → m ≤ n → n ≤ edits.length →
    (g.stateAt edits l).containsEdge e = true →
    (g.stateAt edits m).containsEdge e = false → (g.stateAt edits n).EdgeGone e
  ends {l n : Nat} {e : EdgeId} : l ≤ n → n ≤ edits.length →
    (g.stateAt edits l).containsEdge e = true → (g.stateAt edits n).containsEdge e = true →
    ∃ source target, ∀ m, l ≤ m → m ≤ n →
      (g.stateAt edits m).endpoints e = .ok (source, target) ∧
        (g.stateAt edits m).containsVertex source = true ∧
        (g.stateAt edits m).containsVertex target = true

section

variable {edits : List (Edit V E)}

theorem newVertexAt?_eq_some {n : Nat} {v : VertexId} (hv : g.newVertexAt? edits n = some v) :
    ∃ hn : n < edits.length, edits[n].newVertex? (g.stateAt edits n) = some v := by
  obtain ⟨edit, hedit, hv⟩ := Option.bind_eq_some_iff.mp hv
  obtain ⟨hn, rfl⟩ := List.getElem?_eq_some_iff.mp hedit
  exact ⟨hn, hv⟩

theorem newEdgeAt?_eq_some {n : Nat} {e : EdgeId} (he : g.newEdgeAt? edits n = some e) :
    ∃ hn : n < edits.length, edits[n].newEdge? (g.stateAt edits n) = some e := by
  obtain ⟨edit, hedit, he⟩ := Option.bind_eq_some_iff.mp he
  obtain ⟨hn, rfl⟩ := List.getElem?_eq_some_iff.mp hedit
  exact ⟨hn, he⟩

theorem Reached.stateAt (hg : g.Reached) (edits : List (Edit V E)) (n : Nat) :
    ∃ m, Represents (g.stateAt edits n) m := (hg.applyAll (edits.take n)).represents

theorem getElem_ne_clear (hclear : .clear ∉ edits) {n : Nat} (hn : n < edits.length) :
    edits[n] ≠ .clear := fun heq => hclear (heq ▸ List.getElem_mem hn)

theorem Reached.ages (hg : g.Reached) (hclear : .clear ∉ edits) {n : Nat}
    (hn : n < edits.length) :
    Table.Ages (g.stateAt edits n).vertices (g.stateAt edits (n + 1)).vertices ∧
      Table.Ages (g.stateAt edits n).edges (g.stateAt edits (n + 1)).edges := by
  obtain ⟨m, h⟩ := hg.stateAt edits n
  obtain ⟨m', h', hturns⟩ := h.turns (getElem_ne_clear hclear hn)
  rw [stateAt_succ g hn]
  exact ⟨h.holds.vertices.ages h'.holds.vertices hturns.vertices,
    h.holds.edges.ages h'.holds.edges hturns.edges⟩

theorem Reached.bornVertex (hg : g.Reached) {n : Nat} {v : VertexId}
    (hv : g.newVertexAt? edits n = some v) :
    n < edits.length ∧ (g.stateAt edits n).containsVertex v = false ∧
      (g.stateAt edits (n + 1)).containsVertex v = true := by
  obtain ⟨hn, hv⟩ := newVertexAt?_eq_some hv
  obtain ⟨m, h⟩ := hg.stateAt edits n
  rw [stateAt_succ g hn]
  exact ⟨hn, h.newVertex? hv⟩

theorem Reached.bornEdge (hg : g.Reached) {n : Nat} {e : EdgeId}
    (he : g.newEdgeAt? edits n = some e) :
    n < edits.length ∧ (g.stateAt edits n).containsEdge e = false ∧
      (g.stateAt edits (n + 1)).containsEdge e = true := by
  obtain ⟨hn, he⟩ := newEdgeAt?_eq_some he
  obtain ⟨m, h⟩ := hg.stateAt edits n
  rw [stateAt_succ g hn]
  exact ⟨hn, h.newEdge? he⟩

theorem Reached.endpoints_run (hg : g.Reached) (hclear : .clear ∉ edits) {l n : Nat} {e : EdgeId}
    {ends : VertexId × VertexId} (hln : l ≤ n) (hn : n ≤ edits.length)
    (hlive : ∀ m, l ≤ m → m ≤ n → (g.stateAt edits m).containsEdge e = true)
    (hends : (g.stateAt edits l).endpoints e = .ok ends) :
    (g.stateAt edits n).endpoints e = .ok ends := by
  induction n, hln using Nat.le_induction with
  | base => exact hends
  | succ n hln ih =>
    have hbefore := ih (Nat.le_of_succ_le hn) fun m hlm hmn => hlive m hlm (Nat.le_succ_of_le hmn)
    obtain ⟨m, h⟩ := hg.stateAt edits n
    obtain ⟨m', h'⟩ := hg.stateAt edits (n + 1)
    obtain ⟨ends', hafter⟩ := h'.endpoints_of_contains (hlive _ (Nat.le_succ_of_le hln) le_rfl)
    have hsame := hafter
    rw [stateAt_succ g hn] at hsame
    have hkept := h.endpoints_step (getElem_ne_clear hclear hn) (hlive n hln n.le_succ) hsame
    rw [hbefore] at hkept
    rwa [Except.ok.inj hkept]

theorem Reached.vertex_lost_iff (hg : g.Reached) {n : Nat} (hn : n < edits.length) {v : VertexId}
    (hv : (g.stateAt edits n).containsVertex v = true) :
    (g.stateAt edits (n + 1)).containsVertex v = false ↔
      (∃ r g', edits[n].apply (g.stateAt edits n) = .ok r g') ∧
        edits[n].TakesVertex (g.stateAt edits n) v := by
  obtain ⟨m, h⟩ := hg.stateAt edits n
  rw [stateAt_succ g hn]
  exact h.vertex_lost_iff hv

theorem Reached.edge_lost_iff (hg : g.Reached) {n : Nat} (hn : n < edits.length) {e : EdgeId}
    (he : (g.stateAt edits n).containsEdge e = true) :
    (g.stateAt edits (n + 1)).containsEdge e = false ↔
      (∃ r g', edits[n].apply (g.stateAt edits n) = .ok r g') ∧
        edits[n].TakesEdge (g.stateAt edits n) e := by
  obtain ⟨m, h⟩ := hg.stateAt edits n
  rw [stateAt_succ g hn]
  exact h.edge_lost_iff he

theorem stateAt_of_length_le (g : Multigraph V E) {n : Nat} (hn : edits.length ≤ n) :
    g.stateAt edits (n + 1) = g.stateAt edits n := by
  rw [stateAt, stateAt, List.take_of_length_le hn, List.take_of_length_le (Nat.le_succ_of_le hn)]

/-- Nothing is cleared, and no slot is freed as often as there are generations. -/
structure NeverWraps (g : Multigraph V E) (edits : List (Edit V E)) : Prop where
  clear : .clear ∉ edits
  vertices (i : Nat) : Table.frees (fun n => (g.stateAt edits n).vertices) i edits.length < 2 ^ 32
  edges (i : Nat) : Table.frees (fun n => (g.stateAt edits n).edges) i edits.length < 2 ^ 32

theorem Reached.newVertex_before (hg : g.Reached) (h : NeverWraps g edits) {m n : Nat}
    {v : VertexId} (hv : g.newVertexAt? edits n = some v) (hmn : m ≤ n) :
    (g.stateAt edits m).containsVertex v = false := by
  obtain ⟨hn, hdead, hborn⟩ := hg.bornVertex hv
  exact Table.contains_before (fun _ hk => (hg.ages h.clear hk).1) (h.vertices _) hmn hn hdead
    hborn

theorem Reached.newEdge_before (hg : g.Reached) (h : NeverWraps g edits) {m n : Nat} {e : EdgeId}
    (he : g.newEdgeAt? edits n = some e) (hmn : m ≤ n) :
    (g.stateAt edits m).containsEdge e = false := by
  obtain ⟨hn, hdead, hborn⟩ := hg.bornEdge he
  exact Table.contains_before (fun _ hk => (hg.ages h.clear hk).2) (h.edges _) hmn hn hdead hborn

section

variable {l m n : Nat}

theorem Reached.vertex_dead (hg : g.Reached) (h : NeverWraps g edits) {v : VertexId} (hlm : l ≤ m)
    (hmn : m ≤ n) (hn : n ≤ edits.length) (hlive : (g.stateAt edits l).containsVertex v = true)
    (hdead : (g.stateAt edits m).containsVertex v = false) :
    (g.stateAt edits n).containsVertex v = false :=
  Table.contains_dead (fun _ hk => (hg.ages h.clear hk).1) (h.vertices _) hlm hmn hn hlive hdead

theorem Reached.edge_dead (hg : g.Reached) (h : NeverWraps g edits) {e : EdgeId} (hlm : l ≤ m)
    (hmn : m ≤ n) (hn : n ≤ edits.length) (hlive : (g.stateAt edits l).containsEdge e = true)
    (hdead : (g.stateAt edits m).containsEdge e = false) :
    (g.stateAt edits n).containsEdge e = false :=
  Table.contains_dead (fun _ hk => (hg.ages h.clear hk).2) (h.edges _) hlm hmn hn hlive hdead

/-- An edge that is live at two times is live in between, and so are its ends, which stay. -/
theorem Reached.ends_between (hg : g.Reached) (h : NeverWraps g edits) {e : EdgeId}
    (hn : n ≤ edits.length) (hbefore : (g.stateAt edits l).containsEdge e = true)
    (hafter : (g.stateAt edits n).containsEdge e = true) :
    ∃ source target, ∀ m, l ≤ m → m ≤ n →
      (g.stateAt edits m).endpoints e = .ok (source, target) ∧
        (g.stateAt edits m).containsVertex source = true ∧
        (g.stateAt edits m).containsVertex target = true := by
  have hlive : ∀ m, l ≤ m → m ≤ n → (g.stateAt edits m).containsEdge e = true := by
    intro m hlm hmn
    by_contra hdead
    -- an edge that had died in between would be dead now
    have hgone := hg.edge_dead h hlm hmn hn hbefore (Bool.eq_false_iff.mpr hdead)
    exact Bool.eq_false_iff.mp hgone hafter
  obtain ⟨r, hr⟩ := hg.stateAt edits l
  obtain ⟨⟨s, t⟩, hends⟩ := hr.endpoints_of_contains hbefore
  refine ⟨s, t, fun m hlm hmn => ?_⟩
  obtain ⟨r', hr'⟩ := hg.stateAt edits m
  have hthen := hg.endpoints_run h.clear hlm (hmn.trans hn)
    (fun k hlk hkm => hlive k hlk (hkm.trans hmn)) hends
  exact ⟨hthen, hr'.containsVertex_of_endpoints hthen⟩

end

/-- However a multigraph is edited, `clear` apart and with no slot freed as often as there are
generations, its handles last. -/
theorem Reached.lasting (hg : g.Reached) (hclear : .clear ∉ edits)
    (hvertices : ∀ i, Table.frees (fun n => (g.stateAt edits n).vertices) i edits.length < 2 ^ 32)
    (hedges : ∀ i, Table.frees (fun n => (g.stateAt edits n).edges) i edits.length < 2 ^ 32) :
    Lasting g edits := by
  have h : NeverWraps g edits := ⟨hclear, hvertices, hedges⟩
  exact {
    newVertex := fun hv => ⟨fun m hmn => hg.newVertex_before h hv hmn, (hg.bornVertex hv).2.2⟩
    newEdge := fun he => ⟨fun m hmn => hg.newEdge_before h he hmn, (hg.bornEdge he).2.2⟩
    vertex_ne := by
      rintro m n v w hmn hv hw rfl
      have hborn := (hg.bornVertex hv).2.2
      rw [hg.newVertex_before h hw hmn] at hborn
      cases hborn
    edge_ne := by
      rintro m n e f hmn he hf rfl
      have hborn := (hg.bornEdge he).2.2
      rw [hg.newEdge_before h hf hmn] at hborn
      cases hborn
    takenVertex := by
      intro m n edit r g' v hedit hrun hlive htakes hmn hn
      obtain ⟨hm, rfl⟩ := List.getElem?_eq_some_iff.mp hedit
      have hdead := (hg.vertex_lost_iff hm hlive).mpr ⟨⟨r, g', hrun⟩, htakes⟩
      exact vertexGone_of_dead (hg.vertex_dead h m.le_succ hmn hn hlive hdead)
    takenEdge := by
      intro m n edit r g' e hedit hrun hlive htakes hmn hn
      obtain ⟨hm, rfl⟩ := List.getElem?_eq_some_iff.mp hedit
      have hdead := (hg.edge_lost_iff hm hlive).mpr ⟨⟨r, g', hrun⟩, htakes⟩
      exact edgeGone_of_dead (hg.edge_dead h m.le_succ hmn hn hlive hdead)
    lostVertex := by
      intro n v hlive hdead
      rcases Nat.lt_or_ge n edits.length with hn | hn
      · obtain ⟨⟨r, g', hrun⟩, htakes⟩ := (hg.vertex_lost_iff hn hlive).mp hdead
        exact ⟨edits[n], r, g', List.getElem?_eq_getElem hn, hrun, htakes⟩
      · rw [stateAt_of_length_le g hn, hlive] at hdead
        cases hdead
    lostEdge := by
      intro n e hlive hdead
      rcases Nat.lt_or_ge n edits.length with hn | hn
      · obtain ⟨⟨r, g', hrun⟩, htakes⟩ := (hg.edge_lost_iff hn hlive).mp hdead
        exact ⟨edits[n], r, g', List.getElem?_eq_getElem hn, hrun, htakes⟩
      · rw [stateAt_of_length_le g hn, hlive] at hdead
        cases hdead
    deadVertex := fun hlm hmn hn hlive hdead =>
      vertexGone_of_dead (hg.vertex_dead h hlm hmn hn hlive hdead)
    deadEdge := fun hlm hmn hn hlive hdead =>
      edgeGone_of_dead (hg.edge_dead h hlm hmn hn hlive hdead)
    ends := fun _ => hg.ends_between h }

end

def vertexReplaced : List (Edit Nat Nat) :=
  [.insertVertex 10, .insertVertex 20, .insertEdge ⟨0, 0⟩ ⟨1, 0⟩ 5, .eraseVertex ⟨0, 0⟩,
    .insertVertex 30, .insertEdge ⟨0, 0⟩ ⟨1, 0⟩ 6, .addEdgeAt 0 1 7]

theorem lasting_vertexReplaced :
    .clear ∉ vertexReplaced ∧
      (∀ i, Table.frees (fun n => (stateAt .empty vertexReplaced n).vertices) i
        vertexReplaced.length < 2 ^ 32) ∧
      (∀ i, Table.frees (fun n => (stateAt .empty vertexReplaced n).edges) i
        vertexReplaced.length < 2 ^ 32) ∧
      newVertexAt? .empty vertexReplaced 0 = some ⟨0, 0⟩ ∧
      newVertexAt? .empty vertexReplaced 4 = some ⟨0, 1⟩ ∧
      newEdgeAt? .empty vertexReplaced 2 = some ⟨0, 0⟩ ∧
      newEdgeAt? .empty vertexReplaced 6 = some ⟨0, 1⟩ ∧
      (stateAt .empty vertexReplaced 3).containsEdge ⟨0, 0⟩ = true ∧
      (Edit.eraseVertex ⟨0, 0⟩).TakesEdge (stateAt .empty vertexReplaced 3) ⟨0, 0⟩ ∧
      Lasting .empty vertexReplaced := by
  have hclear : .clear ∉ vertexReplaced := by simp [vertexReplaced]
  have hfew {α : Type} (t : Nat → Table α) (i : Nat) :
      Table.frees t i vertexReplaced.length < 2 ^ 32 :=
    (Table.frees_le t i _).trans_lt (by decide)
  have htaken : (Edit.eraseVertex ⟨0, 0⟩).TakesEdge (stateAt .empty vertexReplaced 3) ⟨0, 0⟩ :=
    ⟨.outgoing, ⟨0, 0⟩, ⟨1, 0⟩, by decide +kernel, rfl⟩
  exact ⟨hclear, hfew _, hfew _, by decide +kernel, by decide +kernel, by decide +kernel,
    by decide +kernel, by decide +kernel, htaken, Reached.empty.lasting hclear (hfew _) (hfew _)⟩

end Multigraph

end SlotGraph

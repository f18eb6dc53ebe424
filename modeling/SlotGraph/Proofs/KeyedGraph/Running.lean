import SlotGraph.Proofs.KeyedGraph.Register
import SlotGraph.Proofs.Multigraph.Admission
set_option autoImplicit false

namespace SlotGraph

namespace Register

variable {V E K α : Type}

open Change

def enterVertex (p : Register V E K) (key : K) (x : V) : Register V E K :=
  ⟨{ p.roster with vertices := p.roster.vertices.insert x },
    p.keys ++ [(⟨p.roster.vertices.fresh⟩, key)]⟩

def dropVertex (p : Register V E K) (v : VertexId) : Register V E K :=
  ⟨(p.roster.dropAround v).dropVertex v, p.keys.filter fun q => q.1 != v⟩

def updateVertex (p : Register V E K) (v : VertexId) (f : V → V) : Register V E K :=
  { p with roster := { p.roster with vertices := p.roster.vertices.update v.slot f } }

def dropEdge (p : Register V E K) (e : EdgeId) : Register V E K :=
  { p with roster := p.roster.dropEdge e }

def degreeOf (p : Register V E K) (v : VertexId) : Nat :=
  (p.roster.incident .outgoing v).length + (p.roster.incident .incoming v).length

def dropIfBare (p : Register V E K) (v : VertexId) : Register V E K :=
  if p.degreeOf v = 0 then p.dropVertex v else p

def dropBareEnds (p : Register V E K) (r : Arc E) : Register V E K :=
  if r.target = r.source then p.dropIfBare r.source
  else (p.dropIfBare r.source).dropIfBare r.target

section

variable [DecidableEq K] (keyOf : V → K) (p : Register V E K)

/-- The vertex that holds the key of `x`, or else the one that will. -/
def seat (x : V) : VertexId := (p.holder? (keyOf x)).getD ⟨p.roster.vertices.fresh⟩

/-- The register with a vertex for the key of `x`, made only if there is none. -/
def place (x : V) : Register V E K :=
  match p.holder? (keyOf x) with
  | some _ => p
  | none => p.enterVertex (keyOf x) x

def link (source target : VertexId) (x : E) : Register V E K :=
  { p with roster := { p.roster with edges := p.roster.edges.insert ⟨x, source, target⟩ } }

open KeyedGraph (Edit)

def after : Edit V E → Register V E K
  | .insertVertex x | .findOrInsert x => p.place keyOf x
  | .eraseVertex v | .removeVertex v => p.dropVertex v
  | .modifyVertex v f => p.updateVertex v f
  | .insertEdge source target x => p.link source target x
  | .connect source target x =>
    ((p.place keyOf source).place keyOf target).link (p.seat keyOf source)
      ((p.place keyOf source).seat keyOf target) x
  | .eraseEdge e | .removeEdge e => p.dropEdge e
  | .eraseEdgeAndBareEnds e =>
    match p.roster.edges.get? e.slot with
    | some r => (p.dropEdge e).dropBareEnds r
    | none => p
  | .updateEdge e f => { p with roster := p.roster.after (.updateEdge e f) }
  | .clearIncident d v => { p with roster := p.roster.after (.clearIncident d v) }
  | .clearVertexEdges v => { p with roster := p.roster.after (.clearVertexEdges v) }
  | .clearEdges => { p with roster := p.roster.after .clearEdges }
  | .clear => {}

end

section

variable {p : Register V E K}

theorem vertices_enterVertex (h : p.keys.map Prod.fst = p.roster.vertexIds) (key : K) (x : V) :
    (p.enterVertex key x).keys.map Prod.fst = (p.enterVertex key x).roster.vertexIds := by
  rw [enterVertex, Roster.vertexIds_insertVertex, List.map_append, h]
  rfl

theorem vertices_dropVertex (h : p.keys.map Prod.fst = p.roster.vertexIds) (v : VertexId) :
    (p.dropVertex v).keys.map Prod.fst = (p.dropVertex v).roster.vertexIds := by
  rw [dropVertex, Roster.vertexIds_dropVertex, Roster.vertexIds_dropAround, ← h, List.filter_map]
  rfl

variable [DecidableEq K] {keyOf : V → K} {x : V}

theorem place_of_holder {v : VertexId} (h : p.holder? (keyOf x) = some v) :
    p.place keyOf x = p := by rw [place, h]

theorem place_of_free (h : p.holder? (keyOf x) = none) :
    p.place keyOf x = p.enterVertex (keyOf x) x := by rw [place, h]

theorem vertices_place (h : p.keys.map Prod.fst = p.roster.vertexIds) :
    (p.place keyOf x).keys.map Prod.fst = (p.place keyOf x).roster.vertexIds := by
  cases hkey : p.holder? (keyOf x) with
  | some v => rwa [place_of_holder hkey]
  | none =>
    rw [place_of_free hkey]
    exact vertices_enterVertex h (keyOf x) x

theorem edges_place (p : Register V E K) (x : V) :
    (p.place keyOf x).roster.edges = p.roster.edges := by
  unfold place
  split
  · rfl
  · rfl

theorem mem_place {v : VertexId} (h : v ∈ p.roster.vertexIds) :
    v ∈ (p.place keyOf x).roster.vertexIds := by
  cases hkey : p.holder? (keyOf x) with
  | some w => rwa [place_of_holder hkey]
  | none =>
    rw [place_of_free hkey, enterVertex, Roster.vertexIds_insertVertex]
    exact List.mem_append_left _ h

theorem seat_mem_keys (p : Register V E K) (x : V) :
    (p.seat keyOf x, keyOf x) ∈ (p.place keyOf x).keys := by
  cases hkey : p.holder? (keyOf x) with
  | some v =>
    obtain ⟨q, hq, rfl⟩ := Option.map_eq_some_iff.mp hkey
    have hq₂ : q.2 = keyOf x := by simpa using List.find?_some hq
    rw [place_of_holder hkey, seat, hkey, ← hq₂]
    exact List.mem_of_find?_eq_some hq
  | none =>
    rw [place_of_free hkey, seat, hkey]
    simp [enterVertex]

theorem seat_mem_place (h : p.keys.map Prod.fst = p.roster.vertexIds) :
    p.seat keyOf x ∈ (p.place keyOf x).roster.vertexIds := by
  rw [← vertices_place h]
  exact List.mem_map_of_mem (p.seat_mem_keys x)

end

/-- A sound roster, with the keys on record for its vertices in their order. -/
structure Sound (p : Register V E K) : Prop where
  roster : p.roster.Sound
  vertices : p.keys.map Prod.fst = p.roster.vertexIds

section

variable {p : Register V E K}

theorem Sound.dropVertex (h : p.Sound) {v : VertexId} (hv : v ∈ p.roster.vertexIds) :
    (p.dropVertex v).Sound where
  roster := by
    refine (h.roster.dropAround v).dropVertex ?_ (p.roster.incident_dropAround v)
    rwa [Roster.vertexIds_dropAround]
  vertices := vertices_dropVertex h.vertices v

theorem Sound.dropEdge (h : p.Sound) {e : EdgeId} (he : e ∈ p.roster.edgeIds) :
    (p.dropEdge e).Sound := ⟨h.roster.dropEdge he, h.vertices⟩

theorem Sound.dropIfBare (h : p.Sound) {v : VertexId} (hv : v ∈ p.roster.vertexIds) :
    (p.dropIfBare v).Sound := by
  unfold Register.dropIfBare
  split
  · exact h.dropVertex hv
  · exact h

theorem mem_dropIfBare {v w : VertexId} (hw : w ∈ p.roster.vertexIds) (hne : w ≠ v) :
    w ∈ (p.dropIfBare v).roster.vertexIds := by
  unfold dropIfBare
  split
  · refine Roster.mem_vertexIds_dropVertex.mpr ⟨?_, hne⟩
    rwa [Roster.vertexIds_dropAround]
  · exact hw

end

section

variable {p : Register V E K}

theorem removeVertex_ok (h : p.Sound) {v : VertexId} {x : V}
    (hx : (v.slot, x) ∈ p.roster.vertices.live) :
    ∃ n, removeVertex v p = .ok ⟨x, n⟩ (p.dropVertex v) :=
  ⟨_, bind_ok (onRoster_ok (Roster.removeVertex_ok h.roster hx))⟩

theorem removeVertex_error {v : VertexId} (hv : v ∉ p.roster.vertexIds) :
    removeVertex v p = .error (.deadVertex v) p :=
  bind_error (onRoster_error (Roster.removeVertex_error hv))

theorem eraseVertex_ok (h : p.Sound) {v : VertexId} {x : V}
    (hx : (v.slot, x) ∈ p.roster.vertices.live) :
    ∃ n, eraseVertex v p = .ok ⟨successor? v p.roster.vertexIds, n⟩ (p.dropVertex v) :=
  ⟨_, bind_ok (onRoster_ok (Roster.eraseVertex_ok h.roster hx))⟩

theorem eraseVertex_error {v : VertexId} (hv : v ∉ p.roster.vertexIds) :
    eraseVertex v p = .error (.deadVertex v) p :=
  bind_error (onRoster_error (bind_error (Roster.nextVertex_error hv)))

theorem payload_ok (h : p.Sound) {v : VertexId} {x : V}
    (hx : (v.slot, x) ∈ p.roster.vertices.live) : payload v p = .ok x p := by
  rw [payload, (Ledger.get?_eq_some h.roster.nodup_live_vertices).mpr hx]

theorem payload_error (h : p.Sound) {v : VertexId} (hv : v ∉ p.roster.vertexIds) :
    payload v p = .error (.deadVertex v) p := by
  rw [payload, Roster.get?_vertex_eq_none h.roster hv]

theorem degree_ok {v : VertexId} (hv : v ∈ p.roster.vertexIds) :
    degree v p = .ok (p.degreeOf v) p := bind_ok (onRoster_ok (Roster.requireVertex_ok hv))

theorem degree_error {v : VertexId} (hv : v ∉ p.roster.vertexIds) :
    degree v p = .error (.deadVertex v) p :=
  bind_error (onRoster_error (Roster.requireVertex_error hv))

theorem removeIfBare_ok (h : p.Sound) {v : VertexId} (hv : v ∈ p.roster.vertexIds) :
    ∃ gone, removeIfBare v p = .ok gone (p.dropIfBare v) := by
  unfold removeIfBare dropIfBare
  rw [bind_ok (degree_ok hv)]
  split
  · obtain ⟨x, hx⟩ := Roster.mem_vertexIds.mp hv
    obtain ⟨n, hrun⟩ := removeVertex_ok h hx
    exact ⟨_, bind_ok hrun⟩
  · exact ⟨[], rfl⟩

theorem endpoints_ok (h : p.Sound) {e : EdgeId} {r : Arc E}
    (hr : (e.slot, r) ∈ p.roster.edges.live) : endpoints e p = .ok (r.source, r.target) p :=
  bind_ok (onRoster_ok (Roster.arcOf_ok h.roster hr))

theorem endpoints_error (h : p.Sound) {e : EdgeId} (he : e ∉ p.roster.edgeIds) :
    endpoints e p = .error (.deadEdge e) p :=
  bind_error (onRoster_error (Roster.arcOf_error h.roster he))

theorem eraseEdgeAndBareEnds_ok (h : p.Sound) {e : EdgeId} {r : Arc E}
    (hr : (e.slot, r) ∈ p.roster.edges.live) :
    ∃ gone, eraseEdgeAndBareEnds e p =
      .ok ⟨successor? e p.roster.edgeIds, gone⟩ ((p.dropEdge e).dropBareEnds r) := by
  have hends : ∀ d, r.endpoint d ∈ (p.dropEdge e).roster.vertexIds := h.roster.ends _ hr
  have hsource := hends .outgoing
  have hdrop := h.dropEdge (Roster.mem_edgeIds.mpr ⟨r, hr⟩)
  have herase := onRoster_ok (Roster.eraseEdge_ok h.roster hr)
  obtain ⟨first, hfirst⟩ := removeIfBare_ok hdrop hsource
  by_cases hloop : r.target = r.source
  · refine ⟨first ++ [], (bind_ok (endpoints_ok h hr)).trans
      ((bind_ok herase).trans ((bind_ok hfirst).trans ?_))⟩
    simp only [if_pos hloop, dropBareEnds]
    rfl
  · obtain ⟨second, hsecond⟩ := removeIfBare_ok (hdrop.dropIfBare hsource)
      (mem_dropIfBare (hends .incoming) hloop)
    refine ⟨first ++ second, (bind_ok (endpoints_ok h hr)).trans
      ((bind_ok herase).trans ((bind_ok hfirst).trans ?_))⟩
    simp only [if_neg hloop, dropBareEnds]
    exact bind_ok hsecond

theorem eraseEdgeAndBareEnds_error (h : p.Sound) {e : EdgeId} (he : e ∉ p.roster.edgeIds) :
    eraseEdgeAndBareEnds e p = .error (.deadEdge e) p := bind_error (endpoints_error h he)

variable [DecidableEq K] {keyOf : V → K}

theorem findOrInsert_ok (x : V) :
    findOrInsert keyOf x p = .ok (p.seat keyOf x) (p.place keyOf x) := by
  simp only [findOrInsert, get_bind, seat, place]
  cases p.holder? (keyOf x) with
  | some v => rfl
  | none => rfl

theorem insertVertex_ok (x : V) :
    ∃ r, insertVertex keyOf x p = .ok r (p.place keyOf x) := by
  simp only [insertVertex, get_bind, place]
  cases p.holder? (keyOf x) with
  | some v => exact ⟨_, rfl⟩
  | none => exact ⟨_, rfl⟩

theorem connect_ok (h : p.keys.map Prod.fst = p.roster.vertexIds) (source target : V) (x : E) :
    connect keyOf source target x p =
      .ok ⟨p.roster.edges.fresh⟩ (p.after keyOf (.connect source target x)) := by
  have hsource : p.seat keyOf source ∈
      ((p.place keyOf source).place keyOf target).roster.vertexIds :=
    mem_place (seat_mem_place h)
  have htarget : (p.place keyOf source).seat keyOf target ∈
      ((p.place keyOf source).place keyOf target).roster.vertexIds :=
    seat_mem_place (vertices_place h)
  have hlink := onRoster_ok (Roster.insertEdge_ok hsource htarget x)
  rw [edges_place, edges_place] at hlink
  refine (bind_ok (findOrInsert_ok source)).trans ((bind_ok (findOrInsert_ok target)).trans ?_)
  rw [after, link, edges_place, edges_place]
  exact hlink

end

section

variable {p : Register V E K} {Q : Register V E K → Prop}

theorem leaves_onRoster {b : Change (Roster V E) α}
    (h : Leaves (fun m => Q { p with roster := m }) (b p.roster)) : Leaves Q (onRoster b p) := by
  generalize hb : b p.roster = r at h
  cases h with
  | ok x hq => exact .of_ok (onRoster_ok hb) hq
  | error f hq => exact .of_error (onRoster_error hb) hq

theorem leaves_plain (h : p.Sound) {edit : Multigraph.Edit V E} (hm : Q p)
    (hafter : Q { p with roster := p.roster.after edit }) : Leaves Q (plain edit p) :=
  (leaves_onRoster (Roster.leaves_apply h.roster hm hafter)).bind fun _ _ _ hq => .ok _ hq

theorem leaves_payload {v : VertexId} (hm : Q p) : Leaves Q (payload v p) := by
  unfold payload
  split
  · exact .ok _ hm
  · exact .error _ hm

variable [DecidableEq K] {keyOf : V → K}

theorem leaves_modifyVertex (h : p.Sound) {v : VertexId} {f : V → V} (hm : Q p)
    (hafter : Q (p.updateVertex v f)) :
    Leaves Q (modifyVertex keyOf v (fun x => (x, f x)) p) := by
  by_cases hv : v ∈ p.roster.vertexIds
  · obtain ⟨x, hx⟩ := Roster.mem_vertexIds.mp hv
    have hconst := Ledger.update_const h.roster.nodup_live_vertices hx f
    have hupdate : onRoster (Roster.updateVertex v fun _ => f x) p = .ok x (p.updateVertex v f) :=
      (onRoster_ok (Roster.updateVertex_ok h.roster hx _)).trans (by rw [hconst]; rfl)
    unfold modifyVertex
    rw [bind_ok (payload_ok h hx)]
    dsimp only
    rw [bind_ok hupdate]
    -- what follows only reads, so the changed payload stays even when the key is refused
    refine (leaves_payload hafter).bind fun y _ _ hq => ?_
    simp only [get_bind]
    split
    · exact .ok _ hq
    · exact .error _ hq
  · exact .of_error (bind_error (payload_error h hv)) hm

open KeyedGraph (Edit)

theorem leaves_apply (h : p.Sound) {edit : Edit V E} (hm : Q p)
    (hafter : Q (p.after keyOf edit)) : Leaves Q (apply keyOf edit p) := by
  cases edit with
  | insertVertex x =>
    obtain ⟨r, hrun⟩ : ∃ r, insertVertex keyOf x p = .ok r (p.place keyOf x) := insertVertex_ok x
    refine (Leaves.of_ok hrun hafter).bind fun r _ _ hq => ?_
    cases r with
    | ok v => exact .ok _ hq
    | error e => exact .ok _ hq
  | findOrInsert x =>
    exact (Leaves.of_ok (findOrInsert_ok x) hafter).bind fun _ _ _ hq => .ok _ hq
  | eraseVertex v =>
    refine Leaves.bind ?_ fun _ _ _ hq => .ok _ hq
    by_cases hv : v ∈ p.roster.vertexIds
    · obtain ⟨x, hx⟩ := Roster.mem_vertexIds.mp hv
      obtain ⟨n, hrun⟩ := eraseVertex_ok h hx
      exact .of_ok hrun hafter
    · exact .of_error (eraseVertex_error hv) hm
  | removeVertex v =>
    refine Leaves.bind ?_ fun _ _ _ hq => .ok _ hq
    by_cases hv : v ∈ p.roster.vertexIds
    · obtain ⟨x, hx⟩ := Roster.mem_vertexIds.mp hv
      obtain ⟨n, hrun⟩ := removeVertex_ok h hx
      exact .of_ok hrun hafter
    · exact .of_error (removeVertex_error hv) hm
  | modifyVertex v f =>
    exact (leaves_modifyVertex h hm hafter).bind fun _ _ _ hq => .ok _ hq
  | connect s t x =>
    exact (Leaves.of_ok (connect_ok h.vertices s t x) hafter).bind fun _ _ _ hq => .ok _ hq
  | eraseEdgeAndBareEnds e =>
    refine Leaves.bind ?_ fun _ _ _ hq => .ok _ hq
    by_cases he : e ∈ p.roster.edgeIds
    · obtain ⟨r, hr⟩ := Roster.mem_edgeIds.mp he
      obtain ⟨erasure, hrun⟩ := eraseEdgeAndBareEnds_ok h hr
      rw [after, (Ledger.get?_eq_some h.roster.nodup_live_edges).mpr hr] at hafter
      exact .of_ok hrun hafter
    · exact .of_error (eraseEdgeAndBareEnds_error h he) hm
  | insertEdge s t x | eraseEdge e | removeEdge e | updateEdge e f | clearIncident d v
  | clearVertexEdges v | clearEdges => exact leaves_plain h hm hafter
  | clear => exact .ok _ hafter

end

end Register

end SlotGraph

import SlotGraph.Proofs.Multigraph.Insertion
import SlotGraph.Proofs.Multigraph.Removal
import SlotGraph.Proofs.Multigraph.Running
import SlotGraph.Proofs.Tally
set_option autoImplicit false

/-!
The operations of a multigraph simulate those of its roster. From a multigraph and its roster both
give the same result or the same fault, and leave a multigraph and its roster.
-/

namespace SlotGraph

namespace Multigraph

variable {V E α β σ : Type} {g : Multigraph V E} {m : Roster V E}

open Change

theorem tally_requireVertex (h : Represents g m) (v : VertexId) :
    Tally Represents (ask (checkVertex · v) g) (Roster.requireVertex v m) := by
  by_cases hv : v ∈ m.vertexIds
  · exact .of_ok (ask_ok (h.holds.checkVertex_ok hv)) (Roster.requireVertex_ok hv) h
  · exact .of_error (ask_error (h.holds.checkVertex_error hv)) (Roster.requireVertex_error hv) h

theorem tally_nextVertex (h : Represents g m) (v : VertexId) :
    Tally Represents (ask (nextVertex · v) g) (Roster.nextVertex v m) := by
  by_cases hv : v ∈ m.vertexIds
  · exact .of_ok (ask_ok (h.nextVertex_ok hv)) (Roster.nextVertex_ok hv) h
  · refine .of_error (ask_error ?_) (Roster.nextVertex_error hv) h
    rw [nextVertex, h.holds.checkVertex_error hv]
    rfl

theorem tally_nextEdge (h : Represents g m) (e : EdgeId) :
    Tally Represents (ask (nextEdge · e) g) (Roster.nextEdge e m) := by
  by_cases he : e ∈ m.edgeIds
  · obtain ⟨r, hr⟩ := Roster.mem_edgeIds.mp he
    exact .of_ok (ask_ok (h.nextEdge_ok he)) (Roster.nextEdge_ok h.sound hr) h
  · refine .of_error (ask_error ?_) (Change.bind_error (Roster.arcOf_error h.sound he)) h
    rw [nextEdge, h.holds.checkEdge_error he]
    rfl

theorem tally_nextIncident (h : Represents g m) (d : Direction) (e : EdgeId) :
    Tally Represents (ask (nextIncident · d e) g) (Roster.nextIncident d e m) := by
  by_cases he : e ∈ m.edgeIds
  · obtain ⟨r, hr⟩ := Roster.mem_edgeIds.mp he
    have hmem : e ∈ m.incident d (r.endpoint d) := Roster.mem_incident.mpr ⟨r, hr, rfl⟩
    exact .of_ok (ask_ok (h.nextIncident_ok (h.ends _ hr d) hmem))
      (Roster.nextIncident_ok h.sound d hr) h
  · refine .of_error (ask_error ?_) (Change.bind_error (Roster.arcOf_error h.sound he)) h
    rw [nextIncident, h.holds.checkEdge_error he]
    rfl

theorem tally_vertexOf (h : Represents g m) (i : Nat) :
    Tally Represents (ask (Descriptor.vertexOf · i) g) (Roster.vertexOf i m) := by
  have hid := h.holds.vertexId?_eq i
  simp only [ask, Descriptor.vertexOf, Roster.vertexOf, hid]
  cases m.vertices.record? i with
  | none => exact .error _ h
  | some p => exact .ok _ h

theorem tally_edgeOf (h : Represents g m) (i : Nat) :
    Tally Represents (ask (Descriptor.edgeOf · i) g) (Roster.edgeOf i m) := by
  have hid := h.holds.edgeId?_eq i
  simp only [ask, Descriptor.edgeOf, Roster.edgeOf, hid]
  cases m.edges.record? i with
  | none => exact .error _ h
  | some p => exact .ok _ h

theorem tally_insertVertex (h : Represents g m) (x : V) :
    Tally Represents (insertVertex x g) (Roster.insertVertex x m) := by
  obtain ⟨g', hrun, h'⟩ := insertVertex_ok h x
  exact .of_ok hrun rfl h'

theorem tally_insertEdge (h : Represents g m) (source target : VertexId) (x : E) :
    Tally Represents (insertEdge source target x g) (Roster.insertEdge source target x m) := by
  by_cases hs : source ∈ m.vertexIds
  · by_cases ht : target ∈ m.vertexIds
    · obtain ⟨g', hrun, h'⟩ := insertEdge_ok h hs ht x
      exact .of_ok hrun (Roster.insertEdge_ok hs ht x) h'
    · refine .of_error (f := .deadVertex target) ?_ ?_ h
      · refine (Change.ask_bind_ok (x := ()) ?_).trans (Change.ask_bind_error ?_)
        · exact h.holds.checkVertex_ok hs
        · exact h.holds.checkVertex_error ht
      · exact Roster.insertEdge_error_target hs ht x
  · refine .of_error ?_ (Roster.insertEdge_error_source hs target x) h
    exact Change.ask_bind_error (h.holds.checkVertex_error hs)

theorem tally_removeEdge (h : Represents g m) (e : EdgeId) :
    Tally Represents (removeEdge e g) (Roster.removeEdge e m) := by
  by_cases he : e ∈ m.edgeIds
  · obtain ⟨r, hr⟩ := Roster.mem_edgeIds.mp he
    obtain ⟨g', hrun, h'⟩ := dropEdge_ok h hr
    refine .of_ok ?_ (Roster.removeEdge_ok h.sound hr) h'
    refine (Change.ask_bind_ok (x := ()) ?_).trans hrun
    exact h.holds.checkEdge_ok he
  · refine .of_error ?_ (Change.bind_error (Roster.arcOf_error h.sound he)) h
    exact Change.ask_bind_error (h.holds.checkEdge_error he)

theorem tally_eraseEdge (h : Represents g m) (e : EdgeId) :
    Tally Represents (eraseEdge e g) (Roster.eraseEdge e m) :=
  (tally_nextEdge h e).bind fun next _ _ _ h₁ =>
    (tally_removeEdge h₁ e).bind fun _ _ _ _ h₂ => .ok next h₂

theorem tally_eraseIncident (h : Represents g m) (d : Direction) (e : EdgeId) :
    Tally Represents (eraseIncident d e g) (Roster.eraseIncident d e m) :=
  (tally_nextIncident h d e).bind fun next _ _ _ h₁ =>
    (tally_removeEdge h₁ e).bind fun _ _ _ _ h₂ => .ok next h₂

theorem tally_emptyCircle (h : Represents g m) {v : VertexId} (hv : v ∈ m.vertexIds)
    (d : Direction) : Tally Represents (emptyCircle v.index d g) (Roster.emptyCircle v d m) := by
  obtain ⟨g', hrun, h'⟩ := emptyCircle_ok h hv d
  exact .of_ok hrun rfl h'

theorem tally_clearIncident (h : Represents g m) (d : Direction) (v : VertexId) :
    Tally Represents (clearIncident d v g) (Roster.clearIncident d v m) :=
  (tally_requireVertex h v).bind fun _ _ _ hrun h₁ =>
    (tally_emptyCircle h₁ (Roster.requireVertex_eq_ok hrun) d).bind fun _ _ _ _ h₂ => .ok () h₂

theorem emptyCircle_eq_ok {m' : Roster V E} {v w : VertexId} {d : Direction} {n : Nat}
    (hrun : Roster.emptyCircle v d m = .ok n m') (hw : w ∈ m.vertexIds) : w ∈ m'.vertexIds := by
  cases hrun
  rwa [Roster.vertexIds_dropIncident]

theorem tally_clearVertexEdges (h : Represents g m) (v : VertexId) :
    Tally Represents (clearVertexEdges v g) (Roster.clearVertexEdges v m) :=
  (tally_requireVertex h v).bind fun _ _ _ hrun h₁ =>
    have hv := Roster.requireVertex_eq_ok hrun
    (tally_emptyCircle h₁ hv .outgoing).bind fun _ _ _ hrun h₂ =>
      (tally_emptyCircle h₂ (emptyCircle_eq_ok hrun hv) .incoming).bind fun _ _ _ _ h₃ =>
        .ok () h₃

theorem tally_clearEdges (h : Represents g m) :
    Tally Represents (clearEdges g) (Roster.clearEdges m) := by
  obtain ⟨g', hrun, h'⟩ := clearEdges_ok h
  exact .of_ok hrun rfl h'

theorem tally_removeVertex (h : Represents g m) (v : VertexId) :
    Tally Represents (removeVertex v g) (Roster.removeVertex v m) := by
  by_cases hv : v ∈ m.vertexIds
  · obtain ⟨x, hx⟩ := Roster.mem_vertexIds.mp hv
    obtain ⟨g', hrun, h'⟩ := removeVertex_ok h hx
    exact .of_ok hrun (Roster.removeVertex_ok h.sound hx) h'
  · refine .of_error ?_ (Roster.removeVertex_error hv) h
    exact Change.ask_bind_error (h.holds.checkVertex_error hv)

theorem tally_eraseVertex (h : Represents g m) (v : VertexId) :
    Tally Represents (eraseVertex v g) (Roster.eraseVertex v m) :=
  (tally_nextVertex h v).bind fun next _ _ _ h₁ =>
    (tally_removeVertex h₁ v).bind fun removal _ _ _ h₂ =>
      .ok (Erasure.mk next removal.cascaded) h₂

theorem Represents.of_payloads (h : Represents g m) {g' : Multigraph V E} {m' : Roster V E}
    (hholds : Holds g' m') (hlink : g'.link? = g.link?) (hcount : g'.count? = g.count?)
    (hids : m'.vertexIds = m.vertexIds) (hincident : m'.incident = m.incident)
    (hends : ∀ p ∈ m'.edges.live, ∀ d, p.2.endpoint d ∈ m.vertexIds) : Represents g' m' := by
  have hsteps : ∀ d, LinkStore.next? g' d = LinkStore.next? g d ∧
      LinkStore.prev? g' d = LinkStore.prev? g d := by
    intro d
    constructor <;> funext n
    · exact congrArg (Option.map Link.next) (congrFun (congrFun hlink n) d)
    · exact congrArg (Option.map Link.prev) (congrFun (congrFun hlink n) d)
  refine ⟨hholds, fun p hp d => ?_, fun d => ?_, fun v hv d => ?_⟩
  · rw [hids]
    exact hends p hp d
  · rw [hids, hincident]
    exact (h.circled d).of_steps (hsteps d)
  · rw [hids] at hv
    rw [hcount, hincident]
    exact h.counts v hv d

theorem tally_updateVertex? (h : Represents g m) (v : VertexId) (f : V → V) :
    Tally Represents (updateVertex? v f g) (Roster.updateVertex? v f m) := by
  have hrun : updateVertex? v f g = .ok (m.vertices.get? v.slot)
      { g with
        vertices := g.vertices.update v.slot fun r => { r with payload := f r.payload } } := by
    rw [← h.holds.vertex?_eq]
    rfl
  have hkeep {α : Type} (k : VertexRecord V → α) :=
    Table.at?_update_map g.vertices v.slot (u := fun r => { r with payload := f r.payload })
      (k := k)
  refine .of_ok hrun rfl ?_
  refine h.of_payloads ⟨h.holds.vertices.update (fun _ => rfl) v.slot, h.holds.edges⟩ ?_ ?_
    (m.vertexIds_updateVertex v.slot f) rfl h.ends
  · funext n d
    cases n with
    | head i => exact hkeep (fun r => r.heads.get d) (fun _ => rfl) i
    | edge i => rfl
  · funext d i
    exact hkeep (fun r => r.degree.get d) (fun _ => rfl) i

theorem tally_updateVertex (h : Represents g m) (v : VertexId) (f : V → V) :
    Tally Represents (updateVertex v f g) (Roster.updateVertex v f m) :=
  (tally_updateVertex? h v f).bind fun old _ _ _ h₁ =>
    match old with
    | some x => .ok x h₁
    | none => .error (.deadVertex v) h₁

theorem tally_updateEdge? (h : Represents g m) (e : EdgeId) (f : E → E) :
    Tally Represents (updateEdge? e f g) (Roster.updateEdge? e f m) := by
  have hrun : updateEdge? e f g = .ok ((m.edges.get? e.slot).map Arc.payload)
      { g with edges := g.edges.update e.slot fun r => { r with payload := f r.payload } } := by
    rw [← h.holds.edge?_eq]
    rfl
  have hkeep {α : Type} (k : EdgeRecord E → α) :=
    Table.at?_update_map g.edges e.slot (u := fun r => { r with payload := f r.payload })
      (k := k)
  refine .of_ok hrun rfl ?_
  refine h.of_payloads ⟨h.holds.vertices, h.holds.edges.update (fun _ => rfl) e.slot⟩ ?_ rfl rfl
    (m.incident_updateEdge e.slot f) fun p hp d => ?_
  · funext n d
    cases n with
    | head i => rfl
    | edge i => exact hkeep (fun r => r.links.get d) (fun _ => rfl) i
  · obtain ⟨q, hq, -, hend⟩ := Roster.mem_updateEdge hp
    exact hend d ▸ h.ends q hq d

theorem tally_updateEdge (h : Represents g m) (e : EdgeId) (f : E → E) :
    Tally Represents (updateEdge e f g) (Roster.updateEdge e f m) :=
  (tally_updateEdge? h e f).bind fun old _ _ _ h₁ =>
    match old with
    | some x => .ok x h₁
    | none => .error (.deadEdge e) h₁

end Multigraph

end SlotGraph

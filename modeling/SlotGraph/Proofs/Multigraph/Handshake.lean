import Mathlib.Algebra.BigOperators.Group.List.Basic
import Mathlib.Algebra.GroupWithZero.Nat
import SlotGraph.Proofs.Multigraph.Reach
set_option autoImplicit false

namespace SlotGraph

theorem exists_mapM_ok {ε α β γ : Type} {read : α → Except ε β} {f : β → γ} {k : α → γ}
    {xs : List α} (h : ∀ x ∈ xs, ∃ y, read x = .ok y ∧ f y = k x) :
    ∃ ys, xs.mapM read = .ok ys ∧ ys.map f = xs.map k := by
  induction xs with
  | nil => exact ⟨[], rfl, rfl⟩
  | cons x xs ih =>
    obtain ⟨⟨y, hread, hy⟩, hxs⟩ := List.forall_mem_cons.mp h
    obtain ⟨ys, hreads, hys⟩ := ih hxs
    refine ⟨y :: ys, ?_, by rw [List.map_cons, List.map_cons, hy, hys]⟩
    rw [List.mapM_cons, hread, hreads]
    rfl

theorem mapM_ok_of_forall {ε α β : Type} {read : α → Except ε β} {k : α → β} {xs : List α}
    (h : ∀ x ∈ xs, read x = .ok (k x)) : xs.mapM read = .ok (xs.map k) := by
  obtain ⟨ys, hreads, hys⟩ := exists_mapM_ok (f := id) (k := k) fun x hx => ⟨k x, h x hx, rfl⟩
  rw [hreads, ← hys, List.map_id]

namespace Roster

variable {V E : Type} {m : Roster V E}

theorem Sound.nodup_around (h : m.Sound) (d : Direction) :
    (m.vertexIds.flatMap (m.incident d)).Nodup := by
  refine List.nodup_flatMap.mpr ⟨fun v _ => h.nodup_incident d v, ?_⟩
  refine h.nodup_vertexIds.imp fun hne => List.disjoint_left.mpr fun e hev hew => ?_
  exact hne (h.incident_unique hev hew)

theorem Sound.mem_around (h : m.Sound) {d : Direction} {e : EdgeId} :
    e ∈ m.vertexIds.flatMap (m.incident d) ↔ e ∈ m.edgeIds := by
  rw [List.mem_flatMap]
  constructor
  · intro hev
    obtain ⟨v, -, hev⟩ := hev
    exact mem_edgeIds_of_incident hev
  · intro he
    obtain ⟨r, hr⟩ := mem_edgeIds.mp he
    exact ⟨r.endpoint d, h.ends _ hr d, mem_incident.mpr ⟨r, hr, rfl⟩⟩

theorem Sound.around_perm (h : m.Sound) (d : Direction) :
    (m.vertexIds.flatMap (m.incident d)).Perm m.edgeIds :=
  (List.perm_ext_iff_of_nodup (h.nodup_around d) h.nodup_edgeIds).mpr fun _ => h.mem_around

theorem Sound.sum_incident (h : m.Sound) (d : Direction) :
    (m.vertexIds.map fun v => (m.incident d v).length).sum = m.edgeIds.length := by
  rw [← List.length_flatMap, (h.around_perm d).length_eq]

theorem Sound.count_incident (h : m.Sound) {e : EdgeId} {r : Arc E}
    (hr : (e.slot, r) ∈ m.edges.live) (d : Direction) (v : VertexId) :
    (m.incident d v).count e = if v = r.endpoint d then 1 else 0 := by
  by_cases hv : v = r.endpoint d
  · rw [if_pos hv]
    exact List.count_eq_one_of_mem (h.nodup_incident d v) ((h.mem_incident_iff hr).mpr hv.symm)
  · rw [if_neg hv]
    exact List.count_eq_zero_of_not_mem fun hev => hv ((h.mem_incident_iff hr).mp hev).symm

end Roster

namespace Multigraph

variable {V E : Type} {g : Multigraph V E} {m : Roster V E}

/-- The edges of the table, the edges around the vertices and the counts at them agree. -/
structure ViewsAgree (g : Multigraph V E) : Prop where
  distinct : (TwoEnded.toList g.edgeIds).Nodup
  live {e : EdgeId} : e ∈ TwoEnded.toList g.edgeIds ↔ g.containsEdge e = true
  counted : (TwoEnded.toList g.edgeIds).length = g.edgeCount
  around (d : Direction) : ∃ its, (TwoEnded.toList g.vertexIds).mapM (g.incidentEdges d) = .ok its ∧
    (its.flatMap TwoEnded.toList).Perm (TwoEnded.toList g.edgeIds)
  /-- Of each direction an edge has one end, and it is once among the edges there. -/
  ends {e : EdgeId} : e ∈ TwoEnded.toList g.edgeIds → ∃ ends : PerDirection VertexId,
    g.endpoints e = .ok (ends.outgoing, ends.incoming) ∧
    ∀ d, ends.get d ∈ TwoEnded.toList g.vertexIds ∧
      ∀ v ∈ TwoEnded.toList g.vertexIds, ∃ it, g.incidentEdges d v = .ok it ∧
        (TwoEnded.toList it).count e = if v = ends.get d then 1 else 0
  degrees (d : Direction) : ∃ ns, (TwoEnded.toList g.vertexIds).mapM (g.degreeIn d) = .ok ns ∧
    ns.sum = g.edgeCount
  bothDegrees : ∃ ns, (TwoEnded.toList g.vertexIds).mapM g.degree = .ok ns ∧
    ns.sum = 2 * g.edgeCount

theorem Represents.viewsAgree (h : Represents g m) : ViewsAgree g := by
  have hvs : TwoEnded.toList g.vertexIds = m.vertexIds := h.holds.vertexIds_gives.toList_eq
  have hes : TwoEnded.toList g.edgeIds = m.edgeIds := h.holds.edgeIds_gives.toList_eq
  have hread : ∀ d, ∀ v ∈ m.vertexIds,
      ∃ it, g.incidentEdges d v = .ok it ∧ TwoEnded.toList it = m.incident d v := by
    intro d v hv
    obtain ⟨it, hrun, hit⟩ := h.incidentEdges_ok hv d
    exact ⟨it, hrun, hit.toList_eq⟩
  constructor
  case distinct => exact hes ▸ h.sound.nodup_edgeIds
  case live =>
    intro e
    rw [hes, h.holds.containsEdge_iff]
  case counted => rw [hes, h.holds.edgeCount_eq]
  case around =>
    intro d
    obtain ⟨its, hrun, hits⟩ := exists_mapM_ok (hread d)
    refine ⟨its, hvs ▸ hrun, ?_⟩
    rw [hes, List.flatMap_def, hits, ← List.flatMap_def]
    exact h.sound.around_perm d
  case ends =>
    intro e he
    obtain ⟨r, hr⟩ := Roster.mem_edgeIds.mp (hes ▸ he)
    refine ⟨⟨r.source, r.target⟩, h.holds.endpoints_eq hr, fun d => ?_⟩
    rw [hvs, r.get_ends]
    refine ⟨h.ends _ hr d, fun v hv => ?_⟩
    obtain ⟨it, hrun, hit⟩ := hread d v hv
    exact ⟨it, hrun, hit ▸ h.sound.count_incident hr d v⟩
  case degrees =>
    intro d
    rw [hvs]
    refine ⟨_, mapM_ok_of_forall fun v hv => h.degreeIn_eq hv d, ?_⟩
    rw [h.sound.sum_incident, h.holds.edgeCount_eq]
  case bothDegrees =>
    rw [hvs]
    refine ⟨_, mapM_ok_of_forall fun v hv => h.degree_eq hv, ?_⟩
    -- the sum over both directions is a sum for each, and either is the number of edges
    rw [List.sum_map_add, h.sound.sum_incident, h.sound.sum_incident, h.holds.edgeCount_eq,
      Nat.two_mul]

/-- In every multigraph that there can be, the edges counted around the vertices, from either end,
are the edges of the table. -/
theorem Reached.views_agree (hg : g.Reached) : ViewsAgree g := by
  obtain ⟨m, h⟩ := hg.represents
  exact h.viewsAgree

def twoLoops : List (Edit Nat Nat) :=
  [.insertVertex 10, .insertVertex 20, .insertVertex 30, .insertEdge ⟨0, 0⟩ ⟨0, 0⟩ 1,
    .insertEdge ⟨0, 0⟩ ⟨1, 0⟩ 2, .insertEdge ⟨2, 0⟩ ⟨0, 0⟩ 3, .insertEdge ⟨0, 0⟩ ⟨1, 0⟩ 4,
    .insertEdge ⟨1, 0⟩ ⟨2, 0⟩ 5, .removeVertex ⟨2, 0⟩, .insertEdge ⟨0, 0⟩ ⟨0, 0⟩ 6]

theorem views_agree_twoLoops :
    (Edit.applyAll .empty twoLoops).Reached ∧
      (TwoEnded.toList (Edit.applyAll .empty twoLoops).vertexIds).map
        (Edit.applyAll .empty twoLoops).degree = [.ok 6, .ok 2] ∧
      (Edit.applyAll .empty twoLoops).edgeCount = 4 ∧
      ViewsAgree (Edit.applyAll .empty twoLoops) := by
  have hreached : (Edit.applyAll .empty twoLoops).Reached := Reached.empty.applyAll twoLoops
  exact ⟨hreached, by decide +kernel, by decide +kernel, hreached.views_agree⟩

end Multigraph

end SlotGraph

import SlotGraph.Proofs.Index.Entries
import SlotGraph.Proofs.KeyedGraph.Running
set_option autoImplicit false

/-!
The operations of a keyed graph simulate those of its register. The graph stands for the roster of
the register, and the index enters the keys on record.
-/

namespace SlotGraph

namespace KeyedGraph

variable {V E K I α : Type} {k : KeyedGraph V E K I}

open Change
open Multigraph (Represents)

theorem onGraph_ok {a : Change (Multigraph V E) α} {x : α} {g : Multigraph V E}
    (h : a k.graph = .ok x g) : onGraph a k = .ok x { k with graph := g } := by
  simp [onGraph, h]

theorem onGraph_error {a : Change (Multigraph V E) α} {f : Fault} {g : Multigraph V E}
    (h : a k.graph = .error f g) : onGraph a k = .error f { k with graph := g } := by
  simp [onGraph, h]

variable [KeyIndex I K]

structure Stands (keyOf : V → K) (k : KeyedGraph V E K I) (p : Register V E K) : Prop where
  graph : Represents k.graph p.roster
  enters : KeyIndex.Enters k.index p.keys
  vertices : p.keys.map Prod.fst = p.roster.vertexIds
  keyOf : k.keyOf = keyOf

variable {keyOf : V → K} {p : Register V E K}

theorem Stands.sound (h : Stands keyOf k p) : p.Sound := ⟨h.graph.sound, h.vertices⟩

theorem Stands.keyOf?_eq (h : Stands keyOf k p) (v : VertexId) : k.keyOf? v = p.recorded? v :=
  h.enters.key?_eq_find? v

theorem Stands.find?_eq [DecidableEq K] (h : Stands keyOf k p) (key : K) :
    k.find? key = p.holder? key := h.enters.vertex?_eq_find? key

theorem tally_payload (h : Stands keyOf k p) (v : VertexId) :
    Tally (Stands keyOf) (ask (·.graph.vertex v) k) (Register.payload v p) := by
  by_cases hv : v ∈ p.roster.vertexIds
  · obtain ⟨x, hx⟩ := Roster.mem_vertexIds.mp hv
    obtain ⟨r, hr, -, rfl⟩ := h.graph.holds.vertexRecord_ok hx
    refine .of_ok (ask_ok ?_) (Register.payload_ok h.sound hx) h
    rw [Multigraph.vertex, hr]
    rfl
  · refine .of_error (ask_error ?_) (Register.payload_error h.sound hv) h
    rw [Multigraph.vertex, h.graph.holds.vertexRecord_error hv]
    rfl

theorem Stands.degree_ok (h : Stands keyOf k p) {v : VertexId} (hv : v ∈ p.roster.vertexIds) :
    k.graph.degree v = .ok (p.degreeOf v) := h.graph.degree_eq hv

theorem tally_degree (h : Stands keyOf k p) (v : VertexId) :
    Tally (Stands keyOf) (ask (·.graph.degree v) k) (Register.degree v p) := by
  by_cases hv : v ∈ p.roster.vertexIds
  · exact .of_ok (ask_ok (h.degree_ok hv)) (Register.degree_ok hv) h
  · refine .of_error (ask_error ?_) (Register.degree_error hv) h
    rw [Multigraph.degree, h.graph.holds.vertexRecord_error hv]
    rfl

theorem tally_endpoints (h : Stands keyOf k p) (e : EdgeId) :
    Tally (Stands keyOf) (ask (·.graph.endpoints e) k) (Register.endpoints e p) := by
  by_cases he : e ∈ p.roster.edgeIds
  · obtain ⟨r, hr⟩ := Roster.mem_edgeIds.mp he
    exact .of_ok (ask_ok (h.graph.holds.endpoints_eq hr)) (Register.endpoints_ok h.sound hr) h
  · refine .of_error (ask_error ?_) (Register.endpoints_error h.sound he) h
    rw [Multigraph.endpoints, h.graph.holds.edgeRecord_error he]
    rfl

theorem tally_onGraph (h : Stands keyOf k p) {a : Change (Multigraph V E) α}
    {b : Change (Roster V E) α} (hab : Tally Represents (a k.graph) (b p.roster))
    (hids : Leaves (fun m => m.vertexIds = p.roster.vertexIds) (b p.roster)) :
    Tally (Stands keyOf) (onGraph a k) (Register.onRoster b p) := by
  have hboth := hab.and hids
  generalize ha : a k.graph = ra at hboth
  generalize hb : b p.roster = rb at hboth
  cases hboth with
  | ok x h' =>
    exact .of_ok (onGraph_ok ha) (Register.onRoster_ok hb)
      ⟨h'.1, h.enters, h.vertices.trans h'.2.symm, h.keyOf⟩
  | error f h' =>
    exact .of_error (onGraph_error ha) (Register.onRoster_error hb)
      ⟨h'.1, h.enters, h.vertices.trans h'.2.symm, h.keyOf⟩

theorem tally_insertEdge (h : Stands keyOf k p) (source target : VertexId) (x : E) :
    Tally (Stands keyOf) (insertEdge source target x k) (Register.insertEdge source target x p) :=
  tally_onGraph h (Multigraph.tally_insertEdge h.graph source target x)
    (Roster.leaves_insertEdge rfl rfl)

theorem tally_plain (h : Stands keyOf k p) {edit : Multigraph.Edit V E}
    (hids : (p.roster.after edit).vertexIds = p.roster.vertexIds) :
    Tally (Stands keyOf) (Edit.plain edit k) (Register.plain edit p) :=
  (tally_onGraph h (Multigraph.tally_apply h.graph edit)
    (Roster.leaves_apply h.graph.sound rfl hids)).bind fun _ _ _ _ h' => .ok _ h'

theorem tally_modifyVertex [DecidableEq K] (h : Stands keyOf k p) (v : VertexId) (f : V → α × V) :
    Tally (Stands keyOf) (modifyVertex v f k) (Register.modifyVertex keyOf v f p) :=
  (tally_payload h v).bind fun x _ _ _ h₁ =>
    (tally_onGraph h₁ (Multigraph.tally_updateVertex h₁.graph v fun _ => (f x).2)
      (Roster.leaves_updateVertex h₁.graph.sound rfl
        (Roster.vertexIds_updateVertex ..))).bind fun _ _ _ _ h₂ =>
      (tally_payload h₂ v).bind fun y _ _ _ h₃ => by
        simp only [get_bind, h₃.keyOf?_eq, h₂.keyOf]
        split
        · exact .ok _ h₃
        · exact .error _ h₃

section

variable [DecidableEq K] [LawfulKeyIndex I]

theorem tally_enter (h : Stands keyOf k p) {key : K} (hkey : p.holder? key = none) (x : V) :
    Tally (Stands keyOf) (enter key x k) (Register.enter key x p) := by
  obtain ⟨g', hrun, h'⟩ := (Multigraph.tally_insertVertex h.graph x).exists_ok rfl
  have hv : VertexId.mk p.roster.vertices.fresh ∉ p.keys.map Prod.fst := by
    have hd := h'.sound.nodup_vertexIds
    rw [Roster.vertexIds_insertVertex, ← h.vertices, List.nodup_append_comm] at hd
    exact (List.nodup_cons.mp hd).1
  have hfree : key ∉ p.keys.map Prod.snd :=
    h.enters.vertex?_eq_none.mp ((h.find?_eq key).trans hkey)
  refine .of_ok (bind_ok (onGraph_ok hrun)) (bind_ok (Register.onRoster_ok rfl)) ?_
  exact ⟨h', h.enters.insert hv hfree, Register.vertices_enterVertex h.vertices key x, h.keyOf⟩

theorem tally_insertVertex (h : Stands keyOf k p) (x : V) :
    Tally (Stands keyOf) (insertVertex x k) (Register.insertVertex keyOf x p) := by
  simp only [insertVertex, Register.insertVertex, get_bind, h.keyOf, h.find?_eq]
  cases hkey : p.holder? (keyOf x) with
  | some v => exact .ok _ h
  | none => exact (tally_enter h hkey x).bind fun _ _ _ _ h' => .ok _ h'

theorem tally_findOrInsert (h : Stands keyOf k p) (x : V) :
    Tally (Stands keyOf) (findOrInsert x k) (Register.findOrInsert keyOf x p) := by
  simp only [findOrInsert, Register.findOrInsert, get_bind, h.keyOf, h.find?_eq]
  cases hkey : p.holder? (keyOf x) with
  | some v => exact .ok v h
  | none => exact tally_enter h hkey x

theorem tally_forget (h : Stands keyOf k p) (v : VertexId) {a : Change (Multigraph V E) α}
    {b : Change (Roster V E) α} (hab : Tally Represents (a k.graph) (b p.roster))
    (hb : v ∈ p.roster.vertexIds ∧
        (∃ x, b p.roster = .ok x ((p.roster.dropAround v).dropVertex v)) ∨
      ∃ f, b p.roster = .error f p.roster) :
    Tally (Stands keyOf) ((do let x ← onGraph a; forget v; return x) k)
      ((do let x ← Register.onRoster b; Register.forget v; return x) p) := by
  -- after the first half the index still enters a dead vertex, so the halves do not tally alone
  rcases hb with ⟨hv, x, hb⟩ | ⟨f, hb⟩
  · obtain ⟨g', ha, h'⟩ := hab.exists_ok hb
    rw [← h.vertices] at hv
    obtain ⟨⟨w, key⟩, hentry, rfl⟩ := List.mem_map.mp hv
    exact .of_ok (bind_ok (onGraph_ok ha)) (bind_ok (Register.onRoster_ok hb))
      ⟨h', h.enters.eraseVertex hentry, Register.vertices_dropVertex h.vertices w, h.keyOf⟩
  · obtain ⟨g', ha, h'⟩ := hab.exists_error hb
    exact .of_error (bind_error (onGraph_error ha)) (bind_error (Register.onRoster_error hb))
      ⟨h', h.enters, h.vertices, h.keyOf⟩

theorem tally_removeVertex (h : Stands keyOf k p) (v : VertexId) :
    Tally (Stands keyOf) (removeVertex v k) (Register.removeVertex v p) := by
  refine tally_forget h v (Multigraph.tally_removeVertex h.graph v) ?_
  by_cases hv : v ∈ p.roster.vertexIds
  · obtain ⟨x, hx⟩ := Roster.mem_vertexIds.mp hv
    exact .inl ⟨hv, _, Roster.removeVertex_ok h.graph.sound hx⟩
  · exact .inr ⟨_, Roster.removeVertex_error hv⟩

theorem tally_eraseVertex (h : Stands keyOf k p) (v : VertexId) :
    Tally (Stands keyOf) (eraseVertex v k) (Register.eraseVertex v p) := by
  refine tally_forget h v (Multigraph.tally_eraseVertex h.graph v) ?_
  by_cases hv : v ∈ p.roster.vertexIds
  · obtain ⟨x, hx⟩ := Roster.mem_vertexIds.mp hv
    exact .inl ⟨hv, _, Roster.eraseVertex_ok h.graph.sound hx⟩
  · exact .inr ⟨_, bind_error (Roster.nextVertex_error hv)⟩

theorem tally_connect (h : Stands keyOf k p) (source target : V) (x : E) :
    Tally (Stands keyOf) (connect source target x k) (Register.connect keyOf source target x p) :=
  (tally_findOrInsert h source).bind fun v _ _ _ h₁ =>
    (tally_findOrInsert h₁ target).bind fun w _ _ _ h₂ => tally_insertEdge h₂ v w x

theorem tally_removeIfBare (h : Stands keyOf k p) (v : VertexId) :
    Tally (Stands keyOf) (removeIfBare v k) (Register.removeIfBare v p) :=
  (tally_degree h v).bind fun n _ _ _ h₁ => by
    split
    · exact (tally_removeVertex h₁ v).bind fun _ _ _ _ h₂ => .ok _ h₂
    · exact .ok _ h₁

theorem tally_eraseEdgeAndBareEnds (h : Stands keyOf k p) (e : EdgeId) :
    Tally (Stands keyOf) (eraseEdgeAndBareEnds e k) (Register.eraseEdgeAndBareEnds e p) :=
  (tally_endpoints h e).bind fun ends _ _ _ h₁ =>
    (tally_onGraph h₁ (Multigraph.tally_eraseEdge h₁.graph e)
      (Roster.leaves_eraseEdge h₁.graph.sound rfl rfl)).bind fun _ _ _ _ h₂ =>
      (tally_removeIfBare h₂ ends.1).bind fun _ _ _ _ h₃ => by
        split
        · exact .ok _ h₃
        · exact (tally_removeIfBare h₃ ends.2).bind fun _ _ _ _ h₄ => .ok _ h₄

theorem tally_clear (h : Stands keyOf k p) :
    Tally (Stands keyOf) ((Edit.clear : Edit V E).apply k) (Register.apply keyOf .clear p) := by
  have hrun : (Edit.clear : Edit V E).apply k =
      .ok (.ok .done, [.clearingGraph p.roster.vertexIds.length p.roster.edgeIds.length])
        ⟨.empty, KeyIndex.clear k.index, k.keyOf⟩ := by
    rw [← h.graph.holds.vertexCount_eq, ← h.graph.holds.edgeCount_eq]
    rfl
  exact .of_ok hrun rfl ⟨Multigraph.represents_empty, KeyIndex.enters_empty, rfl, h.keyOf⟩

theorem tally_apply (h : Stands keyOf k p) (edit : Edit V E) :
    Tally (Stands keyOf) (edit.apply k) (Register.apply keyOf edit p) := by
  cases edit with
  | insertVertex x =>
    refine (tally_insertVertex h x).bind fun r _ _ _ h' => ?_
    cases r with
    | ok v => exact .ok _ h'
    | error e =>
      simp only [get_bind, Edit.refusal, Register.refusal, h'.find?_eq]
      exact .ok _ h'
  | findOrInsert x => exact (tally_findOrInsert h x).bind fun _ _ _ _ h' => .ok _ h'
  | eraseVertex v => exact (tally_eraseVertex h v).bind fun _ _ _ _ h' => .ok _ h'
  | removeVertex v => exact (tally_removeVertex h v).bind fun _ _ _ _ h' => .ok _ h'
  | modifyVertex v f => exact (tally_modifyVertex h v _).bind fun _ _ _ _ h' => .ok _ h'
  | connect s t x => exact (tally_connect h s t x).bind fun _ _ _ _ h' => .ok _ h'
  | eraseEdgeAndBareEnds e =>
    exact (tally_eraseEdgeAndBareEnds h e).bind fun _ _ _ _ h' => .ok _ h'
  | insertEdge s t x | eraseEdge e | removeEdge e | updateEdge e f => exact tally_plain h rfl
  | clearIncident d v => exact tally_plain h (Roster.vertexIds_dropEdges ..)
  | clearVertexEdges v => exact tally_plain h (Roster.vertexIds_dropAround ..)
  | clearEdges => exact tally_plain h (Roster.vertexIds_dropEdges ..)
  | clear => exact tally_clear h

end

end KeyedGraph

end SlotGraph

import SlotGraph.Multigraph.Report
import SlotGraph.Proofs.Multigraph.Cursor
import SlotGraph.Proofs.Sharing
import SlotGraph.Proofs.Table.History
set_option autoImplicit false

namespace SlotGraph

namespace Table

variable {α β γ : Type}

def Entries.AtRecords (it : Entries α) : Prop :=
  ∃ i j, it.front = some i ∧ it.back = some j ∧ (it.table.at? i).isSome ∧ (it.table.at? j).isSome

theorem Represents.at?_isSome {t : Table α} {a : Ledger α} (h : Represents t a) {p : SlotId × α}
    (hp : p ∈ a.live) : (t.at? p.1.index).isSome := by
  rw [Table.at?_eq, h.entries p hp]
  rfl

theorem Spans.atRecords {it : Entries α} {xs : List (SlotId × α)} (h : Spans it xs)
    (hne : xs ≠ []) : it.AtRecords := by
  obtain ⟨a, l, r, ht, hlive, hfront, hback, -⟩ := h
  obtain ⟨p, rest, hp⟩ := List.exists_cons_of_ne_nil hne
  obtain ⟨init, q, hq⟩ := (List.eq_nil_or_concat' xs).resolve_left hne
  have hmem : ∀ y ∈ xs, y ∈ a.live := fun y hy => by simp [hlive, hy]
  refine ⟨p.1.index, q.1.index, ?_, ?_, ?_, ?_⟩
  · rw [hfront, hp]
    rfl
  · rw [hback, hq]
    simp [places]
  · exact ht.at?_isSome (hmem p (by simp [hp]))
  · exact ht.at?_isSome (hmem q (by simp [hq]))

/-- A reader of a table shares the list out, and is on records until it is used up. -/
structure ReadsOut (t : Table α) (xs : List (SlotId × α)) : Prop where
  sharesOut : TwoEnded.SharesOut t.entries xs
  atRecords : TwoEnded.Throughout Entries.AtRecords t.entries xs

structure HandlesOut (it : Mapped (Entries α) (SlotId × α) γ) (xs : List γ) : Prop where
  sharesOut : TwoEnded.SharesOut it xs
  atRecords : TwoEnded.Throughout (fun it => it.source.AtRecords) it xs

theorem Represents.readsOut {t : Table α} {a : Ledger α} (h : Represents t a) :
    ReadsOut t a.live where
  sharesOut := exact_spans.sharesOut h.spans
  atRecords := exact_spans.throughout h.spans Spans.atRecords

theorem Shows.handlesOut {f : α → β} {t : Table α} {a : Ledger β} (h : Shows f t a)
    (k : SlotId → γ) :
    HandlesOut (Mapped.mk t.entries fun p : SlotId × α => k p.1) (a.live.map fun p => k p.1) := by
  obtain ⟨b, hb, rfl⟩ := h
  have hlist : (b.map f).live.map (fun p => k p.1) = b.live.map fun p => k p.1 := by
    simp [Ledger.map]
  have hexact := exact_spans.mapped fun p : SlotId × α => k p.1
  rw [hlist]
  refine ⟨hexact.sharesOut ⟨rfl, b.live, hb.spans, rfl⟩,
    hexact.throughout ⟨rfl, b.live, hb.spans, rfl⟩ ?_⟩
  rintro it xs ⟨-, ys, hspans, rfl⟩ hne
  exact hspans.atRecords fun hnil => hne (by rw [hnil, List.map_nil])

end Table

def IncidentEdges.AtEdges {V E : Type} (it : IncidentEdges V E) : Prop :=
  ∃ i j, it.front = .edge i ∧ it.back = .edge j ∧ (it.graph.edges.at? i).isSome ∧
    (it.graph.edges.at? j).isSome

namespace Multigraph

variable {V E α : Type} {g : Multigraph V E} {m : Roster V E}

theorem Holds.edge_at?_isSome (h : Holds g m) {e : EdgeId} (he : e ∈ m.edgeIds) :
    (g.edges.at? e.index).isSome := by
  obtain ⟨r, hr⟩ := Roster.mem_edgeIds.mp he
  obtain ⟨record, -, hat, -⟩ := h.edgeRecord_ok hr
  rw [hat]
  rfl

theorem Rounds.atEdges {it : IncidentEdges V E} {xs : List EdgeId} (h : Rounds it xs)
    (hne : xs ≠ []) : it.AtEdges := by
  obtain ⟨m, v, l, r, hg, hv, hsplit, hfront, hback, -⟩ := h
  obtain ⟨e, rest, he⟩ := List.exists_cons_of_ne_nil hne
  obtain ⟨init, f, hf⟩ := (List.eq_nil_or_concat' xs).resolve_left hne
  have hmem : ∀ y ∈ xs, y ∈ m.edgeIds := fun y hy =>
    Roster.mem_edgeIds_of_incident (d := it.direction) (v := v) (by simp [hsplit, hy])
  refine ⟨e.index, f.index, ?_, ?_, ?_, ?_⟩
  · rw [hfront, he]
    rfl
  · rw [hback, hf]
    simp
  · exact hg.holds.edge_at?_isSome (hmem e (by simp [he]))
  · exact hg.holds.edge_at?_isSome (hmem f (by simp [hf]))

/-- In every multigraph that there can be, a reader of the edges of one direction at a live vertex
shares out the list over which the cursor walks there. It is on edges of the list, and on no head,
until the list is used up. -/
theorem Reached.incidentEdges_share (hg : g.Reached) (d : Direction) {v : VertexId}
    (hv : g.containsVertex v = true) :
    ∃ it first es, g.incidentEdges d v = .ok it ∧ g.firstIncident d v = .ok first ∧
      Walks (g.nextIncident d) first es ∧ g.degreeIn d v = .ok es.length ∧
      TwoEnded.SharesOut it es ∧ TwoEnded.Throughout IncidentEdges.AtEdges it es := by
  obtain ⟨m, h⟩ := hg.represents
  replace hv := h.holds.containsVertex_iff.mp hv
  obtain ⟨it, hrun, hit⟩ := h.incidentEdges_rounds hv d
  have hwalks := walks_of_successor (l := []) (h.sound.nodup_incident d v)
    fun e he => h.nextIncident_ok hv he
  exact ⟨it, _, _, hrun, h.firstIncident_ok hv d, hwalks, h.degreeIn_eq hv d,
    exact_rounds.sharesOut hit, exact_rounds.throughout hit Rounds.atEdges⟩

def loopAndReusedSlot : List (Edit Nat Nat) :=
  [.insertVertex 10, .insertVertex 20, .insertEdge ⟨0, 0⟩ ⟨1, 0⟩ 1, .insertEdge ⟨0, 0⟩ ⟨0, 0⟩ 2,
    .insertEdge ⟨1, 0⟩ ⟨0, 0⟩ 3, .insertEdge ⟨0, 0⟩ ⟨1, 0⟩ 4, .removeEdge ⟨0, 0⟩,
    .insertEdge ⟨0, 0⟩ ⟨1, 0⟩ 5]

theorem incidentEdges_share_loopAndReusedSlot :
    (Edit.applyAll .empty loopAndReusedSlot).Reached ∧
      (Edit.applyAll .empty loopAndReusedSlot).containsVertex ⟨0, 0⟩ = true ∧
      ((Edit.applyAll .empty loopAndReusedSlot).vertexReport ⟨0, 0⟩).map VertexReport.outEdges =
        .ok [⟨1, 0⟩, ⟨3, 0⟩, ⟨0, 1⟩] ∧
      ∃ it first es,
        (Edit.applyAll .empty loopAndReusedSlot).incidentEdges .outgoing ⟨0, 0⟩ = .ok it ∧
        (Edit.applyAll .empty loopAndReusedSlot).firstIncident .outgoing ⟨0, 0⟩ = .ok first ∧
        Walks ((Edit.applyAll .empty loopAndReusedSlot).nextIncident .outgoing) first es ∧
        (Edit.applyAll .empty loopAndReusedSlot).degreeIn .outgoing ⟨0, 0⟩ = .ok es.length ∧
        TwoEnded.SharesOut it es ∧ TwoEnded.Throughout IncidentEdges.AtEdges it es := by
  have hreached : (Edit.applyAll .empty loopAndReusedSlot).Reached :=
    Reached.empty.applyAll loopAndReusedSlot
  have hlive : (Edit.applyAll .empty loopAndReusedSlot).containsVertex ⟨0, 0⟩ = true := by
    decide +kernel
  exact ⟨hreached, hlive, by decide +kernel, hreached.incidentEdges_share .outgoing hlive⟩

/-- However a table has been edited since it was made, its reader shares out the records of the
ledger that went through the same edits; and in every multigraph that there can be the readers of
vertices and of edges share out the lists over which the cursors walk. All of them are on live
records until the list is used up. -/
theorem Reached.tableReaders_share [Footprint α] (hg : g.Reached) (edits : List (Table.Edit α))
    {start : Table α} (hstart : start = .empty ∨ ∃ n, Table.withRoom n = .ok start) :
    (∃ t, edits.mapM Table.Edit.apply start = .ok (Ledger.run edits {}).1 t ∧
      t.ReadsOut (Ledger.run edits {}).2.live) ∧
    (∃ vs, Walks g.nextVertex g.firstVertex? vs ∧ vs.length = g.vertexCount ∧
      Table.HandlesOut g.vertexIds vs) ∧
    ∃ es, Walks g.nextEdge g.firstEdge? es ∧ es.length = g.edgeCount ∧
      Table.HandlesOut g.edgeIds es := by
  obtain ⟨t, hrun, ht⟩ := Table.run_new_ok hstart edits
  obtain ⟨m, h⟩ := hg.represents
  refine ⟨⟨t, hrun, ht.readsOut⟩, ⟨m.vertexIds, ?_, ?_, ?_⟩, m.edgeIds, ?_, ?_, ?_⟩
  · rw [h.firstVertex?_eq]
    exact walks_of_successor (l := []) h.sound.nodup_vertexIds fun v hv => h.nextVertex_ok hv
  · exact h.holds.vertexCount_eq.symm
  · exact h.holds.vertices.handlesOut VertexId.mk
  · rw [h.firstEdge?_eq]
    exact walks_of_successor (l := []) h.sound.nodup_edgeIds fun e he => h.nextEdge_ok he
  · exact h.holds.edgeCount_eq.symm
  · exact h.holds.edges.handlesOut EdgeId.mk

theorem tableReaders_share_loopAndReusedSlot :
    (Edit.applyAll .empty loopAndReusedSlot).Reached ∧ Table.withRoom 3 = .ok (.empty : Table Nat) ∧
      (∃ t, [Table.Edit.insert 10, .insert 20, .insert 30, .removeAt 0, .insert 40, .removeAt 1].mapM
          Table.Edit.apply (.empty : Table Nat) = .ok [.handle ⟨0, 0⟩, .handle ⟨1, 0⟩,
            .handle ⟨2, 0⟩, .value (some 10), .handle ⟨0, 1⟩, .value (some 20)] t ∧
        t.ReadsOut [(⟨2, 0⟩, 30), (⟨0, 1⟩, 40)]) ∧
      (∃ vs, Walks (Edit.applyAll .empty loopAndReusedSlot).nextVertex
          (Edit.applyAll .empty loopAndReusedSlot).firstVertex? vs ∧
        vs.length = (Edit.applyAll .empty loopAndReusedSlot).vertexCount ∧
        Table.HandlesOut (Edit.applyAll .empty loopAndReusedSlot).vertexIds vs) ∧
      ∃ es, Walks (Edit.applyAll .empty loopAndReusedSlot).nextEdge
          (Edit.applyAll .empty loopAndReusedSlot).firstEdge? es ∧
        es.length = (Edit.applyAll .empty loopAndReusedSlot).edgeCount ∧
        Table.HandlesOut (Edit.applyAll .empty loopAndReusedSlot).edgeIds es := by
  have hreached : (Edit.applyAll .empty loopAndReusedSlot).Reached :=
    Reached.empty.applyAll loopAndReusedSlot
  have hroom : Table.withRoom 3 = .ok (.empty : Table Nat) := rfl
  exact ⟨hreached, hroom, hreached.tableReaders_share _ (.inr ⟨3, hroom⟩)⟩

end Multigraph

end SlotGraph

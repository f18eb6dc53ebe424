import SlotGraph.Proofs.Incidence.Circles
import SlotGraph.Proofs.Incidence.Reversal
import SlotGraph.Proofs.Multigraph.Reach
set_option autoImplicit false

namespace SlotGraph

open LinkStore (Proper Reciprocal Reversible)

namespace Multigraph

variable {V E : Type} {g : Multigraph V E} {m : Roster V E}

instance : PlainLinkStore (Multigraph V E) where
  setLink_self {g n d l} h := by
    cases n with
    | head i =>
      have hself : g.vertices.updateAt i (fun r => { r with heads := r.heads.set d l }) =
          g.vertices := by
        refine Table.updateAt_self fun r hr => ?_
        have hl : r.heads.get d = l := by simpa [LinkStore.link?, link?, hr] using h
        rw [← hl, PerDirection.set_get_self]
      exact congrArg (fun t => { g with vertices := t }) hself
    | edge i =>
      have hself : g.edges.updateAt i (fun r => { r with links := r.links.set d l }) =
          g.edges := by
        refine Table.updateAt_self fun r hr => ?_
        have hl : r.links.get d = l := by simpa [LinkStore.link?, link?, hr] using h
        rw [← hl, PerDirection.set_get_self]
      exact congrArg (fun t => { g with edges := t }) hself
  setLink_setLink g n d k l := by
    cases n with
    | head i =>
      show setLink (setLink g _ d k) _ d l = setLink g _ d l
      simp only [setLink, Table.updateAt_updateAt, Function.comp_def, PerDirection.set_set]
    | edge i =>
      show setLink (setLink g _ d k) _ d l = setLink g _ d l
      simp only [setLink, Table.updateAt_updateAt, Function.comp_def, PerDirection.set_set]
  setLink_comm g n m d e k l h := by
    show setLink (setLink g n d k) m e l = setLink (setLink g m e l) n d k
    cases n with
    | head i =>
      cases m with
      | head j =>
        by_cases hij : i = j
        · have hde : d ≠ e := fun hde => h (by rw [hij, hde])
          simp only [setLink, hij, Table.updateAt_updateAt, Function.comp_def,
            PerDirection.set_comm _ hde]
        · simp only [setLink, Table.updateAt_comm _ hij]
      | edge j => rfl
    | edge i =>
      cases m with
      | head j => rfl
      | edge j =>
        by_cases hij : i = j
        · have hde : d ≠ e := fun hde => h (by rw [hij, hde])
          simp only [setLink, hij, Table.updateAt_updateAt, Function.comp_def,
            PerDirection.set_comm _ hde]
        · simp only [setLink, Table.updateAt_comm _ hij]

theorem Represents.proper (h : Represents g m) : Proper g := by
  intro n d hn
  cases n with
  | head i =>
    have hlive : (g.vertexId? i).isSome := by
      rw [vertexId?, Option.isSome_map, Table.isSome_find?]
      exact Option.isSome_map.symm.trans hn
    obtain ⟨v, hv⟩ := Option.isSome_iff_exists.mp hlive
    obtain ⟨hmem, rfl⟩ := h.holds.vertexId?_eq_some.mp hv
    exact ⟨_, (h.circled d).circle h.sound hmem⟩
  | edge i =>
    have hlive : (g.edgeId? i).isSome := by
      rw [edgeId?, Option.isSome_map, Table.isSome_find?]
      exact Option.isSome_map.symm.trans hn
    obtain ⟨e, he⟩ := Option.isSome_iff_exists.mp hlive
    obtain ⟨hmem, rfl⟩ := h.holds.edgeId?_eq_some.mp he
    obtain ⟨r, hr⟩ := Roster.mem_edgeIds.mp hmem
    have hend := h.ends _ hr d
    have hincident : e ∈ m.incident d (r.endpoint d) := Roster.mem_incident.mpr ⟨r, hr, rfl⟩
    obtain ⟨l, hl, -⟩ := ((h.circled d).circle h.sound hend).through
      (List.mem_cons_of_mem _ (edge_mem_nodes.mpr ⟨e, hincident, rfl⟩))
    exact ⟨l, hl⟩

theorem Reached.reciprocal (h : g.Reached) : Reciprocal g := by
  obtain ⟨m, hm⟩ := h.represents
  exact hm.proper.reciprocal

end Multigraph

/-- Wherever the steps of each direction are a permutation stored both ways, splices can be taken
back and removals swapped. So it is in every multigraph that is reached, and in every store of
single nodes however it has been spliced. -/
theorem splices_reverse :
    (∀ {σ : Type} [LinkStore σ] [PlainLinkStore σ] {s : σ}, Reciprocal s → Reversible s) ∧
    (∀ {V E : Type} {g : Multigraph V E}, g.Reached → Reciprocal g ∧ Reversible g) ∧
    ∀ {heads edges : Nat} {edits : List Circles.Edit},
      (∀ edit ∈ edits, edit.InRange heads edges) →
        Reciprocal ((Circles.ofSizes heads edges).applyAll edits) ∧
          Reversible ((Circles.ofSizes heads edges).applyAll edits) := by
  refine ⟨fun h => h.reversible, fun hg => ?_, fun hedits => ?_⟩
  · exact ⟨hg.reciprocal, hg.reciprocal.reversible⟩
  · have hreciprocal := ((Circles.sound_ofSizes _ _).applyAll hedits).proper.reciprocal
    exact ⟨hreciprocal, hreciprocal.reversible⟩

def neighboursInCircle : List Circles.Edit :=
  [.insertBefore (.edge 0) (.head 0) .outgoing, .insertBefore (.edge 1) (.head 0) .outgoing,
    .insertBefore (.edge 0) (.head 1) .incoming]

def loopAndPair : List (Multigraph.Edit Nat Nat) :=
  [.insertVertex 10, .insertVertex 20, .insertEdge ⟨0, 0⟩ ⟨1, 0⟩ 1, .eraseEdge ⟨0, 0⟩,
    .insertEdge ⟨0, 0⟩ ⟨1, 0⟩ 2, .insertEdge ⟨0, 0⟩ ⟨0, 0⟩ 3, .insertEdge ⟨0, 0⟩ ⟨1, 0⟩ 4]

theorem splices_reverse_neighboursInCircle :
    (Reciprocal (Circles.ofSizes 2 2) ∧ Reversible (Circles.ofSizes 2 2)) ∧
      ((Multigraph.Edit.applyAll .empty loopAndPair).Reached ∧
        Reversible (Multigraph.Edit.applyAll .empty loopAndPair)) ∧
      (∀ edit ∈ neighboursInCircle, edit.InRange 2 2) ∧
        Reversible ((Circles.ofSizes 2 2).applyAll neighboursInCircle) := by
  have hsingles : Reciprocal (Circles.ofSizes 2 2) := (Circles.sound_ofSizes 2 2).proper.reciprocal
  have hgraph : (Multigraph.Edit.applyAll .empty loopAndPair).Reached :=
    Multigraph.Reached.empty.applyAll loopAndPair
  have hedits : ∀ edit ∈ neighboursInCircle, edit.InRange 2 2 := by
    simp [neighboursInCircle, Circles.Edit.InRange, Node.InRange]
  exact ⟨⟨hsingles, splices_reverse.1 hsingles⟩, ⟨hgraph, (splices_reverse.2.1 hgraph).2⟩, hedits,
    (splices_reverse.2.2 hedits).2⟩

example : (Circles.ofSizes 2 2).applyAll (neighboursInCircle ++ [.unlink (.edge 0) .outgoing,
      .unlink (.edge 1) .outgoing]) =
    (Circles.ofSizes 2 2).applyAll (neighboursInCircle ++ [.unlink (.edge 1) .outgoing,
      .unlink (.edge 0) .outgoing]) := by decide +kernel

end SlotGraph

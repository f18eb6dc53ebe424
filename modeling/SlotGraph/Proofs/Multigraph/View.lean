import SlotGraph.Multigraph.Mutation
import SlotGraph.Proofs.Incidence.Splice
import SlotGraph.Proofs.Multigraph.Roster
import SlotGraph.Proofs.Table.Shows
set_option autoImplicit false

namespace SlotGraph

namespace Multigraph

variable {V E : Type}

open LinkStore (Relinked)

/-- The tables hold the payloads and arcs of the roster, whatever their links and degrees. -/
structure Holds (g : Multigraph V E) (m : Roster V E) : Prop where
  vertices : Table.Shows VertexRecord.payload g.vertices m.vertices
  edges : Table.Shows EdgeRecord.arc g.edges m.edges

/-- The count that the vertex in a slot keeps for one direction. -/
def count? (g : Multigraph V E) (d : Direction) (i : Nat) : Option Nat :=
  (g.vertices.at? i).map fun r => r.degree.get d

theorem onVertices_ok {α : Type} {a : Change (Table (VertexRecord V)) α} {g : Multigraph V E}
    {t : Table (VertexRecord V)} {x : α} (h : a g.vertices = .ok x t) :
    onVertices a g = .ok x { g with vertices := t } := by simp [onVertices, h]

theorem onEdges_ok {α : Type} {a : Change (Table (EdgeRecord E)) α} {g : Multigraph V E}
    {t : Table (EdgeRecord E)} {x : α} (h : a g.edges = .ok x t) :
    onEdges a g = .ok x { g with edges := t } := by simp [onEdges, h]

instance : LawfulLinkStore (Multigraph V E) where
  link?_setLink {g n d} l h m e := by
    cases n with
    | head i =>
      obtain ⟨p, hp⟩ := Option.isSome_iff_exists.mp h
      obtain ⟨r, hr, -⟩ := Option.map_eq_some_iff.mp hp
      cases m with
      | head j =>
        show Option.map _ (Table.at? (Table.updateAt g.vertices i _) j) = _
        rw [Table.at?_updateAt]
        by_cases hj : j = i <;> by_cases he : e = d <;>
          simp [hj, he, hr, LinkStore.link?, link?, PerDirection.set, PerDirection.get_modify]
      | edge j => simp [LinkStore.link?, LinkStore.setLink, link?, setLink]
    | edge i =>
      obtain ⟨p, hp⟩ := Option.isSome_iff_exists.mp h
      obtain ⟨r, hr, -⟩ := Option.map_eq_some_iff.mp hp
      cases m with
      | head j => simp [LinkStore.link?, LinkStore.setLink, link?, setLink]
      | edge j =>
        show Option.map _ (Table.at? (Table.updateAt g.edges i _) j) = _
        rw [Table.at?_updateAt]
        by_cases hj : j = i <;> by_cases he : e = d <;>
          simp [hj, he, hr, LinkStore.link?, link?, PerDirection.set, PerDirection.get_modify]

theorem Holds.setLink {g : Multigraph V E} {m : Roster V E} (h : Holds g m) (n : Node)
    (d : Direction) (l : Link) : Holds (g.setLink n d l) m := by
  cases n with
  | head i =>
    exact ⟨h.vertices.updateAt (u := fun r => { r with heads := r.heads.set d l })
      (fun _ => rfl) i, h.edges⟩
  | edge i =>
    exact ⟨h.vertices, h.edges.updateAt (u := fun r => { r with links := r.links.set d l })
      (fun _ => rfl) i⟩

theorem count?_setLink (g : Multigraph V E) (n : Node) (d : Direction) (l : Link) :
    (g.setLink n d l).count? = g.count? := by
  funext e j
  cases n with
  | head i =>
    simp only [count?, setLink, Table.at?_updateAt]
    by_cases hj : j = i <;> simp [hj, Function.comp_def]
  | edge i => rfl

theorem Holds.relinked {g g' : Multigraph V E} {m : Roster V E} (h : Holds g m)
    (hlink : Relinked g g') : Holds g' m := by
  induction hlink with
  | refl => exact h
  | set l _ _ ih => exact ih.setLink _ _ l

theorem count?_relinked {g g' : Multigraph V E} (hlink : Relinked g g') :
    g'.count? = g.count? := by
  induction hlink with
  | refl => rfl
  | set l _ _ ih => rw [← ih]; exact count?_setLink _ _ _ l

def recount (g : Multigraph V E) (i : Nat) (d : Direction) (f : Nat → Nat) : Multigraph V E :=
  { g with
    vertices := g.vertices.updateAt i fun r => { r with degree := r.degree.modify d f } }

theorem Holds.recount {g : Multigraph V E} {m : Roster V E} (h : Holds g m) (i : Nat)
    (d : Direction) (f : Nat → Nat) : Holds (g.recount i d f) m :=
  ⟨h.vertices.updateAt (u := fun r => { r with degree := r.degree.modify d f })
    (fun _ => rfl) i, h.edges⟩

theorem link?_recount (g : Multigraph V E) (i : Nat) (d : Direction) (f : Nat → Nat) (n : Node)
    (e : Direction) : (g.recount i d f).link? n e = g.link? n e := by
  cases n with
  | head j =>
    simp only [link?, recount, Table.at?_updateAt]
    by_cases hj : j = i <;> simp [hj, Function.comp_def]
  | edge j => rfl

theorem count?_recount (g : Multigraph V E) (i : Nat) (d e : Direction) (f : Nat → Nat) (j : Nat) :
    (g.recount i d f).count? e j =
      if j = i ∧ e = d then (g.count? e j).map f else g.count? e j := by
  simp only [count?, recount, Table.at?_updateAt]
  by_cases hj : j = i <;> by_cases he : e = d <;>
    simp [hj, he, Function.comp_def, PerDirection.get_modify]

theorem vertexRecordAt_ok {g : Multigraph V E} {i : Nat} {d : Direction} {k : Nat}
    (h : g.count? d i = some k) : ∃ r, g.vertexRecordAt i = .ok r ∧ r.degree.get d = k := by
  obtain ⟨r, hr, hk⟩ := Option.map_eq_some_iff.mp h
  exact ⟨r, by simp [vertexRecordAt, hr], hk⟩

theorem raiseDegree_ok {g : Multigraph V E} {i : Nat} {d : Direction} {k : Nat}
    (h : g.count? d i = some k) : raiseDegree i d g = .ok () (g.recount i d (· + 1)) := by
  obtain ⟨r, hr, -⟩ := vertexRecordAt_ok h
  exact Change.ask_bind_ok hr

theorem lowerDegree_ok {g : Multigraph V E} {i : Nat} {d : Direction} {k : Nat}
    (h : g.count? d i = some (k + 1)) :
    lowerDegree i d g = .ok () (g.recount i d (· - 1)) := by
  obtain ⟨r, hr, hk⟩ := vertexRecordAt_ok h
  refine (Change.ask_bind_ok (x := r) ?_).trans ?_
  · exact hr
  · rw [if_neg (by omega)]
    rfl

end Multigraph

end SlotGraph

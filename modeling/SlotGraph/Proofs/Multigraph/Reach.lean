import SlotGraph.Proofs.Multigraph.Admission
import SlotGraph.Proofs.Multigraph.Copying
set_option autoImplicit false

namespace SlotGraph.Multigraph

inductive Reached : {V E : Type} → Multigraph V E → Prop where
  | empty {V E : Type} : Reached (empty : Multigraph V E)
  | withRoom {V E : Type} [Footprint V] [Footprint E] {v e : Nat} {g : Multigraph V E} :
    withRoom v e = .ok g → Reached g
  | applyAll {V E : Type} {g : Multigraph V E} (edits : List (Edit V E)) :
    Reached g → Reached (Edit.applyAll g edits)
  | copy {V E V' E' σ : Type} {g : Multigraph V E} {f : σ → V → V' × σ} {k : σ → E → E' × σ}
    {s s' : σ} {g' : Multigraph V' E'} :
    Reached g → g.mapAccum f k s = .ok (g', s') → Reached g'

theorem withRoom_eq {V E : Type} [Footprint V] [Footprint E] {v e : Nat} {g : Multigraph V E}
    (h : withRoom v e = .ok g) : g = .empty := by
  unfold withRoom at h
  cases hv : (Table.withRoom v : Except Fault (Table (VertexRecord V))) with
  | error f =>
    rw [hv] at h
    cases h
  | ok vertices =>
    cases he : (Table.withRoom e : Except Fault (Table (EdgeRecord E))) with
    | error f =>
      rw [hv, he] at h
      cases h
    | ok edges =>
      rw [hv, he] at h
      cases h
      rw [(Table.withRoom_eq_ok_iff.mp hv).2, (Table.withRoom_eq_ok_iff.mp he).2]
      rfl

theorem Reached.represents {V E : Type} {g : Multigraph V E} (h : Reached g) :
    ∃ m, Represents g m := by
  induction h with
  | empty => exact ⟨{}, represents_empty⟩
  | withRoom hroom =>
    rw [withRoom_eq hroom]
    exact ⟨{}, represents_empty⟩
  | applyAll edits _ ih =>
    obtain ⟨m, hm⟩ := ih
    exact hm.applyAll edits
  | copy _ hcopy ih =>
    obtain ⟨m, hm⟩ := ih
    obtain ⟨copy, hrun, h'⟩ := hm.mapAccum_ok _ _ _
    rw [hcopy] at hrun
    cases hrun
    exact ⟨_, h'⟩

end SlotGraph.Multigraph

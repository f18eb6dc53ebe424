import SlotGraph.Proofs.Incidence.Circle
set_option autoImplicit false

namespace SlotGraph

namespace PerDirection

variable {α : Type} {d e : Direction}

theorem set_get_self (p : PerDirection α) (d : Direction) : p.set d (p.get d) = p := by
  cases d <;> rfl

theorem set_set (p : PerDirection α) (d : Direction) (x y : α) :
    (p.set d x).set d y = p.set d y := by cases d <;> rfl

theorem set_comm (p : PerDirection α) (h : d ≠ e) (x y : α) :
    (p.set d x).set e y = (p.set e y).set d x := by
  cases d with
  | outgoing =>
    cases e with
    | outgoing => exact absurd rfl h
    | incoming => rfl
  | incoming =>
    cases e with
    | outgoing => rfl
    | incoming => exact absurd rfl h

end PerDirection

/-- A store with one place for each link: to write what stands there changes nothing, the last
write to a place counts, and writes to two places may be made in either order. -/
class PlainLinkStore (σ : Type) [LinkStore σ] : Prop extends LawfulLinkStore σ where
  setLink_self {s : σ} {n : Node} {d : Direction} {l : Link} :
    LinkStore.link? s n d = some l → LinkStore.setLink s n d l = s
  setLink_setLink (s : σ) (n : Node) (d : Direction) (k l : Link) :
    LinkStore.setLink (LinkStore.setLink s n d k) n d l = LinkStore.setLink s n d l
  setLink_comm (s : σ) {n m : Node} {d e : Direction} (k l : Link) : (n, d) ≠ (m, e) →
    LinkStore.setLink (LinkStore.setLink s n d k) m e l =
      LinkStore.setLink (LinkStore.setLink s m e l) n d k

namespace LinkStore

variable {σ : Type} [LinkStore σ] [PlainLinkStore σ] {s t : σ} {n : Node} {d : Direction}

theorem Relinked.symm (h : Relinked s t) : Relinked t s := by
  induction h with
  | refl => exact .refl s
  | @set t n d l _ hsome ih =>
    obtain ⟨k, hk⟩ := Option.isSome_iff_exists.mp hsome
    have hset := LawfulLinkStore.link?_setLink l hsome n d
    rw [if_pos ⟨rfl, rfl⟩] at hset
    have hback : Relinked (setLink t n d l) (setLink (setLink t n d l) n d k) :=
      .set k (.refl _) (by rw [hset]; rfl)
    rw [PlainLinkStore.setLink_setLink, PlainLinkStore.setLink_self hk] at hback
    exact hback.trans ih

def restore (s t : σ) (p : Node × Direction) : σ :=
  match link? s p.1 p.2 with
  | some l => setLink t p.1 p.2 l
  | none => t

theorem restore_comm (s t : σ) (p q : Node × Direction) :
    restore s (restore s t p) q = restore s (restore s t q) p := by
  by_cases hpq : p = q
  · rw [hpq]
  unfold restore
  cases link? s p.1 p.2 with
  | none => rfl
  | some k =>
    cases link? s q.1 q.2 with
    | none => rfl
    | some l => exact PlainLinkStore.setLink_comm t k l hpq

theorem foldl_restore_comm (s : σ) (p : Node × Direction) (ps : List (Node × Direction)) (t : σ) :
    ps.foldl (restore s) (restore s t p) = restore s (ps.foldl (restore s) t) p := by
  induction ps generalizing t with
  | nil => rfl
  | cons q ps ih => rw [List.foldl_cons, List.foldl_cons, restore_comm, ih]

theorem Relinked.exists_restore (h : Relinked s t) :
    ∃ ps : List (Node × Direction), ps.foldl (restore s) t = s := by
  induction h with
  | refl => exact ⟨[], rfl⟩
  | @set t n d l hrelinked hsome ih =>
    obtain ⟨ps, hps⟩ := ih
    rw [hrelinked.isSome_link?] at hsome
    obtain ⟨k, hk⟩ := Option.isSome_iff_exists.mp hsome
    have hwrite : restore s (setLink t n d l) (n, d) = restore s t (n, d) := by
      simp only [restore, hk, PlainLinkStore.setLink_setLink]
    refine ⟨(n, d) :: ps, ?_⟩
    rw [List.foldl_cons, hwrite, foldl_restore_comm, hps]
    simp only [restore, hk, PlainLinkStore.setLink_self hk]

/-- A store is told from those relinked from it by its links. -/
theorem Relinked.eq_of_link? (h : Relinked s t) (hlink : ∀ n d, link? t n d = link? s n d) :
    t = s := by
  have hsame : ∀ ps : List (Node × Direction), ps.foldl (restore s) t = t := by
    intro ps
    induction ps with
    | nil => rfl
    | cons p ps ih =>
      have hp : restore s t p = t := by
        unfold restore
        split
        · case h_1 l hl => exact PlainLinkStore.setLink_self ((hlink p.1 p.2).trans hl)
        · rfl
      rw [List.foldl_cons, hp, ih]
  obtain ⟨ps, hps⟩ := h.exists_restore
  exact (hsame ps).symm.trans hps

theorem insertBefore_alone (h : link? s n d = some (Link.around n)) :
    insertBefore n n d s = .ok () s := by
  obtain ⟨t, hrun, hrelinked, hlink⟩ := insertBefore_self (circle_alone_iff.mpr h)
  rw [hrun, hrelinked.eq_of_link? hlink]

end LinkStore

end SlotGraph

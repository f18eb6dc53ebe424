import Mathlib.Data.List.Induction
import SlotGraph.TwoEnded
set_option autoImplicit false

/-!
Readers that give a list. A relation between readers and lists is exact if reading at either end
takes the item at that end of the list and leaves a reader of the rest.
-/

namespace SlotGraph.TwoEnded

variable {ι α β : Type} [TwoEnded ι α]

structure Exact (R : ι → List α → Prop) : Prop where
  remaining {it : ι} {xs : List α} : R it xs → remaining it = xs.length
  next_nil {it : ι} : R it [] → next? it = none
  next_cons {it : ι} {x : α} {xs : List α} :
    R it (x :: xs) → ∃ later, next? it = some (x, later) ∧ R later xs
  back_nil {it : ι} : R it [] → nextBack? it = none
  back_snoc {it : ι} {x : α} {xs : List α} :
    R it (xs ++ [x]) → ∃ later, nextBack? it = some (x, later) ∧ R later xs

/-- Whatever is read from either end, the reader gives the items of the list and no others. -/
def Gives (it : ι) (xs : List α) : Prop := ∃ R, Exact R ∧ R it xs

section

variable {R : ι → List α → Prop}

theorem Exact.takeFront_eq (h : Exact R) {it : ι} {xs : List α} (hit : R it xs) :
    takeFront xs.length it = xs := by
  induction xs generalizing it with
  | nil => rfl
  | cons x xs ih =>
    obtain ⟨later, hnext, hlater⟩ := h.next_cons hit
    simp only [List.length_cons, takeFront, hnext, ih hlater]

theorem Exact.toList_eq (h : Exact R) {it : ι} {xs : List α} (hit : R it xs) :
    toList it = xs := by
  rw [toList, h.remaining hit, h.takeFront_eq hit]

theorem Exact.takeBack_eq (h : Exact R) {it : ι} {xs : List α} (hit : R it xs) :
    takeBack xs.length it = xs.reverse := by
  induction xs using List.reverseRecOn generalizing it with
  | nil => rfl
  | append_singleton xs x ih =>
    obtain ⟨later, hnext, hlater⟩ := h.back_snoc hit
    simp only [List.length_append, List.length_singleton, takeBack, hnext, ih hlater,
      List.reverse_append, List.reverse_singleton, List.singleton_append]

theorem Exact.toListReversed_eq (h : Exact R) {it : ι} {xs : List α} (hit : R it xs) :
    toListReversed it = xs.reverse := by
  rw [toListReversed, h.remaining hit, h.takeBack_eq hit]

theorem Exact.mapped (h : Exact R) (f : α → β) :
    Exact fun (m : Mapped ι α β) ys => m.image = f ∧ ∃ xs, R m.source xs ∧ ys = xs.map f where
  remaining := by
    intro m ys hm
    obtain ⟨rfl, xs, hm, rfl⟩ := hm
    rw [List.length_map]
    exact h.remaining hm
  next_nil := by
    intro m hm
    obtain ⟨rfl, xs, hm, hnil⟩ := hm
    rw [List.map_eq_nil_iff.mp hnil.symm] at hm
    show m.step (next? m.source) = none
    rw [h.next_nil hm]
    rfl
  next_cons := by
    intro m y ys hm
    obtain ⟨rfl, xs, hm, hcons⟩ := hm
    obtain ⟨x, rest, rfl, rfl, rfl⟩ := List.map_eq_cons_iff.mp hcons.symm
    obtain ⟨later, hnext, hlater⟩ := h.next_cons hm
    refine ⟨{ m with source := later }, ?_, rfl, rest, hlater, rfl⟩
    show m.step (next? m.source) = _
    rw [hnext]
    rfl
  back_nil := by
    intro m hm
    obtain ⟨rfl, xs, hm, hnil⟩ := hm
    rw [List.map_eq_nil_iff.mp hnil.symm] at hm
    show m.step (nextBack? m.source) = none
    rw [h.back_nil hm]
    rfl
  back_snoc := by
    intro m y ys hm
    obtain ⟨rfl, xs, hm, hsnoc⟩ := hm
    obtain ⟨init, final, rfl, rfl, hfinal⟩ := List.map_eq_append_iff.mp hsnoc.symm
    obtain ⟨x, rfl, rfl⟩ := List.map_eq_singleton_iff.mp hfinal
    obtain ⟨later, hback, hlater⟩ := h.back_snoc hm
    refine ⟨{ m with source := later }, ?_, rfl, init, hlater, rfl⟩
    show m.step (nextBack? m.source) = _
    rw [hback]
    rfl

theorem Gives.toList_eq {it : ι} {xs : List α} (h : Gives it xs) : toList it = xs := by
  obtain ⟨R, hR, hit⟩ := h
  exact hR.toList_eq hit

theorem Gives.toListReversed_eq {it : ι} {xs : List α} (h : Gives it xs) :
    toListReversed it = xs.reverse := by
  obtain ⟨R, hR, hit⟩ := h
  exact hR.toListReversed_eq hit

theorem Gives.mapped {it : ι} {xs : List α} (h : Gives it xs) (f : α → β) :
    Gives (Mapped.mk it f) (xs.map f) := by
  obtain ⟨R, hR, hit⟩ := h
  exact ⟨_, hR.mapped f, rfl, xs, hit, rfl⟩

end

end SlotGraph.TwoEnded

import Mathlib.Logic.Function.Basic
import SlotGraph.Table.Entries
set_option autoImplicit false

/-!
A table seen through what its slots say: the record of a live slot, the step to the next live slot
and back, and what lies below a free one. Each write to the slots changes these views in one place.
-/

namespace SlotGraph

namespace Slot

variable {α : Type}

def record? (i : Nat) : Slot α → Option (SlotId × α)
  | .live g _ _ x => some (⟨i, g⟩, x)
  | .free _ _ => none

def after? : Slot α → Option (Option Nat)
  | .live _ _ next _ => some next
  | .free _ _ => none

def before? : Slot α → Option (Option Nat)
  | .live _ prev _ _ => some prev
  | .free _ _ => none

/-- The generation of a free slot and the slot below it. -/
def hole? : Slot α → Option (UInt32 × Option Nat)
  | .live _ _ _ _ => none
  | .free g below => some (g, below)

end Slot

namespace Table

variable {α : Type}

def record? (t : Table α) (i : Nat) : Option (SlotId × α) := t.slots[i]?.bind (Slot.record? i)

def hole? (t : Table α) (i : Nat) : Option (UInt32 × Option Nat) := t.slots[i]?.bind Slot.hole?

/-- The step forward from a live slot, or from outside to the first one. -/
def after? (t : Table α) : Option Nat → Option (Option Nat)
  | none => some t.head
  | some i => t.slots[i]?.bind Slot.after?

def before? (t : Table α) : Option Nat → Option (Option Nat)
  | none => some t.tail
  | some i => t.slots[i]?.bind Slot.before?

theorem at?_eq (t : Table α) (i : Nat) : t.at? i = (t.record? i).map Prod.snd := by
  rcases h : t.slots[i]? with _ | ⟨_ | _⟩ <;> simp [at?, record?, Slot.record?, h]

theorem find?_eq (t : Table α) (i : Nat) : t.find? i = (t.record? i).map Prod.fst := by
  rcases h : t.slots[i]? with _ | ⟨_ | _⟩ <;> simp [find?, record?, Slot.record?, h]

theorem get?_eq_some {t : Table α} {id : SlotId} {x : α} :
    t.get? id = some x ↔ t.record? id.index = some (id, x) := by
  obtain ⟨i, g⟩ := id
  rcases h : t.slots[i]? with _ | ⟨_ | _⟩ <;> simp [get?, record?, Slot.record?, h]

theorem index_of_record? {t : Table α} {i : Nat} {p : SlotId × α} (h : t.record? i = some p) :
    p.1.index = i := by
  rcases hs : t.slots[i]? with _ | ⟨_ | _⟩ <;> simp [record?, Slot.record?, hs] at h
  rw [← h]

theorem lt_size_of_record? {t : Table α} {i : Nat} {p : SlotId × α} (h : t.record? i = some p) :
    i < t.slots.size := by
  refine Nat.lt_of_not_le fun hi => ?_
  simp [record?, Array.getElem?_eq_none hi] at h

theorem record?_eq_none_of_hole? {t : Table α} {i : Nat} {q : UInt32 × Option Nat}
    (h : t.hole? i = some q) : t.record? i = none := by
  rcases hs : t.slots[i]? with _ | ⟨_ | _⟩ <;> simp [hole?, record?, Slot.hole?, hs] at h ⊢
  rfl

theorem slot_eq_live {t : Table α} {i : Nat} {p : SlotId × α} {prev next : Option Nat}
    (he : t.record? i = some p) (hn : t.after? (some i) = some next)
    (hp : t.before? (some i) = some prev) :
    t.slots[i]? = some (.live p.1.generation prev next p.2) := by
  rcases hs : t.slots[i]? with _ | ⟨_ | _⟩ <;>
    simp [record?, after?, before?, Slot.record?, Slot.after?, Slot.before?, hs] at he hn hp ⊢
  rw [← he, ← hn, ← hp]
  exact ⟨rfl, rfl, rfl, rfl⟩

theorem slot_eq_free {t : Table α} {i : Nat} {g : UInt32} {below : Option Nat}
    (h : t.hole? i = some (g, below)) : t.slots[i]? = some (.free g below) := by
  rcases hs : t.slots[i]? with _ | ⟨_ | _⟩ <;> simp [hole?, Slot.hole?, hs] at h ⊢
  exact h

/-- Slot `i` is now `s`, the ends of the live list and all other slots are as before. -/
structure Put (t t' : Table α) (i : Nat) (s : Slot α) : Prop where
  slots : ∀ j, t'.slots[j]? = if j = i then some s else t.slots[j]?
  head : t'.head = t.head
  tail : t'.tail = t.tail

section

variable {t t' : Table α} {i : Nat} {s : Slot α}

theorem Put.record? (h : Put t t' i s) :
    t'.record? = Function.update t.record? i (s.record? i) := by
  funext j
  by_cases hj : j = i <;> simp [Table.record?, h.slots, hj]

theorem Put.hole? (h : Put t t' i s) : t'.hole? = Function.update t.hole? i s.hole? := by
  funext j
  by_cases hj : j = i <;> simp [Table.hole?, h.slots, hj]

theorem Put.after? (h : Put t t' i s) :
    t'.after? = Function.update t.after? (some i) s.after? := by
  funext j
  cases j with
  | none => simp [Table.after?, h.head]
  | some j => by_cases hj : j = i <;> simp [Table.after?, h.slots, hj]

theorem Put.before? (h : Put t t' i s) :
    t'.before? = Function.update t.before? (some i) s.before? := by
  funext j
  cases j with
  | none => simp [Table.before?, h.tail]
  | some j => by_cases hj : j = i <;> simp [Table.before?, h.slots, hj]

end

theorem put_modify {t : Table α} {i : Nat} {s : Slot α} (hs : t.slots[i]? = some s)
    (f : Slot α → Slot α) : Put t { t with slots := t.slots.modify i f } i (f s) where
  slots j := by
    by_cases hj : j = i
    · simp [hj, hs, Array.getElem?_modify]
    · simp [hj, Array.getElem?_modify, Ne.symm hj]
  head := rfl
  tail := rfl

theorem exists_slot_of_after? {t : Table α} {i : Nat} (h : (t.after? (some i)).isSome) :
    ∃ g prev next x, t.slots[i]? = some (.live g prev next x) := by
  rcases hs : t.slots[i]? with _ | ⟨_ | _⟩ <;> simp [after?, Slot.after?, hs] at h ⊢

theorem exists_slot_of_before? {t : Table α} {i : Nat} (h : (t.before? (some i)).isSome) :
    ∃ g prev next x, t.slots[i]? = some (.live g prev next x) := by
  rcases hs : t.slots[i]? with _ | ⟨_ | _⟩ <;> simp [before?, Slot.before?, hs] at h ⊢

/-- Two tables that hold the same and differ at most in the steps between live slots. -/
structure SameHold (t t' : Table α) : Prop where
  record? : t'.record? = t.record?
  hole? : t'.hole? = t.hole?
  slots_size : t'.slots.size = t.slots.size
  freeHead : t'.freeHead = t.freeHead
  size : t'.size = t.size

theorem SameHold.trans {t t' t'' : Table α} (h : SameHold t t') (h' : SameHold t' t'') :
    SameHold t t'' :=
  ⟨h'.record?.trans h.record?, h'.hole?.trans h.hole?, h'.slots_size.trans h.slots_size,
    h'.freeHead.trans h.freeHead, h'.size.trans h.size⟩

theorem sameHold_modify {t : Table α} {i : Nat} {s : Slot α} (hs : t.slots[i]? = some s)
    {f : Slot α → Slot α} (hrecord : (f s).record? i = s.record? i)
    (hhole : (f s).hole? = s.hole?) : SameHold t { t with slots := t.slots.modify i f } where
  record? := by
    rw [(put_modify hs f).record?, Function.update_eq_self_iff, hrecord, Table.record?, hs]
    rfl
  hole? := by
    rw [(put_modify hs f).hole?, Function.update_eq_self_iff, hhole, Table.hole?, hs]
    rfl
  slots_size := Array.size_modify ..
  freeHead := rfl
  size := rfl

theorem setNext_ok {t : Table α} {i : Option Nat} (next : Option Nat)
    (h : (t.after? i).isSome) :
    ∃ t', setNext i next t = .ok () t' ∧ SameHold t t' ∧ t'.before? = t.before? ∧
      t'.after? = Function.update t.after? i (some next) := by
  cases i with
  | none =>
    refine ⟨{ t with head := next }, rfl, ⟨rfl, rfl, rfl, rfl, rfl⟩, ?_, ?_⟩
    · funext j
      cases j <;> rfl
    · funext j
      cases j <;> simp [after?]
  | some i =>
    obtain ⟨g, prev, old, x, hs⟩ := exists_slot_of_after? h
    have hi : i < t.slots.size := (Array.getElem?_eq_some_iff.mp hs).1
    have hput := put_modify hs (Slot.withNext next)
    have hbefore : Slot.before? (Slot.withNext next (.live g prev old x)) = t.before? (some i) := by
      rw [before?, hs]
      rfl
    refine ⟨{ t with slots := t.slots.modify i (Slot.withNext next) }, by simp [setNext, hi],
      sameHold_modify hs rfl rfl, ?_, hput.after?⟩
    rw [hput.before?, hbefore, Function.update_eq_self]

theorem setPrev_ok {t : Table α} {i : Option Nat} (prev : Option Nat)
    (h : (t.before? i).isSome) :
    ∃ t', setPrev i prev t = .ok () t' ∧ SameHold t t' ∧ t'.after? = t.after? ∧
      t'.before? = Function.update t.before? i (some prev) := by
  cases i with
  | none =>
    refine ⟨{ t with tail := prev }, rfl, ⟨rfl, rfl, rfl, rfl, rfl⟩, ?_, ?_⟩
    · funext j
      cases j <;> rfl
    · funext j
      cases j <;> simp [before?]
  | some i =>
    obtain ⟨g, old, next, x, hs⟩ := exists_slot_of_before? h
    have hi : i < t.slots.size := (Array.getElem?_eq_some_iff.mp hs).1
    have hput := put_modify hs (Slot.withPrev prev)
    have hafter : Slot.after? (Slot.withPrev prev (.live g old next x)) = t.after? (some i) := by
      rw [after?, hs]
      rfl
    refine ⟨{ t with slots := t.slots.modify i (Slot.withPrev prev) }, by simp [setPrev, hi],
      sameHold_modify hs rfl rfl, ?_, hput.before?⟩
    rw [hput.after?, hafter, Function.update_eq_self]

section

variable (t : Table α) (i : Nat) (f : α → α)

theorem record?_updateAt (j : Nat) :
    (t.updateAt i f).record? j =
      (t.record? j).map fun p => if p.1.index = i then (p.1, f p.2) else p := by
  by_cases hij : i = j <;> rcases hs : t.slots[j]? with _ | ⟨_ | _⟩ <;>
    simp [updateAt, record?, Slot.record?, Slot.update, Array.getElem?_modify, hij, hs]
  exact fun hji => absurd hji.symm hij

theorem hole?_updateAt : (t.updateAt i f).hole? = t.hole? := by
  funext j
  by_cases hij : i = j <;> rcases hs : t.slots[j]? with _ | ⟨_ | _⟩ <;>
    simp [updateAt, hole?, Slot.hole?, Slot.update, Array.getElem?_modify, hij, hs]

theorem after?_updateAt : (t.updateAt i f).after? = t.after? := by
  funext j
  cases j with
  | none => rfl
  | some j =>
    by_cases hij : i = j <;> rcases hs : t.slots[j]? with _ | ⟨_ | _⟩ <;>
      simp [updateAt, after?, Slot.after?, Slot.update, Array.getElem?_modify, hij, hs]

theorem before?_updateAt : (t.updateAt i f).before? = t.before? := by
  funext j
  cases j with
  | none => rfl
  | some j =>
    by_cases hij : i = j <;> rcases hs : t.slots[j]? with _ | ⟨_ | _⟩ <;>
      simp [updateAt, before?, Slot.before?, Slot.update, Array.getElem?_modify, hij, hs]

end

end Table

end SlotGraph

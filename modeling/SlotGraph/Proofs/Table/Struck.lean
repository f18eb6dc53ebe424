import SlotGraph.Proofs.Table.Canonical
set_option autoImplicit false

namespace SlotGraph

open scoped List

namespace Ledger

variable {α : Type} {keep keep' : SlotId × α → Bool} {a b c : Ledger α}

/-- The records that satisfy `keep` are left, and the slots of the others have been freed in some
order. -/
structure Struck (keep : SlotId × α → Bool) (a b : Ledger α) : Prop where
  live : b.live = a.live.filter keep
  free : b.free ~ (a.live.filter fun p => !keep p).map (fun p => p.1.succ) ++ a.free

theorem struck_refl (a : Ledger α) : Struck (fun _ => true) a a where
  live := by simp
  free := by simp

theorem Struck.congr (h : Struck keep a b) (hkeep : ∀ p ∈ a.live, keep' p = keep p) :
    Struck keep' a b where
  live := by rw [h.live, List.filter_congr hkeep]
  free := by
    rw [List.filter_congr fun p hp => congrArg (! ·) (hkeep p hp)]
    exact h.free

theorem Struck.trans (h : Struck keep a b) (h' : Struck keep' b c) :
    Struck (fun p => keep p && keep' p) a c where
  live := by simp [h'.live, h.live, List.filter_filter, Bool.and_comm]
  free := by
    -- of the records that go, those that `keep` leaves go in the second step
    have hsplit := List.filter_append_perm keep (a.live.filter fun p => !(keep p && keep' p))
    have hlater : (a.live.filter fun p => !(keep p && keep' p)).filter keep =
        (a.live.filter keep).filter fun p => !keep' p := by
      rw [List.filter_filter, List.filter_filter]
      exact List.filter_congr fun p _ => by cases keep p <;> cases keep' p <;> rfl
    have hfirst : ((a.live.filter fun p => !(keep p && keep' p)).filter fun p => !keep p) =
        a.live.filter fun p => !keep p := by
      rw [List.filter_filter]
      exact List.filter_congr fun p _ => by cases keep p <;> cases keep' p <;> rfl
    rw [hlater, hfirst, ← h.live] at hsplit
    calc c.free
      _ ~ (b.live.filter fun p => !keep' p).map (fun p => p.1.succ) ++ b.free := h'.free
      _ ~ (b.live.filter fun p => !keep' p).map (fun p => p.1.succ) ++
            ((a.live.filter fun p => !keep p).map (fun p => p.1.succ) ++ a.free) :=
          h.free.append_left _
      _ ~ (a.live.filter fun p => !(keep p && keep' p)).map (fun p => p.1.succ) ++ a.free := by
          rw [← List.append_assoc, ← List.map_append]
          exact (hsplit.map _).append_right _

theorem struck_drop (hd : a.liveIndices.Nodup) {id : SlotId} {x : α} (hx : (id, x) ∈ a.live) :
    Struck (fun p => p.1 != id) a (a.drop id) where
  live := rfl
  free := by
    obtain ⟨l, r, hlive⟩ := List.append_of_mem hx
    have hsplit := List.filter_append_perm (fun p => p.1 != id) a.live
    rw [show (a.live.filter fun p => p.1 != id) = l ++ r from live_drop hd hlive] at hsplit
    have hmiddle : a.live ~ (l ++ r) ++ [(id, x)] := by
      rw [hlive]
      exact List.perm_middle.trans (List.perm_append_singleton _ _).symm
    have hone : (a.live.filter fun p => !(p.1 != id)) ~ [(id, x)] :=
      (List.perm_append_left_iff _).mp (hsplit.trans hmiddle)
    exact ((hone.map fun p => p.1.succ).append_right a.free).symm

theorem Struck.perm (h : Struck keep a b) (h' : Struck keep a c) :
    c.live = b.live ∧ c.free ~ b.free :=
  ⟨h'.live.trans h.live.symm, h'.free.trans h.free.symm⟩

end Ledger

def Slot.offStack {α : Type} : Slot α → Slot α
  | .live g prev next x => .live g prev next x
  | .free g _ => .free g none

namespace Table

variable {α : Type} {t t' : Table α} {a a' : Ledger α}

def offStack (t : Table α) : Table α :=
  { t with slots := t.slots.map Slot.offStack, freeHead := none }

/-- The tables differ at most in the order in which their stacks hold the same free slots. -/
structure SameButStack (t t' : Table α) : Prop where
  offStack : t'.offStack = t.offStack
  free : ∃ ids ids', Stacked t.hole? t.freeHead ids ∧ Stacked t'.hole? t'.freeHead ids' ∧
    ids' ~ ids

theorem SameButStack.capacity_eq (h : SameButStack t t') : t'.capacity = t.capacity := by
  have hsize := congrArg (fun u : Table α => u.slots.size) h.offStack
  simpa [Table.offStack, capacity] using hsize

theorem Represents.offStack_slot (h : Represents t a) (h' : Represents t' a')
    (hlive : a'.live = a.live) (hfree : a'.free ~ a.free) (i : Nat) :
    t'.slots[i]?.map Slot.offStack = t.slots[i]?.map Slot.offStack := by
  by_cases hi : i ∈ a.indices
  · rcases List.mem_append.mp hi with hmem | hmem
    · rw [h.slot_eq_of_live h' hlive hmem]
    · obtain ⟨id, hid, rfl⟩ := List.mem_map.mp hmem
      obtain ⟨below, hhole⟩ := h.stacked.hole_of_mem hid
      obtain ⟨below', hhole'⟩ := h'.stacked.hole_of_mem (hfree.mem_iff.mpr hid)
      rw [slot_eq_free hhole, slot_eq_free hhole']
      rfl
  · have hindices : a'.indices ~ a.indices := by
      rw [Ledger.indices, Ledger.indices, Ledger.liveIndices, hlive]
      exact (hfree.map _).append_left _
    rw [h.slot_eq_none hi, h'.slot_eq_none fun hmem => hi (hindices.mem_iff.mp hmem)]

theorem Represents.sameButStack (h : Represents t a) (h' : Represents t' a')
    (hlive : a'.live = a.live) (hfree : a'.free ~ a.free) : SameButStack t t' where
  offStack := by
    have hslots : t'.slots.map Slot.offStack = t.slots.map Slot.offStack :=
      Array.ext_getElem? fun i => by
        rw [Array.getElem?_map, Array.getElem?_map, h.offStack_slot h' hlive hfree]
    have hhead : t'.head = t.head := by rw [h'.head_eq, h.head_eq, hlive]
    have htail : t'.tail = t.tail := by rw [h'.tail_eq, h.tail_eq, hlive]
    have hsize : t'.size = t.size := by rw [h'.size_eq, h.size_eq, hlive]
    rw [Table.offStack, Table.offStack, hslots, hhead, htail, hsize]
  free := ⟨a.free, a'.free, h.stacked, h'.stacked, hfree⟩

theorem Shows.sameButStack {β : Type} {f : α → β} {a a' : Ledger β} (h : Shows f t a)
    (h' : Shows f t' a') (hlive : a'.live = a.live) (hfree : a'.free ~ a.free)
    (hat : ∀ p ∈ a.live, t'.at? p.1.index = t.at? p.1.index) : SameButStack t t' := by
  obtain ⟨b, hb, rfl⟩ := h
  obtain ⟨b', hb', rfl⟩ := h'
  exact hb.sameButStack hb' (hb.live_eq hb' hlive hat) hfree

end Table

end SlotGraph

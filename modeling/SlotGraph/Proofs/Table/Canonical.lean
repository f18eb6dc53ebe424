import SlotGraph.Proofs.Table.Shows
set_option autoImplicit false

namespace SlotGraph.Table

variable {α β : Type}

theorem Stacked.hole_eq {hole hole' : Nat → Option (UInt32 × Option Nat)}
    {top top' : Option Nat} {ids : List SlotId} (h : Stacked hole top ids)
    (h' : Stacked hole' top' ids) {id : SlotId} (hid : id ∈ ids) :
    hole' id.index = hole id.index := by
  induction ids generalizing top top' with
  | nil => cases hid
  | cons first rest ih =>
    obtain ⟨-, below, hfirst, hrest⟩ := h
    obtain ⟨-, below', hfirst', hrest'⟩ := h'
    rcases List.mem_cons.mp hid with rfl | hmem
    · rw [hfirst, hfirst', hrest.top_eq, hrest'.top_eq]
    · exact ih hrest hrest' hmem

section

variable {t t' : Table α} {a a' : Ledger α}

theorem Represents.slot_eq_of_live (h : Represents t a) (h' : Represents t' a')
    (hlive : a'.live = a.live) {i : Nat} (hi : i ∈ a.liveIndices) :
    t'.slots[i]? = t.slots[i]? := by
  obtain ⟨⟨id, x⟩, hp, rfl⟩ := List.mem_map.mp hi
  obtain ⟨l, r, hsplit⟩ := List.append_of_mem hp
  rw [h.slot_eq hsplit, h'.slot_eq (hlive.trans hsplit)]

theorem Represents.slot_eq_none (h : Represents t a) {i : Nat} (hi : i ∉ a.indices) :
    t.slots[i]? = none :=
  Array.getElem?_eq_none (Nat.le_of_not_lt fun hlt => hi ((h.covered i).mpr hlt))

theorem Represents.slots_eq (h : Represents t a) (h' : Represents t' a) (i : Nat) :
    t'.slots[i]? = t.slots[i]? := by
  by_cases hi : i ∈ a.indices
  · rcases List.mem_append.mp hi with hlive | hfree
    · exact h.slot_eq_of_live h' rfl hlive
    · obtain ⟨id, hid, rfl⟩ := List.mem_map.mp hfree
      obtain ⟨below, hhole⟩ := h.stacked.hole_of_mem hid
      have hhole' := (h.stacked.hole_eq h'.stacked hid).trans hhole
      rw [slot_eq_free hhole, slot_eq_free hhole']
  · rw [h.slot_eq_none hi, h'.slot_eq_none hi]

theorem Represents.unique (h : Represents t a) (h' : Represents t' a) : t' = t := by
  have hslots : t'.slots = t.slots := Array.ext_getElem? (h.slots_eq h')
  have hfree : t'.freeHead = t.freeHead := h'.stacked.top_eq.trans h.stacked.top_eq.symm
  have hhead : t'.head = t.head := h'.head_eq.trans h.head_eq.symm
  have htail : t'.tail = t.tail := h'.tail_eq.trans h.tail_eq.symm
  have hsize : t'.size = t.size := h'.size_eq.trans h.size_eq.symm
  show Table.mk t'.slots t'.freeHead t'.head t'.tail t'.size = t
  rw [hslots, hfree, hhead, htail, hsize]

end

theorem Represents.live_at? {t : Table α} {b : Ledger α} (h : Represents t b) (f : α → β) :
    b.live.map (fun p => (p.1, some p.2)) =
      (b.map f).live.map fun q => (q.1, t.at? q.1.index) := by
  rw [Ledger.map, List.map_map]
  refine List.map_congr_left fun p hp => ?_
  simp [Table.at?_eq, h.entries p hp]

/-- What two tables hold is the same if it shows the same and the records are the same as a whole. -/
theorem Represents.live_eq {f : α → β} {t t' : Table α} {b b' : Ledger α} (h : Represents t b)
    (h' : Represents t' b') (hmap : (b'.map f).live = (b.map f).live)
    (hat : ∀ q ∈ (b.map f).live, t'.at? q.1.index = t.at? q.1.index) : b'.live = b.live := by
  have himages := h'.live_at? f
  rw [hmap] at himages
  have hsame : b'.live.map (fun p => (p.1, some p.2)) = b.live.map fun p => (p.1, some p.2) := by
    rw [himages, h.live_at? f]
    exact List.map_congr_left fun q hq => by rw [hat q hq]
  have hinj : Function.Injective fun p : SlotId × α => (p.1, some p.2) := by
    intro p q heq
    obtain ⟨hid, hx⟩ := Prod.mk.inj heq
    exact Prod.ext hid (Option.some.inj hx)
  exact List.map_injective_iff.mpr hinj hsame

theorem Shows.unique {f : α → β} {t t' : Table α} {a : Ledger β} (h : Shows f t a)
    (h' : Shows f t' a) (hat : ∀ p ∈ a.live, t'.at? p.1.index = t.at? p.1.index) : t' = t := by
  obtain ⟨b, hb, rfl⟩ := h
  obtain ⟨b', hb', hmap⟩ := h'
  have hfree : b'.free = b.free := congrArg (fun c : Ledger β => c.free) hmap
  have hlive : b'.live = b.live := hb.live_eq hb' (congrArg Ledger.live hmap) hat
  have heq : b' = b := by
    show Ledger.mk b'.live b'.free = b
    rw [hlive, hfree]
  subst heq
  exact hb.unique hb'

end SlotGraph.Table

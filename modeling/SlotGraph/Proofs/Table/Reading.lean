import SlotGraph.Proofs.Table.Refinement
import SlotGraph.Proofs.TwoEnded
set_option autoImplicit false

namespace SlotGraph

namespace Table

variable {α : Type}

/-- What a table answers, in terms of a ledger. -/
structure Agrees (t : Table α) (a : Ledger α) : Prop where
  indices : a.indices.Perm (List.range t.capacity)
  size : t.size = a.live.length
  isEmpty : t.isEmpty = a.live.isEmpty
  nextIndex : t.nextIndex = a.fresh.index
  contains : ∀ id, t.contains id = (a.get? id).isSome
  get? : ∀ id, t.get? id = a.get? id
  at? : ∀ i, t.at? i = (a.record? i).map Prod.snd
  find? : ∀ i, t.find? i = (a.record? i).map Prod.fst
  first : t.head = a.liveIndices.head?
  last : t.tail = a.liveIndices.getLast?
  next? : ∀ l p r, a.live = l ++ p :: r →
    t.next? p.1.index = r.head?.map fun q => q.1.index
  prev? : ∀ l p r, a.live = l ++ p :: r →
    t.prev? p.1.index = l.getLast?.map fun q => q.1.index
  dead : ∀ i, i ∉ a.liveIndices → t.next? i = none ∧ t.prev? i = none
  toList : t.toList = a.live
  toListReversed : TwoEnded.toListReversed t.entries = a.live.reverse

/-- A reader of a table stands between what it gave in front and what it gave at the back. -/
def Spans (it : Entries α) (xs : List (SlotId × α)) : Prop :=
  ∃ a l r, Represents it.table a ∧ a.live = l ++ (xs ++ r) ∧
    it.front = (places (xs ++ r)).headD none ∧ it.back = (places (l ++ xs)).getLastD none ∧
    it.remaining = xs.length

theorem Represents.spans {t : Table α} {a : Ledger α} (h : Represents t a) :
    Spans t.entries a.live := by
  refine ⟨a, [], [], h, by simp, ?_, ?_, h.size_eq⟩
  · rw [List.append_nil]
    exact h.head_eq
  · exact h.tail_eq

theorem exact_spans : TwoEnded.Exact (Spans (α := α)) where
  remaining := fun ⟨_, _, _, _, _, _, _, hn⟩ => hn
  next_nil := by
    intro it hit
    obtain ⟨t, front, back, n⟩ := it
    obtain ⟨a, l, r, h, hlive, hf, hb, hn⟩ := hit
    obtain rfl : n = 0 := hn
    rfl
  next_cons := by
    intro it q xs hit
    obtain ⟨t, front, back, n⟩ := it
    obtain ⟨id, x⟩ := q
    obtain ⟨a, l, r, h, hlive, hf, hb, hn⟩ := hit
    obtain rfl : n = xs.length + 1 := hn
    obtain rfl : front = some id.index := hf
    have hslot := h.slot_eq (l := l) (r := xs ++ r) hlive
    refine ⟨⟨t, (places (xs ++ r)).headD none, back, xs.length⟩, ?_,
      a, l ++ [(id, x)], r, h, by simpa using hlive, rfl, by simpa using hb, rfl⟩
    show Entries.next? _ = _
    simp only [Entries.next?]
    rw [hslot]
  back_nil := by
    intro it hit
    obtain ⟨t, front, back, n⟩ := it
    obtain ⟨a, l, r, h, hlive, hf, hb, hn⟩ := hit
    obtain rfl : n = 0 := hn
    rfl
  back_snoc := by
    intro it q xs hit
    obtain ⟨t, front, back, n⟩ := it
    obtain ⟨id, x⟩ := q
    obtain ⟨a, l, r, h, hlive, hf, hb, hn⟩ := hit
    obtain rfl : n = xs.length + 1 := by simpa using hn
    obtain rfl : back = some id.index := by simpa [places] using hb
    have hlive' : a.live = (l ++ xs) ++ (id, x) :: r := by simpa using hlive
    have hslot := h.slot_eq hlive'
    refine ⟨⟨t, front, (places (l ++ xs)).getLastD none, xs.length⟩, ?_,
      a, l, (id, x) :: r, h, by simpa using hlive, by simpa using hf, rfl, rfl⟩
    show Entries.nextBack? _ = _
    simp only [Entries.nextBack?]
    rw [hslot]

theorem toList_eq {t : Table α} {a : Ledger α} (h : Represents t a) : t.toList = a.live :=
  exact_spans.toList_eq h.spans

theorem headD_places (l : List (SlotId × α)) :
    (places l).headD none = l.head?.map fun p => p.1.index := by
  cases l <;> rfl

theorem getLastD_places (l : List (SlotId × α)) :
    (places l).getLastD none = l.getLast?.map fun p => p.1.index := by
  cases l using List.reverseRecOn <;> simp [places]

theorem next?_of_dead {t : Table α} {a : Ledger α} (h : Represents t a) {i : Nat}
    (hi : i ∉ a.liveIndices) : t.next? i = none ∧ t.prev? i = none := by
  have hrec : t.record? i = none := by rw [h.record?_eq, Ledger.record?_eq_none.mpr hi]
  rcases hs : t.slots[i]? with _ | ⟨_ | _⟩ <;>
    simp [record?, Slot.record?, Table.next?, Table.prev?, hs] at hrec ⊢

theorem nextIndex_eq {t : Table α} {a : Ledger α} (h : Represents t a) :
    t.nextIndex = a.fresh.index := by
  unfold nextIndex
  rw [h.stacked.top_eq, h.slots_size]
  cases hfree : a.free <;> simp [Ledger.fresh, hfree]

theorem Represents.agrees {t : Table α} {a : Ledger α} (h : Represents t a) : Agrees t a where
  indices := (List.perm_ext_iff_of_nodup h.nodup List.nodup_range).mpr fun i => by
    rw [h.covered, List.mem_range]
    rfl
  size := h.size_eq
  isEmpty := by
    rw [isEmpty, h.size_eq]
    cases a.live <;> rfl
  nextIndex := nextIndex_eq h
  contains id := by rw [Table.contains, h.get?_eq]
  get? := h.get?_eq
  at? := h.at?_eq
  find? := h.find?_eq
  first := by
    rw [h.head_eq, headD_places, Ledger.liveIndices, List.head?_map]
  last := by
    rw [h.tail_eq, getLastD_places, Ledger.liveIndices, List.getLast?_map]
  next? := by
    intro l q r hlive
    obtain ⟨id, x⟩ := q
    simp only [Table.next?, h.slot_eq hlive, headD_places]
  prev? := by
    intro l q r hlive
    obtain ⟨id, x⟩ := q
    simp only [Table.prev?, h.slot_eq hlive, getLastD_places]
  dead i hi := next?_of_dead h hi
  toList := toList_eq h
  toListReversed := exact_spans.toListReversed_eq h.spans

end Table

end SlotGraph

import SlotGraph.Proofs.Peak
import SlotGraph.Proofs.Table.Aging
set_option autoImplicit false

namespace SlotGraph

namespace Ledger

variable {α β : Type} {a b : Ledger α}

def slotCount (a : Ledger α) : Nat := a.live.length + a.free.length

/-- No slot is given up, and there is a new one at most for a record that found none free. -/
def Fits (a b : Ledger α) : Prop := b.slotCount = max a.slotCount b.live.length

theorem live_le_slotCount (a : Ledger α) : a.live.length ≤ a.slotCount := Nat.le_add_right ..

theorem Fits.of_eq (h : b.slotCount = a.slotCount) : Fits a b := by
  rw [Fits, ← h]
  exact (Nat.max_eq_left b.live_le_slotCount).symm

theorem slotCount_insert_full (h : a.free = []) (x : α) :
    (a.insert x).slotCount = a.slotCount + 1 := by
  simp [slotCount, insert, h]

theorem slotCount_insert_free (h : a.free ≠ []) (x : α) :
    (a.insert x).slotCount = a.slotCount := by
  have hpos := List.length_pos_iff.mpr h
  simp only [slotCount, insert, List.length_append, List.length_singleton, List.length_tail]
  omega

theorem fits_insert (a : Ledger α) (x : α) : Fits a (a.insert x) := by
  by_cases h : a.free = []
  · have hcount := slotCount_insert_full h x
    rw [Fits, hcount]
    simp [slotCount, insert, h]
  · exact .of_eq (slotCount_insert_free h x)

theorem slotCount_drop (hd : a.liveIndices.Nodup) {id : SlotId} {x : α}
    (h : (id, x) ∈ a.live) : (a.drop id).slotCount = a.slotCount := by
  obtain ⟨l, r, hlive⟩ := List.append_of_mem h
  rw [slotCount, live_drop hd hlive, slotCount, hlive]
  simp only [drop, List.length_append, List.length_cons]
  omega

theorem slotCount_update (a : Ledger α) (id : SlotId) (f : α → α) :
    (a.update id f).slotCount = a.slotCount := by simp [slotCount, update]

theorem slotCount_updateAt (a : Ledger α) (i : Nat) (f : α → α) :
    (a.updateAt i f).slotCount = a.slotCount := by simp [slotCount, updateAt]

/-- Only clearing gives slots up. -/
theorem fits_apply (hd : a.liveIndices.Nodup) {edit : Table.Edit α} (hedit : edit ≠ .clear) :
    Fits a (a.apply edit).2 := by
  cases edit with
  | insert x => exact a.fits_insert x
  | remove id =>
    cases hx : a.get? id with
    | none => exact .of_eq (by simp [apply, remove, hx])
    | some x =>
      refine .of_eq ?_
      simp only [apply, remove, hx]
      exact slotCount_drop hd ((get?_eq_some hd).mp hx)
  | removeAt i =>
    cases hp : a.record? i with
    | none => exact .of_eq (by simp [apply, removeAt, hp])
    | some p =>
      refine .of_eq ?_
      simp only [apply, removeAt, hp]
      exact slotCount_drop hd ((record?_eq_some hd).mp hp).1
  | update id f => exact .of_eq (a.slotCount_update id f)
  | updateAt i f => exact .of_eq (a.slotCount_updateAt i f)
  | clear => exact absurd rfl hedit

end Ledger

namespace Table

variable {α β : Type} {f : α → β} {t t' : Table α} {a : Ledger β}

def Full (t : Table α) : Prop := ∀ i < t.capacity, (t.find? i).isSome

/-- There is one slot more if none was free, and no other slot if one was. -/
structure GrowsIfFull (t t' : Table α) : Prop where
  full : t.Full → t'.capacity = t.capacity + 1
  free : ¬ t.Full → t'.capacity = t.capacity

theorem Represents.shows {a : Ledger α} (h : Represents t a) : Shows id t a :=
  ⟨a, h, by simp [Ledger.map]⟩

theorem Shows.covered (h : Shows f t a) (i : Nat) : i ∈ a.indices ↔ i < t.capacity := by
  obtain ⟨b, hb, rfl⟩ := h
  rw [Ledger.indices_map]
  exact hb.covered i

theorem Shows.capacity_eq (h : Shows f t a) : t.capacity = a.slotCount := by
  obtain ⟨b, hb, rfl⟩ := h
  simp [capacity, hb.slots_size, Ledger.slotCount, Ledger.map]

theorem Shows.full_iff (h : Shows f t a) : t.Full ↔ a.free = [] := by
  simp only [Full, h.isSome_find?]
  constructor
  · intro hfull
    refine List.eq_nil_iff_forall_not_mem.mpr fun id hid => h.not_mem_liveIndices hid ?_
    exact hfull _ ((h.covered _).mp (List.mem_append_right _ (List.mem_map_of_mem hid)))
  · intro hfree i hi
    have hmem := (h.covered i).mpr hi
    rwa [Ledger.indices, hfree, List.map_nil, List.append_nil] at hmem

theorem Shows.growsIfFull (h : Shows f t a) {x : β} (h' : Shows f t' (a.insert x)) :
    GrowsIfFull t t' where
  full hfull := by
    rw [h.capacity_eq, h'.capacity_eq, Ledger.slotCount_insert_full (h.full_iff.mp hfull)]
  free hfull := by
    rw [h.capacity_eq, h'.capacity_eq,
      Ledger.slotCount_insert_free fun hfree => hfull (h.full_iff.mpr hfree)]

theorem Shows.capacity_fits {b : Ledger β} (h : Shows f t a) (h' : Shows f t' b)
    (hfits : a.Fits b) : t'.capacity = max t.capacity t'.size := by
  rw [h.capacity_eq, h'.capacity_eq, h'.size_eq]
  exact hfits

def step (t : Table α) (edit : Edit α) : Table α :=
  match edit.apply t with
  | .ok _ t | .error _ t => t

def applyAll (t : Table α) (edits : List (Edit α)) : Table α := edits.foldl step t

theorem applyAll_concat (t : Table α) (edits : List (Edit α)) (edit : Edit α) :
    t.applyAll (edits ++ [edit]) = (t.applyAll edits).step edit := List.foldl_concat ..

section

variable {a : Ledger α}

theorem step_ok {edit : Edit α} {answer : Answer α} (h : edit.apply t = .ok answer t') :
    t.step edit = t' := by rw [step, h]

theorem Represents.step (h : Represents t a) (edit : Edit α) :
    Represents (t.step edit) (a.apply edit).2 := by
  obtain ⟨t', hrun, h'⟩ := apply_ok h edit
  rwa [step_ok hrun]

theorem Represents.applyAll (h : Represents t a) (edits : List (Edit α)) :
    ∃ b, Represents (t.applyAll edits) b := by
  induction edits using List.reverseRecOn with
  | nil => exact ⟨a, h⟩
  | append_singleton edits edit ih =>
    obtain ⟨b, hb⟩ := ih
    rw [applyAll_concat]
    exact ⟨_, hb.step edit⟩

theorem Represents.mapM_apply (h : Represents t a) (edits : List (Edit α)) :
    ∃ answers, edits.mapM Edit.apply t = .ok answers (t.applyAll edits) := by
  induction edits generalizing t a with
  | nil => exact ⟨[], by simp [Table.applyAll]⟩
  | cons edit edits ih =>
    obtain ⟨t₁, hrun, h₁⟩ := apply_ok h edit
    obtain ⟨answers, hrest⟩ := ih h₁
    have htail : t.applyAll (edit :: edits) = t₁.applyAll edits := by
      rw [Table.applyAll, List.foldl_cons, step_ok hrun]
      rfl
    refine ⟨(a.apply edit).1 :: answers, ?_⟩
    rw [htail, List.mapM_cons, Change.bind_ok hrun, Change.bind_ok hrest]
    rfl

theorem Represents.capacity_step (h : Represents t a) {edit : Edit α} (hedit : edit ≠ .clear) :
    (t.step edit).capacity = max t.capacity (t.step edit).size :=
  h.shows.capacity_fits (h.step edit).shows (Ledger.fits_apply h.nodup_live hedit)

end

/-- After the edits, the table has as many slots as it had records at most since the last
`clear`, and an insertion adds one exactly if no slot is free. -/
structure AtPeak (start : Table α) (edits : List (Edit α)) : Prop where
  completes : ∃ answers, edits.mapM Edit.apply start = .ok answers (start.applyAll edits)
  peak : IsGreatest (size '' Since start.applyAll .clear edits) (start.applyAll edits).capacity
  grows (x : α) : ∃ id t', insert x (start.applyAll edits) = .ok id t' ∧
    GrowsIfFull (start.applyAll edits) t'
  keeps {edit : Edit α} : edit ≠ .clear →
    (start.applyAll edits).capacity ≤ ((start.applyAll edits).step edit).capacity

theorem atPeak_empty (edits : List (Edit α)) : AtPeak empty edits := by
  obtain ⟨a, h⟩ := represents_empty.applyAll edits
  constructor
  case completes => exact represents_empty.mapM_apply edits
  case peak =>
    refine isGreatest_since size capacity rfl (fun edits => ?_) (fun edits edit hedit => ?_) edits
    · rw [applyAll_concat]
      rfl
    · obtain ⟨a, h⟩ := represents_empty.applyAll edits
      rw [applyAll_concat]
      exact h.capacity_step hedit
  case grows =>
    intro x
    obtain ⟨t', hrun, h'⟩ := insert_ok h x
    exact ⟨_, t', hrun, h.shows.growsIfFull h'.shows⟩
  case keeps =>
    intro edit hedit
    rw [h.capacity_step hedit]
    exact Nat.le_max_left ..

end Table

end SlotGraph

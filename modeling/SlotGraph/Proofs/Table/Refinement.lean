import SlotGraph.Proofs.Execution
import SlotGraph.Proofs.Ring
import SlotGraph.Proofs.Table.Ledger
import SlotGraph.Proofs.Table.View
set_option autoImplicit false

/-!
Tables represent ledgers. The live slots of a table hold the records of the ledger and are threaded
in its order, the free slots are stacked in its order, and no slot is both or neither. Insertion and
removal keep this and answer as the ledger does.
-/

namespace SlotGraph.Table

variable {α : Type}

/-- Free slots lie one below the other, from `top` down. -/
def Stacked (hole : Nat → Option (UInt32 × Option Nat)) : Option Nat → List SlotId → Prop
  | top, [] => top = none
  | top, id :: rest =>
    top = some id.index ∧ ∃ below, hole id.index = some (id.generation, below) ∧
      Stacked hole below rest

theorem Stacked.congr {hole hole' : Nat → Option (UInt32 × Option Nat)} {top : Option Nat}
    {ids : List SlotId} (h : Stacked hole top ids)
    (heq : ∀ id ∈ ids, hole' id.index = hole id.index) : Stacked hole' top ids := by
  induction ids generalizing top with
  | nil => exact h
  | cons id rest ih =>
    obtain ⟨htop, below, hid, hrest⟩ := h
    refine ⟨htop, below, ?_, ih hrest fun id hmem => heq id (List.mem_cons_of_mem _ hmem)⟩
    rw [heq id (by simp), hid]

theorem Stacked.hole_of_mem {hole : Nat → Option (UInt32 × Option Nat)} {top : Option Nat}
    {ids : List SlotId} (h : Stacked hole top ids) {id : SlotId} (hid : id ∈ ids) :
    ∃ below, hole id.index = some (id.generation, below) := by
  induction ids generalizing top with
  | nil => cases hid
  | cons first rest ih =>
    obtain ⟨_, below, hfirst, hrest⟩ := h
    rcases List.mem_cons.mp hid with rfl | hmem
    · exact ⟨below, hfirst⟩
    · exact ih hrest hmem

theorem Stacked.top_eq {hole : Nat → Option (UInt32 × Option Nat)} {top : Option Nat}
    {ids : List SlotId} (h : Stacked hole top ids) : top = ids.head?.map SlotId.index := by
  cases ids with
  | nil => exact h
  | cons id rest => exact h.1

/-- The live slots of a list of records as members of the ring through the outside. -/
def places (records : List (SlotId × α)) : List (Option Nat) := records.map fun p => some p.1.index

theorem places_append (l r : List (SlotId × α)) : places (l ++ r) = places l ++ places r := by
  simp [places]

theorem places_middle (l r : List (SlotId × α)) (id : SlotId) (x : α) :
    places (l ++ (id, x) :: r) = places l ++ some id.index :: places r := by simp [places]

theorem places_live (a : Ledger α) : places a.live = a.liveIndices.map some := by
  simp [places, Ledger.liveIndices]

structure Represents (t : Table α) (a : Ledger α) : Prop where
  entries : ∀ p ∈ a.live, t.record? p.1.index = some p
  threaded : Ring t.after? t.before? none (places a.live)
  stacked : Stacked t.hole? t.freeHead a.free
  nodup : a.indices.Nodup
  covered : ∀ i, i ∈ a.indices ↔ i < t.slots.size
  size_eq : t.size = a.live.length

theorem represents_empty : Represents (empty : Table α) {} where
  entries p hp := by cases hp
  threaded := path_nil.mpr ⟨rfl, rfl⟩
  stacked := rfl
  nodup := List.nodup_nil
  covered i := by simp [Ledger.indices, Ledger.liveIndices, empty]
  size_eq := rfl

namespace Represents

variable {t : Table α} {a : Ledger α}

theorem nodup_live (h : Represents t a) : a.liveIndices.Nodup :=
  (List.nodup_append.mp h.nodup).1

theorem not_mem_free (h : Represents t a) {i : Nat} (hi : i ∈ a.liveIndices) :
    i ∉ a.free.map SlotId.index := fun hfree =>
  (List.nodup_append.mp h.nodup).2.2 i hi i hfree rfl

theorem slots_size (h : Represents t a) : t.slots.size = a.live.length + a.free.length := by
  have hperm : a.indices.Perm (List.range t.slots.size) :=
    (List.perm_ext_iff_of_nodup h.nodup List.nodup_range).mpr fun i => by
      rw [h.covered, List.mem_range]
  have hlen := hperm.length_eq
  simp only [Ledger.indices, Ledger.liveIndices, List.length_append, List.length_map,
    List.length_range] at hlen
  exact hlen.symm

theorem record?_eq (h : Represents t a) (i : Nat) : t.record? i = a.record? i := by
  cases ha : a.record? i with
  | some p =>
    obtain ⟨hp, rfl⟩ := (Ledger.record?_eq_some h.nodup_live).mp ha
    exact h.entries p hp
  | none =>
    have hlive := Ledger.record?_eq_none.mp ha
    cases ht : t.record? i with
    | none => rfl
    | some p =>
      have hi : i ∈ a.indices := (h.covered i).mpr (lt_size_of_record? ht)
      rcases List.mem_append.mp hi with hmem | hmem
      · exact absurd hmem hlive
      · obtain ⟨id, hid, rfl⟩ := List.mem_map.mp hmem
        obtain ⟨below, hhole⟩ := h.stacked.hole_of_mem hid
        rw [record?_eq_none_of_hole? hhole] at ht
        cases ht

theorem record?_eq_some (h : Represents t a) {i : Nat} {p : SlotId × α} :
    t.record? i = some p ↔ p ∈ a.live ∧ p.1.index = i := by
  rw [h.record?_eq, Ledger.record?_eq_some h.nodup_live]

theorem nodup_places (h : Represents t a) : (none :: places a.live).Nodup := by
  refine List.nodup_cons.mpr ⟨by simp [places], ?_⟩
  rw [places_live]
  exact List.Nodup.map (fun _ _ => Option.some.inj) h.nodup_live

theorem isSome_after? (h : Represents t a) {i : Option Nat} (hi : i ∈ none :: places a.live) :
    (t.after? i).isSome := by
  rcases List.mem_cons.mp hi with rfl | hmem
  · rfl
  · obtain ⟨l, r, hlr⟩ := List.append_of_mem hmem
    have hring := h.threaded
    rw [hlr] at hring
    rw [hring.next_member]
    rfl

theorem isSome_before? (h : Represents t a) {i : Option Nat} (hi : i ∈ none :: places a.live) :
    (t.before? i).isSome := by
  rcases List.mem_cons.mp hi with rfl | hmem
  · rfl
  · obtain ⟨l, r, hlr⟩ := List.append_of_mem hmem
    have hring := h.threaded
    rw [hlr] at hring
    rw [hring.prev_member]
    rfl

theorem tail_eq (h : Represents t a) : t.tail = (places a.live).getLastD none :=
  Option.some.inj h.threaded.prev_eq

theorem head_eq (h : Represents t a) : t.head = (places a.live).headD none :=
  Option.some.inj h.threaded.next_eq

end Represents

theorem fresh_not_mem {t : Table α} {a : Ledger α} (h : Represents t a) :
    a.fresh.index ∉ a.liveIndices := by
  cases hfree : a.free with
  | nil =>
    intro hmem
    have hlt := (h.covered a.fresh.index).mp (List.mem_append_left _ hmem)
    simp only [Ledger.fresh, hfree, h.slots_size, List.headD_nil] at hlt
    omega
  | cons id rest =>
    intro hmem
    refine h.not_mem_free hmem ?_
    simp [Ledger.fresh, hfree]

theorem indices_insert (a : Ledger α) (x : α) :
    (a.insert x).indices =
      a.liveIndices ++ a.fresh.index :: a.free.tail.map SlotId.index := by
  simp [Ledger.insert, Ledger.indices, Ledger.liveIndices]

theorem occupy_ok {t : Table α} {a : Ledger α} (h : Represents t a) (x : α) :
    ∃ t', occupy x t = .ok a.fresh t' ∧
      Put t t' a.fresh.index (.live a.fresh.generation t.tail none x) ∧
      Stacked t.hole? t'.freeHead a.free.tail ∧ t'.size = t.size ∧
      ((a.insert x).indices.Nodup ∧ ∀ i, i ∈ (a.insert x).indices ↔ i < t'.slots.size) := by
  have hstack := h.stacked
  rw [indices_insert]
  cases hfree : a.free with
  | nil =>
    have hnew : a.fresh = ⟨t.slots.size, 0⟩ := by
      simp [Ledger.fresh, hfree, h.slots_size]
    have hind : a.indices = a.liveIndices := by simp [Ledger.indices, hfree]
    rw [hfree] at hstack
    refine ⟨{ t with slots := t.slots.push (.live 0 t.tail none x) }, ?_, ⟨?_, rfl, rfl⟩,
      hstack, rfl, ?_, ?_⟩
    · rw [hnew]
      unfold occupy
      rw [hstack]
    · intro j
      simp [hnew, Array.getElem?_push]
    · have hnot := fresh_not_mem h
      exact List.nodup_append_comm.mp (List.nodup_cons.mpr ⟨by simpa using hnot, h.nodup_live⟩)
    · intro i
      have hcov := h.covered i
      rw [hind] at hcov
      simp only [hnew, List.tail_nil, List.map_nil, List.mem_append, List.mem_singleton, hcov,
        Array.size_push]
      omega
  | cons id rest =>
    rw [hfree] at hstack
    obtain ⟨htop, below, hhole, hrest⟩ := hstack
    have hnew : a.fresh = id := by simp [Ledger.fresh, hfree]
    have hind : a.indices = a.liveIndices ++ id.index :: rest.map SlotId.index := by
      simp [Ledger.indices, hfree]
    have hslot := slot_eq_free hhole
    have hlt : id.index < t.slots.size := (Array.getElem?_eq_some_iff.mp hslot).1
    refine ⟨{ t with
        slots := t.slots.setIfInBounds id.index (.live id.generation t.tail none x)
        freeHead := below }, ?_, ⟨?_, rfl, rfl⟩, hrest, rfl, ?_, ?_⟩
    · unfold occupy
      rw [htop]
      dsimp only
      rw [hslot, hnew]
    · intro j
      by_cases hj : j = id.index
      · simp [hnew, hj, hlt]
      · simp [hnew, hj, Ne.symm hj]
    · rw [hnew, List.tail_cons, ← hind]
      exact h.nodup
    · intro i
      rw [hnew, List.tail_cons, ← hind, h.covered, Array.size_setIfInBounds]

theorem before?_withTail (t : Table α) (i : Option Nat) (n : Nat) :
    { t with tail := i, size := n }.before? = Function.update t.before? none (some i) := by
  funext j
  cases j with
  | none => simp [before?]
  | some j => simp [before?]

theorem insert_ok {t : Table α} {a : Ledger α} (h : Represents t a) (x : α) :
    ∃ t', insert x t = .ok a.fresh t' ∧ Represents t' (a.insert x) := by
  obtain ⟨t₁, hocc, hput, hstack, hsize, hnodup, hcov⟩ := occupy_ok h x
  have hfresh := fresh_not_mem h
  have hnew : some a.fresh.index ∉ none :: places a.live := by
    simpa [places, Ledger.liveIndices] using hfresh
  have hlast : t.tail ∈ none :: places a.live := by
    rw [h.tail_eq]
    exact List.getLastD_mem_cons ..
  have hne : t.tail ≠ some a.fresh.index := fun heq => hnew (heq ▸ hlast)
  have hsome : (t₁.after? t.tail).isSome := by
    rw [hput.after?, Function.update_of_ne hne]
    exact h.isSome_after? hlast
  obtain ⟨t₂, hset, hhold, hbefore, hafter⟩ := setNext_ok (some a.fresh.index) hsome
  refine ⟨{ t₂ with tail := some a.fresh.index, size := t₂.size + 1 }, ?_, ?_⟩
  · unfold insert
    rw [Change.get_bind, Change.bind_ok hocc, Change.bind_ok hset, Change.modify_bind,
      Change.pure_run]
  · constructor
    case entries =>
      intro p hp
      show t₂.record? p.1.index = some p
      rw [hhold.record?, hput.record?]
      rcases List.mem_append.mp hp with hold | hnew
      · have hpi : p.1.index ≠ a.fresh.index := fun heq =>
          hfresh (heq ▸ List.mem_map_of_mem (f := fun p => p.1.index) hold)
        rw [Function.update_of_ne hpi, h.entries p hold]
      · obtain rfl := List.mem_singleton.mp hnew
        simp [Slot.record?]
    case threaded =>
      have hplaces : places (a.insert x).live = places a.live ++ [some a.fresh.index] := by
        simp [places, Ledger.insert]
      have hbefore₁ : t₁.before? =
          Function.update t.before? (some a.fresh.index) (some t.tail) := hput.before?
      have hafter₁ : t₁.after? = Function.update t.after? (some a.fresh.index) (some none) :=
        hput.after?
      rw [h.tail_eq] at hbefore₁ hafter
      have hring := h.threaded.snoc_update h.nodup_places hnew
      rw [← hafter₁, ← hbefore₁, ← hafter, ← hbefore,
        ← before?_withTail t₂ _ (t₂.size + 1), ← hplaces] at hring
      exact hring
    case stacked =>
      show Stacked t₂.hole? t₂.freeHead a.free.tail
      rw [hhold.hole?, hhold.freeHead, hput.hole?]
      refine hstack.congr fun id hid => Function.update_of_ne ?_ _ _
      have hmem : id.index ∈ a.free.tail.map SlotId.index := List.mem_map_of_mem hid
      rw [indices_insert] at hnodup
      exact fun heq => (List.nodup_cons.mp (List.nodup_append.mp hnodup).2.1).1 (heq ▸ hmem)
    case nodup => exact hnodup
    case covered =>
      intro i
      rw [hcov, ← hhold.slots_size]
    case size_eq => simp [Ledger.insert, hhold.size, hsize, h.size_eq]

theorem release_ok {t : Table α} {a : Ledger α} (h : Represents t a) {id : SlotId} {x : α}
    (hmem : (id, x) ∈ a.live) :
    ∃ t', release id.index id.generation t = .ok () t' ∧
      Put t t' id.index (.free id.succ.generation t.freeHead) ∧ t'.freeHead = some id.index ∧
      t'.slots.size = t.slots.size ∧ t'.size + 1 = t.size := by
  have hlt : id.index < t.slots.size :=
    lt_size_of_record? (h.record?_eq_some.mpr ⟨hmem, rfl⟩)
  have hpos : 0 < a.live.length := List.length_pos_of_mem hmem
  have hsize := h.size_eq
  have hne : ¬ t.size = 0 := by omega
  refine ⟨{ t with
      slots := t.slots.setIfInBounds id.index (.free id.succ.generation t.freeHead)
      freeHead := some id.index
      size := t.size - 1 }, ?_, ⟨?_, rfl, rfl⟩, rfl, by simp, ?_⟩
  · unfold release
    rw [if_neg hne]
    rfl
  · intro j
    by_cases hj : j = id.index
    · simp [hj, hlt]
    · simp [hj, Ne.symm hj]
  · show t.size - 1 + 1 = t.size
    omega

theorem Represents.slot_eq {t : Table α} {a : Ledger α} (h : Represents t a)
    {l r : List (SlotId × α)} {id : SlotId} {x : α} (hlive : a.live = l ++ (id, x) :: r) :
    t.slots[id.index]? =
      some (.live id.generation ((places l).getLastD none) ((places r).headD none) x) := by
  have hring := h.threaded
  rw [hlive, places_middle] at hring
  have hrec : t.record? id.index = some (id, x) := h.entries (id, x) (by simp [hlive])
  exact slot_eq_live hrec hring.next_member hring.prev_member

theorem removeAt_steps {t : Table α} {a : Ledger α} (h : Represents t a)
    {l r : List (SlotId × α)} {id : SlotId} {x : α} (hlive : a.live = l ++ (id, x) :: r) :
    ∃ t₁ t', removeAt id.index t = .ok (some x) t' ∧
      Put t t₁ id.index (.free id.succ.generation t.freeHead) ∧ t₁.freeHead = some id.index ∧
      t₁.slots.size = t.slots.size ∧ t₁.size + 1 = t.size ∧ SameHold t₁ t' ∧
      t'.after? = Function.update (Function.update t.after? ((places l).getLastD none)
        (some ((places r).headD none))) (some id.index) none ∧
      t'.before? = Function.update (Function.update t.before? ((places r).headD none)
        (some ((places l).getLastD none))) (some id.index) none := by
  have hplaces := places_middle l r id x
  have hnodup := h.nodup_places
  rw [← hlive] at hplaces
  rw [hplaces] at hnodup
  have hprev : (places l).getLastD none ∈ none :: places l := List.getLastD_mem_cons ..
  have hnext : (places r).headD none ∈ none :: places r := by
    cases places r <;> simp
  have hpne : (places l).getLastD none ≠ some id.index := fun heq => by
    rw [heq] at hprev
    grind
  have hnne : (places r).headD none ≠ some id.index := fun heq => by
    rw [heq] at hnext
    grind
  have hmem : (id, x) ∈ a.live := by simp [hlive]
  obtain ⟨t₁, hrel, hput, hfree, hslots, hsize⟩ := release_ok h hmem
  have hsome : (t₁.after? ((places l).getLastD none)).isSome := by
    rw [hput.after?, Function.update_of_ne hpne]
    exact h.isSome_after? (by grind)
  obtain ⟨t₂, hset, hhold, hbefore, hafter⟩ := setNext_ok ((places r).headD none) hsome
  have hsome' : (t₂.before? ((places r).headD none)).isSome := by
    rw [hbefore, hput.before?, Function.update_of_ne hnne]
    exact h.isSome_before? (by grind)
  obtain ⟨t₃, hset', hhold', hafter', hbefore'⟩ :=
    setPrev_ok ((places l).getLastD none) hsome'
  refine ⟨t₁, t₃, ?_, hput, hfree, hslots, hsize, hhold.trans hhold', ?_, ?_⟩
  · unfold removeAt
    rw [Change.get_bind, h.slot_eq hlive]
    dsimp only
    rw [Change.bind_ok hrel, Change.bind_ok hset, Change.bind_ok hset', Change.pure_run]
  -- the freed slot is neither of its neighbours, so the three writes do not meet
  · rw [hafter', hafter, hput.after?, Function.update_comm hpne.symm]
    rfl
  · rw [hbefore', hbefore, hput.before?, Function.update_comm hnne.symm]
    rfl

theorem removeAt_ok {t : Table α} {a : Ledger α} (h : Represents t a) {id : SlotId} {x : α}
    (hmem : (id, x) ∈ a.live) :
    ∃ t', removeAt id.index t = .ok (some x) t' ∧ Represents t' (a.drop id) := by
  obtain ⟨l, r, hlive⟩ := List.append_of_mem hmem
  obtain ⟨t₁, t', hrun, hput, hfree, hslots, hsize, hhold, hafter, hbefore⟩ :=
    removeAt_steps h hlive
  have hnodup := h.nodup_places
  have hring := h.threaded
  rw [hlive, places_middle] at hnodup hring
  have hdrop : (a.drop id).live = l ++ r := Ledger.live_drop h.nodup_live hlive
  have hperm := Ledger.indices_drop_perm h.nodup_live hlive
  have hother : ∀ p ∈ l ++ r, p.1.index ≠ id.index := by
    intro p hp heq
    have hpl : some p.1.index ∈ places l ++ places r := by
      rw [← places_append]
      exact List.mem_map_of_mem (f := fun p => some p.1.index) hp
    rw [heq] at hpl
    grind
  refine ⟨t', hrun, ?_⟩
  constructor
  case entries =>
    intro p hp
    rw [hdrop] at hp
    rw [hhold.record?, hput.record?, Function.update_of_ne (hother p hp)]
    exact h.entries p (by grind)
  case threaded =>
    rw [hdrop, places_append, hafter, hbefore]
    refine (hring.erase_update hnodup).congr (fun i hi => ?_) (fun i hi => ?_)
    · exact Function.update_of_ne (by grind) ..
    · exact Function.update_of_ne (by grind) ..
  case stacked =>
    refine ⟨by rw [hhold.freeHead, hfree]; rfl, t.freeHead, ?_, ?_⟩
    · rw [hhold.hole?, hput.hole?]
      exact Function.update_self ..
    · rw [hhold.hole?, hput.hole?]
      refine h.stacked.congr fun free hfree => Function.update_of_ne ?_ ..
      have hlv : id.index ∈ a.liveIndices :=
        List.mem_map_of_mem (f := fun p => p.1.index) hmem
      exact fun heq => h.not_mem_free hlv (heq ▸ List.mem_map_of_mem hfree)
  case nodup => exact hperm.nodup_iff.mpr h.nodup
  case covered =>
    intro i
    rw [hperm.mem_iff, h.covered, hhold.slots_size, hslots]
  case size_eq =>
    have hlen := h.size_eq
    rw [hlive, List.length_append, List.length_cons] at hlen
    rw [hhold.size, hdrop, List.length_append]
    omega

theorem removeAt_none {t : Table α} {a : Ledger α} (h : Represents t a) {i : Nat}
    (hi : a.record? i = none) : removeAt i t = .ok none t := by
  have hrec : t.record? i = none := by rw [h.record?_eq, hi]
  unfold removeAt
  rw [Change.get_bind]
  rcases hs : t.slots[i]? with _ | ⟨_ | _⟩ <;> simp [record?, Slot.record?, hs] at hrec ⊢

namespace Represents

variable {t : Table α} {a : Ledger α}

theorem get?_eq_some (h : Represents t a) {id : SlotId} {x : α} :
    t.get? id = some x ↔ (id, x) ∈ a.live := by
  rw [Table.get?_eq_some, h.record?_eq_some]
  exact and_iff_left rfl

theorem get?_eq (h : Represents t a) (id : SlotId) : t.get? id = a.get? id := by
  refine Option.ext fun x => ?_
  rw [h.get?_eq_some, Ledger.get?_eq_some h.nodup_live]

theorem contains_iff (h : Represents t a) {id : SlotId} :
    t.contains id = true ↔ ∃ x, (id, x) ∈ a.live := by
  simp only [contains, Option.isSome_iff_exists, h.get?_eq_some]

theorem updateAt (h : Represents t a) (i : Nat) (f : α → α) :
    Represents (t.updateAt i f) (a.updateAt i f) where
  entries p hp := by
    obtain ⟨q, hq, rfl⟩ := List.mem_map.mp hp
    rw [record?_updateAt]
    by_cases hi : q.1.index = i
    · rw [if_pos hi]
      have hrec := h.entries q hq
      rw [hrec]
      simp [hi]
    · rw [if_neg hi, h.entries q hq]
      simp [hi]
  threaded := by
    rw [after?_updateAt, before?_updateAt, places_live, Ledger.liveIndices_updateAt, ← places_live]
    exact h.threaded
  stacked := by
    rw [hole?_updateAt]
    exact h.stacked
  nodup := by
    rw [Ledger.indices_updateAt]
    exact h.nodup
  covered j := by
    rw [Ledger.indices_updateAt]
    simpa [Table.updateAt] using h.covered j
  size_eq := by simpa [Table.updateAt, Ledger.updateAt] using h.size_eq

theorem update (h : Represents t a) (id : SlotId) (f : α → α) :
    Represents (t.update id f) (a.update id f) := by
  unfold Table.update
  by_cases hc : t.contains id = true
  · obtain ⟨x, hx⟩ := h.contains_iff.mp hc
    rw [if_pos hc, Ledger.update_eq_updateAt h.nodup_live hx]
    exact h.updateAt id.index f
  · rw [if_neg hc, Ledger.update_eq_self fun x hx => hc (h.contains_iff.mpr ⟨x, hx⟩)]
    exact h

theorem at?_eq (h : Represents t a) (i : Nat) : t.at? i = (a.record? i).map Prod.snd := by
  rw [Table.at?_eq, h.record?_eq]

theorem find?_eq (h : Represents t a) (i : Nat) : t.find? i = (a.record? i).map Prod.fst := by
  rw [Table.find?_eq, h.record?_eq]

end Represents

theorem remove_ok {t : Table α} {a : Ledger α} (h : Represents t a) (id : SlotId) :
    ∃ t', remove id t = .ok (a.remove id).1 t' ∧ Represents t' (a.remove id).2 := by
  unfold remove Ledger.remove
  rw [Change.get_bind]
  cases hx : a.get? id with
  | none =>
    have hc : ¬ t.contains id = true := by simp [contains, h.get?_eq, hx]
    rw [if_neg hc]
    exact ⟨t, rfl, h⟩
  | some x =>
    have hc : t.contains id = true := by simp [contains, h.get?_eq, hx]
    rw [if_pos hc]
    exact removeAt_ok h ((Ledger.get?_eq_some h.nodup_live).mp hx)

theorem apply_ok {t : Table α} {a : Ledger α} (h : Represents t a) (edit : Edit α) :
    ∃ t', edit.apply t = .ok (a.apply edit).1 t' ∧ Represents t' (a.apply edit).2 := by
  cases edit with
  | insert x =>
    obtain ⟨t', hrun, hrep⟩ := insert_ok h x
    exact ⟨t', Change.bind_ok hrun, hrep⟩
  | remove id =>
    obtain ⟨t', hrun, hrep⟩ := remove_ok h id
    exact ⟨t', Change.bind_ok hrun, hrep⟩
  | removeAt i =>
    cases hi : a.record? i with
    | none =>
      refine ⟨t, Change.bind_ok (removeAt_none h hi) |>.trans ?_, ?_⟩
      · simp [Ledger.apply, Ledger.removeAt, hi]
      · simpa [Ledger.apply, Ledger.removeAt, hi] using h
    | some p =>
      obtain ⟨hp, rfl⟩ := (Ledger.record?_eq_some h.nodup_live).mp hi
      obtain ⟨t', hrun, hrep⟩ := removeAt_ok h hp
      refine ⟨t', (Change.bind_ok hrun).trans ?_, ?_⟩
      · simp [Ledger.apply, Ledger.removeAt, hi]
      · simpa [Ledger.apply, Ledger.removeAt, hi] using hrep
  | update id f =>
    refine ⟨t.update id f, ?_, h.update id f⟩
    show EStateM.Result.ok (Answer.value (t.get? id)) (t.update id f) = _
    rw [h.get?_eq]
    rfl
  | updateAt i f =>
    refine ⟨t.updateAt i f, ?_, h.updateAt i f⟩
    show EStateM.Result.ok (Answer.value (t.at? i)) (t.updateAt i f) = _
    rw [h.at?_eq]
    rfl
  | clear => exact ⟨empty, rfl, represents_empty⟩

end SlotGraph.Table

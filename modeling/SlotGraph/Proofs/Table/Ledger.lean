import SlotGraph.Proofs.Lists
import SlotGraph.Table.Edit
set_option autoImplicit false

/-!
What a table holds, without its slots. A ledger lists the live records in the order of insertion
and the freed handles with the one freed last on top; it says which handle comes next.
-/

namespace SlotGraph

/-- The handle that a slot gives out after this one has been freed. -/
def SlotId.succ (id : SlotId) : SlotId := ⟨id.index, id.generation + 1⟩

structure Ledger (α : Type) where
  live : List (SlotId × α) := []
  free : List SlotId := []

namespace Ledger

variable {α β : Type}

def liveIndices (a : Ledger α) : List Nat := a.live.map fun p => p.1.index

def indices (a : Ledger α) : List Nat := a.liveIndices ++ a.free.map SlotId.index

/-- The handle of the next record: the one freed last, or the first of a new slot. -/
def fresh (a : Ledger α) : SlotId := a.free.headD ⟨a.live.length + a.free.length, 0⟩

def insert (x : α) (a : Ledger α) : Ledger α := ⟨a.live ++ [(a.fresh, x)], a.free.tail⟩

/-- The live record in a slot. -/
def record? (a : Ledger α) (i : Nat) : Option (SlotId × α) := a.live.find? fun p => p.1.index == i

def get? (a : Ledger α) (id : SlotId) : Option α :=
  (a.live.find? fun p => p.1 == id).map Prod.snd

/-- Drops the record of a live handle, whose slot goes on top of the free ones. -/
def drop (id : SlotId) (a : Ledger α) : Ledger α :=
  ⟨a.live.filter fun p => p.1 != id, id.succ :: a.free⟩

def removeAt (i : Nat) (a : Ledger α) : Option α × Ledger α :=
  match a.record? i with
  | some (id, x) => (some x, a.drop id)
  | none => (none, a)

def remove (id : SlotId) (a : Ledger α) : Option α × Ledger α :=
  match a.get? id with
  | some x => (some x, a.drop id)
  | none => (none, a)

/-- Changes the record with a handle, if there is one. -/
def update (id : SlotId) (f : α → α) (a : Ledger α) : Ledger α :=
  { a with live := a.live.map fun p => if p.1 = id then (p.1, f p.2) else p }

def updateAt (i : Nat) (f : α → α) (a : Ledger α) : Ledger α :=
  { a with live := a.live.map fun p => if p.1.index = i then (p.1, f p.2) else p }

def map (f : α → β) (a : Ledger α) : Ledger β := ⟨a.live.map fun p => (p.1, f p.2), a.free⟩

def apply : Table.Edit α → Ledger α → Table.Answer α × Ledger α
  | .insert x, a => (.handle a.fresh, a.insert x)
  | .remove id, a => let (x, b) := a.remove id; (.value x, b)
  | .removeAt i, a => let (x, b) := a.removeAt i; (.value x, b)
  | .update id f, a => (.value (a.get? id), a.update id f)
  | .updateAt i f, a => (.value ((a.record? i).map Prod.snd), a.updateAt i f)
  | .clear, _ => (.done, {})

def run : List (Table.Edit α) → Ledger α → List (Table.Answer α) × Ledger α
  | [], a => ([], a)
  | edit :: rest, a =>
    let (answer, b) := a.apply edit
    let (answers, c) := run rest b
    (answer :: answers, c)

theorem eq_of_index_eq {a : Ledger α} (hd : a.liveIndices.Nodup) {p q : SlotId × α}
    (hp : p ∈ a.live) (hq : q ∈ a.live) (h : p.1.index = q.1.index) : p = q :=
  List.inj_on_of_nodup_map hd hp hq h

theorem record?_eq_some {a : Ledger α} (hd : a.liveIndices.Nodup) {i : Nat} {p : SlotId × α} :
    a.record? i = some p ↔ p ∈ a.live ∧ p.1.index = i :=
  find?_key_eq_some (f := fun p : SlotId × α => p.1.index) hd

theorem record?_eq_none {a : Ledger α} {i : Nat} : a.record? i = none ↔ i ∉ a.liveIndices := by
  simp [record?, liveIndices]

theorem nodup_handles {a : Ledger α} (hd : a.liveIndices.Nodup) : (a.live.map Prod.fst).Nodup := by
  refine List.Nodup.of_map SlotId.index ?_
  rw [List.map_map]
  exact hd

theorem get?_eq_some {a : Ledger α} (hd : a.liveIndices.Nodup) {id : SlotId} {x : α} :
    a.get? id = some x ↔ (id, x) ∈ a.live := find?_fst_eq_some (nodup_handles hd)

theorem live_drop {a : Ledger α} (hd : a.liveIndices.Nodup) {l r : List (SlotId × α)}
    {id : SlotId} {x : α} (h : a.live = l ++ (id, x) :: r) : (a.drop id).live = l ++ r := by
  have hhandles := nodup_handles hd
  rw [h] at hhandles
  simp only [drop, h]
  exact filter_key_ne (x := (id, x)) hhandles

theorem indices_drop_perm {a : Ledger α} (hd : a.liveIndices.Nodup) {l r : List (SlotId × α)}
    {id : SlotId} {x : α} (h : a.live = l ++ (id, x) :: r) :
    (a.drop id).indices.Perm a.indices := by
  have hlive : (a.drop id).liveIndices =
      l.map (fun p => p.1.index) ++ r.map (fun p => p.1.index) := by
    simp [liveIndices, live_drop hd h]
  have hold : a.liveIndices =
      l.map (fun p => p.1.index) ++ id.index :: r.map (fun p => p.1.index) := by
    simp [liveIndices, h]
  have hfree : (a.drop id).free.map SlotId.index = id.index :: a.free.map SlotId.index := by
    simp [drop, SlotId.succ]
  rw [indices, indices, hlive, hold, hfree]
  refine List.perm_middle.trans ?_
  rw [← List.cons_append]
  exact List.Perm.append_right _ List.perm_middle.symm

theorem update_eq_self {a : Ledger α} {id : SlotId} (h : ∀ x, (id, x) ∉ a.live)
    (f : α → α) : a.update id f = a := by
  have hmap : a.live.map (fun p => if p.1 = id then (p.1, f p.2) else p) = a.live := by
    refine (List.map_congr_left fun p hp => ?_).trans (List.map_id' _)
    have hne : p.1 ≠ id := by
      intro heq
      subst heq
      exact h p.2 hp
    rw [if_neg hne]
  simp only [update, hmap]

theorem update_const {a : Ledger α} (hd : a.liveIndices.Nodup) {id : SlotId} {x : α}
    (h : (id, x) ∈ a.live) (f : α → α) : a.update id (fun _ => f x) = a.update id f := by
  simp only [update]
  congr 1
  refine List.map_congr_left fun p hp => ?_
  by_cases hid : p.1 = id
  · have hp : p = (id, x) := eq_of_index_eq hd hp h (congrArg SlotId.index hid)
    simp [hp]
  · rw [if_neg hid, if_neg hid]

theorem live_update {a : Ledger α} (hd : a.liveIndices.Nodup) {l r : List (SlotId × α)}
    {id : SlotId} {x : α} (h : a.live = l ++ (id, x) :: r) (f : α → α) :
    (a.update id f).live = l ++ (id, f x) :: r := by
  have hhandles := nodup_handles hd
  rw [h, List.map_append, List.map_cons, List.nodup_middle, List.nodup_cons,
    ← List.map_append] at hhandles
  have hother {s : List (SlotId × α)} (hs : s ⊆ l ++ r) :
      s.map (fun p => if p.1 = id then (p.1, f p.2) else p) = s := by
    refine (List.map_congr_left fun p hp => if_neg fun heq => ?_).trans (List.map_id' _)
    exact hhandles.1 (List.mem_map.mpr ⟨p, hs hp, heq⟩)
  simp only [update, h, List.map_append, List.map_cons, if_pos,
    hother (List.subset_append_left l r), hother (List.subset_append_right l r)]

theorem update_eq_updateAt {a : Ledger α} (hd : a.liveIndices.Nodup) {id : SlotId} {x : α}
    (h : (id, x) ∈ a.live) (f : α → α) : a.update id f = a.updateAt id.index f := by
  have hmap : a.live.map (fun p => if p.1 = id then (p.1, f p.2) else p) =
      a.live.map (fun p => if p.1.index = id.index then (p.1, f p.2) else p) := by
    refine List.map_congr_left fun p hp => ?_
    by_cases hi : p.1.index = id.index
    · have hp : p = (id, x) := eq_of_index_eq hd hp h hi
      simp [hp]
    · have hne : p.1 ≠ id := fun heq => hi (by rw [heq])
      rw [if_neg hne, if_neg hi]
  simp only [update, updateAt, hmap]

theorem liveIndices_updateAt (a : Ledger α) (i : Nat) (f : α → α) :
    (a.updateAt i f).liveIndices = a.liveIndices := by
  simp only [liveIndices, updateAt, List.map_map]
  refine List.map_congr_left fun p _ => ?_
  by_cases hi : p.1.index = i <;> simp [hi]

theorem indices_updateAt (a : Ledger α) (i : Nat) (f : α → α) :
    (a.updateAt i f).indices = a.indices := by
  rw [indices, indices, liveIndices_updateAt]
  rfl

theorem record?_insert {a : Ledger α} (h : a.fresh.index ∉ a.liveIndices) (x : α) (i : Nat) :
    (a.insert x).record? i = if i = a.fresh.index then some (a.fresh, x) else a.record? i := by
  by_cases hi : i = a.fresh.index
  · have hnone := record?_eq_none.mpr h
    rw [if_pos hi, hi, record?, insert, List.find?_append]
    rw [record?] at hnone
    simp [hnone]
  · simp [record?, insert, List.find?_append, hi, Ne.symm hi]

theorem record?_drop {a : Ledger α} (hd : a.liveIndices.Nodup) {id : SlotId} {x : α}
    (h : (id, x) ∈ a.live) {i : Nat} (hi : i ≠ id.index) :
    (a.drop id).record? i = a.record? i := by
  obtain ⟨l, r, hlive⟩ := List.append_of_mem h
  rw [record?, record?, live_drop hd hlive, hlive]
  simp [List.find?_append, Ne.symm hi]

section

variable (f : α → β) (a : Ledger α)

@[simp] theorem liveIndices_map : (a.map f).liveIndices = a.liveIndices := by
  simp [liveIndices, map]

@[simp] theorem indices_map : (a.map f).indices = a.indices := by
  rw [indices, liveIndices_map]
  rfl

@[simp] theorem fresh_map : (a.map f).fresh = a.fresh := by simp [fresh, map]

theorem insert_map (x : α) : (a.insert x).map f = (a.map f).insert (f x) := by
  simp [insert, map, fresh]

theorem drop_map (id : SlotId) : (a.drop id).map f = (a.map f).drop id := by
  simp [drop, map, List.filter_map, Function.comp_def]

theorem record?_map (i : Nat) :
    (a.map f).record? i = (a.record? i).map fun p => (p.1, f p.2) := by
  rw [record?, record?, map, List.find?_map]
  rfl

theorem get?_map (id : SlotId) : (a.map f).get? id = (a.get? id).map f := by
  simp [get?, map, List.find?_map, Function.comp_def]

end

theorem update_map {f : α → β} {u : α → α} {w : β → β} (h : ∀ x, f (u x) = w (f x))
    (a : Ledger α) (id : SlotId) : (a.update id u).map f = (a.map f).update id w := by
  simp only [update, map, List.map_map]
  congr 1
  refine List.map_congr_left fun p _ => ?_
  by_cases hp : p.1 = id <;> simp [hp, h]

theorem updateAt_map {f : α → β} {u : α → α} (h : ∀ x, f (u x) = f x) (a : Ledger α) (i : Nat) :
    (a.updateAt i u).map f = a.map f := by
  simp only [updateAt, map, List.map_map]
  congr 1
  refine List.map_congr_left fun p _ => ?_
  by_cases hp : p.1.index = i <;> simp [hp, h]

end Ledger

end SlotGraph

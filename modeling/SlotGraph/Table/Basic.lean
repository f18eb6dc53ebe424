import SlotGraph.Change
import SlotGraph.Room
set_option autoImplicit false

/-!
Records in slots. A record never moves while it lives. Freed slots form a stack and are given out
again from its top; live slots form a second list, in the order of insertion, that every walk
follows. Freeing a slot raises its generation, so the handles it gave out stop to resolve.
-/

namespace SlotGraph

/-- A live slot holds its record between two neighbours; a free one points down the stack. -/
inductive Slot (α : Type) where
  | live (generation : UInt32) (prev next : Option Nat) (value : α)
  | free (generation : UInt32) (next : Option Nat)
  deriving DecidableEq, Repr

namespace Slot

def update {α : Type} (f : α → α) : Slot α → Slot α
  | .live g prev next x => .live g prev next (f x)
  | .free g next => .free g next

def withNext {α : Type} (next : Option Nat) : Slot α → Slot α
  | .live g prev _ x => .live g prev next x
  | .free g below => .free g below

def withPrev {α : Type} (prev : Option Nat) : Slot α → Slot α
  | .live g _ next x => .live g prev next x
  | .free g below => .free g below

instance {α : Type} [Footprint α] : Footprint (Slot α) :=
  ⟨3 * Footprint.bytes Nat + Footprint.bytes α⟩

end Slot

structure Table (α : Type) where
  slots : Array (Slot α) := #[]
  freeHead : Option Nat := none
  head : Option Nat := none
  tail : Option Nat := none
  size : Nat := 0
  deriving DecidableEq, Repr

namespace Table

variable {α : Type}

def empty : Table α := {}

/-- An empty table with room for `n` records. The room is no slot yet. -/
def withRoom [Footprint α] (n : Nat) : Except Fault (Table α) := do
  Room.check (n * Footprint.bytes (Slot α)) .roomTooLarge
  return empty

theorem withRoom_eq_ok_iff [Footprint α] {n : Nat} {t : Table α} :
    withRoom n = .ok t ↔ n * Footprint.bytes (Slot α) ≤ Room.largest ∧ t = empty := by
  unfold withRoom Room.check
  split
  · case isTrue h => exact ⟨fun ht => ⟨h, (Except.ok.inj ht).symm⟩, fun ht => ht.2 ▸ rfl⟩
  · case isFalse h => exact ⟨fun ht => (nomatch ht), fun ht => absurd ht.1 h⟩

def isEmpty (t : Table α) : Bool := t.size == 0

def capacity (t : Table α) : Nat := t.slots.size

def nextIndex (t : Table α) : Nat := t.freeHead.getD t.slots.size

def at? (t : Table α) (i : Nat) : Option α :=
  match t.slots[i]? with
  | some (.live _ _ _ x) => some x
  | _ => none

/-- The handle of the record in a slot. -/
def find? (t : Table α) (i : Nat) : Option SlotId :=
  match t.slots[i]? with
  | some (.live g _ _ _) => some ⟨i, g⟩
  | _ => none

def get? (t : Table α) (id : SlotId) : Option α :=
  match t.slots[id.index]? with
  | some (.live g _ _ x) => if g = id.generation then some x else none
  | _ => none

def contains (t : Table α) (id : SlotId) : Bool := (t.get? id).isSome

def next? (t : Table α) (i : Nat) : Option Nat :=
  match t.slots[i]? with
  | some (.live _ _ next _) => next
  | _ => none

def prev? (t : Table α) (i : Nat) : Option Nat :=
  match t.slots[i]? with
  | some (.live _ prev _ _) => prev
  | _ => none

def updateAt (t : Table α) (i : Nat) (f : α → α) : Table α :=
  { t with slots := t.slots.modify i (Slot.update f) }

def update (t : Table α) (id : SlotId) (f : α → α) : Table α :=
  if t.contains id then t.updateAt id.index f else t

/-- Sets what follows slot `i`, or the first live slot where there is no `i`. -/
def setNext (i next : Option Nat) : Change (Table α) Unit := fun t =>
  match i with
  | none => .ok () { t with head := next }
  | some i =>
    if i < t.slots.size then .ok () { t with slots := t.slots.modify i (Slot.withNext next) }
    else .error (.corrupt (.slotMissing i t.slots.size)) t

/-- Sets what precedes slot `i`, or the last live slot where there is no `i`. -/
def setPrev (i prev : Option Nat) : Change (Table α) Unit := fun t =>
  match i with
  | none => .ok () { t with tail := prev }
  | some i =>
    if i < t.slots.size then .ok () { t with slots := t.slots.modify i (Slot.withPrev prev) }
    else .error (.corrupt (.slotMissing i t.slots.size)) t

/-- Puts a record after the last one into the slot freed last, or into a new slot. -/
def occupy (x : α) : Change (Table α) SlotId := fun t =>
  match t.freeHead with
  | none => .ok ⟨t.slots.size, 0⟩ { t with slots := t.slots.push (.live 0 t.tail none x) }
  | some i =>
    match t.slots[i]? with
    | some (.free g below) =>
      .ok ⟨i, g⟩
        { t with slots := t.slots.setIfInBounds i (.live g t.tail none x), freeHead := below }
    | some (.live _ _ _ _) => .error (.corrupt (.freeSlotLive i)) t
    | none => .error (.corrupt (.slotMissing i t.slots.size)) t

/-- Puts slot `i` on the free stack at the generation after `g`. -/
def release (i : Nat) (g : UInt32) : Change (Table α) Unit := fun t =>
  if t.size = 0 then .error (.corrupt .countBelowZero) t
  else
    .ok ()
      { t with
        slots := t.slots.setIfInBounds i (.free (g + 1) t.freeHead)
        freeHead := some i
        size := t.size - 1 }

def insert (x : α) : Change (Table α) SlotId := do
  let last := (← get).tail
  let id ← occupy x
  setNext last (some id.index)
  modify fun t => { t with tail := some id.index, size := t.size + 1 }
  return id

def removeAt (i : Nat) : Change (Table α) (Option α) := do
  match (← get).slots[i]? with
  | some (.live g prev next x) =>
    release i g
    setNext prev next
    setPrev next prev
    return some x
  | _ => return none

def remove (id : SlotId) : Change (Table α) (Option α) := do
  if (← get).contains id then removeAt id.index else return none

end Table

end SlotGraph

import SlotGraph.Table.Basic
import SlotGraph.TwoEnded
set_option autoImplicit false

/-!
The records of a table, read from both ends of its live list. The two ends follow the links on
their own; the count of what remains tells them that they have met.
-/

namespace SlotGraph.Table

variable {α : Type}

structure Entries (α : Type) where
  table : Table α
  front : Option Nat
  back : Option Nat
  remaining : Nat

namespace Entries

def next? (it : Entries α) : Option ((SlotId × α) × Entries α) :=
  match it.remaining, it.front with
  | n + 1, some i =>
    match it.table.slots[i]? with
    | some (.live g _ next x) => some ((⟨i, g⟩, x), { it with front := next, remaining := n })
    | _ => none
  | _, _ => none

def nextBack? (it : Entries α) : Option ((SlotId × α) × Entries α) :=
  match it.remaining, it.back with
  | n + 1, some i =>
    match it.table.slots[i]? with
    | some (.live g prev _ x) => some ((⟨i, g⟩, x), { it with back := prev, remaining := n })
    | _ => none
  | _, _ => none

instance : TwoEnded (Entries α) (SlotId × α) where
  next? := next?
  nextBack? := nextBack?
  remaining := remaining

end Entries

def entries (t : Table α) : Entries α := ⟨t, t.head, t.tail, t.size⟩

def toList (t : Table α) : List (SlotId × α) := TwoEnded.toList t.entries

end SlotGraph.Table

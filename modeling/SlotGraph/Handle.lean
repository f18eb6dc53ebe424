set_option autoImplicit false

/-!
Handles name records. A handle is the index of a slot and the generation at which the slot was
given out, so a handle kept after its record is gone is told apart from the slot's next record.
-/

namespace SlotGraph

structure SlotId where
  index : Nat
  generation : UInt32
  deriving DecidableEq, Hashable, Repr, Inhabited

instance : Ord SlotId := ⟨compareLex (compareOn SlotId.index) (compareOn SlotId.generation)⟩

instance : ToString SlotId := ⟨fun id => s!"{id.index}v{id.generation}"⟩

structure VertexId where
  slot : SlotId
  deriving DecidableEq, Hashable, Repr, Inhabited

def VertexId.index (v : VertexId) : Nat := v.slot.index

instance : Ord VertexId := ⟨compareOn VertexId.slot⟩

instance : ToString VertexId := ⟨fun v => s!"vertex {v.slot}"⟩

structure EdgeId where
  slot : SlotId
  deriving DecidableEq, Hashable, Repr, Inhabited

def EdgeId.index (e : EdgeId) : Nat := e.slot.index

instance : Ord EdgeId := ⟨compareOn EdgeId.slot⟩

instance : ToString EdgeId := ⟨fun e => s!"edge {e.slot}"⟩

end SlotGraph

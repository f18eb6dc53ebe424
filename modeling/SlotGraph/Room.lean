import SlotGraph.Fault
set_option autoImplicit false

/-!
Room asked for in advance. A container lies in one block of memory, and no block is larger than
`Room.largest`, so a container that asks for more is not made. Room within the bound leaves no
trace: a container that is empty equals every other empty one.
-/

namespace SlotGraph

/-- The bytes that a value takes in a container, without what it keeps elsewhere. -/
class Footprint (α : Type) where
  bytes : Nat

namespace Footprint

instance : Footprint Nat := ⟨8⟩

instance : Footprint Int := ⟨8⟩

/-- An address, a length and a room; the characters lie elsewhere. -/
instance : Footprint String := ⟨3 * bytes Nat⟩

instance : Footprint SlotId := ⟨2 * bytes Nat⟩

instance : Footprint VertexId := ⟨bytes SlotId⟩

instance : Footprint Node := ⟨2 * bytes Nat⟩

instance : Footprint Link := ⟨2 * bytes Node⟩

instance {α : Type} [Footprint α] : Footprint (PerDirection α) := ⟨2 * bytes α⟩

end Footprint

namespace Room

def largest : Nat := UInt64.size / 2 - 1

def check (bytes : Nat) (f : Fault) : Except Fault Unit :=
  if bytes ≤ largest then .ok () else .error f

end Room

end SlotGraph

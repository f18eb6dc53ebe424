import SlotGraph.Room
set_option autoImplicit false

/-!
Indexes from keys to vertices. An index keeps both directions, so that the entry of a vertex can be
dropped without computing a key from a payload that is gone.
-/

namespace SlotGraph

class KeyIndex (I : Type) (K : outParam Type) where
  empty : I
  withRoom : Nat → Except Fault I
  insert : I → K → VertexId → I
  /-- Drops the entry of a vertex and gives back its key. -/
  eraseVertex : I → VertexId → Option K × I
  vertex? : I → K → Option VertexId
  key? : I → VertexId → Option K
  size : I → Nat

namespace KeyIndex

variable {I K : Type} [KeyIndex I K]

def clear (_ : I) : I := empty

def isEmpty (index : I) : Bool := size index == 0

inductive Edit (K : Type) where
  | insert (key : K) (v : VertexId)
  | eraseVertex (v : VertexId)
  | clear
  deriving DecidableEq, Repr

/-- The key that an erasure frees, and the index after the edit. -/
def Edit.apply (index : I) : Edit K → Option K × I
  | .insert key v => (none, KeyIndex.insert index key v)
  | .eraseVertex v => KeyIndex.eraseVertex index v
  | .clear => (none, KeyIndex.clear index)

end KeyIndex

end SlotGraph

import SlotGraph.Index.Basic
import Std.Data.HashMap
set_option autoImplicit false

namespace SlotGraph

structure HashedIndex (K : Type) [BEq K] [Hashable K] where
  vertexOf : Std.HashMap K VertexId := {}
  keyOf : Std.HashMap VertexId K := {}

namespace HashedIndex

variable {K : Type} [BEq K] [Hashable K]

def insert (index : HashedIndex K) (key : K) (v : VertexId) : HashedIndex K :=
  ⟨index.vertexOf.insert key v, index.keyOf.insert v key⟩

def eraseVertex (index : HashedIndex K) (v : VertexId) : Option K × HashedIndex K :=
  match index.keyOf[v]? with
  | some key => (some key, ⟨index.vertexOf.erase key, index.keyOf.erase v⟩)
  | none => (none, index)

/-- A bucket holds an entry and a byte beside it, and one in eight stays free. -/
def withRoom [Footprint K] (n : Nat) : Except Fault (HashedIndex K) := do
  let buckets := (8 * n / 7).nextPowerOfTwo
  let entry := Footprint.bytes K + Footprint.bytes VertexId
  Room.check (buckets * (entry + 1)) .bucketsTooMany
  return {}

instance [Footprint K] : KeyIndex (HashedIndex K) K where
  empty := {}
  withRoom := withRoom
  insert := insert
  eraseVertex := eraseVertex
  vertex? index key := index.vertexOf[key]?
  key? index v := index.keyOf[v]?
  size index := index.vertexOf.size

end HashedIndex

end SlotGraph

import SlotGraph.Index.Basic
import Std.Data.TreeMap
set_option autoImplicit false

namespace SlotGraph

/--
An index by search trees, which lists its keys in ascending order. Trees take their room entry by
entry and none in advance.
-/
structure OrderedIndex (K : Type) [Ord K] where
  vertexOf : Std.TreeMap K VertexId := {}
  keyOf : Std.TreeMap VertexId K := {}

namespace OrderedIndex

variable {K : Type} [Ord K]

def insert (index : OrderedIndex K) (key : K) (v : VertexId) : OrderedIndex K :=
  ⟨index.vertexOf.insert key v, index.keyOf.insert v key⟩

def eraseVertex (index : OrderedIndex K) (v : VertexId) : Option K × OrderedIndex K :=
  match index.keyOf[v]? with
  | some key => (some key, ⟨index.vertexOf.erase key, index.keyOf.erase v⟩)
  | none => (none, index)

instance : KeyIndex (OrderedIndex K) K where
  empty := {}
  withRoom _ := .ok {}
  insert := insert
  eraseVertex := eraseVertex
  vertex? index key := index.vertexOf[key]?
  key? index v := index.keyOf[v]?
  size index := index.vertexOf.size

def toList (index : OrderedIndex K) : List (K × VertexId) := index.vertexOf.toList

end OrderedIndex

end SlotGraph

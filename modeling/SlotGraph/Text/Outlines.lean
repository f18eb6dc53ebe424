import SlotGraph.KeyedGraph.Basic
import SlotGraph.Multigraph.Report
import SlotGraph.Text.Outline
set_option autoImplicit false

namespace SlotGraph

variable {V E K I : Type}

instance : Outlined SlotId where
  outline id := .record "SlotId" [("index", outline id.index),
    ("generation", outline id.generation.toNat)]

instance : Outlined VertexId where
  outline v := .tuple "VertexId" [outline v.slot]

instance : Outlined EdgeId where
  outline e := .tuple "EdgeId" [outline e.slot]

instance [Outlined V] : Outlined (VertexReport V) where
  outline r := .record "VertexRef" [("id", outline r.id), ("value", outline r.payload)]

instance [Outlined E] : Outlined (EdgeReport E) where
  outline r := .record "EdgeRef" [("id", outline r.id), ("source", outline r.source),
    ("target", outline r.target), ("value", outline r.payload)]

/-- Records are listed under their slots, without generations. -/
instance [Outlined V] : Outlined (Table V) where
  outline t := .table (t.toList.map fun (id, x) => (outline id.index, outline x))

instance [Outlined V] : Outlined (VertexRecord V) where
  outline r := outline r.payload

instance [Outlined E] : Outlined (EdgeRecord E) where
  outline r := .tuple "" [outline r.source.index, outline r.target.index, outline r.payload]

instance [Outlined V] [Outlined E] : Outlined (Multigraph V E) where
  outline g := .record "Graph" [("vertices", outline g.vertices), ("edges", outline g.edges)]

instance [Ord K] [Outlined K] : Outlined (OrderedIndex K) where
  outline index := .record "BTreeIndex" [
    ("forward", .table (index.vertexOf.toList.map fun (key, v) => (outline key, outline v))),
    ("reverse", .table (index.keyOf.toList.map fun (v, key) => (outline v, outline key)))]

/-- The key function has no outline, so the record stays open. -/
instance [Outlined V] [Outlined E] [Outlined I] : Outlined (KeyedGraph V E K I) where
  outline k := .openRecord "IndexedGraph" [("graph", outline k.graph), ("index", outline k.index)]

instance [Outlined K] : Outlined (KeyError K) where
  outline | .taken key => .tuple "AlreadyExists" [outline key]

def KeyError.message [Outlined K] : KeyError K → String
  | .taken key => "a live vertex already holds key " ++ (outline key).compact

end SlotGraph

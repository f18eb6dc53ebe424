import SlotGraph.Handle
import SlotGraph.Incidence.Node
set_option autoImplicit false

/-!
The ways in which an operation stops. A fault is the caller's (a handle or descriptor that names
no live record, a node spliced twice, a key changed in place, more room than memory has) or it
shows stored links that contradict each other; the second kind is kept apart as `Corruption`.
-/

namespace SlotGraph

/-- Stored links, counters or slots that contradict each other. -/
inductive Corruption where
  | freeSlotLive (index : Nat)
  | slotMissing (index size : Nat)
  | deadVertexSlot (index : Nat)
  | deadEdgeSlot (index : Nat)
  | edgeFreedTwice (index : Nat)
  | vertexVanished (v : VertexId)
  | deadEndpoint
  | countBelowZero
  | slotMisplaced (expected actual : Nat)
  | listNotEmptied (index : Nat) (d : Direction)
  | walkOverlong
  deriving DecidableEq, Repr

def Corruption.message : Corruption → String
  | .freeSlotLive i => s!"free list points at occupied slot {i}"
  | .slotMissing i n => s!"index out of bounds: the len is {n} but the index is {i}"
  | .deadVertexSlot i => s!"incidence list names dead vertex slot {i}"
  | .deadEdgeSlot i => s!"incidence list names dead edge slot {i}"
  | .edgeFreedTwice i => s!"edge slot {i} freed twice"
  | .vertexVanished v => s!"{v} vanished while its edges were erased"
  | .deadEndpoint => "edge endpoint is not a live vertex"
  | .countBelowZero => "count below zero"
  | .slotMisplaced expected actual => s!"record for slot {expected} stored in slot {actual}"
  | .listNotEmptied i d => s!"{d.label} sublist of vertex slot {i} not emptied"
  | .walkOverlong => "walk longer than its count"

inductive Fault where
  | deadVertex (v : VertexId)
  | deadEdge (e : EdgeId)
  | deadVertexDescriptor (index : Nat)
  | deadEdgeDescriptor (index : Nat)
  | keyChanged (v : VertexId)
  | alreadyLinked (n : Node) (d : Direction)
  | roomTooLarge
  | bucketsTooMany
  | corrupt (c : Corruption)
  deriving DecidableEq, Repr

def Fault.message : Fault → String
  | .deadVertex v => s!"{v} is not live in this graph"
  | .deadEdge e => s!"{e} is not live in this graph"
  | .deadVertexDescriptor i => s!"descriptor {i} is not a live vertex"
  | .deadEdgeDescriptor i => s!"descriptor {i} is not a live edge"
  | .keyChanged v => s!"modify_vertex changed the key of {v}"
  | .alreadyLinked n d => s!"{n.label} is already linked in the {d.label} sublist"
  | .roomTooLarge => "capacity overflow"
  | .bucketsTooMany => "Hash table capacity overflow"
  | .corrupt c => c.message

end SlotGraph

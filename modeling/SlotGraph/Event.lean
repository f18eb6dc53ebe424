set_option autoImplicit false

namespace SlotGraph

inductive Event where
  | erasingVertex (index cascaded : Nat)
  | clearedEdges (removed : Nat)
  | clearingGraph (vertices edges : Nat)
  | rebuiltIndex (vertices : Nat)
  | refusedKey (holder : Nat)
  deriving DecidableEq, Repr

namespace Event

/-- Work on one vertex is traced, work on a whole graph is for debugging. -/
def level : Event → String
  | .erasingVertex _ _ | .refusedKey _ => "TRACE"
  | .clearedEdges _ | .clearingGraph _ _ | .rebuiltIndex _ => "DEBUG"

def message : Event → String
  | .erasingVertex _ _ => "erasing vertex"
  | .clearedEdges _ => "cleared all edges"
  | .clearingGraph _ _ => "clearing graph"
  | .rebuiltIndex _ => "rebuilt vertex index"
  | .refusedKey _ => "rejected duplicate vertex key"

def fields : Event → List (String × Nat)
  | .erasingVertex i n => [("vertex", i), ("cascaded", n)]
  | .clearedEdges n => [("removed", n)]
  | .clearingGraph v e => [("vertices", v), ("edges", e)]
  | .rebuiltIndex n => [("vertices", n)]
  | .refusedKey i => [("existing", i)]

end Event

end SlotGraph

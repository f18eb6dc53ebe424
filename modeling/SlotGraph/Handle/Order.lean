import SlotGraph.Handle
import Std.Data.HashSet
import Std.Data.TreeSet
set_option autoImplicit false

namespace SlotGraph.SlotId

def sorted (ids : List SlotId) : List SlotId := ids.mergeSort fun a b => (compare a b).isLE

def countByOrder (ids : List SlotId) : Nat := (Std.TreeSet.ofList ids).size

def countByHash (ids : List SlotId) : Nat := (Std.HashSet.ofList ids).size

end SlotGraph.SlotId

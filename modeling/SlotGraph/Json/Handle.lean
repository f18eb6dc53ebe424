import SlotGraph.Handle
import SlotGraph.Json.Value
set_option autoImplicit false

/-!
The written form of a handle. The program declares a record of two numbers and has its reading and
its writing derived; what is derived is defined here as the library documents it. It is an object
with the members `index` and `generation`, or, in reading, also a list of the two. Members of other
names are passed over; one of these two may not repeat.
-/

namespace SlotGraph.Json

/-- The characters that pieces stand for. A unit of a surrogate pair must have its other half. -/
def characters? : List Piece → Option (List Char)
  | [] => some []
  | .char c :: rest => (characters? rest).map (c :: ·)
  | .unit n :: rest =>
    if 0xd800 ≤ n ∧ n < 0xdc00 then
      match rest with
      | .unit m :: rest =>
        if 0xdc00 ≤ m ∧ m < 0xe000 then
          (characters? rest).map
            (Char.ofNat (0x10000 + (n - 0xd800) * 0x400 + (m - 0xdc00)) :: ·)
        else none
      | _ => none
    else if 0xdc00 ≤ n ∧ n < 0xe000 then none
    else (characters? rest).map (Char.ofNat n :: ·)

def natural? (text : List Char) : Option Nat :=
  if text.all Char.isDigit then
    some (text.foldl (fun n c => 10 * n + (c.toNat - '0'.toNat)) 0)
  else none

def handleOf? (index generation : List Char) : Option SlotId := do
  let i ← natural? index
  let g ← natural? generation
  if i < UInt64.size ∧ g < UInt32.size then some ⟨i, UInt32.ofNat g⟩ else none

def valuesOf (name : String) (members : List (List Char × Value)) : List Value :=
  (members.filter fun m => m.1 == name.toList).map Prod.snd

def handle? : Value → Option SlotId
  | .list [.number i, .number g] => handleOf? i g
  | .object members => do
    let members ← members.mapM fun (name, v) => (characters? name).map (·, v)
    match valuesOf "index" members, valuesOf "generation" members with
    | [.number i], [.number g] => handleOf? i g
    | _, _ => none
  | _ => none

end SlotGraph.Json

namespace SlotGraph

def SlotId.ofJson? (s : String) : Option SlotId := do Json.handle? (← Json.Value.read? s)

def SlotId.toJson (id : SlotId) : String :=
  "\x7b\"index\":" ++ toString id.index ++ ",\"generation\":" ++ toString id.generation.toNat
    ++ "\x7d"

def VertexId.ofJson? (s : String) : Option VertexId := (SlotId.ofJson? s).map .mk

def VertexId.toJson (v : VertexId) : String := v.slot.toJson

def EdgeId.ofJson? (s : String) : Option EdgeId := (SlotId.ofJson? s).map .mk

def EdgeId.toJson (e : EdgeId) : String := e.slot.toJson

end SlotGraph

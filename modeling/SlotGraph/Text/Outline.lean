import SlotGraph.Text.Quoted
set_option autoImplicit false

namespace SlotGraph

structure Bracket where
  opening : String
  closing : String
  /-- What stands between a bracket and an item on one line. -/
  gap : String
  /-- Whether the group has more items than it shows. -/
  hasMore : Bool
  deriving DecidableEq, Repr

inductive Outline where
  | atom (text : String)
  | entry (key value : Outline)
  | group (bracket : Bracket) (items : List Outline)
  deriving Repr

namespace Outline

def record (name : String) (fields : List (String × Outline)) : Outline :=
  .group ⟨name ++ " \x7b", "\x7d", " ", false⟩ (fields.map fun (key, o) => .entry (.atom key) o)

/-- A record that does not show all its fields. -/
def openRecord (name : String) (fields : List (String × Outline)) : Outline :=
  .group ⟨name ++ " \x7b", "\x7d", " ", true⟩ (fields.map fun (key, o) => .entry (.atom key) o)

def tuple (name : String) (items : List Outline) : Outline :=
  .group ⟨name ++ "(", ")", "", false⟩ items

def table (entries : List (Outline × Outline)) : Outline :=
  .group ⟨"\x7b", "\x7d", "", false⟩ (entries.map fun (key, o) => .entry key o)

mutual

def compact : Outline → String
  | .atom text => text
  | .entry key value => key.compact ++ ": " ++ value.compact
  | .group b [] => b.opening ++ b.closing
  | .group b (o :: rest) =>
    let more := if b.hasMore then ", .." else ""
    b.opening ++ b.gap ++ o.compact ++ compactRest rest ++ more ++ b.gap ++ b.closing

def compactRest : List Outline → String
  | [] => ""
  | o :: rest => ", " ++ o.compact ++ compactRest rest

end

def indent (depth : Nat) : String := String.ofList (List.replicate (4 * depth) ' ')

mutual

def prettyAt (depth : Nat) : Outline → String
  | .atom text => text
  | .entry key value => key.prettyAt depth ++ ": " ++ value.prettyAt depth
  | .group b [] => b.opening ++ b.closing
  | .group b (o :: rest) =>
    let more := if b.hasMore then indent (depth + 1) ++ "..\n" else ""
    b.opening ++ "\n" ++ indent (depth + 1) ++ o.prettyAt (depth + 1) ++ ",\n"
      ++ prettyRest (depth + 1) rest ++ more ++ indent depth ++ b.closing

def prettyRest (depth : Nat) : List Outline → String
  | [] => ""
  | o :: rest => indent depth ++ o.prettyAt depth ++ ",\n" ++ prettyRest depth rest

end

def pretty (o : Outline) : String := o.prettyAt 0

end Outline

class Outlined (α : Type) where
  outline : α → Outline

export Outlined (outline)

instance : Outlined String := ⟨fun s => .atom (Text.quote s)⟩

instance : Outlined Nat := ⟨fun n => .atom (toString n)⟩

instance : Outlined Int := ⟨fun n => .atom (toString n)⟩

end SlotGraph

import SlotGraph.Table.Basic
set_option autoImplicit false

namespace SlotGraph.Table

inductive Edit (α : Type) where
  | insert (x : α)
  | remove (id : SlotId)
  | removeAt (i : Nat)
  | update (id : SlotId) (f : α → α)
  | updateAt (i : Nat) (f : α → α)
  | clear

inductive Answer (α : Type) where
  | done
  | handle (id : SlotId)
  | value (x : Option α)
  deriving DecidableEq, Repr

def Edit.apply {α : Type} : Edit α → Change (Table α) (Answer α)
  | .insert x => return .handle (← Table.insert x)
  | .remove id => return .value (← Table.remove id)
  | .removeAt i => return .value (← Table.removeAt i)
  | .update id f => do
    let old := (← get).get? id
    modify fun t => t.update id f
    return .value old
  | .updateAt i f => do
    let old := (← get).at? i
    modify fun t => t.updateAt i f
    return .value old
  | .clear => do
    set (empty : Table α)
    return .done

end SlotGraph.Table

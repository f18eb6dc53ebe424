import SlotGraph.Incidence.Splice
set_option autoImplicit false

namespace SlotGraph

structure Circles where
  heads : Array (PerDirection Link)
  edges : Array (PerDirection Link)
  deriving DecidableEq, Repr

namespace Circles

/-- A store whose nodes all stand alone. -/
def ofSizes (heads edges : Nat) : Circles where
  heads := Array.ofFn fun i : Fin heads => .both (.around (.head i))
  edges := Array.ofFn fun i : Fin edges => .both (.around (.edge i))

def links? (a : Circles) : Node → Option (PerDirection Link)
  | .head i => a.heads[i]?
  | .edge i => a.edges[i]?

def setLink (a : Circles) (n : Node) (d : Direction) (l : Link) : Circles :=
  match n with
  | .head i => { a with heads := a.heads.modify i fun p => p.set d l }
  | .edge i => { a with edges := a.edges.modify i fun p => p.set d l }

def missing (a : Circles) : Node → Fault
  | .head i => .corrupt (.slotMissing i a.heads.size)
  | .edge i => .corrupt (.slotMissing i a.edges.size)

instance : LinkStore Circles where
  link? a n d := (a.links? n).map fun p => p.get d
  setLink := setLink
  missing := missing

inductive Edit where
  | insertBefore (n anchor : Node) (d : Direction)
  | unlink (n : Node) (d : Direction)
  deriving DecidableEq, Repr

def Edit.apply : Edit → Change Circles Unit
  | .insertBefore n anchor d => LinkStore.insertBefore n anchor d
  | .unlink n d => LinkStore.unlink n d

end Circles

end SlotGraph

set_option autoImplicit false

namespace SlotGraph

inductive Direction where
  | outgoing
  | incoming
  deriving DecidableEq, Repr

def Direction.label : Direction → String
  | .outgoing => "Out"
  | .incoming => "In"

structure PerDirection (α : Type) where
  outgoing : α
  incoming : α
  deriving DecidableEq, Repr

namespace PerDirection

def both {α : Type} (x : α) : PerDirection α := ⟨x, x⟩

def get {α : Type} (p : PerDirection α) : Direction → α
  | .outgoing => p.outgoing
  | .incoming => p.incoming

def modify {α : Type} (p : PerDirection α) (d : Direction) (f : α → α) : PerDirection α :=
  match d with
  | .outgoing => ⟨f p.outgoing, p.incoming⟩
  | .incoming => ⟨p.outgoing, f p.incoming⟩

def set {α : Type} (p : PerDirection α) (d : Direction) (x : α) : PerDirection α :=
  p.modify d fun _ => x

@[simp] theorem get_both {α : Type} (x : α) (d : Direction) : (both x).get d = x := by
  cases d <;> rfl

@[simp] theorem get_modify_self {α : Type} (p : PerDirection α) (d : Direction) (f : α → α) :
    (p.modify d f).get d = f (p.get d) := by cases d <;> rfl

end PerDirection

/-- The head of the vertex in a slot, or the edge in a slot. -/
inductive Node where
  | head (index : Nat)
  | edge (index : Nat)
  deriving DecidableEq, Repr

def Node.label : Node → String
  | .head i => s!"Head({i})"
  | .edge i => s!"Edge({i})"

structure Link where
  prev : Node
  next : Node
  deriving DecidableEq, Repr

/-- The link of a node that stands alone. -/
def Link.around (n : Node) : Link := ⟨n, n⟩

end SlotGraph

import SlotGraph.Change
set_option autoImplicit false

/-!
Splicing in circles of links. Any store that can look up and replace the link of a node can be
spliced; inserting before a head appends to the list of that head, since the list is a circle.
-/

namespace SlotGraph

class LinkStore (σ : Type) where
  link? : σ → Node → Direction → Option Link
  setLink : σ → Node → Direction → Link → σ
  /-- What is wrong when the store is asked for a node that it does not hold. -/
  missing : σ → Node → Fault

namespace LinkStore

variable {σ : Type} [LinkStore σ]

def link (s : σ) (n : Node) (d : Direction) : Except Fault Link :=
  match link? s n d with
  | some l => .ok l
  | none => .error (missing s n)

/-- Replaces the link of a node that the store holds. -/
def adjust (n : Node) (d : Direction) (f : Link → Link) : Change σ Unit := fun s =>
  match link? s n d with
  | some l => .ok () (setLink s n d (f l))
  | none => .error (missing s n) s

def isSingleton (s : σ) (n : Node) (d : Direction) : Except Fault Bool := do
  let l ← link s n d
  return l == Link.around n

/-- Puts the free node `n` in front of `anchor`. -/
def insertBefore (n anchor : Node) (d : Direction) : Change σ Unit := do
  unless ← Change.ask (isSingleton · n d) do throw (.alreadyLinked n d)
  let prev := (← Change.ask (link · anchor d)).prev
  adjust n d fun _ => ⟨prev, anchor⟩
  adjust prev d fun l => { l with next := n }
  adjust anchor d fun l => { l with prev := n }

/-- Takes `n` out of its circle, which leaves it alone. -/
def unlink (n : Node) (d : Direction) : Change σ Unit := do
  let l ← Change.ask (link · n d)
  adjust l.prev d fun k => { k with next := l.next }
  adjust l.next d fun k => { k with prev := l.prev }
  adjust n d fun _ => Link.around n

end LinkStore

end SlotGraph

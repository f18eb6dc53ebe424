set_option autoImplicit false

/-!
Sequences read from both ends. A reader is a value: reading an item gives the reader of the rest,
and the reader read from is still there to be read again.
-/

namespace SlotGraph

class TwoEnded (ι : Type) (α : outParam Type) where
  next? : ι → Option (α × ι)
  nextBack? : ι → Option (α × ι)
  remaining : ι → Nat

namespace TwoEnded

variable {ι α : Type} [TwoEnded ι α]

def takeFront : Nat → ι → List α
  | 0, _ => []
  | n + 1, it =>
    match next? it with
    | none => []
    | some (x, rest) => x :: takeFront n rest

def takeBack : Nat → ι → List α
  | 0, _ => []
  | n + 1, it =>
    match nextBack? it with
    | none => []
    | some (x, rest) => x :: takeBack n rest

def toList (it : ι) : List α := takeFront (remaining it) it

def toListReversed (it : ι) : List α := takeBack (remaining it) it

def skip : Nat → ι → Option α × ι
  | 0, it =>
    match next? it with
    | none => (none, it)
    | some (x, rest) => (some x, rest)
  | n + 1, it =>
    match next? it with
    | none => (none, it)
    | some (_, rest) => skip n rest

end TwoEnded

inductive Probe where
  | front
  | back
  | length
  | bounds
  | rest
  | restReversed
  | count
  | last
  | skip (n : Nat)
  deriving DecidableEq, Repr

inductive Reading (α : Type) where
  | item (x : Option α)
  | number (n : Nat)
  | bounds (lower upper : Nat)
  | items (xs : List α)
  deriving DecidableEq, Repr

namespace Probe

variable {ι α : Type} [TwoEnded ι α]

def taken (it : ι) : Option (α × ι) → Reading α × ι
  | none => (.item none, it)
  | some (x, later) => (.item (some x), later)

/-- Only `front`, `back` and `skip` use items up; the others read on the side. -/
def read (it : ι) : Probe → Reading α × ι
  | .front => taken it (TwoEnded.next? it)
  | .back => taken it (TwoEnded.nextBack? it)
  | .length => (.number (TwoEnded.remaining it), it)
  | .bounds => (.bounds (TwoEnded.remaining it) (TwoEnded.remaining it), it)
  | .rest => (.items (TwoEnded.toList it), it)
  | .restReversed => (.items (TwoEnded.toListReversed it), it)
  | .count => (.number (TwoEnded.toList it).length, it)
  | .last => (.item (TwoEnded.toList it).getLast?, it)
  | .skip n => let (x, later) := TwoEnded.skip n it; (.item x, later)

def readAll : List Probe → ι → List (Reading α) × ι
  | [], it => ([], it)
  | p :: ps, it =>
    let (r, later) := p.read it
    let (rs, final) := readAll ps later
    (r :: rs, final)

end Probe

structure Mapped (ι α β : Type) where
  source : ι
  image : α → β

namespace Mapped

variable {ι α β : Type}

def step (m : Mapped ι α β) : Option (α × ι) → Option (β × Mapped ι α β)
  | none => none
  | some (x, rest) => some (m.image x, { m with source := rest })

instance [TwoEnded ι α] : TwoEnded (Mapped ι α β) β where
  next? m := m.step (TwoEnded.next? m.source)
  nextBack? m := m.step (TwoEnded.nextBack? m.source)
  remaining m := TwoEnded.remaining m.source

end Mapped

end SlotGraph

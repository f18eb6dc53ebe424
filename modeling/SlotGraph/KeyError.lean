set_option autoImplicit false

namespace SlotGraph

/-- The one failure of a keyed graph that callers are meant to handle. -/
inductive KeyError (K : Type) where
  /-- A live vertex holds this key, and nothing was changed. -/
  | taken (key : K)
  deriving DecidableEq, Repr

def KeyError.key {K : Type} : KeyError K → K
  | .taken key => key

end SlotGraph

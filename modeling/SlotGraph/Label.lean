set_option autoImplicit false

/-!
Texts on vertices and numbers on edges: the keys that can be made of a text, and the ways to
change the payloads of a copy. Upper and lower case are those of ASCII; all else stays.
-/

namespace SlotGraph

inductive TextKey where
  | whole
  | beforeColon
  | lower
  deriving DecidableEq, Repr

def TextKey.of : TextKey → String → String
  | .whole, s => s
  | .beforeColon, s => String.ofList (s.toList.takeWhile (· ≠ ':'))
  | .lower, s => s.map Char.toLower

inductive Relabelling where
  | same
  | upper
  | bang
  | const
  | serial
  deriving DecidableEq, Repr

def Relabelling.step : Relabelling → Nat → String → String × Nat
  | .same, n, s => (s, n + 1)
  | .upper, n, s => (s.map Char.toUpper, n + 1)
  | .bang, n, s => (s ++ "!", n + 1)
  | .const, n, _ => ("k", n + 1)
  | .serial, n, _ => (toString n, n + 1)

inductive Reweighting where
  | same
  | complement
  | zero
  | serial
  deriving DecidableEq, Repr

def Reweighting.step : Reweighting → Nat → Int → Int × Nat
  | .same, n, x => (x, n + 1)
  | .complement, n, x => (-x - 1, n + 1)
  | .zero, n, _ => (0, n + 1)
  | .serial, n, _ => (n, n + 1)

/-- A test of numbers that may depend on how often it was asked before. -/
inductive Choice where
  | residue (modulus remainder : Nat)
  | every (period : Nat)
  | among (numbers : List Nat)
  deriving DecidableEq, Repr

def Choice.holds : Choice → List Nat → Nat → Bool
  | .residue m r, _, i => i % m == r
  | .every n, earlier, _ => (earlier.length + 1) % n == 0
  | .among is, _, i => is.contains i

end SlotGraph

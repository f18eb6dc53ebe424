import SlotGraph.Fault
set_option autoImplicit false

/-!
Changes of a state that may stop. The state that a change had reached stays behind when it stops,
and later changes start from there; so a change that checks before it writes leaves all as it was.
-/

namespace SlotGraph

abbrev Change (σ α : Type) : Type := EStateM Fault σ α

namespace Change

variable {σ α β : Type}

/-- Reads from the state, which stays as it is. -/
def ask (read : σ → Except Fault α) : Change σ α := fun s =>
  match read s with
  | .ok x => .ok x s
  | .error e => .error e s

def corrupt (c : Corruption) : Change σ α := throw (.corrupt c)

theorem ask_ok {read : σ → Except Fault α} {s : σ} {x : α} (h : read s = .ok x) :
    ask read s = .ok x s := by simp [ask, h]

theorem ask_error {read : σ → Except Fault α} {s : σ} {e : Fault} (h : read s = .error e) :
    ask read s = .error e s := by simp [ask, h]

theorem bind_ok {a : Change σ α} {f : α → Change σ β} {s t : σ} {x : α} (h : a s = .ok x t) :
    (a >>= f) s = f x t := by
  show EStateM.bind a f s = f x t
  simp [EStateM.bind, h]

theorem bind_error {a : Change σ α} {f : α → Change σ β} {s t : σ} {e : Fault}
    (h : a s = .error e t) : (a >>= f) s = .error e t := by
  show EStateM.bind a f s = .error e t
  simp [EStateM.bind, h]

end Change

end SlotGraph

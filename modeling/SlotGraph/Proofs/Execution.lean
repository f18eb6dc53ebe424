import SlotGraph.Change
set_option autoImplicit false

namespace SlotGraph.Change

variable {σ α β : Type}

@[simp] theorem get_bind (f : σ → Change σ β) (s : σ) : (get >>= f) s = f s s := rfl

@[simp] theorem modify_bind (g : σ → σ) (f : PUnit → Change σ β) (s : σ) :
    (modify g >>= f) s = f () (g s) := rfl

@[simp] theorem pure_run (x : α) (s : σ) : (pure x : Change σ α) s = .ok x s := rfl

theorem ask_bind_ok {read : σ → Except Fault α} {f : α → Change σ β} {s : σ} {x : α}
    (h : read s = .ok x) : (ask read >>= f) s = f x s := bind_ok (ask_ok h)

theorem ask_bind_error {read : σ → Except Fault α} {f : α → Change σ β} {s : σ} {e : Fault}
    (h : read s = .error e) : (ask read >>= f) s = .error e s := bind_error (ask_error h)

/-- Whether a change succeeded or failed, the state that it left satisfies `Q`. -/
inductive Leaves (Q : σ → Prop) : EStateM.Result Fault σ α → Prop where
  | ok {s : σ} (x : α) : Q s → Leaves Q (.ok x s)
  | error {s : σ} (e : Fault) : Q s → Leaves Q (.error e s)

namespace Leaves

variable {Q : σ → Prop} {s : σ}

theorem of_ok {a : Change σ α} {x : α} {t : σ} (ha : a s = .ok x t) (h : Q t) :
    Leaves Q (a s) := by
  rw [ha]
  exact .ok x h

theorem of_error {a : Change σ α} {e : Fault} {t : σ} (ha : a s = .error e t) (h : Q t) :
    Leaves Q (a s) := by
  rw [ha]
  exact .error e h

theorem bind {a : Change σ α} {f : α → Change σ β} (h : Leaves Q (a s))
    (hrest : ∀ x t, a s = .ok x t → Q t → Leaves Q (f x t)) : Leaves Q ((a >>= f) s) := by
  generalize ha : a s = r at h
  cases h with
  | ok x hx =>
    rw [bind_ok ha]
    exact hrest x _ ha hx
  | error e he =>
    rw [bind_error ha]
    exact .error e he

end Leaves

end SlotGraph.Change

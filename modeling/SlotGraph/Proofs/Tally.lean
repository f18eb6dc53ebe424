import SlotGraph.Proofs.Execution
set_option autoImplicit false

/-!
Changes side by side. A change of one state tallies with a change of another if both give the same
result or the same fault and leave states that are related again.
-/

namespace SlotGraph

variable {σ τ α β : Type} {R : σ → τ → Prop} {s : σ} {t : τ}

/-- The same result or fault, over related states. -/
inductive Tally (R : σ → τ → Prop) :
    EStateM.Result Fault σ α → EStateM.Result Fault τ α → Prop where
  | ok {s : σ} {t : τ} (x : α) : R s t → Tally R (.ok x s) (.ok x t)
  | error {s : σ} {t : τ} (f : Fault) : R s t → Tally R (.error f s) (.error f t)

namespace Tally

theorem of_ok {a : Change σ α} {b : Change τ α} {x : α} {s' : σ} {t' : τ} (ha : a s = .ok x s')
    (hb : b t = .ok x t') (h : R s' t') : Tally R (a s) (b t) := by
  rw [ha, hb]
  exact .ok x h

theorem of_error {a : Change σ α} {b : Change τ α} {f : Fault} {s' : σ} {t' : τ}
    (ha : a s = .error f s') (hb : b t = .error f t') (h : R s' t') : Tally R (a s) (b t) := by
  rw [ha, hb]
  exact .error f h

theorem exists_ok {a : Change σ α} {b : Change τ α} {x : α} {t' : τ} (h : Tally R (a s) (b t))
    (hb : b t = .ok x t') : ∃ s', a s = .ok x s' ∧ R s' t' := by
  rw [hb] at h
  generalize ha : a s = r at h
  cases h with
  | ok x h' => exact ⟨_, rfl, h'⟩

theorem exists_error {a : Change σ α} {b : Change τ α} {f : Fault} {t' : τ}
    (h : Tally R (a s) (b t)) (hb : b t = .error f t') : ∃ s', a s = .error f s' ∧ R s' t' := by
  rw [hb] at h
  generalize ha : a s = r at h
  cases h with
  | error f h' => exact ⟨_, rfl, h'⟩

theorem and {Q : τ → Prop} {a : EStateM.Result Fault σ α} {b : EStateM.Result Fault τ α}
    (h : Tally R a b) (hb : Change.Leaves Q b) : Tally (fun s t => R s t ∧ Q t) a b := by
  cases h with
  | ok x h' =>
    cases hb with
    | ok _ hq => exact .ok x ⟨h', hq⟩
  | error f h' =>
    cases hb with
    | error _ hq => exact .error f ⟨h', hq⟩

theorem bind {a : Change σ α} {b : Change τ α} {f : α → Change σ β} {k : α → Change τ β}
    (h : Tally R (a s) (b t))
    (hrest : ∀ x s' t', b t = .ok x t' → R s' t' → Tally R (f x s') (k x t')) :
    Tally R ((a >>= f) s) ((b >>= k) t) := by
  generalize ha : a s = ra at h
  generalize hb : b t = rb at h
  cases h with
  | ok x h' =>
    rw [Change.bind_ok ha, Change.bind_ok hb]
    exact hrest x _ _ hb h'
  | error e h' =>
    rw [Change.bind_error ha, Change.bind_error hb]
    exact .error e h'

end Tally

end SlotGraph

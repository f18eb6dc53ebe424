import Mathlib.Data.List.Induction
import Mathlib.Order.Bounds.Basic
set_option autoImplicit false

namespace SlotGraph

variable {σ ε : Type}

/-- The states from the last reset on, or from the start if there is none. -/
def Since (run : List ε → σ) (reset : ε) (items : List ε) : Set σ :=
  { s | ∃ earlier later, items = earlier ++ later ∧ reset ∉ later ∧ run earlier = s }

section

variable {run : List ε → σ} {reset : ε}

theorem since_nil : Since run reset [] = {run []} := by
  ext s
  constructor
  · rintro ⟨earlier, later, hsplit, -, rfl⟩
    rw [(List.append_eq_nil_iff.mp hsplit.symm).1]
    rfl
  · rintro rfl
    exact ⟨[], [], rfl, List.not_mem_nil, rfl⟩

theorem since_reset (items : List ε) :
    Since run reset (items ++ [reset]) = {run (items ++ [reset])} := by
  ext s
  constructor
  · rintro ⟨earlier, later, hsplit, hnot, rfl⟩
    rcases List.eq_nil_or_concat later with rfl | ⟨later, x, rfl⟩
    · rw [hsplit, List.append_nil]
      rfl
    · rw [List.concat_eq_append, ← List.append_assoc] at hsplit
      obtain ⟨-, hx⟩ := List.append_inj' hsplit rfl
      exact absurd (by simp [← hx]) hnot
  · rintro rfl
    exact ⟨items ++ [reset], [], by simp, List.not_mem_nil, rfl⟩

theorem since_step {x : ε} (hx : x ≠ reset) (items : List ε) :
    Since run reset (items ++ [x]) = insert (run (items ++ [x])) (Since run reset items) := by
  ext s
  constructor
  · rintro ⟨earlier, later, hsplit, hnot, rfl⟩
    rcases List.eq_nil_or_concat later with rfl | ⟨later, y, rfl⟩
    · rw [hsplit, List.append_nil]
      exact .inl rfl
    · rw [List.concat_eq_append, ← List.append_assoc] at hsplit
      exact .inr ⟨earlier, later, (List.append_inj' hsplit rfl).1,
        fun hmem => hnot (by simp [hmem]), rfl⟩
  · rintro (rfl | ⟨earlier, later, rfl, hnot, rfl⟩)
    · exact ⟨items ++ [x], [], by simp, List.not_mem_nil, rfl⟩
    · exact ⟨earlier, later ++ [x], by simp, by simp [hnot, Ne.symm hx], rfl⟩

theorem isGreatest_since (level room : σ → Nat) (hstart : room (run []) = level (run []))
    (hreset : ∀ items, room (run (items ++ [reset])) = level (run (items ++ [reset])))
    (hstep : ∀ items x, x ≠ reset →
      room (run (items ++ [x])) = max (room (run items)) (level (run (items ++ [x]))))
    (items : List ε) : IsGreatest (level '' Since run reset items) (room (run items)) := by
  -- on the end of the history, since it is the last item that resets or adds a state
  induction items using List.reverseRecOn with
  | nil =>
    rw [since_nil, Set.image_singleton, hstart]
    exact isGreatest_singleton
  | append_singleton items x ih =>
    by_cases hx : x = reset
    · rw [hx, since_reset, Set.image_singleton, hreset]
      exact isGreatest_singleton
    · rw [since_step hx, Set.image_insert_eq, hstep items x hx, max_comm]
      exact ih.insert _

end

end SlotGraph

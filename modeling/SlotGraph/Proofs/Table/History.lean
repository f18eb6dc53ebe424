import SlotGraph.Proofs.Table.Reading
set_option autoImplicit false

namespace SlotGraph.Table

variable {α : Type}

theorem run_ok {t : Table α} {a : Ledger α} (h : Represents t a) (edits : List (Edit α)) :
    ∃ t', edits.mapM Edit.apply t = .ok (a.run edits).1 t' ∧ Represents t' (a.run edits).2 := by
  induction edits generalizing t a with
  | nil => exact ⟨t, by simp [Ledger.run], h⟩
  | cons edit rest ih =>
    obtain ⟨t₁, hstep, h₁⟩ := apply_ok h edit
    obtain ⟨t₂, hrun, h₂⟩ := ih h₁
    refine ⟨t₂, ?_, h₂⟩
    rw [List.mapM_cons, Change.bind_ok hstep, Change.bind_ok hrun]
    rfl

theorem run_new_ok [Footprint α] {start : Table α}
    (hstart : start = empty ∨ ∃ n, withRoom n = .ok start) (edits : List (Edit α)) :
    ∃ t, edits.mapM Edit.apply start = .ok (Ledger.run edits {}).1 t ∧
      Represents t (Ledger.run edits {}).2 := by
  have hempty : start = empty := hstart.elim id fun ⟨_, hn⟩ => (withRoom_eq_ok_iff.mp hn).2
  rw [hempty]
  exact run_ok represents_empty edits

/-- A history of edits goes through on a table newly made, with or without room, and the table then
answers in every way as the ledger of the same history. -/
theorem history_agrees [Footprint α] (edits : List (Edit α)) (start : Table α)
    (hstart : start = empty ∨ ∃ n, withRoom n = .ok start) :
    ∃ t, edits.mapM Edit.apply start = .ok (Ledger.run edits {}).1 t ∧
      Agrees t (Ledger.run edits {}).2 := by
  have hempty : start = empty := by
    rcases hstart with rfl | ⟨n, hn⟩
    · rfl
    · exact (withRoom_eq_ok_iff.mp hn).2
  obtain ⟨t, hrun, h⟩ := run_ok represents_empty edits
  exact ⟨t, hempty ▸ hrun, h.agrees⟩

theorem history_agrees_after_reuse :
    withRoom 2 = .ok (empty : Table Nat) ∧
      ∃ t, [Edit.insert 10, .insert 20, .removeAt 0, .remove ⟨0, 0⟩, .insert 30].mapM
          Edit.apply (empty : Table Nat) =
          .ok [.handle ⟨0, 0⟩, .handle ⟨1, 0⟩, .value (some 10), .value none, .handle ⟨0, 1⟩] t ∧
        Agrees t ⟨[(⟨1, 0⟩, 20), (⟨0, 1⟩, 30)], []⟩ := by
  have hroom : withRoom 2 = .ok (empty : Table Nat) := rfl
  exact ⟨hroom, history_agrees _ empty (.inr ⟨2, hroom⟩)⟩

end SlotGraph.Table

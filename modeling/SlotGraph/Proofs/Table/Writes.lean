import SlotGraph.Proofs.Table.View
set_option autoImplicit false

namespace SlotGraph.Table

variable {α : Type}

theorem isSome_find? (t : Table α) (i : Nat) : (t.find? i).isSome = (t.at? i).isSome := by
  rw [at?_eq, find?_eq, Option.isSome_map, Option.isSome_map]

theorem at?_updateAt (t : Table α) (i : Nat) (u : α → α) (j : Nat) :
    (t.updateAt i u).at? j = if j = i then (t.at? j).map u else t.at? j := by
  rw [Table.at?_eq, Table.at?_eq, record?_updateAt]
  cases hp : t.record? j with
  | none => simp
  | some p =>
    have hindex := index_of_record? hp
    by_cases hij : j = i <;> simp [hindex, hij]

theorem get?_of_dead {t : Table α} {id : SlotId} (h : t.contains id = false) : t.get? id = none := by
  simpa [contains] using h

theorem update_of_dead {t : Table α} {id : SlotId} (h : t.contains id = false) (u : α → α) :
    t.update id u = t := if_neg (Bool.eq_false_iff.mp h)

theorem get?_update_self (t : Table α) (id : SlotId) (u : α → α) :
    (t.update id u).get? id = (t.get? id).map u := by
  by_cases hlive : t.contains id = true
  · rw [update, if_pos hlive]
    rcases hs : t.slots[id.index]? with _ | ⟨_ | _⟩ <;>
      simp [get?, updateAt, Array.getElem?_modify, hs, Slot.update, apply_ite (Option.map u)]
  · have hdead := Bool.eq_false_iff.mpr hlive
    rw [update_of_dead hdead, get?_of_dead hdead, Option.map_none]

theorem get?_update_of_ne (t : Table α) {id id' : SlotId} (h : id' ≠ id) (u : α → α) :
    (t.update id u).get? id' = t.get? id' := by
  by_cases hlive : t.contains id = true
  · obtain ⟨x, hx⟩ := Option.isSome_iff_exists.mp hlive
    rw [update, if_pos hlive]
    refine Option.ext fun y => ?_
    rw [get?_eq_some, get?_eq_some, record?_updateAt]
    by_cases hi : id'.index = id.index
    · rw [hi, get?_eq_some.mp hx]
      simp [Ne.symm h]
    · cases hr : t.record? id'.index with
      | none => rfl
      | some p => simp [index_of_record? hr, hi]
  · rw [update_of_dead (Bool.eq_false_iff.mpr hlive)]

theorem at?_update_map {γ : Type} (t : Table α) (id : SlotId) {u : α → α} {k : α → γ}
    (hk : ∀ x, k (u x) = k x) (j : Nat) : ((t.update id u).at? j).map k = (t.at? j).map k := by
  unfold Table.update
  split
  · rw [at?_updateAt]
    by_cases hj : j = id.index <;> simp [hj, Function.comp_def, hk]
  · rfl

theorem eq_of_slots (t : Table α) {s s' : Array (Slot α)} (h : ∀ j : Nat, s[j]? = s'[j]?) :
    { t with slots := s } = { t with slots := s' } :=
  congrArg (fun slots => { t with slots }) (Array.ext_getElem? h)

theorem updateAt_self {t : Table α} {i : Nat} {f : α → α}
    (h : ∀ x, t.at? i = some x → f x = x) : t.updateAt i f = t := by
  refine t.eq_of_slots fun j => ?_
  rw [Array.getElem?_modify]
  by_cases hij : i = j
  · subst hij
    rcases hs : t.slots[i]? with _ | ⟨g, prev, next, x⟩ | ⟨g, below⟩
    · simp
    · simp [Slot.update, h x (by simp [at?, hs])]
    · simp [Slot.update]
  · rw [if_neg hij]

theorem updateAt_updateAt (t : Table α) (i : Nat) (f g : α → α) :
    (t.updateAt i f).updateAt i g = t.updateAt i (g ∘ f) := by
  have hslot : Slot.update g ∘ Slot.update f = Slot.update (g ∘ f) := by
    funext s
    cases s <;> rfl
  refine t.eq_of_slots fun j => ?_
  simp only [updateAt, Array.getElem?_modify]
  by_cases hij : i = j
  · simp [hij, ← hslot]
  · simp [hij]

theorem updateAt_comm (t : Table α) {i j : Nat} (h : i ≠ j) (f g : α → α) :
    (t.updateAt i f).updateAt j g = (t.updateAt j g).updateAt i f := by
  refine t.eq_of_slots fun k => ?_
  simp only [updateAt, Array.getElem?_modify]
  by_cases hj : j = k
  · simp [hj, show i ≠ k from hj ▸ h]
  · simp [hj]

theorem update_self {t : Table α} {id : SlotId} {f : α → α}
    (h : ∀ x, t.get? id = some x → f x = x) : t.update id f = t := by
  by_cases hlive : t.contains id = true
  · rw [update, if_pos hlive]
    obtain ⟨x, hx⟩ := Option.isSome_iff_exists.mp hlive
    have hat : t.at? id.index = some x := by
      rw [at?_eq, get?_eq_some.mp hx]
      rfl
    refine updateAt_self fun y hy => ?_
    rw [hat] at hy
    exact Option.some.inj hy ▸ h x hx
  · exact update_of_dead (Bool.eq_false_iff.mpr hlive) f

theorem update_update (t : Table α) (id : SlotId) (f g : α → α) :
    (t.update id f).update id g = t.update id (g ∘ f) := by
  by_cases hlive : t.contains id = true
  · have hlive' : (t.update id f).contains id = true := by
      rw [contains, get?_update_self, Option.isSome_map]
      exact hlive
    rw [update, if_pos hlive', update, if_pos hlive, update, if_pos hlive, updateAt_updateAt]
  · have hdead := Bool.eq_false_iff.mpr hlive
    rw [update_of_dead hdead, update_of_dead hdead, update_of_dead hdead]

end SlotGraph.Table

import SlotGraph.Proofs.Table.Reading
import SlotGraph.Proofs.Table.Writes
set_option autoImplicit false

namespace SlotGraph.Table

variable {α β : Type}

def Shows (f : α → β) (t : Table α) (a : Ledger β) : Prop :=
  ∃ b, Represents t b ∧ b.map f = a

namespace Shows

variable {f : α → β} {t : Table α} {a : Ledger β}

theorem nodup (h : Shows f t a) : a.indices.Nodup := by
  obtain ⟨b, hb, rfl⟩ := h
  rw [Ledger.indices_map]
  exact hb.nodup

theorem nodup_live (h : Shows f t a) : a.liveIndices.Nodup := (List.nodup_append.mp h.nodup).1

theorem size_eq (h : Shows f t a) : t.size = a.live.length := by
  obtain ⟨b, hb, rfl⟩ := h
  rw [hb.size_eq, Ledger.map, List.length_map]

theorem nextIndex_eq (h : Shows f t a) : t.nextIndex = a.fresh.index := by
  obtain ⟨b, hb, rfl⟩ := h
  rw [Table.nextIndex_eq hb, Ledger.fresh_map]

theorem head_eq (h : Shows f t a) : t.head = a.liveIndices.head? := by
  obtain ⟨b, hb, rfl⟩ := h
  rw [hb.agrees.first, Ledger.liveIndices_map]

theorem get?_map (h : Shows f t a) (id : SlotId) : (t.get? id).map f = a.get? id := by
  obtain ⟨b, hb, rfl⟩ := h
  rw [hb.get?_eq, Ledger.get?_map]

theorem contains_eq (h : Shows f t a) (id : SlotId) : t.contains id = (a.get? id).isSome := by
  rw [contains, ← h.get?_map, Option.isSome_map]

theorem contains_iff (h : Shows f t a) {id : SlotId} :
    t.contains id = true ↔ ∃ y, (id, y) ∈ a.live := by
  rw [h.contains_eq, Option.isSome_iff_exists]
  exact exists_congr fun y => Ledger.get?_eq_some h.nodup_live

theorem find?_eq (h : Shows f t a) (i : Nat) : t.find? i = (a.record? i).map Prod.fst := by
  obtain ⟨b, hb, rfl⟩ := h
  rw [hb.find?_eq, Ledger.record?_map, Option.map_map]
  rfl

theorem find?_eq_some (h : Shows f t a) {i : Nat} {id : SlotId} :
    t.find? i = some id ↔ (∃ y, (id, y) ∈ a.live) ∧ id.index = i := by
  rw [h.find?_eq, Option.map_eq_some_iff]
  constructor
  · intro hrecord
    obtain ⟨p, hp, rfl⟩ := hrecord
    obtain ⟨hlive, hi⟩ := (Ledger.record?_eq_some h.nodup_live).mp hp
    exact ⟨⟨p.2, hlive⟩, hi⟩
  · intro hlive
    obtain ⟨⟨y, hy⟩, hi⟩ := hlive
    exact ⟨(id, y), (Ledger.record?_eq_some h.nodup_live).mpr ⟨hy, hi⟩, rfl⟩

theorem toList_map (h : Shows f t a) : t.toList.map (fun p => (p.1, f p.2)) = a.live := by
  obtain ⟨b, hb, rfl⟩ := h
  rw [toList_eq hb]
  rfl

theorem handles_gives {γ : Type} (h : Shows f t a) (k : SlotId → γ) :
    TwoEnded.Gives (Mapped.mk t.entries fun p : SlotId × α => k p.1)
      (a.live.map fun p => k p.1) := by
  obtain ⟨b, hb, rfl⟩ := h
  have hlist : (b.map f).live.map (fun p => k p.1) = b.live.map fun p => k p.1 := by
    simp [Ledger.map]
  rw [hlist]
  exact TwoEnded.Gives.mapped ⟨_, exact_spans, hb.spans⟩ _

theorem next?_eq (h : Shows f t a) {l r : List (SlotId × β)} {p : SlotId × β}
    (hlive : a.live = l ++ p :: r) : t.next? p.1.index = r.head?.map fun q => q.1.index := by
  obtain ⟨b, hb, rfl⟩ := h
  obtain ⟨l', r', hsplit, rfl, hr⟩ := List.map_eq_append_iff.mp hlive
  obtain ⟨q, r'', rfl, rfl, rfl⟩ := List.map_eq_cons_iff.mp hr
  rw [List.head?_map, Option.map_map]
  exact hb.agrees.next? l' q r'' hsplit

theorem get?_eq_at? (h : Shows f t a) {id : SlotId} {y : β} (hy : (id, y) ∈ a.live) :
    ∃ x, t.get? id = some x ∧ t.at? id.index = some x ∧ f x = y := by
  obtain ⟨b, hb, rfl⟩ := h
  obtain ⟨⟨id', x⟩, hx, heq⟩ := List.mem_map.mp hy
  obtain ⟨rfl, rfl⟩ := Prod.mk.inj heq
  refine ⟨x, hb.get?_eq_some.mpr hx, ?_, rfl⟩
  rw [Table.at?_eq, hb.entries _ hx]
  rfl

theorem updateAt (h : Shows f t a) {u : α → α} (hu : ∀ x, f (u x) = f x) (i : Nat) :
    Shows f (t.updateAt i u) a := by
  obtain ⟨b, hb, rfl⟩ := h
  exact ⟨b.updateAt i u, hb.updateAt i u, Ledger.updateAt_map hu b i⟩

theorem update (h : Shows f t a) {u : α → α} {w : β → β} (hu : ∀ x, f (u x) = w (f x))
    (id : SlotId) : Shows f (t.update id u) (a.update id w) := by
  obtain ⟨b, hb, rfl⟩ := h
  exact ⟨b.update id u, hb.update id u, Ledger.update_map hu b id⟩

theorem fresh_not_mem (h : Shows f t a) : a.fresh.index ∉ a.liveIndices := by
  obtain ⟨b, hb, rfl⟩ := h
  rw [Ledger.fresh_map, Ledger.liveIndices_map]
  exact Table.fresh_not_mem hb

theorem insert (h : Shows f t a) (x : α) :
    ∃ t', Table.insert x t = .ok a.fresh t' ∧ Shows f t' (a.insert (f x)) ∧
      ∀ j, t'.at? j = if j = a.fresh.index then some x else t.at? j := by
  have hfresh := h.fresh_not_mem
  obtain ⟨b, hb, rfl⟩ := h
  rw [Ledger.fresh_map] at hfresh ⊢
  rw [Ledger.liveIndices_map] at hfresh
  obtain ⟨t', hrun, hb'⟩ := insert_ok hb x
  refine ⟨t', hrun, ⟨b.insert x, hb', Ledger.insert_map f b x⟩, fun j => ?_⟩
  rw [hb'.at?_eq, hb.at?_eq, Ledger.record?_insert hfresh]
  by_cases hj : j = b.fresh.index <;> simp [hj]

theorem removeAt (h : Shows f t a) {id : SlotId} {y : β} (hy : (id, y) ∈ a.live) :
    ∃ x t', Table.removeAt id.index t = .ok (some x) t' ∧ f x = y ∧ Shows f t' (a.drop id) ∧
      ∀ j, j ≠ id.index → t'.at? j = t.at? j := by
  obtain ⟨b, hb, rfl⟩ := h
  obtain ⟨⟨id', x⟩, hx, heq⟩ := List.mem_map.mp hy
  obtain ⟨rfl, rfl⟩ := Prod.mk.inj heq
  obtain ⟨t', hrun, hb'⟩ := removeAt_ok hb hx
  refine ⟨x, t', hrun, rfl, ⟨b.drop id', hb', Ledger.drop_map f b id'⟩, fun j hj => ?_⟩
  rw [hb'.at?_eq, hb.at?_eq, Ledger.record?_drop hb.nodup_live hx hj]

theorem remove (h : Shows f t a) {id : SlotId} {y : β} (hy : (id, y) ∈ a.live) :
    ∃ x t', Table.remove id t = .ok (some x) t' ∧ f x = y ∧ Shows f t' (a.drop id) ∧
      ∀ j, j ≠ id.index → t'.at? j = t.at? j := by
  obtain ⟨x, t', hrun, hrest⟩ := h.removeAt hy
  refine ⟨x, t', ?_, hrest⟩
  have hlive : t.contains id = true := h.contains_iff.mpr ⟨y, hy⟩
  unfold Table.remove
  rw [Change.get_bind, if_pos hlive]
  exact hrun

end Shows

end SlotGraph.Table

import Mathlib.Data.Nat.Count
import SlotGraph.Proofs.Table.Shows
set_option autoImplicit false

/-!
The ages of slots. A slot goes up one generation when it is freed and at no other time. So a handle
that has died stays dead until its slot has been freed as often as there are generations.
-/

namespace SlotGraph

namespace Ledger

variable {α β : Type}

def handles (a : Ledger α) : List SlotId := a.live.map Prod.fst

theorem mem_liveIndices {a : Ledger α} {id : SlotId} (h : id ∈ a.handles) :
    id.index ∈ a.liveIndices := by
  obtain ⟨p, hp, rfl⟩ := List.mem_map.mp h
  exact List.mem_map_of_mem (f := fun p => p.1.index) hp

@[simp] theorem handles_map (f : α → β) (a : Ledger α) : (a.map f).handles = a.handles := by
  simp [handles, map]

/-- A live handle stays or goes on the stack one generation up; a free one stays or comes alive. -/
structure Turns (a b : Ledger α) : Prop where
  live : ∀ id ∈ a.handles, id ∈ b.handles ∨ id.succ ∈ b.free
  free : ∀ id ∈ a.free, id ∈ b.free ∨ id ∈ b.handles

structure Shrinks (a b : Ledger α) : Prop where
  live : ∀ id ∈ a.handles, id ∈ b.handles ∨ id.succ ∈ b.free
  free : ∀ id ∈ a.free, id ∈ b.free

theorem Shrinks.refl (a : Ledger α) : Shrinks a a := ⟨fun _ h => .inl h, fun _ h => h⟩

theorem Shrinks.trans {a b c : Ledger α} (h : Shrinks a b) (h' : Shrinks b c) : Shrinks a c where
  live id hid := by
    rcases h.live id hid with hb | hb
    · exact h'.live id hb
    · exact .inr (h'.free _ hb)
  free id hid := h'.free id (h.free id hid)

theorem Shrinks.turns {a b : Ledger α} (h : Shrinks a b) : Turns a b :=
  ⟨h.live, fun id hid => .inl (h.free id hid)⟩

theorem Turns.refl (a : Ledger α) : Turns a a := (Shrinks.refl a).turns

theorem shrinks_drop (a : Ledger α) (id : SlotId) : Shrinks a (a.drop id) where
  live other hother := by
    by_cases hid : other = id
    · subst hid
      exact .inr (List.mem_cons_self ..)
    · obtain ⟨p, hp, rfl⟩ := List.mem_map.mp hother
      exact .inl (List.mem_map_of_mem (List.mem_filter.mpr ⟨hp, bne_iff_ne.mpr hid⟩))
  free _ hother := List.mem_cons_of_mem _ hother

theorem turns_insert (a : Ledger α) (x : α) : Turns a (a.insert x) where
  live id hid := .inl (by
    simp only [handles, insert, List.map_append]
    exact List.mem_append_left _ hid)
  free id hid := by
    cases hfree : a.free with
    | nil => simp [hfree] at hid
    | cons top rest =>
      rw [hfree] at hid
      rcases List.mem_cons.mp hid with rfl | hrest
      · exact .inr (by simp [handles, insert, fresh, hfree])
      · exact .inl (by simpa [insert, hfree] using hrest)

theorem handles_update (a : Ledger α) (id : SlotId) (f : α → α) :
    (a.update id f).handles = a.handles := by
  simp only [handles, update, List.map_map]
  refine List.map_congr_left fun p _ => ?_
  by_cases hp : p.1 = id <;> simp [hp]

theorem turns_update (a : Ledger α) (id : SlotId) (f : α → α) : Turns a (a.update id f) where
  live other hother := .inl (by rwa [handles_update])
  free _ hother := .inl hother

end Ledger

namespace Table

variable {α β : Type}

/-- The generation of a slot, live or free. -/
def generation? (t : Table α) (i : Nat) : Option UInt32 :=
  match t.slots[i]? with
  | some (.live g _ _ _) | some (.free g _) => some g
  | none => none

/-- Slot `i` is live in the one table and free in the other. -/
def Freed (t t' : Table α) (i : Nat) : Prop := (t.find? i).isSome ∧ (t'.find? i).isNone

instance (t t' : Table α) (i : Nat) : Decidable (Freed t t' i) :=
  inferInstanceAs (Decidable (_ ∧ _))

/-- No slot is lost, and a slot goes up one generation exactly if it is freed. -/
def Ages (t t' : Table α) : Prop :=
  ∀ i g, t.generation? i = some g → t'.generation? i = some (if Freed t t' i then g + 1 else g)

theorem find?_eq_some_iff {t : Table α} {i : Nat} {id : SlotId} :
    t.find? i = some id ↔ (t.find? i).isSome ∧ id.index = i ∧
      t.generation? i = some id.generation := by
  obtain ⟨j, g⟩ := id
  rcases hs : t.slots[i]? with _ | ⟨_ | _⟩ <;> simp [find?, generation?, hs, eq_comm]

theorem contains_iff_find? {t : Table α} {id : SlotId} :
    t.contains id = true ↔ t.find? id.index = some id := by
  obtain ⟨i, g⟩ := id
  rcases hs : t.slots[i]? with _ | ⟨_ | _⟩ <;> simp [contains, get?, find?, hs]

theorem find?_of_dead {t : Table α} {id : SlotId} (h : t.contains id = false) (i : Nat) :
    t.find? i ≠ some id := by
  intro hi
  obtain ⟨-, rfl, -⟩ := find?_eq_some_iff.mp hi
  exact Bool.eq_false_iff.mp h (contains_iff_find?.mpr hi)

theorem Represents.generation?_eq_some {t : Table α} {a : Ledger α} (h : Represents t a) {i : Nat}
    {g : UInt32} :
    t.generation? i = some g ↔ ⟨i, g⟩ ∈ a.handles ∨ ⟨i, g⟩ ∈ a.free := by
  have hlive : ∀ p ∈ a.live, t.generation? p.1.index = some p.1.generation := by
    intro p hp
    have hrec := h.entries p hp
    rcases hs : t.slots[p.1.index]? with _ | ⟨_ | _⟩ <;>
      simp [record?, Slot.record?, generation?, hs] at hrec ⊢
    rw [← hrec]
  have hfree : ∀ id ∈ a.free, t.generation? id.index = some id.generation := by
    intro id hid
    obtain ⟨below, hhole⟩ := h.stacked.hole_of_mem hid
    simp [generation?, slot_eq_free hhole]
  constructor
  · intro hg
    have hlt : i < t.slots.size := by
      refine Nat.lt_of_not_le fun hi => ?_
      simp [generation?, Array.getElem?_eq_none hi] at hg
    rcases List.mem_append.mp ((h.covered i).mpr hlt) with hmem | hmem
    · obtain ⟨p, hp, rfl⟩ := List.mem_map.mp hmem
      rw [hlive p hp] at hg
      obtain rfl := Option.some.inj hg
      exact .inl (List.mem_map_of_mem hp)
    · obtain ⟨id, hid, rfl⟩ := List.mem_map.mp hmem
      rw [hfree id hid] at hg
      obtain rfl := Option.some.inj hg
      exact .inr hid
  · rintro (hg | hg)
    · obtain ⟨p, hp, heq⟩ := List.mem_map.mp hg
      have hgen := hlive p hp
      rwa [heq] at hgen
    · exact hfree _ hg

theorem Shows.generation?_eq_some {f : α → β} {t : Table α} {a : Ledger β} (h : Shows f t a)
    {i : Nat} {g : UInt32} :
    t.generation? i = some g ↔ ⟨i, g⟩ ∈ a.handles ∨ ⟨i, g⟩ ∈ a.free := by
  obtain ⟨b, hb, rfl⟩ := h
  rw [Ledger.handles_map]
  exact hb.generation?_eq_some

theorem Shows.isSome_find? {f : α → β} {t : Table α} {a : Ledger β} (h : Shows f t a) {i : Nat} :
    (t.find? i).isSome ↔ i ∈ a.liveIndices := by
  rw [h.find?_eq, Option.isSome_map, Option.isSome_iff_ne_none, Ne, Ledger.record?_eq_none,
    not_not]

theorem Shows.not_mem_liveIndices {f : α → β} {t : Table α} {a : Ledger β} (h : Shows f t a)
    {id : SlotId} (hid : id ∈ a.free) : id.index ∉ a.liveIndices := fun hlive =>
  (List.nodup_append.mp h.nodup).2.2 _ hlive _ (List.mem_map_of_mem hid) rfl

theorem Shows.ages {f : α → β} {t t' : Table α} {a b : Ledger β} (h : Shows f t a)
    (h' : Shows f t' b) (hturns : Ledger.Turns a b) : Ages t t' := by
  intro i g hg
  rcases h.generation?_eq_some.mp hg with hlive | hfree
  · have hsome : (t.find? i).isSome := h.isSome_find?.mpr (Ledger.mem_liveIndices hlive)
    rcases hturns.live _ hlive with hstay | hgone
    · have hkept : ¬ Freed t t' i := fun hfreed => by
        have hsome' : (t'.find? i).isSome := h'.isSome_find?.mpr (Ledger.mem_liveIndices hstay)
        simp [Option.isNone_iff_eq_none.mp hfreed.2] at hsome'
      rw [if_neg hkept]
      exact h'.generation?_eq_some.mpr (.inl hstay)
    · have hfreed : Freed t t' i := by
        refine ⟨hsome, ?_⟩
        rw [Option.isNone_iff_eq_none, ← Option.not_isSome_iff_eq_none, h'.isSome_find?]
        exact h'.not_mem_liveIndices hgone
      rw [if_pos hfreed]
      exact h'.generation?_eq_some.mpr (.inr hgone)
  · have hkept : ¬ Freed t t' i := fun hfreed =>
      h.not_mem_liveIndices hfree (h.isSome_find?.mp hfreed.1)
    rw [if_neg hkept]
    exact h'.generation?_eq_some.mpr (hturns.free _ hfree).symm

section

variable {t : Nat → Table α} {last : Nat}

/-- The number of times that slot `i` has been freed up to a time. -/
def frees (t : Nat → Table α) (i n : Nat) : Nat := Nat.count (fun k => Freed (t k) (t (k + 1)) i) n

theorem frees_mono (t : Nat → Table α) (i : Nat) {m n : Nat} (h : m ≤ n) :
    frees t i m ≤ frees t i n := Nat.count_monotone _ h

theorem frees_le (t : Nat → Table α) (i n : Nat) : frees t i n ≤ n := Nat.count_le _

theorem frees_succ (t : Nat → Table α) (i n : Nat) :
    frees t i (n + 1) = frees t i n + if Freed (t n) (t (n + 1)) i then 1 else 0 :=
  Nat.count_succ ..

theorem generation?_run (hages : ∀ n < last, Ages (t n) (t (n + 1))) {i m n : Nat} {g : UInt32}
    (hg : (t m).generation? i = some g) (hmn : m ≤ n) (hn : n ≤ last) :
    (t n).generation? i = some (g + UInt32.ofNat (frees t i n - frees t i m)) := by
  induction n, hmn using Nat.le_induction with
  | base => simpa using hg
  | succ n hmn ih =>
    have hle := frees_mono t i hmn
    rw [hages n hn i _ (ih (Nat.le_of_succ_le hn)), frees_succ]
    by_cases hfreed : Freed (t n) (t (n + 1)) i
    · rw [if_pos hfreed, if_pos hfreed, Nat.sub_add_comm hle, UInt32.ofNat_add, UInt32.add_assoc]
      rfl
    · rw [if_neg hfreed, if_neg hfreed, Nat.add_zero]

theorem find?_kept {i m n : Nat} (hsome : ((t m).find? i).isSome) (hmn : m ≤ n)
    (hfrees : frees t i n = frees t i m) : ((t n).find? i).isSome := by
  induction n, hmn using Nat.le_induction with
  | base => exact hsome
  | succ n hmn ih =>
    have hle := frees_mono t i hmn
    rw [frees_succ] at hfrees
    have hkept : ¬ Freed (t n) (t (n + 1)) i := fun hfreed => by
      rw [if_pos hfreed] at hfrees
      omega
    rw [if_neg hkept] at hfrees
    have hn := ih hfrees
    by_contra hnone
    exact hkept ⟨hn, by simpa using hnone⟩

/-- A handle that was live and then dead stays dead. -/
theorem find?_dead (hages : ∀ n < last, Ages (t n) (t (n + 1))) {id : SlotId}
    (hfew : frees t id.index last < 2 ^ 32) {l m n : Nat} (hlm : l ≤ m) (hmn : m ≤ n)
    (hn : n ≤ last) (hlive : (t l).find? id.index = some id)
    (hdead : (t m).find? id.index ≠ some id) : (t n).find? id.index ≠ some id := by
  intro hagain
  obtain ⟨hsome, -, hgen⟩ := find?_eq_some_iff.mp hlive
  obtain ⟨-, -, hgen'⟩ := find?_eq_some_iff.mp hagain
  -- the generation is back where it was, and it cannot have gone all the way round
  have hround : UInt32.ofNat (frees t id.index n - frees t id.index l) = 0 := by
    rw [generation?_run hages hgen (hlm.trans hmn) hn] at hgen'
    exact UInt32.add_eq_left.mp (Option.some.inj hgen')
  have hnone : frees t id.index n - frees t id.index l = 0 := by
    have hlast := frees_mono t id.index hn
    have hmod := congrArg UInt32.toNat hround
    rw [UInt32.toNat_ofNat', UInt32.toNat_zero] at hmod
    omega
  have hlm' := frees_mono t id.index hlm
  have hmn' := frees_mono t id.index hmn
  have hsame : frees t id.index m = frees t id.index l := by omega
  refine hdead (find?_eq_some_iff.mpr ⟨find?_kept hsome hlm hsame, rfl, ?_⟩)
  rw [generation?_run hages hgen hlm (hmn.trans hn), hsame]
  simp

theorem contains_dead (hages : ∀ n < last, Ages (t n) (t (n + 1))) {id : SlotId}
    (hfew : frees t id.index last < 2 ^ 32) {l m n : Nat} (hlm : l ≤ m) (hmn : m ≤ n)
    (hn : n ≤ last) (hlive : (t l).contains id = true) (hdead : (t m).contains id = false) :
    (t n).contains id = false :=
  Bool.eq_false_iff.mpr fun hagain =>
    find?_dead hages hfew hlm hmn hn (contains_iff_find?.mp hlive)
      (fun hfind => Bool.eq_false_iff.mp hdead (contains_iff_find?.mpr hfind))
      (contains_iff_find?.mp hagain)

theorem contains_before (hages : ∀ n < last, Ages (t n) (t (n + 1))) {id : SlotId}
    (hfew : frees t id.index last < 2 ^ 32) {m n : Nat} (hmn : m ≤ n) (hn : n < last)
    (hdead : (t n).contains id = false) (hborn : (t (n + 1)).contains id = true) :
    (t m).contains id = false := by
  by_contra hlive
  have hagain := contains_dead hages hfew hmn n.le_succ hn (Bool.of_not_eq_false hlive) hdead
  rw [hagain] at hborn
  cases hborn

end

end Table

end SlotGraph

import SlotGraph.Proofs.TwoEnded
set_option autoImplicit false

namespace SlotGraph

namespace Probe

variable {ι α : Type} [TwoEnded ι α]

def readings (p : Probe) (ps : List Probe) (it : ι) : List (Reading α) :=
  ((ps.zip (readAll ps it).1).filter fun q => q.1 == p).map Prod.snd

def left (ps : List Probe) (it : ι) : ι := (readAll ps it).2

theorem left_cons (q : Probe) (ps : List Probe) (it : ι) :
    left (q :: ps) it = left ps (read it q).2 := rfl

theorem readings_cons (p q : Probe) (ps : List Probe) (it : ι) :
    readings p (q :: ps) it =
      if q = p then (read it q).1 :: readings p ps (read it q).2
      else readings p ps (read it q).2 := by
  by_cases hq : q = p <;> simp [readings, readAll, hq]

theorem read_front {it later : ι} {x : α} (h : TwoEnded.next? it = some (x, later)) :
    read it .front = (.item (some x), later) := by simp [read, h, taken]

theorem read_back {it later : ι} {x : α} (h : TwoEnded.nextBack? it = some (x, later)) :
    read it .back = (.item (some x), later) := by simp [read, h, taken]

theorem read_aside {p : Probe} (hfront : p ≠ .front) (hback : p ≠ .back)
    (hskip : ∀ n, p ≠ .skip n) (it : ι) : (read it p).2 = it := by
  cases p with
  | front => exact absurd rfl hfront
  | back => exact absurd rfl hback
  | skip n => exact absurd rfl (hskip n)
  | length | bounds | rest | restReversed | count | last => rfl

end Probe

namespace TwoEnded

variable {ι α : Type} [TwoEnded ι α] {R : ι → List α → Prop} {it : ι} {xs : List α}
  {ps : List Probe}

/-- The list in three parts: what the front gave, what is left and what the back gave. -/
structure Parts (R : ι → List α → Prop) (ps : List Probe) (it : ι) (l mid r : List α) : Prop where
  left : R (Probe.left ps it) mid
  length_front : l.length = ps.count .front
  length_back : r.length = ps.count .back
  front : Probe.readings .front ps it = l.map fun x => .item (some x)
  back : Probe.readings .back ps it = r.reverse.map fun x => .item (some x)

theorem Parts.cons_front {l mid r : List α} {later : ι} {x : α}
    (hnext : next? it = some (x, later)) (h : Parts R ps later l mid r) :
    Parts R (.front :: ps) it (x :: l) mid r := by
  have hread := Probe.read_front hnext
  constructor
  · rw [Probe.left_cons, hread]
    exact h.left
  · simp [h.length_front]
  · simp [h.length_back]
  · simp [Probe.readings_cons, hread, h.front]
  · simp [Probe.readings_cons, hread, h.back]

theorem Parts.cons_back {l mid r : List α} {later : ι} {x : α}
    (hback : nextBack? it = some (x, later)) (h : Parts R ps later l mid r) :
    Parts R (.back :: ps) it l mid (r ++ [x]) := by
  have hread := Probe.read_back hback
  constructor
  · rw [Probe.left_cons, hread]
    exact h.left
  · simp [h.length_front]
  · simp [h.length_back]
  · simp [Probe.readings_cons, hread, h.front]
  · simp [Probe.readings_cons, hread, h.back]

theorem Parts.cons_aside {l mid r : List α} {p : Probe} (hfront : p ≠ .front) (hback : p ≠ .back)
    (hskip : ∀ n, p ≠ .skip n) (h : Parts R ps it l mid r) : Parts R (p :: ps) it l mid r := by
  have hstay := Probe.read_aside hfront hback hskip it
  constructor
  · rw [Probe.left_cons, hstay]
    exact h.left
  · simp [hfront, h.length_front]
  · simp [hback, h.length_back]
  · simp [Probe.readings_cons, hfront, hstay, h.front]
  · simp [Probe.readings_cons, hback, hstay, h.back]

/-- While the list lasts, each end gives its items in turn. -/
theorem Exact.parts (h : Exact R) (hit : R it xs) (hskip : ∀ n, .skip n ∉ ps)
    (hle : ps.count .front + ps.count .back ≤ xs.length) :
    ∃ l mid r, xs = l ++ (mid ++ r) ∧ Parts R ps it l mid r := by
  -- on the probes; `xs` is what is left of the list before each of them
  induction ps generalizing it xs with
  | nil => exact ⟨[], xs, [], by simp, hit, rfl, rfl, rfl, rfl⟩
  | cons p ps ih =>
    have hskip' : ∀ n, .skip n ∉ ps := fun n hn => hskip n (List.mem_cons_of_mem p hn)
    by_cases hfront : p = .front
    · subst hfront
      rw [List.count_cons_self, List.count_cons_of_ne (by simp)] at hle
      obtain ⟨x, rest, rfl⟩ := List.exists_cons_of_length_pos (l := xs) (by omega)
      obtain ⟨later, hnext, hlater⟩ := h.next_cons hit
      obtain ⟨l, mid, r, rfl, hparts⟩ := ih hlater hskip' (by rw [List.length_cons] at hle; omega)
      exact ⟨x :: l, mid, r, rfl, hparts.cons_front hnext⟩
    by_cases hback : p = .back
    · subst hback
      rw [List.count_cons_self, List.count_cons_of_ne (by simp)] at hle
      cases xs using List.reverseRecOn with
      | nil => exact absurd hle (Nat.not_succ_le_zero _)
      | append_singleton init x =>
        obtain ⟨later, hnext, hlater⟩ := h.back_snoc hit
        obtain ⟨l, mid, r, rfl, hparts⟩ := ih hlater hskip' (by simp at hle; omega)
        exact ⟨l, mid, r ++ [x], by simp, hparts.cons_back hnext⟩
    · rw [List.count_cons_of_ne hfront, List.count_cons_of_ne hback] at hle
      obtain ⟨l, mid, r, hxs, hparts⟩ := ih hit hskip' hle
      exact ⟨l, mid, r, hxs, hparts.cons_aside hfront hback
        fun n hp => hskip n (hp ▸ List.mem_cons_self ..)⟩

/-- A reader of `xs` that has given `a` items at the front and `b` at the back. It tells how many
are left, a copy of it gives those from either end, and it still stands where it stood. -/
structure Between (it : ι) (xs : List α) (a b : Nat) : Prop where
  length : Probe.read it .length = (.number (xs.length - a - b), it)
  bounds : Probe.read it .bounds = (.bounds (xs.length - a - b) (xs.length - a - b), it)
  rest : Probe.read it .rest = (.items ((xs.drop a).take (xs.length - a - b)), it)
  restReversed :
    Probe.read it .restReversed = (.items ((xs.drop a).take (xs.length - a - b)).reverse, it)

theorem Exact.between (h : Exact R) {l mid r : List α} (hit : R it mid) :
    Between it (l ++ (mid ++ r)) l.length r.length := by
  have hlength : (l ++ (mid ++ r)).length - l.length - r.length = mid.length := by simp
  have hmid : ((l ++ (mid ++ r)).drop l.length).take mid.length = mid := by simp
  constructor
  · rw [hlength, Probe.read, h.remaining hit]
  · rw [hlength, Probe.read, h.remaining hit]
  · rw [hlength, hmid, Probe.read, h.toList_eq hit]
  · rw [hlength, hmid, Probe.read, h.toListReversed_eq hit]

theorem Exact.spent (h : Exact R) (hit : R it []) {p : Probe} (hp : p = .front ∨ p = .back) :
    ∀ y ∈ Probe.readings p ps it, y = .item none := by
  have hnext := h.next_nil hit
  have hback := h.back_nil hit
  have hstay : ∀ q : Probe, (Probe.read it q).2 = it := by
    intro q
    cases q with
    | front => simp [Probe.read, hnext, Probe.taken]
    | back => simp [Probe.read, hback, Probe.taken]
    | skip n => cases n <;> simp [Probe.read, TwoEnded.skip, hnext]
    | length | bounds | rest | restReversed | count | last => rfl
  induction ps with
  | nil => exact fun y hy => nomatch hy
  | cons q ps ih =>
    rw [Probe.readings_cons, hstay]
    split
    · case isTrue hq =>
      refine List.forall_mem_cons.mpr ⟨?_, ih⟩
      rcases hq ▸ hp with rfl | rfl
      · simp [Probe.read, hnext, Probe.taken]
      · simp [Probe.read, hback, Probe.taken]
    · exact ih

/-- Some probes have used up the first items of the list at the front and the last ones at the
back, in turn. -/
structure Shared (it : ι) (xs : List α) (ps : List Probe) : Prop where
  front : Probe.readings .front ps it = (xs.take (ps.count .front)).map fun x => .item (some x)
  back : Probe.readings .back ps it = (xs.reverse.take (ps.count .back)).map fun x => .item (some x)
  between : Between (Probe.left ps it) xs (ps.count .front) (ps.count .back)

/-- While the list lasts, any probes without a skip share it out; once it is used up neither end
gives any more. -/
structure SharesOut (it : ι) (xs : List α) : Prop where
  shared {ps : List Probe} : (∀ n, .skip n ∉ ps) →
    ps.count .front + ps.count .back ≤ xs.length → Shared it xs ps
  spent {ps : List Probe} : (∀ n, .skip n ∉ ps) →
    ps.count .front + ps.count .back = xs.length → ∀ (late : List Probe) (p : Probe),
    p = .front ∨ p = .back → ∀ y ∈ Probe.readings p late (Probe.left ps it), y = .item none

theorem Exact.sharesOut (h : Exact R) (hit : R it xs) : SharesOut it xs where
  shared {ps} hskip hle := by
    obtain ⟨l, mid, r, rfl, hparts⟩ := h.parts hit hskip hle
    have hbetween := h.between (l := l) (r := r) hparts.left
    constructor
    · rw [← hparts.length_front, List.take_left]
      exact hparts.front
    · rw [← hparts.length_back, List.reverse_append, List.reverse_append, ← List.length_reverse,
        List.append_assoc, List.take_left]
      exact hparts.back
    · rwa [hparts.length_front, hparts.length_back] at hbetween
  spent {ps} hskip hall late p hp := by
    obtain ⟨l, mid, r, rfl, hparts⟩ := h.parts hit hskip (Nat.le_of_eq hall)
    have hleft := hparts.left
    have hnil : mid = [] := by
      rw [← hparts.length_front, ← hparts.length_back] at hall
      simp only [List.length_append] at hall
      exact List.eq_nil_of_length_eq_zero (by omega)
    rw [hnil] at hleft
    exact h.spent hleft hp

/-- `P` holds of the reader as long as it has not given all of `xs`. -/
def Throughout (P : ι → Prop) (it : ι) (xs : List α) : Prop :=
  ∀ ps : List Probe, (∀ n, .skip n ∉ ps) → ps.count .front + ps.count .back < xs.length →
    P (Probe.left ps it)

theorem Exact.throughout (h : Exact R) (hit : R it xs) {P : ι → Prop}
    (hP : ∀ {it : ι} {xs : List α}, R it xs → xs ≠ [] → P it) : Throughout P it xs := by
  intro ps hskip hlt
  obtain ⟨l, mid, r, rfl, hparts⟩ := h.parts hit hskip (Nat.le_of_lt hlt)
  refine hP hparts.left ?_
  rintro rfl
  rw [← hparts.length_front, ← hparts.length_back] at hlt
  simp at hlt

end TwoEnded

end SlotGraph

import Mathlib.Data.List.Chain
import Mathlib.Data.List.Nodup
import Mathlib.Logic.Function.Basic
set_option autoImplicit false

/-!
Rings of stored links. Every step of a ring is stored twice, forward at the node it leaves and
backward at the node it reaches. A ring runs from a sentinel through its members and back to the
sentinel, so that taking a member out or adding one last changes two steps and no others.
-/

namespace SlotGraph

def Joined {N : Type} (next prev : N → Option N) (a b : N) : Prop :=
  next a = some b ∧ prev b = some a

/-- The stored steps lead from `a` through `l` to `b`. -/
def Path {N : Type} (next prev : N → Option N) (a : N) (l : List N) (b : N) : Prop :=
  List.IsChain (Joined next prev) (a :: (l ++ [b]))

def Ring {N : Type} (next prev : N → Option N) (s : N) (members : List N) : Prop :=
  Path next prev s members s

section

variable {N : Type} {next prev next' prev' : N → Option N}

@[simp] theorem path_nil {a b : N} : Path next prev a [] b ↔ Joined next prev a b := by
  simp [Path]

@[simp] theorem path_cons {a x b : N} {l : List N} :
    Path next prev a (x :: l) b ↔ Joined next prev a x ∧ Path next prev x l b := by
  simp [Path]

theorem path_append_cons {a n b : N} {l r : List N} :
    Path next prev a (l ++ n :: r) b ↔ Path next prev a l n ∧ Path next prev n r b := by
  induction l generalizing a with
  | nil => simp
  | cons x l ih => simp [ih, and_assoc]

theorem Path.next_eq {a b : N} {l : List N} (h : Path next prev a l b) :
    next a = some (l.headD b) := by
  cases l with
  | nil => exact (path_nil.mp h).1
  | cons x l => exact (path_cons.mp h).1.1

theorem Path.prev_eq {a b : N} {l : List N} (h : Path next prev a l b) :
    prev b = some (l.getLastD a) := by
  induction l generalizing a with
  | nil => exact (path_nil.mp h).2
  | cons x l ih =>
    rw [List.getLastD_cons]
    exact ih (path_cons.mp h).2

theorem Path.congr {a b : N} {l : List N} (h : Path next prev a l b)
    (hn : ∀ x ∈ a :: l, next' x = next x) (hp : ∀ x ∈ b :: l, prev' x = prev x) :
    Path next' prev' a l b := by
  induction l generalizing a with
  | nil =>
    obtain ⟨ha, hb⟩ := path_nil.mp h
    exact path_nil.mpr ⟨by rw [hn a (by simp), ha], by rw [hp b (by simp), hb]⟩
  | cons x l ih =>
    obtain ⟨⟨ha, hx⟩, hl⟩ := path_cons.mp h
    have hrest : Path next' prev' x l b :=
      ih hl (fun y hy => hn y (List.mem_cons_of_mem a hy))
        (fun y hy => hp y (by simp only [List.mem_cons] at hy ⊢; tauto))
    exact path_cons.mpr ⟨⟨by rw [hn a (by simp), ha], by rw [hp x (by simp), hx]⟩, hrest⟩

theorem Path.unique {a b : N} {l l' : List N} (h : Path next prev a l b)
    (h' : Path next prev a l' b) (hb : b ∉ l) (hb' : b ∉ l') : l = l' := by
  induction l generalizing a l' with
  | nil =>
    cases l' with
    | nil => rfl
    | cons y l' =>
      have hy : some b = some y := (path_nil.mp h).1.symm.trans (path_cons.mp h').1.1
      simp [Option.some.inj hy] at hb'
  | cons x l ih =>
    obtain ⟨hx, hl⟩ := path_cons.mp h
    cases l' with
    | nil =>
      have hy : some x = some b := hx.1.symm.trans (path_nil.mp h').1
      simp [Option.some.inj hy] at hb
    | cons y l' =>
      obtain ⟨hy, hl'⟩ := path_cons.mp h'
      obtain rfl : x = y := Option.some.inj (hx.1.symm.trans hy.1)
      rw [ih hl hl' (fun hmem => hb (List.mem_cons_of_mem x hmem))
        (fun hmem => hb' (List.mem_cons_of_mem x hmem))]

theorem Path.redirect {a b c : N} {l : List N} (h : Path next prev a l b)
    (hd : (a :: l).Nodup) (hn : ∀ x ∈ a :: l, x ≠ l.getLastD a → next' x = next x)
    (hp : ∀ x ∈ l, prev' x = prev x) (hj : Joined next' prev' (l.getLastD a) c) :
    Path next' prev' a l c := by
  induction l generalizing a with
  | nil => exact path_nil.mpr hj
  | cons x l ih =>
    obtain ⟨⟨ha, hx⟩, hl⟩ := path_cons.mp h
    obtain ⟨hnot, hd⟩ := List.nodup_cons.mp hd
    rw [List.getLastD_cons] at hn hj
    have hlast : a ≠ l.getLastD x := by
      intro heq
      subst heq
      exact hnot (List.getLastD_mem_cons ..)
    have hrest : Path next' prev' x l c :=
      ih hl hd (fun y hy => hn y (List.mem_cons_of_mem a hy))
        (fun y hy => hp y (List.mem_cons_of_mem x hy)) hj
    refine path_cons.mpr ⟨⟨?_, by rw [hp x (by simp), hx]⟩, hrest⟩
    rw [hn a (by simp) hlast, ha]

theorem Ring.congr {s : N} {es : List N} (h : Ring next prev s es)
    (hn : ∀ x ∈ s :: es, next' x = next x) (hp : ∀ x ∈ s :: es, prev' x = prev x) :
    Ring next' prev' s es := Path.congr h hn hp

theorem Ring.next_member {s n : N} {l r : List N} (h : Ring next prev s (l ++ n :: r)) :
    next n = some (r.headD s) := (path_append_cons.mp h).2.next_eq

theorem Ring.prev_member {s n : N} {l r : List N} (h : Ring next prev s (l ++ n :: r)) :
    prev n = some (l.getLastD s) := (path_append_cons.mp h).1.prev_eq

theorem Ring.joined_next {s : N} {es : List N} (h : Ring next prev s es) :
    Joined next prev s (es.headD s) := by
  cases es with
  | nil => exact path_nil.mp h
  | cons x es => exact (path_cons.mp h).1

theorem Ring.joined_prev {s : N} {es : List N} (h : Ring next prev s es) :
    Joined next prev (es.getLastD s) s := by
  induction es using List.reverseRecOn with
  | nil => exact path_nil.mp h
  | append_singleton es x _ =>
    rw [List.getLastD_concat]
    exact path_nil.mp (path_append_cons.mp h).2

theorem Ring.rotate {s n : N} {l r : List N} (h : Ring next prev s (l ++ n :: r)) :
    Ring next prev n (r ++ s :: l) := by
  obtain ⟨hl, hr⟩ := path_append_cons.mp h
  exact path_append_cons.mpr ⟨hr, hl⟩

theorem Ring.snoc {s n : N} {es : List N} (h : Ring next prev s es) (hd : (s :: es).Nodup)
    (hn : ∀ x ∈ s :: es, x ≠ es.getLastD s → next' x = next x)
    (hp : ∀ x ∈ es, prev' x = prev x) (hlast : Joined next' prev' (es.getLastD s) n)
    (hs : Joined next' prev' n s) : Ring next' prev' s (es ++ [n]) :=
  path_append_cons.mpr ⟨Path.redirect h hd hn hp hlast, path_nil.mpr hs⟩

theorem Ring.erase {s n : N} {l r : List N} (h : Ring next prev s (l ++ n :: r))
    (hd : (s :: (l ++ n :: r)).Nodup)
    (hn : ∀ x ∈ s :: (l ++ r), x ≠ l.getLastD s → next' x = next x)
    (hp : ∀ x ∈ s :: (l ++ r), x ≠ r.headD s → prev' x = prev x)
    (hj : Joined next' prev' (l.getLastD s) (r.headD s)) : Ring next' prev' s (l ++ r) := by
  obtain ⟨hl, hr⟩ := path_append_cons.mp h
  have hlast : l.getLastD s ∈ s :: l := List.getLastD_mem_cons ..
  have hdl : (s :: l).Nodup := hd.sublist (by simp)
  cases r with
  | nil =>
    rw [List.append_nil]
    refine hl.redirect hdl (fun x hx => hn x (by simpa using hx)) (fun x hx => ?_) hj
    refine hp x (by simp [hx]) ?_
    intro heq
    subst heq
    exact (List.nodup_cons.mp hdl).1 hx
  | cons y r =>
    have hy : y ∉ s :: l := fun hmem => by grind
    have hyr : y ∉ r := fun hmem => by grind
    have hfirst : Path next' prev' s l y :=
      hl.redirect hdl (fun x hx => hn x (by grind))
        (fun x hx => hp x (by grind) (by intro heq; subst heq; exact hy (List.mem_cons_of_mem s hx))) hj
    have hsecond : Path next' prev' y r s :=
      (path_cons.mp hr).2.congr
        (fun x hx => hn x (by grind) (by intro heq; subst heq; grind))
        (fun x hx => hp x (by grind) (by intro heq; subst heq; grind))
    exact path_append_cons.mpr ⟨hfirst, hsecond⟩

section

variable [DecidableEq N]

/-- The four writes that splice a new node in front of the sentinel. -/
theorem Ring.snoc_update {s n : N} {es : List N} (h : Ring next prev s es)
    (hd : (s :: es).Nodup) (hn : n ∉ s :: es) :
    Ring (Function.update (Function.update next n (some s)) (es.getLastD s) (some n))
      (Function.update (Function.update prev n (some (es.getLastD s))) s (some n))
      s (es ++ [n]) := by
  have hlast : es.getLastD s ∈ s :: es := List.getLastD_mem_cons ..
  have hnlast : n ≠ es.getLastD s := fun heq => hn (heq ▸ hlast)
  have hns : n ≠ s := fun heq => hn (by simp [heq])
  refine h.snoc hd ?_ ?_ ⟨Function.update_self .., ?_⟩ ⟨?_, Function.update_self ..⟩
  · intro x hx hxlast
    have hxn : x ≠ n := fun heq => hn (heq ▸ hx)
    rw [Function.update_of_ne hxlast, Function.update_of_ne hxn]
  · intro x hx
    have hxn : x ≠ n := fun heq => hn (heq ▸ List.mem_cons_of_mem s hx)
    have hxs : x ≠ s := fun heq => (List.nodup_cons.mp hd).1 (heq ▸ hx)
    rw [Function.update_of_ne hxs, Function.update_of_ne hxn]
  · rw [Function.update_of_ne hns, Function.update_self]
  · rw [Function.update_of_ne hnlast, Function.update_self]

theorem Ring.erase_update {s n : N} {l r : List N} (h : Ring next prev s (l ++ n :: r))
    (hd : (s :: (l ++ n :: r)).Nodup) :
    Ring (Function.update next (l.getLastD s) (some (r.headD s)))
      (Function.update prev (r.headD s) (some (l.getLastD s))) s (l ++ r) :=
  h.erase hd (fun _ _ hx => Function.update_of_ne hx ..)
    (fun _ _ hx => Function.update_of_ne hx ..)
    ⟨Function.update_self .., Function.update_self ..⟩

end

end

end SlotGraph

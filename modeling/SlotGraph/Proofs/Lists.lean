import Mathlib.Data.List.Nodup
set_option autoImplicit false

namespace SlotGraph

section

variable {α κ : Type} [BEq κ] [LawfulBEq κ] {f : α → κ}

theorem find?_key_eq_some {l : List α} (hd : (l.map f).Nodup) {k : κ} {x : α} :
    l.find? (fun y => f y == k) = some x ↔ x ∈ l ∧ f x = k := by
  constructor
  · intro h
    exact ⟨List.mem_of_find?_eq_some h, by simpa using List.find?_some h⟩
  · intro hmem
    obtain ⟨hx, rfl⟩ := hmem
    have hsome : (l.find? fun y => f y == f x).isSome :=
      List.find?_isSome.mpr ⟨x, hx, by simp⟩
    obtain ⟨y, hy⟩ := Option.isSome_iff_exists.mp hsome
    have hkey : f y = f x := by simpa using List.find?_some hy
    rw [hy, List.inj_on_of_nodup_map hd (List.mem_of_find?_eq_some hy) hx hkey]

theorem find?_fst_eq_some {β : Type} {l : List (κ × β)} (hd : (l.map Prod.fst).Nodup) {k : κ}
    {y : β} : (l.find? fun p => p.1 == k).map Prod.snd = some y ↔ (k, y) ∈ l := by
  rw [Option.map_eq_some_iff]
  simp only [find?_key_eq_some hd]
  constructor
  · intro hfind
    obtain ⟨p, ⟨hp, rfl⟩, rfl⟩ := hfind
    exact hp
  · intro hmem
    exact ⟨(k, y), ⟨hmem, rfl⟩, rfl⟩

theorem find?_snd_eq_some {β : Type} {l : List (β × κ)} (hd : (l.map Prod.snd).Nodup) {k : κ}
    {y : β} : (l.find? fun p => p.2 == k).map Prod.fst = some y ↔ (y, k) ∈ l := by
  rw [Option.map_eq_some_iff]
  simp only [find?_key_eq_some hd]
  constructor
  · intro hfind
    obtain ⟨p, ⟨hp, rfl⟩, rfl⟩ := hfind
    exact hp
  · intro hmem
    exact ⟨(y, k), ⟨hmem, rfl⟩, rfl⟩

theorem filter_key_ne {l r : List α} {x : α} (hd : ((l ++ x :: r).map f).Nodup) :
    (l ++ x :: r).filter (fun y => f y != f x) = l ++ r := by
  rw [List.map_append, List.map_cons] at hd
  have hnot := (List.nodup_middle.mp hd).notMem
  have hother : ∀ y ∈ l ++ r, f y ≠ f x := by
    intro y hy heq
    rw [← List.map_append] at hnot
    exact hnot (heq ▸ List.mem_map_of_mem hy)
  have hl : l.filter (fun y => f y != f x) = l :=
    List.filter_eq_self.mpr fun y hy => by simpa using hother y (List.mem_append_left r hy)
  have hr : r.filter (fun y => f y != f x) = r :=
    List.filter_eq_self.mpr fun y hy => by simpa using hother y (List.mem_append_right l hy)
  simp [List.filter_append, hl, hr]

theorem length_filter_ne (k : κ) (l : List κ) :
    (l.filter (· != k)).length + l.count k = l.length := by
  induction l with
  | nil => rfl
  | cons k' l ih =>
    by_cases hk : k' = k
    · simp [hk]
      omega
    · simp [hk]
      omega

theorem length_filter_notMem [DecidableEq α] {l gone : List α} (hl : l.Nodup) (hgone : gone.Nodup)
    (hsub : ∀ x ∈ gone, x ∈ l) : (l.filter (· ∉ gone)).length + gone.length = l.length := by
  have hperm : (l.filter (· ∈ gone)).Perm gone := by
    refine (List.perm_ext_iff_of_nodup (hl.filter _) hgone).mpr fun x => ?_
    rw [List.mem_filter, decide_eq_true_eq]
    exact ⟨fun hx => hx.2, fun hx => ⟨hsub x hx, hx⟩⟩
  have hsplit := (List.filter_append_perm (· ∈ gone) l).length_eq
  rw [List.length_append, hperm.length_eq] at hsplit
  rw [Nat.add_comm, ← hsplit]
  simp only [decide_not]

/-- The first item of every key that is not held yet, in the order of the list. -/
def firsts (f : α → κ) (held : List κ) (l : List α) : List α :=
  (l.filter fun x => f x ∉ held).eraseDupsBy fun x y => f x == f y

theorem firsts_cons_held {held : List κ} {x : α} (h : f x ∈ held) (l : List α) :
    firsts f held (x :: l) = firsts f held l := by simp [firsts, h]

theorem firsts_cons_new {held : List κ} {x : α} (h : f x ∉ held) (l : List α) :
    firsts f held (x :: l) = x :: firsts f (held ++ [f x]) l := by
  simp only [firsts, h, List.filter_cons, not_false_eq_true, decide_true, if_true,
    List.eraseDupsBy_cons, List.filter_filter]
  congr 2
  refine List.filter_congr fun y _ => ?_
  rw [Bool.eq_iff_iff]
  simp [and_comm]

theorem firsts_append (held : List κ) (l r : List α) : firsts f held (l ++ r) =
    firsts f held l ++ firsts f (held ++ (firsts f held l).map f) r := by
  induction l generalizing held with
  | nil => simp [firsts]
  | cons x l ih =>
    by_cases hx : f x ∈ held
    · rw [List.cons_append, firsts_cons_held hx, firsts_cons_held hx, ih]
    · rw [List.cons_append, firsts_cons_new hx, firsts_cons_new hx, ih]
      simp

omit [BEq κ] [LawfulBEq κ]

/-- The first item of a list that is equal to one before it. -/
def FirstRepeat (l : List κ) (k : κ) : Prop :=
  ∃ before after, l = before ++ k :: after ∧ before.Nodup ∧ k ∈ before

theorem FirstRepeat.not_nodup {l : List κ} {k : κ} (h : FirstRepeat l k) : ¬ l.Nodup := by
  obtain ⟨before, after, rfl, -, hmem⟩ := h
  intro hd
  exact (List.nodup_append.mp hd).2.2 k hmem k (List.mem_cons_self ..) rfl

theorem FirstRepeat.unique {l : List κ} {k k' : κ} (h : FirstRepeat l k) (h' : FirstRepeat l k') :
    k = k' := by
  have hearlier {before after before' after' c : List κ} {k k' : κ} (hmem : k ∈ before)
      (hd' : before'.Nodup) (hbefore : before' = before ++ c)
      (hrest : k :: after = c ++ k' :: after') : k = k' := by
    cases c with
    | nil => exact (List.cons.inj hrest).1
    | cons y c =>
      obtain rfl : k = y := (List.cons.inj hrest).1
      rw [hbefore] at hd'
      exact absurd rfl ((List.nodup_append.mp hd').2.2 k hmem k (List.mem_cons_self ..))
  obtain ⟨before, after, rfl, hd, hmem⟩ := h
  obtain ⟨before', after', heq, hd', hmem'⟩ := h'
  rcases List.append_eq_append_iff.mp heq with ⟨c, hbefore, hrest⟩ | ⟨c, hbefore, hrest⟩
  · exact hearlier hmem hd' hbefore hrest
  · exact (hearlier hmem' hd hbefore hrest).symm

end

section

variable {α β γ δ σ : Type}

/-- The results of a function on the items of a list in their order. The state that one call leaves
is the one that the next call meets. -/
def threaded (f : σ → α → β × σ) : List α → σ → List β × σ
  | [], s => ([], s)
  | x :: xs, s =>
    let (y, s) := f s x
    let (ys, s) := threaded f xs s
    (y :: ys, s)

theorem length_threaded (f : σ → α → β × σ) (xs : List α) (s : σ) :
    (threaded f xs s).1.length = xs.length := by
  induction xs generalizing s with
  | nil => rfl
  | cons x xs ih => simp [threaded, ih]

theorem threaded_stateless (f : α → β) (xs : List α) :
    threaded (fun _ x => (f x, ())) xs () = (xs.map f, ()) := by
  induction xs with
  | nil => rfl
  | cons x xs ih => simp [threaded, ih]

theorem zipWith_snd {xs : List α} {ys : List β} (h : ys.length = xs.length) :
    List.zipWith (fun _ y => y) xs ys = ys :=
  List.ext_getElem (by simp [h]) fun i _ _ => by simp

theorem map_filter_zipWith {k : α → β → γ} {p : γ → Bool} {q : α → Bool} {u : γ → δ}
    {w : α → δ} {xs : List α} (hp : ∀ x ∈ xs, ∀ y, p (k x y) = q x)
    (hu : ∀ x ∈ xs, ∀ y, u (k x y) = w x) {ys : List β} (hlength : xs.length = ys.length) :
    ((List.zipWith k xs ys).filter p).map u = (xs.filter q).map w := by
  induction xs generalizing ys with
  | nil => rfl
  | cons x xs ih =>
    obtain ⟨hpx, hp⟩ := List.forall_mem_cons.mp hp
    obtain ⟨hux, hu⟩ := List.forall_mem_cons.mp hu
    cases ys with
    | nil => cases hlength
    | cons y ys =>
      have hrest := ih hp hu (Nat.succ.inj hlength)
      rw [List.zipWith_cons_cons, List.filter_cons, List.filter_cons, hpx]
      cases q x with
      | false => exact hrest
      | true => simpa [hux] using hrest

end

end SlotGraph

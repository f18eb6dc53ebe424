import SlotGraph.Proofs.Incidence.Place
set_option autoImplicit false

/-!
Splices taken back. Where every step forward is stored backward too, taking a node out undoes its
insertion, inserting it in front of its successor undoes its removal, and two nodes may be taken out
in either order.
-/

namespace SlotGraph

def Inverse (f g : Node → Option Node) : Prop := ∀ n m, f n = some m ↔ g m = some n

/-- The steps with `n` passed over and alone. -/
def bypass (f : Node → Option Node) (n : Node) : Node → Option Node := fun m =>
  if m = n then some n else if f m = some n then f n else f m

section

variable {f g : Node → Option Node} {n m p q : Node}

theorem Inverse.symm (h : Inverse f g) : Inverse g f := fun n m => (h m n).symm

theorem Inverse.injective (h : Inverse f g) {k : Node} (hn : f n = some k) (hm : f m = some k) :
    n = m := Option.some.inj (((h n k).mp hn).symm.trans ((h m k).mp hm))

theorem bypass_self : bypass f n n = some n := if_pos rfl

theorem bypass_before (hm : m ≠ n) (hstep : f m = some n) : bypass f n m = f n := by
  rw [bypass, if_neg hm, if_pos hstep]

theorem bypass_elsewhere (hm : m ≠ n) (hstep : f m ≠ some n) : bypass f n m = f m := by
  rw [bypass, if_neg hm, if_neg hstep]

theorem Inverse.bypass_eq (h : Inverse f g) (hp : g n = some p) (hq : f n = some q) :
    bypass f n = Function.update (Function.update f p (some q)) n (some n) := by
  have hpn : f p = some n := (h p n).mpr hp
  funext m
  by_cases hmn : m = n
  · rw [hmn, Function.update_self, bypass_self]
  rw [Function.update_of_ne hmn]
  by_cases hmp : m = p
  · rw [hmp, Function.update_self, bypass_before (hmp ▸ hmn) hpn, hq]
  · have hstep : f m ≠ some n := fun hm => hmp (h.injective hm hpn)
    rw [Function.update_of_ne hmp, bypass_elsewhere hmn hstep]

theorem Inverse.bypass_step (h : Inverse f g) {k : Node} (hm : SlotGraph.bypass f n m = some k) :
    SlotGraph.bypass g n k = some m := by
  by_cases hmn : m = n
  · subst hmn
    rw [bypass_self] at hm
    rw [← Option.some.inj hm, bypass_self]
  by_cases hstep : f m = some n
  · rw [bypass_before hmn hstep] at hm
    have hkn : k ≠ n := fun hkn => hmn (h.injective hstep (hkn ▸ hm))
    rw [bypass_before hkn ((h n k).mp hm), (h m n).mp hstep]
  · rw [bypass_elsewhere hmn hstep] at hm
    have hkn : k ≠ n := fun hkn => hstep (hkn ▸ hm)
    have hback : g k = some m := (h m k).mp hm
    rw [bypass_elsewhere hkn (hback ▸ fun heq => hmn (Option.some.inj heq)), hback]

theorem Inverse.bypass (h : Inverse f g) (n : Node) : Inverse (bypass f n) (bypass g n) :=
  fun _ _ => ⟨h.bypass_step, h.symm.bypass_step⟩

section

variable {k : Node}

theorem bypass_bypass_self (hnm : n ≠ m) : bypass (bypass f n) m n = some n := by
  have hstep : bypass f n n ≠ some m := by
    rw [bypass_self]
    exact fun heq => hnm (Option.some.inj heq)
  rw [bypass_elsewhere hnm hstep, bypass_self]

/-- With neighbours passed over, the step to the first leads behind the second. -/
theorem Inverse.bypass_neighbours (h : Inverse f g) (hnm : n ≠ m) (hkn : k ≠ n) (hkm : k ≠ m)
    (hk : f k = some n) (hn : f n = some m) :
    SlotGraph.bypass (SlotGraph.bypass f n) m k = f m ∧
      SlotGraph.bypass (SlotGraph.bypass f m) n k = f m := by
  -- the second does not lead back to the first, which `k` leads to
  have hm : f m ≠ some n := fun hm => hkm (h.injective hk hm)
  have hk' : f k ≠ some m := hk ▸ fun heq => hnm (Option.some.inj heq)
  constructor
  · rw [bypass_before hkm ((bypass_before hkn hk).trans hn), bypass_elsewhere hnm.symm hm]
  · rw [bypass_before hkn ((bypass_elsewhere hkm hk').trans hk), bypass_before hnm hn]

theorem bypass_apart (hnm : n ≠ m) (hkn : k ≠ n) (hkm : k ≠ m) (hk : f k = some n)
    (hn : f n ≠ some m) :
    bypass (bypass f n) m k = f n ∧ bypass (bypass f m) n k = f n := by
  have hk' : f k ≠ some m := hk ▸ fun heq => hnm (Option.some.inj heq)
  have hkn' : bypass f n k = f n := bypass_before hkn hk
  constructor
  · rw [bypass_elsewhere hkm (hkn' ▸ hn), hkn']
  · rw [bypass_before hkn ((bypass_elsewhere hkm hk').trans hk), bypass_elsewhere hnm hn]

theorem Inverse.bypass_comm_before (h : Inverse f g) (hnm : n ≠ m) (hkn : k ≠ n) (hkm : k ≠ m)
    (hk : f k = some n) : SlotGraph.bypass (SlotGraph.bypass f n) m k =
      SlotGraph.bypass (SlotGraph.bypass f m) n k := by
  by_cases hn : f n = some m
  · obtain ⟨hleft, hright⟩ := h.bypass_neighbours hnm hkn hkm hk hn
    rw [hleft, hright]
  · obtain ⟨hleft, hright⟩ := bypass_apart hnm hkn hkm hk hn
    rw [hleft, hright]

/-- A node passed over twice is passed over; of two nodes it does not matter which one goes first. -/
theorem Inverse.bypass_comm (h : Inverse f g) (n m : Node) :
    SlotGraph.bypass (SlotGraph.bypass f n) m = SlotGraph.bypass (SlotGraph.bypass f m) n := by
  by_cases hnm : n = m
  · rw [hnm]
  funext k
  -- the two nodes end alone, whether they were so before, made a circle of two or had other
  -- neighbours
  by_cases hkn : k = n
  · rw [hkn, bypass_bypass_self hnm, bypass_self]
  by_cases hkm : k = m
  · rw [hkm, bypass_bypass_self (Ne.symm hnm), bypass_self]
  by_cases hstep : f k = some n
  · exact h.bypass_comm_before hnm hkn hkm hstep
  by_cases hstep' : f k = some m
  · exact (h.bypass_comm_before (Ne.symm hnm) hkm hkn hstep').symm
  -- no other step leads to either
  · have hn : SlotGraph.bypass f n k = f k := bypass_elsewhere hkn hstep
    have hm : SlotGraph.bypass f m k = f k := bypass_elsewhere hkm hstep'
    calc SlotGraph.bypass (SlotGraph.bypass f n) m k
      _ = SlotGraph.bypass f n k := bypass_elsewhere hkm (hn ▸ hstep')
      _ = SlotGraph.bypass f m k := hn.trans hm.symm
      _ = SlotGraph.bypass (SlotGraph.bypass f m) n k :=
        (bypass_elsewhere hkn (hm ▸ hstep)).symm

end

theorem update_undo {a b : Option Node} (hne : n ≠ m) (hn : f n = a) (hm : f m = b)
    (x y : Option Node) :
    Function.update (Function.update (Function.update (Function.update f n x) m y) m b) n a = f := by
  rw [Function.update_idem, Function.update_comm hne, Function.update_idem,
    Function.update_comm hne.symm, ← hm, ← hn, Function.update_eq_self, Function.update_eq_self]

end

namespace LinkStore

variable {σ : Type} [LinkStore σ] {s t : σ} {d e : Direction} {n m anchor : Node}

/-- In each direction the steps backward are the inverse of the steps forward: they permute the
nodes that the store holds. -/
def Reciprocal (s : σ) : Prop := ∀ d, Inverse (next? s d) (prev? s d)

theorem Proper.reciprocal (h : Proper s) : Reciprocal s := by
  intro d n m
  constructor
  · intro hnext
    obtain ⟨l, hl⟩ := h n d (by rw [← isSome_next?, hnext]; rfl)
    obtain ⟨k, -, hforth, hback⟩ := hl.next (List.mem_cons_self ..)
    rwa [Option.some.inj (hnext.symm.trans hforth)]
  · intro hprev
    obtain ⟨l, hl⟩ := h m d (by rw [← isSome_prev?, hprev]; rfl)
    obtain ⟨k, -, hback, hforth⟩ := hl.prev (List.mem_cons_self ..)
    rwa [Option.some.inj (hprev.symm.trans hback)]

theorem Reciprocal.exists_around (h : Reciprocal s) (hn : (link? s n d).isSome) :
    ∃ p q, prev? s d n = some p ∧ next? s d n = some q ∧ (link? s p d).isSome ∧
      (link? s q d).isSome := by
  obtain ⟨l, hl⟩ := Option.isSome_iff_exists.mp hn
  have hprev : prev? s d n = some l.prev := by simp [prev?, hl]
  have hnext : next? s d n = some l.next := by simp [next?, hl]
  refine ⟨l.prev, l.next, hprev, hnext, ?_, ?_⟩
  · rw [← isSome_next?, (h d _ _).mpr hprev]
    rfl
  · rw [← isSome_prev?, (h d _ _).mp hnext]
    rfl

/-- The steps of direction `d` pass the node over, and those of the other direction stay. -/
structure Bypasses (n : Node) (d : Direction) (s t : σ) : Prop where
  relinked : Relinked s t
  next (e : Direction) : next? t e = if e = d then bypass (next? s e) n else next? s e
  prev (e : Direction) : prev? t e = if e = d then bypass (prev? s e) n else prev? s e

theorem Reciprocal.unlink_ok [LawfulLinkStore σ] (h : Reciprocal s) (hn : (link? s n d).isSome) :
    ∃ t, unlink n d s = .ok () t ∧ Bypasses n d s t := by
  obtain ⟨p, q, hprev, hnext, hp, hq⟩ := h.exists_around hn
  obtain ⟨t, hrun, hrelinked, helse, hnext', hprev'⟩ :=
    LinkStore.unlink_ok (link?_of_steps hprev hnext) hp hq
  refine ⟨t, hrun, hrelinked, fun e => ?_, fun e => ?_⟩
  · split
    · case isTrue he => rw [he, hnext', (h d).bypass_eq hprev hnext]
    · case isFalse he => exact (helse.steps he).1
  · split
    · case isTrue he => rw [he, hprev', (h d).symm.bypass_eq hnext hprev]
    · case isFalse he => exact (helse.steps he).2

theorem Bypasses.reciprocal (ht : Bypasses n d s t) (h : Reciprocal s) : Reciprocal t := by
  intro e
  rw [ht.next, ht.prev]
  split
  · exact (h e).bypass n
  · exact h e

variable [PlainLinkStore σ]

theorem eq_of_steps (h : Relinked s t) (hnext : ∀ e, next? t e = next? s e)
    (hprev : ∀ e, prev? t e = prev? s e) : t = s :=
  h.eq_of_link? fun n e => link?_congr (congrFun (hnext e) n) (congrFun (hprev e) n)

omit [PlainLinkStore σ] in
theorem SameElsewhere.trans {u : σ} (h : SameElsewhere d s t) (h' : SameElsewhere d t u) :
    SameElsewhere d s u := fun n e he => (h' n e he).trans (h n e he)

omit [PlainLinkStore σ] in
theorem isSingleton_eq_true : isSingleton s n d = .ok true ↔ link? s n d = some (Link.around n) := by
  refine ⟨fun h => ?_, isSingleton_alone⟩
  cases hlink : link? s n d with
  | none =>
    rw [isSingleton, link, hlink] at h
    cases h
  | some l =>
    rw [isSingleton_eq hlink] at h
    rw [beq_iff_eq.mp (Except.ok.inj h)]

theorem SameElsewhere.eq_of_steps (h : SameElsewhere d s t) (hrelinked : Relinked s t)
    (hnext : next? t d = next? s d) (hprev : prev? t d = prev? s d) : t = s := by
  refine LinkStore.eq_of_steps hrelinked (fun e => ?_) fun e => ?_
  · by_cases he : e = d
    · rw [he, hnext]
    · exact (h.steps he).1
  · by_cases he : e = d
    · rw [he, hprev]
    · exact (h.steps he).2

/-- The steps of one direction are passed over once for each node taken out of it, so they do not
tell which node was taken out first. -/
theorem Reciprocal.unlink_comm (h : Reciprocal s) (hn : (link? s n d).isSome)
    (hm : (link? s m e).isSome) :
    ∃ t, (do unlink n d; unlink m e : Change σ Unit) s = .ok () t ∧
      (do unlink m e; unlink n d : Change σ Unit) s = .ok () t := by
  obtain ⟨t, hrun, ht⟩ := h.unlink_ok hn
  obtain ⟨u, hrun', hu⟩ := h.unlink_ok hm
  obtain ⟨t', hrunt, ht'⟩ := (ht.reciprocal h).unlink_ok (n := m) (d := e)
    (by rwa [ht.relinked.isSome_link?])
  obtain ⟨u', hrunu, hu'⟩ := (hu.reciprocal h).unlink_ok (n := n) (d := d)
    (by rwa [hu.relinked.isSome_link?])
  have heq : u' = t' := by
    have hback := (ht.relinked.trans ht'.relinked).symm
    refine LinkStore.eq_of_steps (hback.trans (hu.relinked.trans hu'.relinked)) (fun c => ?_)
      fun c => ?_
    · rw [hu'.next, hu.next, ht'.next, ht.next]
      split_ifs
      exacts [(h c).bypass_comm m n, rfl, rfl, rfl]
    · rw [hu'.prev, hu.prev, ht'.prev, ht.prev]
      split_ifs
      exacts [(h c).symm.bypass_comm m n, rfl, rfl, rfl]
  refine ⟨t', (Change.bind_ok hrun).trans hrunt, (Change.bind_ok hrun').trans ?_⟩
  rw [hrunu, heq]

theorem unlink_alone (h : link? s n d = some (Link.around n)) : unlink n d s = .ok () s := by
  have hsome : (link? s n d).isSome := by
    rw [h]
    rfl
  obtain ⟨t, hrun, hrelinked, helse, hnext, hprev⟩ := LinkStore.unlink_ok h hsome hsome
  have hforth : next? s d n = some n := congrArg (Option.map Link.next) h
  have hback : prev? s d n = some n := congrArg (Option.map Link.prev) h
  rw [Function.update_idem, Function.update_eq_self_iff.mpr hforth.symm] at hnext
  rw [Function.update_idem, Function.update_eq_self_iff.mpr hback.symm] at hprev
  rw [hrun, helse.eq_of_steps hrelinked hnext hprev]

theorem Reciprocal.unlink_inserted (h : Reciprocal s) (hn : link? s n d = some (Link.around n))
    (hanchor : (link? s anchor d).isSome) :
    (do insertBefore n anchor d; unlink n d : Change σ Unit) s = .ok () s := by
  by_cases hne : anchor = n
  · subst hne
    exact (Change.bind_ok (insertBefore_alone hn)).trans (unlink_alone hn)
  obtain ⟨p, -, hprev, -, hp, -⟩ := h.exists_around hanchor
  have hstep : next? s d p = some anchor := (h d _ _).mpr hprev
  have hforth : next? s d n = some n := congrArg (Option.map Link.next) hn
  have hback : prev? s d n = some n := congrArg (Option.map Link.prev) hn
  have hnp : n ≠ p := by
    intro heq
    subst heq
    exact hne (Option.some.inj (hstep.symm.trans hforth))
  obtain ⟨t, hrun, hrelinked, helse, hnext₁, hprev₁⟩ := insertBefore_ok hn hprev hp
  have hlink : link? t n d = some ⟨p, anchor⟩ := by
    refine link?_of_steps ?_ ?_
    · rw [hprev₁, Function.update_of_ne (Ne.symm hne), Function.update_self]
    · rw [hnext₁, Function.update_of_ne hnp, Function.update_self]
  obtain ⟨u, hrun', hrelinked', helse', hnext₂, hprev₂⟩ := LinkStore.unlink_ok hlink
    (by rwa [hrelinked.isSome_link?]) (by rwa [hrelinked.isSome_link?])
  rw [hnext₁, update_undo hnp hforth hstep] at hnext₂
  rw [hprev₁, update_undo (Ne.symm hne) hback hprev] at hprev₂
  refine (Change.bind_ok hrun).trans (hrun'.trans ?_)
  rw [(helse.trans helse').eq_of_steps (hrelinked.trans hrelinked') hnext₂ hprev₂]

theorem Reciprocal.insert_unlinked (h : Reciprocal s) (hnext : next? s d n = some m) :
    (do unlink n d; insertBefore n m d : Change σ Unit) s = .ok () s := by
  have hback : prev? s d m = some n := (h d _ _).mp hnext
  by_cases hne : m = n
  · subst hne
    have hn := link?_of_steps hback hnext
    exact (Change.bind_ok (unlink_alone hn)).trans (insertBefore_alone hn)
  have hn : (link? s n d).isSome := by
    rw [← isSome_next?, hnext]
    rfl
  obtain ⟨p, q, hprev, hq, hp, hsome⟩ := h.exists_around hn
  obtain rfl := Option.some.inj (hq.symm.trans hnext)
  have hstep : next? s d p = some n := (h d _ _).mpr hprev
  have hpn : p ≠ n := by
    intro heq
    subst heq
    exact hne (Option.some.inj (hnext.symm.trans hstep))
  obtain ⟨t, hrun, hrelinked, helse, hnext₁, hprev₁⟩ :=
    LinkStore.unlink_ok (link?_of_steps hprev hnext) hp hsome
  have halone : link? t n d = some (Link.around n) := by
    refine link?_of_steps ?_ ?_
    · rw [hprev₁, Function.update_self]
    · rw [hnext₁, Function.update_self]
  have hbefore : prev? t d q = some p := by
    rw [hprev₁, Function.update_of_ne hne, Function.update_self]
  obtain ⟨u, hrun', hrelinked', helse', hnext₂, hprev₂⟩ :=
    insertBefore_ok halone hbefore (by rwa [hrelinked.isSome_link?])
  rw [hnext₁, update_undo hpn hstep hnext] at hnext₂
  rw [hprev₁, update_undo hne hback hprev] at hprev₂
  refine (Change.bind_ok hrun).trans (hrun'.trans ?_)
  rw [(helse.trans helse').eq_of_steps (hrelinked.trans hrelinked') hnext₂ hprev₂]

/-- What is spliced can be spliced back, and removals can be swapped. -/
structure Reversible (s : σ) : Prop where
  unlink_inserted {n anchor : Node} {d : Direction} : isSingleton s n d = .ok true →
    (link? s anchor d).isSome →
    (do insertBefore n anchor d; unlink n d : Change σ Unit) s = .ok () s
  insert_unlinked {n m : Node} {d : Direction} : next? s d n = some m →
    (do unlink n d; insertBefore n m d : Change σ Unit) s = .ok () s
  unlink_comm {n m : Node} {d e : Direction} : (link? s n d).isSome → (link? s m e).isSome →
    ∃ t, (do unlink n d; unlink m e : Change σ Unit) s = .ok () t ∧
      (do unlink m e; unlink n d : Change σ Unit) s = .ok () t

theorem Reciprocal.reversible (h : Reciprocal s) : Reversible s where
  unlink_inserted hn hanchor := h.unlink_inserted (isSingleton_eq_true.mp hn) hanchor
  insert_unlinked hnext := h.insert_unlinked hnext
  unlink_comm hn hm := h.unlink_comm hn hm

end LinkStore

end SlotGraph

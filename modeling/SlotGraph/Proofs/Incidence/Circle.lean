import SlotGraph.Proofs.Incidence.Splice
import SlotGraph.Proofs.Ring
set_option autoImplicit false

/-!
Circles of links. A store is proper if the links of each direction lead from every node in a circle
back to it. Splicing keeps a store proper: it changes the circles that the node joins or leaves and
keeps every other circle as it is.
-/

namespace SlotGraph

namespace LinkStore

variable {σ : Type} [LinkStore σ] {s t : σ} {d : Direction} {n m x y : Node} {l r : List Node}

theorem link?_of_steps {p q : Node} (hprev : prev? s d n = some p) (hnext : next? s d n = some q) :
    link? s n d = some ⟨p, q⟩ := by
  obtain ⟨k, hk, rfl⟩ := Option.map_eq_some_iff.mp hnext
  obtain ⟨k', hk', rfl⟩ := Option.map_eq_some_iff.mp hprev
  obtain rfl := Option.some.inj (hk.symm.trans hk')
  exact hk

theorem link?_congr (hnext : next? t d n = next? s d n) (hprev : prev? t d n = prev? s d n) :
    link? t n d = link? s n d := by
  cases hlink : link? s n d with
  | none => simpa [next?, hlink] using hnext
  | some k =>
    have hforth : next? s d n = some k.next := by simp [next?, hlink]
    have hback : prev? s d n = some k.prev := by simp [prev?, hlink]
    exact link?_of_steps (hprev.trans hback) (hnext.trans hforth)

theorem link?_of_member (h : Ring (next? s d) (prev? s d) m (l ++ n :: r)) :
    link? s n d = some ⟨l.getLastD m, r.headD m⟩ := link?_of_steps h.prev_member h.next_member

theorem link?_of_sentinel (h : Ring (next? s d) (prev? s d) n l) :
    link? s n d = some ⟨l.getLastD n, l.headD n⟩ := link?_of_steps h.prev_eq h.next_eq

theorem link?_of_alone (h : Ring (next? s d) (prev? s d) n []) :
    link? s n d = some (Link.around n) := link?_of_sentinel h

theorem ring_alone (h : link? s n d = some (Link.around n)) :
    Ring (next? s d) (prev? s d) n [] :=
  path_nil.mpr ⟨congrArg (Option.map Link.next) h, congrArg (Option.map Link.prev) h⟩

/-- Forward from `n` come the nodes of `l`, each once, and then `n` again. -/
structure Circle (s : σ) (d : Direction) (n : Node) (l : List Node) : Prop where
  ring : Ring (next? s d) (prev? s d) n l
  nodup : (n :: l).Nodup

theorem circle_alone_iff : Circle s d n [] ↔ link? s n d = some (Link.around n) :=
  ⟨fun h => link?_of_alone h.ring, fun h => ⟨ring_alone h, List.nodup_singleton n⟩⟩

theorem Circle.unique {l' : List Node} (h : Circle s d n l) (h' : Circle s d n l') : l = l' :=
  Path.unique h.ring h'.ring (List.nodup_cons.mp h.nodup).1 (List.nodup_cons.mp h'.nodup).1

theorem Circle.rotate (h : Circle s d m (l ++ n :: r)) : Circle s d n (r ++ m :: l) where
  ring := h.ring.rotate
  nodup := by
    have hd : ((m :: l) ++ (n :: r)).Nodup := h.nodup
    exact List.nodup_append_comm.mp hd

theorem Circle.through (h : Circle s d m l) (hx : x ∈ m :: l) :
    ∃ r, Circle s d x r ∧ ∀ y, y ∈ x :: r ↔ y ∈ m :: l := by
  obtain rfl | hl := List.mem_cons.mp hx
  · exact ⟨l, h, fun _ => Iff.rfl⟩
  · obtain ⟨l₁, l₂, rfl⟩ := List.append_of_mem hl
    refine ⟨l₂ ++ m :: l₁, h.rotate, fun y => ?_⟩
    simp only [List.mem_cons, List.mem_append]
    tauto

theorem Circle.next (h : Circle s d m l) (hx : x ∈ m :: l) :
    ∃ y ∈ m :: l, next? s d x = some y ∧ prev? s d y = some x := by
  obtain ⟨r, hr, hmem⟩ := h.through hx
  refine ⟨r.headD x, (hmem _).mp ?_, hr.ring.joined_next⟩
  cases r <;> simp

theorem Circle.prev (h : Circle s d m l) (hx : x ∈ m :: l) :
    ∃ y ∈ m :: l, prev? s d x = some y ∧ next? s d y = some x := by
  obtain ⟨r, hr, hmem⟩ := h.through hx
  obtain ⟨hnext, hprev⟩ := hr.ring.joined_prev
  exact ⟨r.getLastD x, (hmem _).mp (List.getLastD_mem_cons ..), hprev, hnext⟩

theorem Circle.not_mem_of_alone (h : Circle s d m l) (hn : Circle s d n []) (hne : m ≠ n) :
    n ∉ m :: l := by
  intro hmem
  obtain ⟨r, hr, hall⟩ := h.through hmem
  obtain rfl := hr.unique hn
  exact hne (by simpa using (hall m).mpr (List.mem_cons_self ..))

theorem Circle.congr (h : Circle s d m l) (hnext : ∀ x ∈ m :: l, next? t d x = next? s d x)
    (hprev : ∀ x ∈ m :: l, prev? t d x = prev? s d x) : Circle t d m l :=
  ⟨h.ring.congr hnext hprev, h.nodup⟩

theorem SameElsewhere.circle (h : SameElsewhere d s t) {e : Direction} (he : e ≠ d)
    (hc : Circle s e n l) : Circle t e n l :=
  hc.congr (fun x _ => congrArg (Option.map Link.next) (h x e he))
    fun x _ => congrArg (Option.map Link.prev) (h x e he)

/-- Every node is on a circle of each direction. -/
def Proper (s : σ) : Prop := ∀ n d, (link? s n d).isSome → ∃ l, Circle s d n l

variable [LawfulLinkStore σ] {anchor : Node}

theorem Relinked.isSome_link? (h : Relinked s t) (n : Node) (d : Direction) :
    (link? t n d).isSome = (link? s n d).isSome := by
  induction h with
  | refl => rfl
  | set l _ hsome ih =>
    rw [LawfulLinkStore.link?_setLink l hsome, ← ih]
    split
    · rename_i heq
      rw [heq.1, heq.2, hsome]
      rfl
    · rfl

/-- The node `n` comes last on the circle that is read from `anchor`; circles over other nodes and
circles of the other direction stay. -/
structure Inserts (n anchor : Node) (d : Direction) (s t : σ) : Prop where
  elsewhere : SameElsewhere d s t
  grows {l : List Node} : Circle s d anchor l → Circle t d anchor (l ++ [n])
  kept {m : Node} {l : List Node} : Circle s d m l → m ≠ n → anchor ∉ m :: l → Circle t d m l

omit [LawfulLinkStore σ] in
theorem insertBefore_refused (h : isSingleton s n d = .ok false) :
    insertBefore n anchor d s = .error (.alreadyLinked n d) s := by
  unfold insertBefore
  refine (Change.ask_bind_ok (x := false) ?_).trans ?_
  · exact h
  · rfl

theorem insertBefore_apart (hn : Circle s d n []) (hanchor : Circle s d anchor l)
    (hne : anchor ≠ n) :
    ∃ t, insertBefore n anchor d s = .ok () t ∧ Relinked s t ∧ Inserts n anchor d s t := by
  obtain ⟨p, hp, hprev, hback⟩ := hanchor.prev (List.mem_cons_self ..)
  have hsome : (link? s p d).isSome := by
    rw [← isSome_next?, hback]
    rfl
  obtain ⟨t, hrun, hrelinked, helse, hnext', hprev'⟩ :=
    insertBefore_ok (circle_alone_iff.mp hn) hprev hsome
  refine ⟨t, hrun, hrelinked, helse, fun {l'} hl' => ?_, fun {m l'} hl' hm hanchor' => ?_⟩
  · have hnot : n ∉ anchor :: l' := hl'.not_mem_of_alone hn hne
    obtain rfl : p = l'.getLastD anchor := Option.some.inj (hprev.symm.trans hl'.ring.prev_eq)
    constructor
    · rw [hnext', hprev']
      exact hl'.ring.snoc_update hl'.nodup hnot
    · rw [← List.cons_append, List.nodup_append_comm]
      exact List.nodup_cons.mpr ⟨hnot, hl'.nodup⟩
  · have hnot : n ∉ m :: l' := hl'.not_mem_of_alone hn hm
    have hpnot : p ∉ m :: l' := by
      intro hmem
      obtain ⟨y, hy, hstep, -⟩ := hl'.next hmem
      obtain rfl : y = anchor := Option.some.inj (hstep.symm.trans hback)
      exact hanchor' hy
    refine hl'.congr (fun x hx => ?_) fun x hx => ?_
    · rw [hnext', Function.update_of_ne (ne_of_mem_of_not_mem hx hpnot),
        Function.update_of_ne (ne_of_mem_of_not_mem hx hnot)]
    · rw [hprev', Function.update_of_ne (ne_of_mem_of_not_mem hx hanchor'),
        Function.update_of_ne (ne_of_mem_of_not_mem hx hnot)]

theorem insertBefore_self (hn : Circle s d n []) :
    ∃ t, insertBefore n n d s = .ok () t ∧ Relinked s t ∧ ∀ m e, link? t m e = link? s m e := by
  have hlink := circle_alone_iff.mp hn
  have hsome : (link? s n d).isSome := by
    rw [hlink]
    rfl
  obtain ⟨hforth, hback⟩ := path_nil.mp hn.ring
  obtain ⟨t, hrun, hrelinked, helse, hnext, hprev⟩ := insertBefore_ok hlink hback hsome
  rw [Function.update_idem, Function.update_eq_self_iff.mpr hforth.symm] at hnext
  rw [Function.update_idem, Function.update_eq_self_iff.mpr hback.symm] at hprev
  refine ⟨t, hrun, hrelinked, fun m e => ?_⟩
  by_cases he : e = d
  · subst he
    exact link?_congr (congrFun hnext m) (congrFun hprev m)
  · exact helse m e he

/-- The node `n` stands alone, its circle closes over the gap, and other circles stay. -/
structure Unlinks (n : Node) (d : Direction) (s t : σ) : Prop where
  elsewhere : SameElsewhere d s t
  alone : Circle t d n []
  shrinks {m : Node} {l r : List Node} : Circle s d m (l ++ n :: r) → Circle t d m (l ++ r)
  kept {m : Node} {l : List Node} : Circle s d m l → n ∉ m :: l → Circle t d m l

theorem unlink_circle (hn : Circle s d n l) :
    ∃ t, unlink n d s = .ok () t ∧ Relinked s t ∧ Unlinks n d s t := by
  obtain ⟨p, -, hprev, hback⟩ := hn.prev (List.mem_cons_self ..)
  obtain ⟨q, -, hnext, hforth⟩ := hn.next (List.mem_cons_self ..)
  have hp : (link? s p d).isSome := by
    rw [← isSome_next?, hback]
    rfl
  have hq : (link? s q d).isSome := by
    obtain ⟨k, hk, -⟩ := Option.map_eq_some_iff.mp hforth
    rw [hk]
    rfl
  obtain ⟨t, hrun, hrelinked, helse, hnext', hprev'⟩ :=
    unlink_ok (link?_of_steps hprev hnext) hp hq
  refine ⟨t, hrun, hrelinked, helse, ⟨path_nil.mpr ⟨?_, ?_⟩, List.nodup_singleton n⟩,
    fun {m l' r'} hl' => ?_, fun {m l'} hl' hnot => ?_⟩
  · rw [hnext', Function.update_self]
  · rw [hprev', Function.update_self]
  · obtain rfl : p = l'.getLastD m := Option.some.inj (hprev.symm.trans hl'.ring.prev_member)
    obtain rfl : q = r'.headD m := Option.some.inj (hnext.symm.trans hl'.ring.next_member)
    have hd : (n :: m :: (l' ++ r')).Nodup := by
      have hd' : ((m :: l') ++ n :: r').Nodup := hl'.nodup
      exact List.nodup_middle.mp hd'
    have hnot : n ∉ m :: (l' ++ r') := (List.nodup_cons.mp hd).1
    have hring := hl'.ring.erase_update hl'.nodup
    refine ⟨hring.congr (fun x hx => ?_) fun x hx => ?_, hd.of_cons⟩
    · rw [hnext', Function.update_of_ne (ne_of_mem_of_not_mem hx hnot)]
    · rw [hprev', Function.update_of_ne (ne_of_mem_of_not_mem hx hnot)]
  · have hpnot : p ∉ m :: l' := by
      intro hmem
      obtain ⟨y, hy, hstep, -⟩ := hl'.next hmem
      obtain rfl : y = n := Option.some.inj (hstep.symm.trans hback)
      exact hnot hy
    have hqnot : q ∉ m :: l' := by
      intro hmem
      obtain ⟨y, hy, hstep, -⟩ := hl'.prev hmem
      obtain rfl : y = n := Option.some.inj (hstep.symm.trans hforth)
      exact hnot hy
    refine hl'.congr (fun x hx => ?_) fun x hx => ?_
    · rw [hnext', Function.update_of_ne (ne_of_mem_of_not_mem hx hnot),
        Function.update_of_ne (ne_of_mem_of_not_mem hx hpnot)]
    · rw [hprev', Function.update_of_ne (ne_of_mem_of_not_mem hx hnot),
        Function.update_of_ne (ne_of_mem_of_not_mem hx hqnot)]

theorem Proper.inserts (h : Proper s) (hrelinked : Relinked s t) (ht : Inserts n anchor d s t)
    (hanchor : (link? s anchor d).isSome) : Proper t := by
  intro x e hx
  rw [hrelinked.isSome_link?] at hx
  obtain ⟨l, hl⟩ := h x e hx
  by_cases he : e = d
  · subst he
    obtain ⟨la, hla⟩ := h anchor e hanchor
    have hgrown := ht.grows hla
    by_cases hxn : x = n
    · exact ⟨anchor :: la, hxn ▸ hgrown.rotate⟩
    · by_cases hmem : anchor ∈ x :: l
      · have hon : x ∈ anchor :: (la ++ [n]) := by
          obtain ⟨r, hr, hall⟩ := hl.through hmem
          obtain rfl := hr.unique hla
          exact List.mem_append_left [n] ((hall x).mpr (List.mem_cons_self ..))
        obtain ⟨r, hr, -⟩ := hgrown.through hon
        exact ⟨r, hr⟩
      · exact ⟨l, ht.kept hl hxn hmem⟩
  · exact ⟨l, ht.elsewhere.circle he hl⟩

theorem Proper.unlinks (h : Proper s) (hrelinked : Relinked s t) (ht : Unlinks n d s t) :
    Proper t := by
  intro x e hx
  rw [hrelinked.isSome_link?] at hx
  obtain ⟨l, hl⟩ := h x e hx
  by_cases he : e = d
  · subst he
    by_cases hmem : n ∈ x :: l
    · obtain rfl | hmem := List.mem_cons.mp hmem
      · exact ⟨[], ht.alone⟩
      · obtain ⟨l₁, l₂, rfl⟩ := List.append_of_mem hmem
        exact ⟨l₁ ++ l₂, ht.shrinks hl⟩
    · exact ⟨l, ht.kept hl hmem⟩
  · exact ⟨l, ht.elsewhere.circle he hl⟩

end LinkStore

end SlotGraph

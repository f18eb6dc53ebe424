import SlotGraph.Incidence.Circles
import SlotGraph.Proofs.Incidence.Place
set_option autoImplicit false

namespace SlotGraph

def Node.InRange (heads edges : Nat) : Node → Prop
  | .head i => i < heads
  | .edge i => i < edges

namespace Circles

open LinkStore

variable {a b : Circles} {n anchor : Node} {d : Direction} {heads edges : Nat}

theorem links?_setLink (a : Circles) (n : Node) (d : Direction) (l : Link) (m : Node) :
    (a.setLink n d l).links? m =
      if m = n then (a.links? n).map fun p => p.set d l else a.links? m := by
  cases n with
  | head i =>
    cases m with
    | head j =>
      by_cases hj : i = j
      · simp [setLink, links?, Array.getElem?_modify, hj]
      · simp [setLink, links?, Array.getElem?_modify, hj, Ne.symm hj]
    | edge j => simp [setLink, links?]
  | edge i =>
    cases m with
    | head j => simp [setLink, links?]
    | edge j =>
      by_cases hj : i = j
      · simp [setLink, links?, Array.getElem?_modify, hj]
      · simp [setLink, links?, Array.getElem?_modify, hj, Ne.symm hj]

instance : LawfulLinkStore Circles where
  link?_setLink {a n d} l hsome m e := by
    obtain ⟨p, hp⟩ := Option.isSome_iff_exists.mp (Option.isSome_map.symm.trans hsome)
    show ((a.setLink n d l).links? m).map _ = if _ then _ else (a.links? m).map _
    rw [links?_setLink]
    by_cases hm : m = n
    · simp [hm, hp, PerDirection.set, PerDirection.get_modify]
      split <;> rfl
    · simp [hm]

theorem isSome_link? : (link? a n d).isSome ↔ n.InRange a.heads.size a.edges.size := by
  cases n <;> simp [link?, links?, Node.InRange]

theorem sizes_of_relinked (h : Relinked a b) :
    b.heads.size = a.heads.size ∧ b.edges.size = a.edges.size := by
  induction h with
  | refl => exact ⟨rfl, rfl⟩
  | @set _ n d l _ _ ih => cases n <;> simpa [LinkStore.setLink, setLink] using ih

theorem links?_congr (h : ∀ d, link? b n d = link? a n d) : b.links? n = a.links? n := by
  have hout := h .outgoing
  have hin := h .incoming
  simp only [link?] at hout hin
  cases ha : a.links? n with
  | none => simpa [ha] using hout
  | some p =>
    cases hb : b.links? n with
    | none => simp [ha, hb] at hout
    | some q =>
      simp only [ha, hb, Option.map_some, Option.some.injEq, PerDirection.get] at hout hin
      show some (PerDirection.mk q.outgoing q.incoming) = some p
      rw [hout, hin]

theorem eq_of_links? (h : ∀ n, b.links? n = a.links? n) : b = a := by
  have hheads : b.heads = a.heads := Array.ext_getElem? fun i => h (.head i)
  have hedges : b.edges = a.edges := Array.ext_getElem? fun i => h (.edge i)
  show Circles.mk b.heads b.edges = a
  rw [hheads, hedges]

theorem eq_of_link? (h : ∀ n d, link? b n d = link? a n d) : b = a :=
  eq_of_links? fun n => links?_congr (h n)

instance : PlainLinkStore Circles where
  setLink_self {a n d l} h := by
    refine eq_of_link? fun m e => ?_
    rw [LawfulLinkStore.link?_setLink l (by rw [h]; rfl)]
    split
    · case isTrue heq => rw [heq.1, heq.2, h]
    · rfl
  setLink_setLink a n d k l := by
    refine eq_of_links? fun m => ?_
    show ((a.setLink n d k).setLink n d l).links? m = (a.setLink n d l).links? m
    simp only [links?_setLink]
    by_cases hm : m = n
    · simp [hm, PerDirection.set_set, Function.comp_def]
    · simp [hm]
  setLink_comm a n m d e k l h := by
    refine eq_of_links? fun x => ?_
    show ((a.setLink n d k).setLink m e l).links? x = ((a.setLink m e l).setLink n d k).links? x
    simp only [links?_setLink]
    by_cases hnm : n = m
    · have hde : d ≠ e := fun hde => h (by rw [hnm, hde])
      by_cases hx : x = m
      · simp [hnm, hx, Function.comp_def, PerDirection.set_comm _ hde]
      · simp [hnm, hx]
    · by_cases hxn : x = n
      · simp [hxn, hnm]
      · by_cases hxm : x = m
        · simp [hxm, Ne.symm hnm]
        · simp [hxm, hxn]

def Edit.InRange (heads edges : Nat) : Edit → Prop
  | .insertBefore n anchor _ => n.InRange heads edges ∧ anchor.InRange heads edges
  | .unlink n _ => n.InRange heads edges

def applyAll (a : Circles) (edits : List Edit) : Circles :=
  edits.foldl (fun a edit => match edit.apply a with | .ok _ a | .error _ a => a) a

structure Sound (heads edges : Nat) (a : Circles) : Prop where
  heads : a.heads.size = heads
  edges : a.edges.size = edges
  proper : Proper a

theorem Sound.of_relinked (h : Sound heads edges a) (hrelinked : Relinked a b) (hb : Proper b) :
    Sound heads edges b where
  heads := (sizes_of_relinked hrelinked).1.trans h.heads
  edges := (sizes_of_relinked hrelinked).2.trans h.edges
  proper := hb

theorem Sound.isSome (h : Sound heads edges a) (d : Direction) :
    (link? a n d).isSome ↔ n.InRange heads edges := by
  rw [isSome_link?, h.heads, h.edges]

theorem Sound.circle (h : Sound heads edges a) (hn : n.InRange heads edges) (d : Direction) :
    ∃ l, Circle a d n l := h.proper n d ((h.isSome d).mpr hn)

theorem sound_ofSizes (heads edges : Nat) : Sound heads edges (ofSizes heads edges) where
  heads := by simp [ofSizes]
  edges := by simp [ofSizes]
  proper n d hn := by
    refine ⟨[], circle_alone_iff.mpr ?_⟩
    cases n with
    | head i =>
      have hi : i < heads := by simpa [link?, links?, ofSizes] using hn
      simp [link?, links?, ofSizes, hi]
    | edge i =>
      have hi : i < edges := by simpa [link?, links?, ofSizes] using hn
      simp [link?, links?, ofSizes, hi]

/-- What a store answers and what the two splices do to it, for all nodes in range. -/
structure Spliceable (heads edges : Nat) (a : Circles) : Prop where
  holds (n : Node) (d : Direction) : (link? a n d).isSome ↔ n.InRange heads edges
  next {n : Node} (d : Direction) : n.InRange heads edges →
    ∃ m, m.InRange heads edges ∧ next? a d n = some m ∧ prev? a d m = some n
  prev {n : Node} (d : Direction) : n.InRange heads edges →
    ∃ m, m.InRange heads edges ∧ prev? a d n = some m ∧ next? a d m = some n
  circle {n : Node} (d : Direction) : n.InRange heads edges → ∃! l, Circle a d n l
  isSingleton {n : Node} (d : Direction) : n.InRange heads edges →
    ∃ alone, isSingleton a n d = .ok alone ∧ (alone = true ↔ Circle a d n [])
  refuses {n anchor : Node} {d : Direction} : n.InRange heads edges → ¬Circle a d n [] →
    insertBefore n anchor d a = .error (.alreadyLinked n d) a
  stays {n : Node} {d : Direction} : Circle a d n [] → insertBefore n n d a = .ok () a
  inserts {n anchor : Node} {d : Direction} : anchor.InRange heads edges → Circle a d n [] →
    anchor ≠ n → ∃ b, insertBefore n anchor d a = .ok () b ∧ Inserts n anchor d a b
  unlinks {n : Node} (d : Direction) : n.InRange heads edges →
    ∃ b, unlink n d a = .ok () b ∧ Unlinks n d a b

theorem Sound.isSingleton (h : Sound heads edges a) (hn : n.InRange heads edges)
    (d : Direction) :
    ∃ alone, LinkStore.isSingleton a n d = .ok alone ∧ (alone = true ↔ Circle a d n []) := by
  obtain ⟨k, hk⟩ := Option.isSome_iff_exists.mp ((h.isSome d).mpr hn)
  refine ⟨_, isSingleton_eq hk, ?_⟩
  rw [circle_alone_iff, hk, beq_iff_eq, Option.some.injEq]

theorem Sound.refuses (h : Sound heads edges a) (hn : n.InRange heads edges)
    (hlinked : ¬Circle a d n []) :
    insertBefore n anchor d a = .error (.alreadyLinked n d) a := by
  obtain ⟨alone, hsingle, halone⟩ := h.isSingleton hn d
  obtain rfl : alone = false := Bool.eq_false_iff.mpr fun htrue => hlinked (halone.mp htrue)
  exact insertBefore_refused hsingle

theorem Sound.spliceable (h : Sound heads edges a) : Spliceable heads edges a where
  holds n d := h.isSome d
  next d hn := by
    obtain ⟨l, hl⟩ := h.circle hn d
    obtain ⟨m, -, hforth, hback⟩ := hl.next (List.mem_cons_self ..)
    refine ⟨m, (h.isSome d).mp ?_, hforth, hback⟩
    obtain ⟨k, hk, -⟩ := Option.map_eq_some_iff.mp hback
    rw [hk]
    rfl
  prev d hn := by
    obtain ⟨l, hl⟩ := h.circle hn d
    obtain ⟨m, -, hback, hforth⟩ := hl.prev (List.mem_cons_self ..)
    refine ⟨m, (h.isSome d).mp ?_, hback, hforth⟩
    rw [← isSome_next?, hforth]
    rfl
  circle d hn := by
    obtain ⟨l, hl⟩ := h.circle hn d
    exact ⟨l, hl, fun l' hl' => hl'.unique hl⟩
  isSingleton d hn := h.isSingleton hn d
  refuses hn hlinked := h.refuses hn hlinked
  stays hn := insertBefore_alone (circle_alone_iff.mp hn)
  inserts {n anchor d} hanchor hn hne := by
    obtain ⟨l, hl⟩ := h.circle hanchor d
    obtain ⟨b, hrun, -, hb⟩ := insertBefore_apart hn hl hne
    exact ⟨b, hrun, hb⟩
  unlinks d hn := by
    obtain ⟨l, hl⟩ := h.circle hn d
    obtain ⟨b, hrun, -, hb⟩ := unlink_circle hl
    exact ⟨b, hrun, hb⟩

theorem Sound.apply (h : Sound heads edges a) {edit : Edit} (hedit : edit.InRange heads edges) :
    Change.Leaves (Sound heads edges) (edit.apply a) := by
  cases edit with
  | insertBefore n anchor d =>
    obtain ⟨hn, hanchor⟩ := hedit
    show Change.Leaves _ (insertBefore n anchor d a)
    by_cases halone : Circle a d n []
    · by_cases hne : anchor = n
      · subst hne
        exact .of_ok (insertBefore_alone (circle_alone_iff.mp halone)) h
      · obtain ⟨l, hl⟩ := h.circle hanchor d
        obtain ⟨b, hrun, hrelinked, hb⟩ := insertBefore_apart halone hl hne
        have hproper := h.proper.inserts hrelinked hb ((h.isSome d).mpr hanchor)
        exact .of_ok hrun (h.of_relinked hrelinked hproper)
    · exact .of_error (h.refuses hn halone) h
  | unlink n d =>
    obtain ⟨l, hl⟩ := h.circle hedit d
    obtain ⟨b, hrun, hrelinked, hb⟩ := unlink_circle hl
    exact .of_ok hrun (h.of_relinked hrelinked (h.proper.unlinks hrelinked hb))

theorem Sound.applyAll (h : Sound heads edges a) {edits : List Edit}
    (hedits : ∀ edit ∈ edits, edit.InRange heads edges) :
    Sound heads edges (a.applyAll edits) := by
  induction edits generalizing a with
  | nil => exact h
  | cons edit edits ih =>
    obtain ⟨hedit, hrest⟩ := List.forall_mem_cons.mp hedits
    have hleaves := h.apply hedit
    rw [Circles.applyAll, List.foldl_cons]
    generalize edit.apply a = r at hleaves
    cases hleaves with
    | ok _ hb => exact ih hb hrest
    | error _ hb => exact ih hb hrest

/-- Whatever has been spliced before in a store of single nodes, the next splice does what it is
meant to. -/
theorem spliceable_applyAll (heads edges : Nat) {edits : List Edit}
    (hedits : ∀ edit ∈ edits, edit.InRange heads edges) :
    Spliceable heads edges ((ofSizes heads edges).applyAll edits) :=
  ((sound_ofSizes heads edges).applyAll hedits).spliceable

def headInOtherCircle : List Edit :=
  [.insertBefore (.edge 0) (.head 0) .outgoing, .insertBefore (.head 1) (.head 0) .outgoing,
    .insertBefore (.edge 1) (.edge 0) .outgoing, .insertBefore (.edge 2) (.edge 2) .outgoing,
    .insertBefore (.edge 1) (.head 1) .outgoing, .insertBefore (.edge 1) (.edge 2) .incoming,
    .unlink (.head 0) .outgoing]

theorem spliceable_headInOtherCircle :
    (∀ edit ∈ headInOtherCircle, edit.InRange 2 3) ∧
      Spliceable 2 3 ((ofSizes 2 3).applyAll headInOtherCircle) := by
  have hedits : ∀ edit ∈ headInOtherCircle, edit.InRange 2 3 := by
    simp [headInOtherCircle, Edit.InRange, Node.InRange]
  exact ⟨hedits, spliceable_applyAll 2 3 hedits⟩

example : ((ofSizes 2 3).applyAll headInOtherCircle).links? (.edge 1) =
    some ⟨⟨.head 1, .edge 0⟩, ⟨.edge 2, .edge 2⟩⟩ := by decide

end Circles

end SlotGraph

import Mathlib.Logic.Function.Basic
import SlotGraph.Incidence.Splice
import SlotGraph.Proofs.Execution
set_option autoImplicit false

namespace SlotGraph

theorem PerDirection.get_modify {α : Type} (p : PerDirection α) (d e : Direction) (f : α → α) :
    (p.modify d f).get e = if e = d then f (p.get e) else p.get e := by
  cases d <;> cases e <;> rfl

/-- A store in which replacing the link of a node changes that link and no other. -/
class LawfulLinkStore (σ : Type) [LinkStore σ] : Prop where
  link?_setLink {s : σ} {n : Node} {d : Direction} (l : Link) :
    (LinkStore.link? s n d).isSome → ∀ m e,
      LinkStore.link? (LinkStore.setLink s n d l) m e =
        if m = n ∧ e = d then some l else LinkStore.link? s m e

namespace LinkStore

variable {σ : Type} [LinkStore σ]

def next? (s : σ) (d : Direction) (n : Node) : Option Node := (link? s n d).map Link.next

def prev? (s : σ) (d : Direction) (n : Node) : Option Node := (link? s n d).map Link.prev

/-- The second store came from the first by replacing links of nodes that it holds. -/
inductive Relinked : σ → σ → Prop where
  | refl (s : σ) : Relinked s s
  | set {s t : σ} {n : Node} {d : Direction} (l : Link) :
    Relinked s t → (link? t n d).isSome → Relinked s (setLink t n d l)

theorem Relinked.trans {s t u : σ} (h : Relinked s t) (h' : Relinked t u) : Relinked s u := by
  induction h' with
  | refl => exact h
  | set l _ hl ih => exact .set l ih hl

theorem link_eq {s : σ} {n : Node} {d : Direction} {l : Link} (h : link? s n d = some l) :
    link s n d = .ok l := by
  unfold link
  rw [h]

theorem isSingleton_eq {s : σ} {n : Node} {d : Direction} {l : Link} (h : link? s n d = some l) :
    isSingleton s n d = .ok (l == Link.around n) := by
  rw [isSingleton, link_eq h]
  rfl

theorem isSingleton_alone {s : σ} {n : Node} {d : Direction}
    (h : link? s n d = some (Link.around n)) : isSingleton s n d = .ok true := by
  rw [isSingleton_eq h, beq_self_eq_true]

theorem isSome_next? {s : σ} {d : Direction} {n : Node} :
    (next? s d n).isSome = (link? s n d).isSome := by simp [next?]

theorem isSome_prev? {s : σ} {d : Direction} {n : Node} :
    (prev? s d n).isSome = (link? s n d).isSome := by simp [prev?]

theorem isSome_update {f : Node → Option Node} {n m k : Node} (h : (f k).isSome) :
    (Function.update f n (some m) k).isSome := by
  by_cases hk : k = n
  · rw [hk, Function.update_self]
    rfl
  · rwa [Function.update_of_ne hk]

def SameElsewhere (d : Direction) (s t : σ) : Prop :=
  ∀ n e, e ≠ d → link? t n e = link? s n e

theorem SameElsewhere.steps {s t : σ} {d e : Direction} (h : SameElsewhere d s t) (hne : e ≠ d) :
    next? t e = next? s e ∧ prev? t e = prev? s e := by
  constructor <;> funext n <;> simp only [next?, prev?, h n e hne]

variable [LawfulLinkStore σ]

theorem adjust_ok {s : σ} {n : Node} {d : Direction} {l : Link} (f : Link → Link)
    (h : link? s n d = some l) :
    ∃ t, adjust n d f s = .ok () t ∧ Relinked s t ∧ SameElsewhere d s t ∧
      next? t d = Function.update (next? s d) n (some (f l).next) ∧
      prev? t d = Function.update (prev? s d) n (some (f l).prev) := by
  have hsome : (link? s n d).isSome := by rw [h]; rfl
  have hset := LawfulLinkStore.link?_setLink (f l) hsome
  refine ⟨setLink s n d (f l), by simp [adjust, h], .set _ (.refl s) hsome, ?_, ?_, ?_⟩
  · intro m e hne
    rw [hset, if_neg fun heq => hne heq.2]
  · funext m
    by_cases hm : m = n <;> simp [next?, hset, hm]
  · funext m
    by_cases hm : m = n <;> simp [prev?, hset, hm]

theorem adjust_next {s : σ} {n : Node} {d : Direction} (h : (link? s n d).isSome) (m : Node) :
    ∃ t, adjust n d (fun l => { l with next := m }) s = .ok () t ∧ Relinked s t ∧
      SameElsewhere d s t ∧ next? t d = Function.update (next? s d) n (some m) ∧
      prev? t d = prev? s d := by
  obtain ⟨l, hl⟩ := Option.isSome_iff_exists.mp h
  obtain ⟨t, hrun, hlink, helse, hnext, hprev⟩ := adjust_ok (fun l => { l with next := m }) hl
  refine ⟨t, hrun, hlink, helse, hnext, hprev.trans ?_⟩
  rw [Function.update_eq_self_iff]
  simp [prev?, hl]

theorem adjust_prev {s : σ} {n : Node} {d : Direction} (h : (link? s n d).isSome) (m : Node) :
    ∃ t, adjust n d (fun l => { l with prev := m }) s = .ok () t ∧ Relinked s t ∧
      SameElsewhere d s t ∧ next? t d = next? s d ∧
      prev? t d = Function.update (prev? s d) n (some m) := by
  obtain ⟨l, hl⟩ := Option.isSome_iff_exists.mp h
  obtain ⟨t, hrun, hlink, helse, hnext, hprev⟩ := adjust_ok (fun l => { l with prev := m }) hl
  refine ⟨t, hrun, hlink, helse, hnext.trans ?_, hprev⟩
  rw [Function.update_eq_self_iff]
  simp [next?, hl]

/-- Splicing a node in writes its own two steps and the two steps around it. -/
theorem insertBefore_ok {s : σ} {n anchor prev : Node} {d : Direction}
    (hn : link? s n d = some (Link.around n)) (hanchor : prev? s d anchor = some prev)
    (hprev : (link? s prev d).isSome) :
    ∃ t, insertBefore n anchor d s = .ok () t ∧ Relinked s t ∧ SameElsewhere d s t ∧
      next? t d =
        Function.update (Function.update (next? s d) n (some anchor)) prev (some n) ∧
      prev? t d =
        Function.update (Function.update (prev? s d) n (some prev)) anchor (some n) := by
  obtain ⟨la, hla, rfl⟩ := Option.map_eq_some_iff.mp hanchor
  obtain ⟨s₁, hrun₁, hlink₁, helse₁, hnext₁, hprev₁⟩ :=
    adjust_ok (fun _ => ⟨la.prev, anchor⟩) hn
  have hsome₁ : (link? s₁ la.prev d).isSome := by
    rw [← isSome_next?, hnext₁]
    exact isSome_update (by rwa [isSome_next?])
  obtain ⟨s₂, hrun₂, hlink₂, helse₂, hnext₂, hprev₂⟩ := adjust_next hsome₁ n
  have hsome₂ : (link? s₂ anchor d).isSome := by
    rw [← isSome_next?, hnext₂, hnext₁]
    exact isSome_update (isSome_update (by rw [isSome_next?, hla]; rfl))
  obtain ⟨s₃, hrun₃, hlink₃, helse₃, hnext₃, hprev₃⟩ := adjust_prev hsome₂ n
  refine ⟨s₃, ?_, (hlink₁.trans hlink₂).trans hlink₃, fun m e he => ?_, ?_, ?_⟩
  · unfold insertBefore
    refine (Change.ask_bind_ok (x := true) ?_).trans ((Change.ask_bind_ok (x := la) ?_).trans ?_)
    · exact isSingleton_alone hn
    · exact link_eq hla
    · exact (Change.bind_ok hrun₁).trans ((Change.bind_ok hrun₂).trans hrun₃)
  · rw [helse₃ m e he, helse₂ m e he, helse₁ m e he]
  · rw [hnext₃, hnext₂, hnext₁]
  · rw [hprev₃, hprev₂, hprev₁]

theorem unlink_ok {s : σ} {n prev next : Node} {d : Direction}
    (hn : link? s n d = some ⟨prev, next⟩) (hprev : (link? s prev d).isSome)
    (hnext : (link? s next d).isSome) :
    ∃ t, unlink n d s = .ok () t ∧ Relinked s t ∧ SameElsewhere d s t ∧
      next? t d = Function.update (Function.update (next? s d) prev (some next)) n (some n) ∧
      prev? t d = Function.update (Function.update (prev? s d) next (some prev)) n (some n) := by
  obtain ⟨s₁, hrun₁, hlink₁, helse₁, hnext₁, hprev₁⟩ := adjust_next hprev next
  have hsome₁ : (link? s₁ next d).isSome := by
    rw [← isSome_next?, hnext₁]
    exact isSome_update (by rwa [isSome_next?])
  obtain ⟨s₂, hrun₂, hlink₂, helse₂, hnext₂, hprev₂⟩ := adjust_prev hsome₁ prev
  have hsome₂ : (link? s₂ n d).isSome := by
    rw [← isSome_next?, hnext₂, hnext₁]
    exact isSome_update (by rw [isSome_next?, hn]; rfl)
  obtain ⟨l, hl⟩ := Option.isSome_iff_exists.mp hsome₂
  obtain ⟨s₃, hrun₃, hlink₃, helse₃, hnext₃, hprev₃⟩ := adjust_ok (fun _ => Link.around n) hl
  refine ⟨s₃, ?_, (hlink₁.trans hlink₂).trans hlink₃, fun m e he => ?_, ?_, ?_⟩
  · unfold unlink
    refine (Change.ask_bind_ok (x := ⟨prev, next⟩) ?_).trans ?_
    · exact link_eq hn
    · exact (Change.bind_ok hrun₁).trans ((Change.bind_ok hrun₂).trans hrun₃)
  · rw [helse₃ m e he, helse₂ m e he, helse₁ m e he]
  · rw [hnext₃, hnext₂, hnext₁]
    rfl
  · rw [hprev₃, hprev₂, hprev₁]
    rfl

end LinkStore

end SlotGraph

import SlotGraph.Proofs.Multigraph.Reach
set_option autoImplicit false

/-!
Cursors and readers. A reader stops when its counter is used up, a cursor at the end of its list or
at a head; both go through the same handles in the same order. A cursor that erases on its way is
led to the edge that came next, and from there through the edges that are left.
-/

namespace SlotGraph

namespace TwoEnded

variable {ρ α : Type} [TwoEnded ρ α]

/-- Read from the front until it has nothing more, the reader yields these items. -/
inductive Yields : ρ → List α → Prop where
  | done {it : ρ} : next? it = none → Yields it []
  | item {it later : ρ} {x : α} {xs : List α} :
    next? it = some (x, later) → Yields later xs → Yields it (x :: xs)

theorem Exact.yields {R : ρ → List α → Prop} (h : Exact R) {it : ρ} {xs : List α}
    (hit : R it xs) : Yields it xs := by
  induction xs generalizing it with
  | nil => exact .done (h.next_nil hit)
  | cons x xs ih =>
    obtain ⟨later, hnext, hlater⟩ := h.next_cons hit
    exact .item hnext (ih hlater)

theorem Gives.yields {it : ρ} {xs : List α} (h : Gives it xs) : Yields it xs := by
  obtain ⟨R, hR, hit⟩ := h
  exact hR.yields hit

end TwoEnded

/-- From its first item until there is none, the cursor walks over these. -/
inductive Walks {α : Type} (advance : α → Except Fault (Option α)) : Option α → List α → Prop where
  | done : Walks advance none []
  | step {x : α} {next : Option α} {xs : List α} :
    advance x = .ok next → Walks advance next xs → Walks advance (some x) (x :: xs)

section

variable {α : Type} {advance : α → Except Fault (Option α)}

theorem Walks.unique {first : Option α} {xs ys : List α} (hx : Walks advance first xs)
    (hy : Walks advance first ys) : xs = ys := by
  induction hx generalizing ys with
  | done =>
    cases hy
    rfl
  | step hnext _ ih =>
    cases hy with
    | step hnext' hy =>
      rw [hnext] at hnext'
      cases hnext'
      rw [ih hy]

theorem Walks.iff {first : Option α} {xs : List α} (h : Walks advance first xs) (ys : List α) :
    Walks advance first ys ↔ ys = xs := by
  constructor
  · intro hys
    exact hys.unique h
  · intro heq
    rw [heq]
    exact h

theorem walks_of_successor [DecidableEq α] {l r : List α} (hd : (l ++ r).Nodup)
    (hnext : ∀ x ∈ l ++ r, advance x = .ok (successor? x (l ++ r))) :
    Walks advance r.head? r := by
  -- on what lies ahead; what the cursor has passed collects in `l`
  induction r generalizing l with
  | nil => exact .done
  | cons x r ih =>
    have hnot : x ∉ l := fun hl => (List.nodup_middle.mp hd).notMem (List.mem_append_left _ hl)
    have hx : advance x = .ok r.head? := by
      rw [hnext x (by simp), successor?_eq hnot]
    rw [List.append_cons] at hd hnext
    exact .step hx (ih hd hnext)

end

namespace Multigraph

variable {V E : Type} {g : Multigraph V E} {m : Roster V E}

/-- The reader and the cursor go through the same items, and there are `n` of them. -/
def GoTogether {ρ α : Type} [TwoEnded ρ α] (it : ρ) (first : Option α)
    (advance : α → Except Fault (Option α)) (n : Nat) : Prop :=
  ∃ xs, TwoEnded.Yields it xs ∧ xs.length = n ∧ ∀ ys, Walks advance first ys ↔ ys = xs

/-- The erasure of `e` leads on to `next`: what came after `e` in its list comes after it still,
and the cursor walks from `next` through that to the end. -/
def LeadsOn {ρ : Type} [TwoEnded ρ EdgeId] (g' : Multigraph V E) (e : EdgeId)
    (next : Option EdgeId) (before after : ρ) (advance : EdgeId → Except Fault (Option EdgeId)) :
    Prop :=
  ∃ l r, TwoEnded.Yields before (l ++ e :: r) ∧ TwoEnded.Yields after (l ++ r) ∧ e ∉ l ++ r ∧
    next = r.head? ∧ (∀ f ∈ r, g'.containsEdge f = true) ∧ ∀ es, Walks advance next es ↔ es = r

structure CursorsAgree (g : Multigraph V E) : Prop where
  vertices : GoTogether g.vertexIds g.firstVertex? g.nextVertex g.vertexCount
  edges : GoTogether g.edgeIds g.firstEdge? g.nextEdge g.edgeCount
  incident (d : Direction) {v : VertexId} : g.containsVertex v = true → ∃ it first n,
    g.incidentEdges d v = .ok it ∧ g.firstIncident d v = .ok first ∧ g.degreeIn d v = .ok n ∧
      GoTogether it first (g.nextIncident d) n
  erase {e : EdgeId} : g.containsEdge e = true → ∃ next g', eraseEdge e g = .ok next g' ∧
    LeadsOn g' e next g.edgeIds g'.edgeIds g'.nextEdge
  eraseIncident (d : Direction) {e : EdgeId} : g.containsEdge e = true →
    ∃ next g' it it', ∃ ends : PerDirection VertexId, Multigraph.eraseIncident d e g = .ok next g' ∧
      g.endpoints e = .ok (ends.outgoing, ends.incoming) ∧
      g.incidentEdges d (ends.get d) = .ok it ∧ g'.incidentEdges d (ends.get d) = .ok it' ∧
      LeadsOn g' e next it it' (g'.nextIncident d)

theorem goTogether_of_successor {ρ α : Type} [TwoEnded ρ α] [DecidableEq α] {it : ρ} {xs : List α}
    {advance : α → Except Fault (Option α)} (hit : TwoEnded.Gives it xs) (hd : xs.Nodup)
    (hnext : ∀ x ∈ xs, advance x = .ok (successor? x xs)) :
    GoTogether it xs.head? advance xs.length :=
  ⟨xs, hit.yields, rfl, (walks_of_successor (l := []) hd hnext).iff⟩

theorem leadsOn_successor {ρ : Type} [TwoEnded ρ EdgeId] {before after : ρ} {e : EdgeId}
    {xs ys : List EdgeId} {advance : EdgeId → Except Fault (Option EdgeId)} (hd : xs.Nodup)
    (he : e ∈ xs) (hys : ys = xs.filter (· != e)) (hbefore : TwoEnded.Gives before xs)
    (hafter : TwoEnded.Gives after ys) (hlive : ∀ f ∈ ys, g.containsEdge f = true)
    (hnext : ∀ f ∈ ys, advance f = .ok (successor? f ys)) :
    LeadsOn g e (successor? e xs) before after advance := by
  -- `e` is at one place of its list, and the two sides of it are what is left
  obtain ⟨l, r, rfl⟩ := List.append_of_mem he
  have hnot := (List.nodup_middle.mp hd).notMem
  have hleft : (l ++ e :: r).filter (· != e) = l ++ r :=
    filter_key_ne (f := id) (by simpa using hd)
  rw [hleft] at hys
  subst hys
  rw [successor?_eq fun hl => hnot (List.mem_append_left _ hl)]
  refine ⟨l, r, hbefore.yields, hafter.yields, hnot, rfl, fun f hf => ?_, fun es => ?_⟩
  · exact hlive f (List.mem_append_right l hf)
  · exact (walks_of_successor (List.nodup_middle.mp hd).of_cons hnext).iff es

theorem Represents.eraseEdge_leadsOn (h : Represents g m) {e : EdgeId} (he : e ∈ m.edgeIds) :
    ∃ next g', eraseEdge e g = .ok next g' ∧
      LeadsOn g' e next g.edgeIds g'.edgeIds g'.nextEdge := by
  obtain ⟨g', hrun, h'⟩ := swept_edgeIds.erase h he
  refine ⟨_, g', hrun, leadsOn_successor h.sound.nodup_edgeIds he (m.edgeIds_dropEdge e)
    h.holds.edgeIds_gives h'.holds.edgeIds_gives (fun f hf => ?_) (fun f hf => ?_)⟩
  · exact h'.holds.containsEdge_iff.mpr hf
  · exact h'.nextEdge_ok hf

theorem Represents.eraseIncident_leadsOn (h : Represents g m) {d : Direction} {v : VertexId}
    {e : EdgeId} (hv : v ∈ m.vertexIds) (he : e ∈ m.incident d v) :
    ∃ next g' it it', Multigraph.eraseIncident d e g = .ok next g' ∧
      g.incidentEdges d v = .ok it ∧ g'.incidentEdges d v = .ok it' ∧
      LeadsOn g' e next it it' (g'.nextIncident d) := by
  obtain ⟨g', hrun, h'⟩ := (swept_incident d v).erase h he
  have hv' : v ∈ (m.dropEdge e).vertexIds := hv
  obtain ⟨it, hread, hit⟩ := h.incidentEdges_ok hv d
  obtain ⟨it', hread', hit'⟩ := h'.incidentEdges_ok hv' d
  refine ⟨_, g', it, it', hrun, hread, hread', leadsOn_successor (h.sound.nodup_incident d v) he
    (m.incident_dropEdge e d v) hit hit' (fun f hf => ?_) (fun f hf => ?_)⟩
  · exact h'.holds.containsEdge_iff.mpr (Roster.mem_edgeIds_of_incident hf)
  · exact h'.nextIncident_ok hv' hf

theorem Represents.cursorsAgree (h : Represents g m) : CursorsAgree g where
  vertices := by
    rw [h.firstVertex?_eq, h.holds.vertexCount_eq]
    exact goTogether_of_successor h.holds.vertexIds_gives h.sound.nodup_vertexIds
      fun v hv => h.nextVertex_ok hv
  edges := by
    rw [h.firstEdge?_eq, h.holds.edgeCount_eq]
    exact goTogether_of_successor h.holds.edgeIds_gives h.sound.nodup_edgeIds
      fun e he => h.nextEdge_ok he
  incident d v hv := by
    replace hv := h.holds.containsVertex_iff.mp hv
    obtain ⟨it, hrun, hit⟩ := h.incidentEdges_ok hv d
    refine ⟨it, _, _, hrun, h.firstIncident_ok hv d, h.degreeIn_eq hv d, ?_⟩
    exact goTogether_of_successor hit (h.sound.nodup_incident d v)
      fun e he => h.nextIncident_ok hv he
  erase he := h.eraseEdge_leadsOn (h.holds.containsEdge_iff.mp he)
  eraseIncident d e he := by
    obtain ⟨r, hr⟩ := Roster.mem_edgeIds.mp (h.holds.containsEdge_iff.mp he)
    have hget := r.get_ends d
    obtain ⟨next, g', it, it', hrun, hread, hread', hleads⟩ :=
      h.eraseIncident_leadsOn (h.ends _ hr d) (Roster.mem_incident.mpr ⟨r, hr, rfl⟩)
    exact ⟨next, g', it, it', ⟨r.source, r.target⟩, hrun, h.holds.endpoints_eq hr,
      hget ▸ hread, hget ▸ hread', hleads⟩

/-- In every multigraph that there can be, cursors and readers agree, and erasing leads on. -/
theorem Reached.cursors_agree (hg : g.Reached) : CursorsAgree g := by
  obtain ⟨m, h⟩ := hg.represents
  exact h.cursorsAgree

def outOfSlotOrder : List (Edit Nat Nat) :=
  [.insertVertex 10, .insertVertex 20, .removeVertex ⟨0, 0⟩, .insertVertex 30,
    .insertEdge ⟨1, 0⟩ ⟨0, 1⟩ 1, .insertEdge ⟨0, 1⟩ ⟨1, 0⟩ 2, .insertEdge ⟨1, 0⟩ ⟨1, 0⟩ 3,
    .removeEdge ⟨0, 0⟩, .insertEdge ⟨1, 0⟩ ⟨0, 1⟩ 4]

theorem cursors_agree_outOfSlotOrder :
    (Edit.applyAll .empty outOfSlotOrder).Reached ∧
      (Edit.applyAll .empty outOfSlotOrder).containsVertex ⟨1, 0⟩ = true ∧
      TwoEnded.toList (Edit.applyAll .empty outOfSlotOrder).edgeIds = [⟨1, 0⟩, ⟨2, 0⟩, ⟨0, 1⟩] ∧
      (Edit.applyAll .empty outOfSlotOrder).containsEdge ⟨2, 0⟩ = true ∧
      CursorsAgree (Edit.applyAll .empty outOfSlotOrder) := by
  have hreached : (Edit.applyAll .empty outOfSlotOrder).Reached :=
    Reached.empty.applyAll outOfSlotOrder
  exact ⟨hreached, by decide +kernel, by decide +kernel, by decide +kernel,
    hreached.cursors_agree⟩

end Multigraph

end SlotGraph

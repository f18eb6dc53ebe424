import SlotGraph.Proofs.Multigraph.Simulation
set_option autoImplicit false

namespace SlotGraph

namespace Roster

variable {σ : Type}

theorem sift_sublist (p : σ → Nat → Bool × σ) (es : List EdgeId) (s : σ) :
    (sift p es s).1.Sublist es := by
  induction es generalizing s with
  | nil => exact .slnil
  | cons e es ih =>
    simp only [sift]
    split
    · exact (ih _).cons_cons e
    · exact (ih _).cons e

theorem sift_all {p : σ → Nat → Bool × σ} (hp : ∀ s i, (p s i).1 = true) (es : List EdgeId)
    (s : σ) : (sift p es s).1 = es := by
  induction es generalizing s with
  | nil => rfl
  | cons e es ih => simp [sift, hp, ih]

end Roster

namespace Multigraph

variable {V E σ : Type} {g : Multigraph V E} {m : Roster V E}

open Change

/-- A list of edges kept by a roster, with the cursor that erases along it and the cursor that
only moves. -/
structure Swept (list : Roster V E → List EdgeId)
    (erase advance : EdgeId → Change (Multigraph V E) (Option EdgeId)) : Prop where
  nodup {m : Roster V E} : m.Sound → (list m).Nodup
  drop (m : Roster V E) (e : EdgeId) : list (m.dropEdge e) = (list m).filter (· != e)
  erase {g : Multigraph V E} {m : Roster V E} {e : EdgeId} : Represents g m → e ∈ list m →
    ∃ g', erase e g = .ok (successor? e (list m)) g' ∧ Represents g' (m.dropEdge e)
  advance {g : Multigraph V E} {m : Roster V E} {e : EdgeId} : Represents g m → e ∈ list m →
    advance e g = .ok (successor? e (list m)) g

theorem Swept.sweep_ok {list : Roster V E → List EdgeId}
    {erase advance : EdgeId → Change (Multigraph V E) (Option EdgeId)}
    (hlist : Swept list erase advance) (p : σ → Nat → Bool × σ) {kept es : List EdgeId}
    (h : Represents g m) (hsplit : list m = kept ++ es) {bound : Nat} (hbound : es.length ≤ bound)
    (s : σ) :
    ∃ g', Descriptor.sweep erase advance p bound es.head? s g =
        .ok (Roster.sift p es s).2 g' ∧
      Represents g' (m.dropEdges (Roster.sift p es s).1) := by
  -- on the edges not yet asked about; the edges kept so far lie before the cursor
  induction es generalizing g m kept bound s with
  | nil => exact ⟨g, by cases bound <;> rfl, h⟩
  | cons e es ih =>
    obtain ⟨bound, rfl⟩ : ∃ b, bound = b + 1 := ⟨bound - 1, by grind⟩
    have hbound' : es.length ≤ bound := Nat.le_of_succ_le_succ hbound
    have hmem : e ∈ list m := by simp [hsplit]
    have hd := hlist.nodup h.sound
    rw [hsplit] at hd
    have hnot : e ∉ kept := fun hl => (List.nodup_middle.mp hd).notMem (List.mem_append_left _ hl)
    have hnext : successor? e (list m) = es.head? := by rw [hsplit, successor?_eq hnot]
    show ∃ g', Descriptor.sweep erase advance p (bound + 1) (some e) s g = _ ∧ _
    unfold Descriptor.sweep Roster.sift
    cases hp : p s e.index with
    | mk hit s' =>
      cases hit with
      | true =>
        obtain ⟨g₁, hrun₁, h₁⟩ := hlist.erase h hmem
        have hsplit₁ : list (m.dropEdge e) = kept ++ es := by
          rw [hlist.drop, hsplit]
          exact filter_key_ne (f := id) (by simpa using hd)
        obtain ⟨g₂, hrun₂, h₂⟩ := ih h₁ hsplit₁ hbound' s'
        rw [hnext] at hrun₁
        exact ⟨g₂, (Change.bind_ok hrun₁).trans hrun₂, h₂⟩
      | false =>
        have hsplit₁ : list m = (kept ++ [e]) ++ es := by simp [hsplit]
        obtain ⟨g₁, hrun₁, h₁⟩ := ih h hsplit₁ hbound' s'
        have hrun := hlist.advance h hmem
        rw [hnext] at hrun
        exact ⟨g₁, (Change.bind_ok hrun).trans hrun₁, h₁⟩

theorem swept_edgeIds :
    Swept (V := V) (E := E) Roster.edgeIds eraseEdge (fun e => ask (nextEdge · e)) where
  nodup h := h.nodup_edgeIds
  drop := Roster.edgeIds_dropEdge
  erase {g m e} h he := by
    obtain ⟨r, hr⟩ := Roster.mem_edgeIds.mp he
    exact (tally_eraseEdge h e).exists_ok (Roster.eraseEdge_ok h.sound hr)
  advance h he := ask_ok (h.nextEdge_ok he)

theorem swept_incident (d : Direction) (v : VertexId) :
    Swept (V := V) (E := E) (fun m => m.incident d v) (eraseIncident d)
      (fun e => ask (nextIncident · d e)) where
  nodup h := h.nodup_incident d v
  drop m e := m.incident_dropEdge e d v
  erase {g m e} h he := by
    obtain ⟨r, hr, hend⟩ := Roster.mem_incident.mp he
    have hrun := (tally_eraseIncident h d e).exists_ok (Roster.eraseIncident_ok h.sound d hr)
    rwa [hend] at hrun
  advance {g m e} h he := by
    obtain ⟨r, hr, hend⟩ := Roster.mem_incident.mp he
    exact ask_ok (h.nextIncident_ok (hend ▸ h.ends _ hr d) he)

theorem Represents.removeEdgesIf_ok (h : Represents g m) (p : σ → Nat → Bool × σ) (s : σ) :
    ∃ g', Descriptor.removeEdgesIf p s g = .ok (Roster.sift p m.edgeIds s).2 g' ∧
      Represents g' (m.dropEdges (Roster.sift p m.edgeIds s).1) := by
  have hbound : m.edgeIds.length ≤ g.edgeCount := h.holds.edgeCount_eq.ge
  obtain ⟨g', hrun, h'⟩ :=
    swept_edgeIds.sweep_ok p h (List.nil_append m.edgeIds).symm hbound s
  rw [← h.firstEdge?_eq] at hrun
  exact ⟨g', hrun, h'⟩

theorem tally_removeEdgesIf (h : Represents g m) (p : σ → Nat → Bool × σ) (s : σ) :
    Tally Represents (Descriptor.removeEdgesIf p s g) (Roster.removeEdgesIf p s m) := by
  obtain ⟨g', hrun, h'⟩ := h.removeEdgesIf_ok p s
  exact .of_ok hrun rfl h'

theorem tally_removeIncidentIf (h : Represents g m) (d : Direction) (i : Nat)
    (p : σ → Nat → Bool × σ) (s : σ) :
    Tally Represents (Descriptor.removeIncidentIf d i p s g)
      (Roster.removeIncidentIf d i p s m) := by
  refine (tally_vertexOf h i).bind fun v g₁ m₁ hrun h₁ => ?_
  obtain ⟨hv, rfl⟩ := Roster.vertexOf_eq_ok h.sound hrun
  have hbound : (m₁.incident d v).length ≤ g₁.edgeCount := h₁.length_incident_le d v
  obtain ⟨g', hsweep, h'⟩ :=
    (swept_incident d v).sweep_ok p h₁ (List.nil_append (m₁.incident d v)).symm hbound s
  refine .of_ok ?_ rfl h'
  refine (Change.ask_bind_ok (x := (m₁.incident d v).head?) ?_).trans hsweep
  exact h₁.firstIncident_ok hv d

theorem Represents.removeIncidentIf_ok (h : Represents g m) (d : Direction) {v : VertexId}
    (hv : v ∈ m.vertexIds) (p : σ → Nat → Bool × σ) (s : σ) :
    ∃ g', Descriptor.removeIncidentIf d v.index p s g = .ok (Roster.sift p (m.incident d v) s).2 g' ∧
      Represents g' (m.dropEdges (Roster.sift p (m.incident d v) s).1) :=
  (tally_removeIncidentIf h d v.index p s).exists_ok (bind_ok (Roster.vertexOf_ok h.sound hv))

end Multigraph

end SlotGraph

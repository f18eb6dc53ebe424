import SlotGraph.Proofs.KeyedGraph.Recorded
set_option autoImplicit false

/-!
Payloads changed in place. The payload of a vertex is written before its key is compared with the
key on record, so a change of key is refused too late: the new payload stays in the graph, and the
index has its key on record for another vertex or not at all.
-/

namespace SlotGraph

namespace Multigraph

variable {V E : Type} {g : Multigraph V E} {m : Roster V E}

theorem vertex?_withPayload_of_ne {v w : VertexId} (h : w ≠ v) (y : V) :
    (g.withPayload v y).vertex? w = g.vertex? w := by
  have hslot : w.slot ≠ v.slot := fun heq => h (congrArg VertexId.mk heq)
  rw [vertex?, withPayload, Table.get?_update_of_ne _ hslot]
  rfl

theorem withPayload_withPayload {v : VertexId} {x : V} (h : g.vertex? v = some x) (y : V) :
    (g.withPayload v y).withPayload v x = g := by
  have hself : g.vertices.update v.slot (fun r => { r with payload := x }) = g.vertices := by
    refine Table.update_self fun r hr => ?_
    have hx : r.payload = x := by simpa [vertex?, hr] using h
    rw [← hx]
  rw [withPayload, withPayload, Table.update_update]
  exact congrArg (fun t => { g with vertices := t }) hself

theorem Represents.withPayload (h : Represents g m) (v : VertexId) (y : V) :
    Represents (g.withPayload v y)
      { m with vertices := m.vertices.update v.slot fun _ => y } := by
  obtain ⟨g', hrun, h'⟩ := (tally_updateVertex? h v fun _ => y).exists_ok rfl
  have hg : g.withPayload v y = g' := (EStateM.Result.ok.inj hrun).2
  rwa [hg]

end Multigraph

namespace KeyedGraph

variable {V E K I : Type} {keyOf : V → K} {k : KeyedGraph V E K I}

/-- A payload has been replaced and nothing else: the other payloads, the edges and the index are
as they were, and the old payload put back makes the old graph. -/
structure Replaces (k : KeyedGraph V E K I) (v : VertexId) (x y : V) (k' : KeyedGraph V E K I) :
    Prop where
  payload : k'.graph.vertex? v = some y
  others {w : VertexId} : w ≠ v → k'.graph.vertex? w = k.graph.vertex? w
  edges : k'.graph.edges = k.graph.edges
  index : k'.index = k.index
  undone : k'.withPayload v x = k

theorem replaces_withPayload {v : VertexId} {x : V} (h : k.graph.vertex? v = some x) (y : V) :
    k.Replaces v x y (k.withPayload v y) where
  payload := Multigraph.vertex?_withPayload_self h y
  others hne := Multigraph.vertex?_withPayload_of_ne hne y
  edges := rfl
  index := rfl
  undone := congrArg (fun g => { k with graph := g }) (Multigraph.withPayload_withPayload h y)

variable [KeyIndex I K] {p : Register V E K}

/-- A payload has been given another key than the one on record: the index finds the vertex by the
key that its payload had, and two payloads share a key unless the new key was free. -/
structure Drifts (keyOf : V → K) (k : KeyedGraph V E K I) (v : VertexId) (x y : V)
    (k' : KeyedGraph V E K I) : Prop where
  changed : k' ≠ k
  recorded : k'.keyOf? v = some (keyOf x)
  found : k'.find? (keyOf x) = some v
  missed : k'.find? (keyOf y) ≠ some v
  distinct : (payloadKeys keyOf k'.graph).Nodup ↔ k.find? (keyOf y) = none

theorem Stands.withPayload (h : Stands keyOf k p) (v : VertexId) (y : V) :
    Stands keyOf (k.withPayload v y) (p.updateVertex v fun _ => y) where
  graph := h.graph.withPayload v y
  enters := h.enters
  vertices := h.vertices.trans (p.roster.vertexIds_updateVertex v.slot _).symm
  keyOf := h.keyOf

theorem Stands.nodup_withPayload (h : Stands keyOf k p) (hcurrent : p.Current keyOf)
    {v : VertexId} {x y : V} (hx : (v.slot, x) ∈ p.roster.vertices.live)
    (hkey : keyOf y ≠ keyOf x) :
    (payloadKeys keyOf (k.withPayload v y).graph).Nodup ↔ k.find? (keyOf y) = none := by
  obtain ⟨l, r, hlive⟩ := List.append_of_mem hx
  have hbefore : p.keys.map Prod.snd =
      (l.map fun q => keyOf q.2) ++ keyOf x :: r.map fun q => keyOf q.2 := by
    rw [hcurrent.map_snd_keys, Roster.vertexPayloads, hlive]
    simp [Function.comp_def]
  have hafter : payloadKeys keyOf (k.withPayload v y).graph =
      (l.map fun q => keyOf q.2) ++ keyOf y :: r.map fun q => keyOf q.2 := by
    rw [payloadKeys_eq (h.withPayload v y).graph, Roster.vertexPayloads, Register.updateVertex,
      Ledger.live_update h.graph.sound.nodup_live_vertices hlive]
    simp [Function.comp_def]
  have hnodup := h.enters.nodupKeys
  rw [hbefore, List.nodup_middle, List.nodup_cons] at hnodup
  rw [hafter, List.nodup_middle, List.nodup_cons, and_iff_left hnodup.2, find?,
    h.enters.vertex?_eq_none, hbefore, List.mem_append, List.mem_append, List.mem_cons]
  simp only [hkey, false_or]

variable [DecidableEq K]

/-- A payload that is changed in place is written in any case. If it keeps its key, the call answers
and graph and index stay in step; if not, the call stops and leaves them apart. -/
structure ModifiesInPlace (keyOf : V → K) (k : KeyedGraph V E K I) : Prop where
  run {α : Type} {v : VertexId} {x : V} (f : V → α × V) : k.graph.vertex? v = some x →
    modifyVertex v f k =
      if keyOf (f x).2 = keyOf x then .ok (f x).1 (k.withPayload v (f x).2)
      else .error (.keyChanged v) (k.withPayload v (f x).2)
  replaces {v : VertexId} {x : V} (y : V) : k.graph.vertex? v = some x →
    k.Replaces v x y (k.withPayload v y)
  inStep {v : VertexId} {x y : V} : k.graph.vertex? v = some x → keyOf y = keyOf x →
    InStep keyOf (k.withPayload v y)
  drifts {v : VertexId} {x y : V} : k.graph.vertex? v = some x → keyOf y ≠ keyOf x →
    Drifts keyOf k v x y (k.withPayload v y)

theorem Stands.modifiesInPlace (h : Stands keyOf k p) (hcurrent : p.Current keyOf) :
    ModifiesInPlace keyOf k where
  run {_ v x} f hx := by
    have hrecord : k.keyOf? v = some (keyOf x) := by rw [(h.inStep hcurrent).keyOf?, hx]; rfl
    rw [modifyVertex_run f hx, h.keyOf, hrecord]
    simp only [Option.some.injEq, eq_comm]
  replaces y hx := replaces_withPayload hx y
  inStep {v x y} hx hkey := by
    refine (h.withPayload v y).inStep (hcurrent.updateVertex fun x' hx' => ?_)
    rw [← Ledger.get?_eq_some h.graph.sound.nodup_live_vertices, ← h.graph.holds.vertex?_eq, hx]
      at hx'
    exact Option.some.inj hx' ▸ hkey
  drifts {v x y} hx hkey := by
    have hlive : (v.slot, x) ∈ p.roster.vertices.live := by
      rwa [h.graph.holds.vertex?_eq, Ledger.get?_eq_some h.graph.sound.nodup_live_vertices] at hx
    have hentry : (v, keyOf x) ∈ p.keys := (h.mem_keys_iff hcurrent).mpr ⟨x, hx, rfl⟩
    refine ⟨fun heq => ?_, ?_, ?_, fun hfind => ?_, h.nodup_withPayload hcurrent hlive hkey⟩
    · have hy := Multigraph.vertex?_withPayload_self hx y
      rw [show k.graph.withPayload v y = k.graph from congrArg KeyedGraph.graph heq, hx] at hy
      exact hkey (congrArg keyOf (Option.some.inj hy)).symm
    · exact (h.withPayload v y).keyOf?_eq_some.mpr hentry
    · exact (h.withPayload v y).find?_eq_some.mpr hentry
    · exact hkey (h.enters.key_eq ((h.withPayload v y).find?_eq_some.mp hfind) hentry)

variable [LawfulKeyIndex I]

theorem Made.modifiesInPlace (h : Made keyOf k) {edits : List (Edit V E)}
    (hkeeps : k.KeepsKeys keyOf edits) : ModifiesInPlace keyOf (k.applyAll edits) := by
  obtain ⟨p, hstands, hcurrent⟩ := h.stands_current hkeeps
  exact hstands.modifiesInPlace hcurrent

end KeyedGraph

namespace KeyedGraph

variable {V E K : Type} [DecidableEq K]

/-- However a keyed graph has been edited since it was made, by live or dead handles and whether or
not keys were refused or edits stopped on the way, a payload is then changed in place: in step if
it keeps its key, and apart from the index if the call is refused. -/
theorem modifiesInPlace_applyAll (keyOf : V → K) (edits : List (Edit V E)) :
    (∀ [BEq K] [LawfulBEq K] [Hashable K] [Footprint K] {k : KeyedGraph V E K (HashedIndex K)},
      Made keyOf k → k.KeepsKeys keyOf edits → ModifiesInPlace keyOf (k.applyAll edits)) ∧
    ∀ [Ord K] [Std.TransOrd K] [Std.LawfulEqOrd K] {k : KeyedGraph V E K (OrderedIndex K)},
      Made keyOf k → k.KeepsKeys keyOf edits → ModifiesInPlace keyOf (k.applyAll edits) :=
  ⟨fun hmade hkeeps => hmade.modifiesInPlace hkeeps,
    fun hmade hkeeps => hmade.modifiesInPlace hkeeps⟩

def twoKeys : List (Edit (Nat × Nat) Nat) :=
  [.insertVertex (1, 10), .insertVertex (2, 20), .modifyVertex ⟨⟨0, 0⟩⟩ fun x => (x.1, x.2 + 1)]

theorem modifiesInPlace_twoKeys :
    ModifiesInPlace Prod.fst (applyAll (withIndex Prod.fst ({} : HashedIndex Nat)) twoKeys) ∧
      ModifiesInPlace Prod.fst (applyAll (withIndex Prod.fst ({} : OrderedIndex Nat)) twoKeys) := by
  obtain ⟨hhashed, hordered⟩ := modifiesInPlace_applyAll (Prod.fst : Nat × Nat → Nat) twoKeys
  constructor
  · exact hhashed (.withIndex {}) ⟨trivial, trivial, fun _ _ => rfl, trivial⟩
  · exact hordered (.withIndex {}) ⟨trivial, trivial, fun _ _ => rfl, trivial⟩

/-- No key has changed so far, and a call that gives the first vertex the key of the second is then
refused but not undone: both vertices have that key, and the index finds the first under its old
one. -/
theorem modifyVertex_second_key :
    KeepsKeys Prod.fst (withIndex Prod.fst ({} : OrderedIndex Nat)) twoKeys ∧
    ∃ k' : KeyedGraph (Nat × Nat) Nat Nat (OrderedIndex Nat),
      modifyVertex ⟨⟨0, 0⟩⟩ (fun x => ((), (2, x.2))) (applyAll (withIndex Prod.fst {}) twoKeys) =
        .error (.keyChanged ⟨⟨0, 0⟩⟩) k' ∧
      k' ≠ applyAll (withIndex Prod.fst {}) twoKeys ∧
      k'.graph.payloads = [(⟨⟨0, 0⟩⟩, (2, 11)), (⟨⟨1, 0⟩⟩, (2, 20))] ∧
      k'.find? 1 = some ⟨⟨0, 0⟩⟩ ∧ k'.find? 2 = some ⟨⟨1, 0⟩⟩ := by
  refine ⟨⟨trivial, trivial, fun _ _ => rfl, trivial⟩, _, rfl, fun heq => ?_, rfl, ?_, ?_⟩
  · have hpayloads := congrArg (fun k => k.graph.payloads) heq
    revert hpayloads
    decide
  · decide
  · decide

end KeyedGraph

end SlotGraph

import SlotGraph.Proofs.KeyedGraph.Simulation
import SlotGraph.Proofs.Multigraph.Reach
set_option autoImplicit false

/-!
Keyed graphs and indexes in step. While no payload has been changed to one with another key, the
keys on record are those of the payloads; so the index finds what a search of the graph would find.
-/

namespace SlotGraph

namespace Register

variable {V E K : Type} {keyOf : V → K} {p : Register V E K}

/-- The keys on record are the keys of the payloads. -/
def Current (keyOf : V → K) (p : Register V E K) : Prop :=
  p.keys = p.roster.vertices.live.map fun q => (⟨q.1⟩, keyOf q.2)

theorem Current.map_snd_keys (h : p.Current keyOf) :
    p.keys.map Prod.snd = p.roster.vertexPayloads.map keyOf := by
  rw [h, Roster.vertexPayloads, List.map_map, List.map_map]
  rfl

theorem Current.of_vertices (h : p.Current keyOf) {p' : Register V E K} (hkeys : p'.keys = p.keys)
    (hvertices : p'.roster.vertices = p.roster.vertices) : p'.Current keyOf := by
  rw [Current, hkeys, hvertices]
  exact h

theorem Current.enterVertex (h : p.Current keyOf) (x : V) :
    (p.enterVertex (keyOf x) x).Current keyOf := by
  rw [Current, Register.enterVertex, h]
  simp [Ledger.insert]

theorem Current.dropVertex (h : p.Current keyOf) (v : VertexId) :
    (p.dropVertex v).Current keyOf := by
  obtain ⟨id⟩ := v
  have hlive : ((p.roster.dropAround ⟨id⟩).dropVertex ⟨id⟩).vertices.live =
      p.roster.vertices.live.filter fun q => q.1 != id := by
    show ((p.roster.dropAround ⟨id⟩).vertices.drop id).live = _
    rw [Roster.vertices_dropAround]
    rfl
  have hkeys : p.keys.filter (fun q => q.1 != ⟨id⟩) =
      (p.roster.vertices.live.filter fun q => q.1 != id).map fun q => (⟨q.1⟩, keyOf q.2) := by
    rw [h, List.filter_map]
    congr 1
    exact List.filter_congr fun q _ => by simp [bne, beq_eq_decide]
  rw [← hlive] at hkeys
  exact hkeys

theorem Current.dropIfBare (h : p.Current keyOf) (v : VertexId) :
    (p.dropIfBare v).Current keyOf := by
  unfold Register.dropIfBare
  split
  · exact h.dropVertex v
  · exact h

theorem Current.dropBareEnds (h : p.Current keyOf) (r : Arc E) :
    (p.dropBareEnds r).Current keyOf := by
  unfold Register.dropBareEnds
  split
  · exact h.dropIfBare r.source
  · exact (h.dropIfBare r.source).dropIfBare r.target

theorem Current.updateVertex (h : p.Current keyOf) {v : VertexId} {f : V → V}
    (hkey : ∀ x, (v.slot, x) ∈ p.roster.vertices.live → keyOf (f x) = keyOf x) :
    (p.updateVertex v f).Current keyOf := by
  rw [Current, Register.updateVertex, h]
  simp only [Ledger.update, List.map_map]
  refine List.map_congr_left fun q hq => ?_
  by_cases hid : q.1 = v.slot
  · have hx := hkey q.2 (hid ▸ hq)
    simp [hid, hx]
  · simp [hid]

variable [DecidableEq K]

theorem Current.place (h : p.Current keyOf) (x : V) : (p.place keyOf x).Current keyOf := by
  cases hkey : p.holder? (keyOf x) with
  | some v => rwa [place_of_holder hkey]
  | none =>
    rw [place_of_free hkey]
    exact h.enterVertex x

open KeyedGraph (Edit)

theorem Current.after (h : p.Current keyOf) {edit : Edit V E}
    (hkeeps : ∀ v f, edit = .modifyVertex v f →
      ∀ x, (v.slot, x) ∈ p.roster.vertices.live → keyOf (f x) = keyOf x) :
    (p.after keyOf edit).Current keyOf := by
  cases edit with
  | insertVertex x | findOrInsert x => exact h.place x
  | eraseVertex v | removeVertex v => exact h.dropVertex v
  | modifyVertex v f => exact h.updateVertex (hkeeps v f rfl)
  | connect s t x => exact ((h.place s).place t).of_vertices rfl rfl
  | eraseEdgeAndBareEnds e =>
    cases hr : p.roster.edges.get? e.slot with
    | none =>
      rw [Register.after, hr]
      exact h
    | some r =>
      rw [Register.after, hr]
      have hdrop : (p.dropEdge e).Current keyOf := h.of_vertices rfl rfl
      exact hdrop.dropBareEnds r
  | insertEdge s t x | eraseEdge e | removeEdge e | updateEdge e f => exact h.of_vertices rfl rfl
  | clearIncident d v | clearEdges => exact h.of_vertices rfl (Roster.vertices_dropEdges ..)
  | clearVertexEdges v => exact h.of_vertices rfl (Roster.vertices_dropAround ..)
  | clear => rfl

end Register

namespace KeyedGraph

variable {V E K I : Type} [KeyIndex I K] [DecidableEq K] {keyOf : V → K}
  {k : KeyedGraph V E K I} {p : Register V E K}

/-- The keys of the payloads of a graph, in table order. -/
def payloadKeys (keyOf : V → K) (g : Multigraph V E) : List K := g.payloads.map fun q => keyOf q.2

omit [DecidableEq K] in
theorem payloadKeys_eq {g : Multigraph V E} {m : Roster V E} (h : g.Represents m) :
    payloadKeys keyOf g = m.vertexPayloads.map keyOf := by
  rw [payloadKeys, h.holds.payloads_eq, Roster.vertexPayloads, List.map_map, List.map_map]
  rfl

/-- The index finds what a search of the graph would find, and holds nothing else. -/
structure InStep (keyOf : V → K) (k : KeyedGraph V E K I) : Prop where
  keyOf_eq : k.keyOf = keyOf
  find? (key : K) : k.find? key =
    (k.graph.payloads.find? fun q => keyOf q.2 == key).map Prod.fst
  vertex_eq {v w : VertexId} {x y : V} : k.graph.vertex? v = some x →
    k.graph.vertex? w = some y → keyOf x = keyOf y → v = w
  keyOf? (v : VertexId) : k.keyOf? v = (k.graph.vertex? v).map keyOf
  isSome_keyOf? (v : VertexId) : (k.keyOf? v).isSome = k.graph.containsVertex v
  size : KeyIndex.size k.index = k.graph.vertexCount

omit [DecidableEq K] in
theorem Stands.mem_keys_iff (h : Stands keyOf k p) (hcurrent : p.Current keyOf) {v : VertexId}
    {key : K} : (v, key) ∈ p.keys ↔ ∃ x, k.graph.vertex? v = some x ∧ keyOf x = key := by
  have hlive (x : V) : k.graph.vertex? v = some x ↔ (v.slot, x) ∈ p.roster.vertices.live := by
    rw [h.graph.holds.vertex?_eq]
    exact Ledger.get?_eq_some h.graph.sound.nodup_live_vertices
  rw [hcurrent]
  constructor
  · intro hmem
    obtain ⟨⟨id, x⟩, hx, heq⟩ := List.mem_map.mp hmem
    obtain ⟨rfl, rfl⟩ := Prod.mk.inj heq
    exact ⟨x, (hlive x).mpr hx, rfl⟩
  · intro hpayload
    obtain ⟨x, hx, rfl⟩ := hpayload
    exact List.mem_map.mpr ⟨(v.slot, x), (hlive x).mp hx, rfl⟩

theorem Stands.inStep (h : Stands keyOf k p) (hcurrent : p.Current keyOf) : InStep keyOf k := by
  have hentry {v : VertexId} {x : V} (hx : k.graph.vertex? v = some x) :
      (v, keyOf x) ∈ p.keys := (h.mem_keys_iff hcurrent).mpr ⟨x, hx, rfl⟩
  have hkeyOf : ∀ v, k.keyOf? v = (k.graph.vertex? v).map keyOf := by
    intro v
    obtain ⟨id⟩ := v
    rw [h.keyOf?_eq, Register.recorded?, hcurrent, h.graph.holds.vertex?_eq, Ledger.get?]
    simp [List.find?_map, Function.comp_def, beq_eq_decide]
  refine ⟨h.keyOf, fun key => ?_, fun hx hy hkey => ?_, hkeyOf, fun v => ?_, ?_⟩
  · rw [h.find?_eq, Register.holder?, hcurrent, h.graph.holds.payloads_eq]
    simp [List.find?_map, Function.comp_def]
  · exact h.enters.vertex_eq (hentry hx) (hkey ▸ hentry hy)
  · rw [hkeyOf, Option.isSome_map, Multigraph.vertex?, Option.isSome_map]
    rfl
  · rw [h.enters.size, h.graph.holds.vertexCount_eq, ← h.vertices, List.length_map]

def step (k : KeyedGraph V E K I) (edit : Edit V E) : KeyedGraph V E K I :=
  match edit.apply k with
  | .ok _ k | .error _ k => k

def applyAll (k : KeyedGraph V E K I) (edits : List (Edit V E)) : KeyedGraph V E K I :=
  edits.foldl step k

/-- A payload that is changed in place keeps its key. -/
def KeepsKey (keyOf : V → K) (k : KeyedGraph V E K I) : Edit V E → Prop
  | .modifyVertex v f => ∀ x, k.graph.vertex? v = some x → keyOf (f x) = keyOf x
  | _ => True

def KeepsKeys (keyOf : V → K) : KeyedGraph V E K I → List (Edit V E) → Prop
  | _, [] => True
  | k, edit :: rest => k.KeepsKey keyOf edit ∧ (k.step edit).KeepsKeys keyOf rest

variable [LawfulKeyIndex I]

theorem Stands.leaves_step (h : Stands keyOf k p) {Q : Register V E K → Prop} {edit : Edit V E}
    (hp : Q p) (hafter : Q (p.after keyOf edit)) :
    ∃ p', Stands keyOf (k.step edit) p' ∧ Q p' := by
  have hboth := (tally_apply h edit).and (Register.leaves_apply h.sound hp hafter)
  unfold KeyedGraph.step
  generalize edit.apply k = ra at hboth
  generalize Register.apply keyOf edit p = rb at hboth
  cases hboth with
  | ok _ h' => exact ⟨_, h'⟩
  | error _ h' => exact ⟨_, h'⟩

theorem Stands.step (h : Stands keyOf k p) (hcurrent : p.Current keyOf) {edit : Edit V E}
    (hkeeps : k.KeepsKey keyOf edit) :
    ∃ p', Stands keyOf (k.step edit) p' ∧ p'.Current keyOf := by
  refine h.leaves_step hcurrent (hcurrent.after ?_)
  intro v f heq x hx
  subst heq
  refine hkeeps x ?_
  rw [h.graph.holds.vertex?_eq]
  exact (Ledger.get?_eq_some h.graph.sound.nodup_live_vertices).mpr hx

theorem Stands.applyAll (h : Stands keyOf k p) (hcurrent : p.Current keyOf)
    {edits : List (Edit V E)} (hkeeps : k.KeepsKeys keyOf edits) :
    ∃ p', Stands keyOf (k.applyAll edits) p' ∧ p'.Current keyOf := by
  induction edits generalizing k p with
  | nil => exact ⟨p, h, hcurrent⟩
  | cons edit rest ih =>
    obtain ⟨p', h', hcurrent'⟩ := h.step hcurrent hkeeps.1
    exact ih h' hcurrent' hkeeps.2

/-- A keyed graph as it is made: empty, or put over a graph whose keys are all different. -/
inductive Made (keyOf : V → K) : KeyedGraph V E K I → Prop where
  | withIndex (index : I) : Made keyOf (withIndex keyOf index)
  | ofGraphWith {index : I} {graph : Multigraph V E} {k : KeyedGraph V E K I} :
    graph.Reached → ofGraphWith keyOf index graph = .ok k → Made keyOf k

open KeyIndex (Enters)

theorem enterAll_cases (keyOf : V → K) {list : List (VertexId × V)} {index : I}
    {entries : List (VertexId × K)} (h : Enters index entries)
    (hd : (entries.map Prod.fst ++ list.map Prod.fst).Nodup) :
    (∃ index', enterAll keyOf list index = .ok index' ∧
      Enters index' (entries ++ list.map fun q => (q.1, keyOf q.2))) ∨
    ∃ key, enterAll keyOf list index = .error (.taken key) ∧
      FirstRepeat (entries.map Prod.snd ++ list.map fun q => keyOf q.2) key := by
  -- the entries are those of the vertices passed so far, so a key that is taken has come before
  induction list generalizing index entries with
  | nil => exact .inl ⟨index, rfl, by simpa using h⟩
  | cons q rest ih =>
    obtain ⟨v, x⟩ := q
    cases hkey : KeyIndex.vertex? index (keyOf x) with
    | some w =>
      have hmem := List.mem_map_of_mem (f := Prod.snd) ((h.vertex? (keyOf x) w).mp hkey)
      refine .inr ⟨keyOf x, ?_, _, _, rfl, h.nodupKeys, hmem⟩
      rw [enterAll, hkey]
    | none =>
      have hv : v ∉ entries.map Prod.fst := fun hmem =>
        List.disjoint_of_nodup_append hd hmem (List.mem_cons_self ..)
      have hnext : ((entries ++ [(v, keyOf x)]).map Prod.fst ++ rest.map Prod.fst).Nodup := by
        simpa using hd
      rw [enterAll, hkey]
      simpa using ih (h.insert hv (h.vertex?_eq_none.mp hkey)) hnext

theorem ofGraphWith_cases (keyOf : V → K) {g : Multigraph V E} {m : Roster V E}
    (h : g.Represents m) (index : I) :
    (∃ k, ofGraphWith keyOf index g = .ok k ∧ k.graph = g ∧
      ∃ p, Stands keyOf k p ∧ p.Current keyOf) ∨
    ∃ key, ofGraphWith keyOf index g = .error (.taken key) ∧
      FirstRepeat (payloadKeys keyOf g) key := by
  have hpayloads := h.holds.payloads_eq
  have hids : g.payloads.map Prod.fst = m.vertexIds := by
    rw [hpayloads, List.map_map]
    rfl
  have hd : (List.map Prod.fst ([] : List (VertexId × K)) ++ g.payloads.map Prod.fst).Nodup := by
    rw [hids]
    exact h.sound.nodup_vertexIds
  have hempty : Enters (KeyIndex.clear index) [] := KeyIndex.enters_empty
  rcases enterAll_cases keyOf hempty hd with ⟨index', hrun, henters⟩ | ⟨key, hrun, hrepeat⟩
  · rw [List.nil_append] at henters
    refine .inl ⟨⟨g, index', keyOf⟩, ?_, rfl, ⟨m, _⟩, ⟨h, henters, ?_, rfl⟩, ?_⟩
    · rw [ofGraphWith, hrun]
      rfl
    · rw [← hids, List.map_map]
      rfl
    · rw [Register.Current, hpayloads, List.map_map]
      rfl
  · refine .inr ⟨key, ?_, hrepeat⟩
    rw [ofGraphWith, hrun]
    rfl

theorem Made.stands (h : Made keyOf k) : ∃ p, Stands keyOf k p ∧ p.Current keyOf := by
  cases h with
  | withIndex index =>
    exact ⟨{}, ⟨Multigraph.represents_empty, KeyIndex.enters_empty, rfl, rfl⟩, rfl⟩
  | @ofGraphWith index graph _ hgraph hrun =>
    obtain ⟨m, hm⟩ := hgraph.represents
    rcases ofGraphWith_cases keyOf hm index with ⟨k', hrun', -, hstands⟩ | ⟨key, hrun', -⟩
    · rw [hrun] at hrun'
      cases hrun'
      exact hstands
    · rw [hrun] at hrun'
      cases hrun'

theorem Made.stands_current (h : Made keyOf k) {edits : List (Edit V E)}
    (hkeeps : k.KeepsKeys keyOf edits) :
    ∃ p, Stands keyOf (k.applyAll edits) p ∧ p.Current keyOf := by
  obtain ⟨p, hstands, hcurrent⟩ := h.stands
  exact hstands.applyAll hcurrent hkeeps

theorem Made.inStep (h : Made keyOf k) {edits : List (Edit V E)}
    (hkeeps : k.KeepsKeys keyOf edits) : InStep keyOf (k.applyAll edits) := by
  obtain ⟨p, hstands, hcurrent⟩ := h.stands_current hkeeps
  exact hstands.inStep hcurrent

end KeyedGraph

namespace KeyedGraph

variable {V E K : Type} [DecidableEq K]

/-- However a keyed graph has been edited since it was made, by live or dead handles and whether or
not keys were refused or edits stopped on the way, it is in step if the changed payloads kept their
keys. -/
theorem inStep_applyAll (keyOf : V → K) (edits : List (Edit V E)) :
    (∀ [BEq K] [LawfulBEq K] [Hashable K] [Footprint K] {k : KeyedGraph V E K (HashedIndex K)},
      Made keyOf k → k.KeepsKeys keyOf edits → InStep keyOf (k.applyAll edits)) ∧
    ∀ [Ord K] [Std.TransOrd K] [Std.LawfulEqOrd K] {k : KeyedGraph V E K (OrderedIndex K)},
      Made keyOf k → k.KeepsKeys keyOf edits → InStep keyOf (k.applyAll edits) :=
  ⟨fun hmade hkeeps => hmade.inStep hkeeps, fun hmade hkeeps => hmade.inStep hkeeps⟩

def reuseEdits : List (Edit (Nat × Nat) Nat) :=
  [.insertVertex (1, 10), .insertVertex (1, 20), .connect (1, 0) (2, 30) 7,
    .removeVertex ⟨⟨0, 0⟩⟩, .insertVertex (3, 40), .removeVertex ⟨⟨0, 0⟩⟩,
    .modifyVertex ⟨⟨0, 1⟩⟩ fun x => (x.1, x.2 + 1)]

theorem inStep_after_reuse :
    InStep Prod.fst (applyAll (withIndex Prod.fst ({} : HashedIndex Nat)) reuseEdits) ∧
      InStep Prod.fst (applyAll (withIndex Prod.fst ({} : OrderedIndex Nat)) reuseEdits) := by
  obtain ⟨hhashed, hordered⟩ := inStep_applyAll (Prod.fst : Nat × Nat → Nat) reuseEdits
  constructor
  · refine hhashed (.withIndex {}) ?_
    exact ⟨trivial, trivial, trivial, trivial, trivial, trivial, fun _ _ => rfl, trivial⟩
  · refine hordered (.withIndex {}) ?_
    exact ⟨trivial, trivial, trivial, trivial, trivial, trivial, fun _ _ => rfl, trivial⟩

end KeyedGraph

end SlotGraph

import SlotGraph.Proofs.KeyedGraph.InStep
set_option autoImplicit false

/-!
The keys on record. However payloads are changed in place, the index pairs each live vertex with the
key that its payload had when it came, and the key is free again as soon as the vertex is gone.
-/

namespace SlotGraph

namespace Register

variable {V E K : Type} {keyOf : V → K} {p : Register V E K}

structure Grows (keyOf : V → K) (p p' : Register V E K) : Prop where
  vertices : p.roster.vertices.live ⊆ p'.roster.vertices.live
  keys : ∃ added, p'.keys = p.keys ++ added ∧
    ∀ q ∈ added, ∃ x, (q.1.slot, x) ∈ p'.roster.vertices.live ∧ keyOf x = q.2

theorem Grows.refl (p : Register V E K) : p.Grows keyOf p :=
  ⟨List.Subset.refl _, [], (List.append_nil _).symm, by simp⟩

theorem Grows.trans {p' p'' : Register V E K} (h : p.Grows keyOf p') (h' : p'.Grows keyOf p'') :
    p.Grows keyOf p'' := by
  obtain ⟨added, hkeys, hpayload⟩ := h.keys
  obtain ⟨added', hkeys', hpayload'⟩ := h'.keys
  refine ⟨List.Subset.trans h.vertices h'.vertices, added ++ added', ?_, fun q hq => ?_⟩
  · rw [hkeys', hkeys, List.append_assoc]
  · rcases List.mem_append.mp hq with hq | hq
    · obtain ⟨x, hx, hkey⟩ := hpayload q hq
      exact ⟨x, h'.vertices hx, hkey⟩
    · exact hpayload' q hq

theorem grows_enterVertex (p : Register V E K) (x : V) :
    p.Grows keyOf (p.enterVertex (keyOf x) x) := by
  refine ⟨List.subset_append_left _ _, _, rfl, fun q hq => ?_⟩
  rw [List.mem_singleton.mp hq]
  exact ⟨x, by simp [enterVertex, Ledger.insert], rfl⟩

theorem keys_dropIfBare (p : Register V E K) (v : VertexId) : (p.dropIfBare v).keys ⊆ p.keys := by
  unfold dropIfBare
  split
  · exact List.filter_sublist.subset
  · exact List.Subset.refl _

theorem keys_dropBareEnds (p : Register V E K) (r : Arc E) : (p.dropBareEnds r).keys ⊆ p.keys := by
  unfold dropBareEnds
  split
  · exact p.keys_dropIfBare r.source
  · exact List.Subset.trans (keys_dropIfBare _ r.target) (p.keys_dropIfBare r.source)

variable [DecidableEq K]

theorem grows_place (p : Register V E K) (x : V) : p.Grows keyOf (p.place keyOf x) := by
  cases hkey : p.holder? (keyOf x) with
  | some v =>
    rw [place_of_holder hkey]
    exact .refl p
  | none =>
    rw [place_of_free hkey]
    exact p.grows_enterVertex x

open KeyedGraph (Edit)

/-- An edit only takes keys off the record or only puts keys on it. -/
theorem keys_after (p : Register V E K) (edit : Edit V E) :
    (p.after keyOf edit).keys ⊆ p.keys ∨ p.Grows keyOf (p.after keyOf edit) := by
  cases edit with
  | insertVertex x | findOrInsert x => exact .inr (p.grows_place x)
  | connect s t x =>
    have hends : p.Grows keyOf ((p.place keyOf s).place keyOf t) :=
      (p.grows_place s).trans (grows_place _ t)
    exact .inr ⟨hends.vertices, hends.keys⟩
  | eraseVertex v | removeVertex v => exact .inl List.filter_sublist.subset
  | eraseEdgeAndBareEnds e =>
    rw [after]
    cases p.roster.edges.get? e.slot with
    | none => exact .inl (List.Subset.refl _)
    | some r => exact .inl (keys_dropBareEnds (p.dropEdge e) r)
  | modifyVertex v f | insertEdge s t x | eraseEdge e | removeEdge e | updateEdge e f
  | clearIncident d v | clearVertexEdges v | clearEdges => exact .inl (List.Subset.refl _)
  | clear => exact .inl (List.nil_subset _)

end Register

namespace Multigraph

variable {V E : Type} {g : Multigraph V E}

theorem vertex_of_vertex? {v : VertexId} {x : V} (h : g.vertex? v = some x) :
    g.vertex v = .ok x := by
  obtain ⟨r, hr, rfl⟩ := Option.map_eq_some_iff.mp h
  simp [vertex, vertexRecord, hr, bind, Except.bind, pure, Except.pure]

def withPayload (g : Multigraph V E) (v : VertexId) (y : V) : Multigraph V E :=
  { g with vertices := g.vertices.update v.slot fun r => { r with payload := y } }

theorem updateVertex_run {v : VertexId} {x : V} (h : g.vertex? v = some x) (y : V) :
    updateVertex v (fun _ => y) g = .ok x (g.withPayload v y) := by
  refine Change.bind_ok (x := some x) (t := g.withPayload v y) ?_
  rw [← h]
  rfl

theorem vertex?_withPayload_self {v : VertexId} {x : V} (h : g.vertex? v = some x) (y : V) :
    (g.withPayload v y).vertex? v = some y := by
  obtain ⟨r, hr, -⟩ := Option.map_eq_some_iff.mp h
  rw [vertex?, withPayload, Table.get?_update_self, hr]
  rfl

end Multigraph

def KeyedGraph.withPayload {V E K I : Type} (k : KeyedGraph V E K I) (v : VertexId) (y : V) :
    KeyedGraph V E K I :=
  { k with graph := k.graph.withPayload v y }

namespace KeyedGraph

variable {V E K I : Type} [KeyIndex I K] {keyOf : V → K} {k : KeyedGraph V E K I}
  {p : Register V E K}

open Change

theorem Stands.keyOf?_eq_some (h : Stands keyOf k p) {v : VertexId} {key : K} :
    k.keyOf? v = some key ↔ (v, key) ∈ p.keys := h.enters.key? v key

theorem Stands.find?_eq_some (h : Stands keyOf k p) {v : VertexId} {key : K} :
    k.find? key = some v ↔ (v, key) ∈ p.keys := h.enters.vertex? key v

theorem Stands.containsVertex_iff (h : Stands keyOf k p) {v : VertexId} :
    k.graph.containsVertex v = true ↔ ∃ key, (v, key) ∈ p.keys := by
  rw [h.graph.holds.containsVertex_iff, ← h.vertices]
  simp

theorem Stands.live_of_keyOf? (h : Stands keyOf k p) {v : VertexId} {key : K}
    (hkey : k.keyOf? v = some key) : ∃ x, (v.slot, x) ∈ p.roster.vertices.live := by
  rw [← Roster.mem_vertexIds, ← h.vertices]
  exact List.mem_map_of_mem (h.keyOf?_eq_some.mp hkey)

/-- The index has lost one key, with its vertex, and nothing else. -/
structure Frees (k : KeyedGraph V E K I) (v : VertexId) (key : K) (k' : KeyedGraph V E K I) :
    Prop where
  freed : k'.find? key = none
  find? {key' : K} : key' ≠ key → k'.find? key' = k.find? key'
  dropped : k'.keyOf? v = none
  keyOf? {w : VertexId} : w ≠ v → k'.keyOf? w = k.keyOf? w

theorem frees_of_index [DecidableEq K] [LawfulKeyIndex I] {k' : KeyedGraph V E K I} {v : VertexId}
    {key : K} (hkey : k.keyOf? v = some key)
    (hindex : k'.index = (KeyIndex.eraseVertex k.index v).2) : k.Frees v key k' where
  freed := by
    rw [find?, hindex, LawfulKeyIndex.vertex?_eraseVertex hkey, if_pos rfl]
  find? hne := by
    rw [find?, hindex, LawfulKeyIndex.vertex?_eraseVertex hkey, if_neg hne.symm]
    rfl
  dropped := by
    rw [keyOf?, hindex, LawfulKeyIndex.key?_eraseVertex, if_pos rfl]
  keyOf? hne := by
    rw [keyOf?, hindex, LawfulKeyIndex.key?_eraseVertex, if_neg hne.symm]
    rfl

variable [DecidableEq K]

/-- The index pairs the live vertices with keys. A key is freed with its vertex and not otherwise,
and a payload can be changed as long as it has the key on record afterwards. -/
structure Paired (keyOf : V → K) (k : KeyedGraph V E K I) : Prop where
  inverse (key : K) (v : VertexId) : k.find? key = some v ↔ k.keyOf? v = some key
  live (v : VertexId) : (k.keyOf? v).isSome = k.graph.containsVertex v
  find?_step (edit : Edit V E) {v : VertexId} {key : K} : k.keyOf? v = some key →
    (k.step edit).find? key = if (k.step edit).graph.containsVertex v then some v else none
  eraseVertex {v : VertexId} {key : K} : k.keyOf? v = some key →
    ∃ erasure k', eraseVertex v k = .ok erasure k' ∧ k.Frees v key k'
  removeVertex {v : VertexId} {key : K} : k.keyOf? v = some key →
    ∃ removal k', removeVertex v k = .ok removal k' ∧ k.Frees v key k'
  modifyVertex {α : Type} {v : VertexId} {x : V} (f : V → α × V) : k.graph.vertex? v = some x →
    ∃ k', modifyVertex v f k =
        (if k.keyOf? v = some (keyOf (f x).2) then .ok (f x).1 k' else .error (.keyChanged v) k') ∧
      k'.graph.vertex? v = some (f x).2 ∧ k'.index = k.index

theorem modifyVertex_run {α : Type} {v : VertexId} {x : V} (f : V → α × V)
    (hx : k.graph.vertex? v = some x) :
    KeyedGraph.modifyVertex v f k =
      if k.keyOf? v = some (k.keyOf (f x).2) then .ok (f x).1 (k.withPayload v (f x).2)
      else .error (.keyChanged v) (k.withPayload v (f x).2) := by
  have hread : ask (fun k : KeyedGraph V E K I => k.graph.vertex v) k = .ok x k :=
    ask_ok (Multigraph.vertex_of_vertex? hx)
  have hwrite : onGraph (Multigraph.updateVertex v fun _ => (f x).2) k =
      .ok x (k.withPayload v (f x).2) := onGraph_ok (Multigraph.updateVertex_run hx _)
  have hreread : ask (fun k : KeyedGraph V E K I => k.graph.vertex v) (k.withPayload v (f x).2) =
      .ok (f x).2 (k.withPayload v (f x).2) :=
    ask_ok (Multigraph.vertex_of_vertex? (Multigraph.vertex?_withPayload_self hx _))
  unfold KeyedGraph.modifyVertex
  rw [bind_ok hread]
  dsimp only
  rw [bind_ok hwrite, get_bind, bind_ok hreread, get_bind]
  by_cases hkey : k.keyOf? v = some (k.keyOf (f x).2)
  · rw [if_pos hkey]
    exact if_pos hkey ▸ rfl
  · rw [if_neg hkey]
    exact if_neg hkey ▸ rfl

variable [LawfulKeyIndex I]

theorem Stands.step_keys (h : Stands keyOf k p) (edit : Edit V E) :
    ∃ p', Stands keyOf (k.step edit) p' ∧ (p'.keys ⊆ p.keys ∨ p.Grows keyOf p') :=
  h.leaves_step (.inl (List.Subset.refl _)) (p.keys_after edit)

theorem Stands.find?_step (h : Stands keyOf k p) (edit : Edit V E) {v : VertexId} {key : K}
    (hkey : k.keyOf? v = some key) : (k.step edit).find? key =
      if (k.step edit).graph.containsVertex v then some v else none := by
  obtain ⟨p', h', hkeys⟩ := h.step_keys edit
  have hbefore := h.keyOf?_eq_some.mp hkey
  by_cases hlive : (k.step edit).graph.containsVertex v = true
  · rw [if_pos hlive, h'.find?_eq_some]
    rcases hkeys with hfewer | hgrows
    · obtain ⟨key', hafter⟩ := h'.containsVertex_iff.mp hlive
      rwa [h.enters.key_eq hbefore (hfewer hafter)]
    · obtain ⟨added, hadded, -⟩ := hgrows.keys
      rw [hadded]
      exact List.mem_append_left _ hbefore
  · rw [if_neg hlive, Option.eq_none_iff_forall_ne_some]
    intro w hw
    refine hlive (h'.containsVertex_iff.mpr ⟨key, ?_⟩)
    rcases hkeys with hfewer | hgrows
    · have hafter := h'.find?_eq_some.mp hw
      rwa [h.enters.vertex_eq hbefore (hfewer hafter)]
    · obtain ⟨added, hadded, -⟩ := hgrows.keys
      rw [hadded]
      exact List.mem_append_left _ hbefore

theorem Stands.paired (h : Stands keyOf k p) : Paired keyOf k where
  inverse key v := h.find?_eq_some.trans h.keyOf?_eq_some.symm
  live v := by
    rw [Bool.eq_iff_iff, Option.isSome_iff_exists, h.containsVertex_iff]
    exact exists_congr fun key => h.keyOf?_eq_some
  find?_step edit _ _ hkey := h.find?_step edit hkey
  eraseVertex {v _} hkey := by
    obtain ⟨x, hx⟩ := h.live_of_keyOf? hkey
    obtain ⟨g', hrun, -⟩ := (Multigraph.tally_eraseVertex h.graph v).exists_ok
      (Roster.eraseVertex_ok h.graph.sound hx)
    exact ⟨_, _, bind_ok (onGraph_ok hrun), frees_of_index hkey rfl⟩
  removeVertex {v _} hkey := by
    obtain ⟨x, hx⟩ := h.live_of_keyOf? hkey
    obtain ⟨g', hrun, -⟩ := (Multigraph.tally_removeVertex h.graph v).exists_ok
      (Roster.removeVertex_ok h.graph.sound hx)
    exact ⟨_, _, bind_ok (onGraph_ok hrun), frees_of_index hkey rfl⟩
  modifyVertex f hx := by
    rw [← h.keyOf]
    exact ⟨_, modifyVertex_run f hx, Multigraph.vertex?_withPayload_self hx _, rfl⟩

theorem Stands.keyOf?_kept (h : Stands keyOf k p) {edit : Edit V E} {v : VertexId} {key : K}
    (hkey : k.keyOf? v = some key) (hlive : (k.step edit).graph.containsVertex v = true) :
    (k.step edit).keyOf? v = some key := by
  obtain ⟨p', h', -⟩ := h.step_keys edit
  have hfind := h.find?_step edit hkey
  rw [if_pos hlive] at hfind
  exact h'.keyOf?_eq_some.mpr (h'.find?_eq_some.mp hfind)

theorem Stands.keyOf?_born (h : Stands keyOf k p) {edit : Edit V E} {v : VertexId} {x : V}
    (hdead : k.graph.containsVertex v = false) (hx : (k.step edit).graph.vertex? v = some x) :
    (k.step edit).keyOf? v = some (keyOf x) := by
  obtain ⟨p', h', hkeys⟩ := h.step_keys edit
  have hnot : ∀ key, (v, key) ∉ p.keys := fun key hentry =>
    Bool.eq_false_iff.mp hdead (h.containsVertex_iff.mpr ⟨key, hentry⟩)
  rw [h'.graph.holds.vertex?_eq] at hx
  have hrecord := (Ledger.get?_eq_some h'.graph.sound.nodup_live_vertices).mp hx
  obtain ⟨key, hentry⟩ := h'.containsVertex_iff.mp
    (h'.graph.holds.containsVertex_iff.mpr (Roster.mem_vertexIds.mpr ⟨x, hrecord⟩))
  rcases hkeys with hfewer | hgrows
  · exact absurd (hfewer hentry) (hnot key)
  · obtain ⟨added, hadded, hpayload⟩ := hgrows.keys
    rw [hadded] at hentry
    rcases List.mem_append.mp hentry with hold | hnew
    · exact absurd hold (hnot key)
    · obtain ⟨y, hy, hkey⟩ := hpayload _ hnew
      -- one live record to a slot, so the payload that comes with the key is the one read
      obtain rfl : x = y := (Prod.mk.inj
        (Ledger.eq_of_index_eq h'.graph.sound.nodup_live_vertices hrecord hy rfl)).2
      rw [h'.keyOf?_eq_some, hkey, hadded]
      exact hentry

/-- The keyed graph after the first `n` edits of a history. -/
def stateAt (k : KeyedGraph V E K I) (edits : List (Edit V E)) (n : Nat) : KeyedGraph V E K I :=
  k.applyAll (edits.take n)

omit [LawfulKeyIndex I] in
theorem stateAt_succ (k : KeyedGraph V E K I) {edits : List (Edit V E)} {n : Nat}
    (hn : n < edits.length) : k.stateAt edits (n + 1) = (k.stateAt edits n).step edits[n] := by
  rw [stateAt, List.take_succ_eq_append_getElem hn, applyAll, List.foldl_append]
  rfl

/-- A vertex comes with the edit before time `m`, or is there from the beginning, and stays up to
time `n`. -/
structure Stays (k : KeyedGraph V E K I) (edits : List (Edit V E)) (v : VertexId) (m n : Nat) :
    Prop where
  le : m ≤ n
  born (i : Nat) : i + 1 = m → (k.stateAt edits i).graph.containsVertex v = false
  live (i : Nat) : m ≤ i → i ≤ n → (k.stateAt edits i).graph.containsVertex v = true

/-- At every time of a history the index pairs the live vertices with keys, and the key on record
for a vertex is the one that its payload had when the vertex came. -/
structure Recorded (keyOf : V → K) (k : KeyedGraph V E K I) (edits : List (Edit V E)) : Prop where
  paired (n : Nat) : Paired keyOf (k.stateAt edits n)
  entry {v : VertexId} {m n : Nat} {x : V} : n ≤ edits.length → k.Stays edits v m n →
    (k.stateAt edits m).graph.vertex? v = some x →
    (k.stateAt edits n).keyOf? v = some (keyOf x)

theorem Stands.applyAll_any (h : Stands keyOf k p) (edits : List (Edit V E)) :
    ∃ p', Stands keyOf (k.applyAll edits) p' := by
  induction edits generalizing k p with
  | nil => exact ⟨p, h⟩
  | cons edit rest ih =>
    obtain ⟨p', h', -⟩ := h.step_keys edit
    exact ih h'

theorem Made.stands_applyAll (h : Made keyOf k) (edits : List (Edit V E)) :
    ∃ p, Stands keyOf (k.applyAll edits) p := by
  obtain ⟨p, hp, -⟩ := h.stands
  exact hp.applyAll_any edits

theorem Made.recorded (h : Made keyOf k) (edits : List (Edit V E)) : Recorded keyOf k edits where
  paired n := by
    obtain ⟨p, hp⟩ := h.stands_applyAll (edits.take n)
    exact hp.paired
  entry {v m n x} hn hstays hx := by
    obtain ⟨hmn, hborn, hlive⟩ := hstays
    -- on the time since the vertex came; its payload then is not read again
    induction n, hmn using Nat.le_induction with
    | base =>
      cases m with
      | zero =>
        obtain ⟨p, hp, hcurrent⟩ := h.stands
        have hkey := (hp.inStep hcurrent).keyOf? v
        rwa [show k.graph.vertex? v = some x from hx, Option.map_some] at hkey
      | succ i =>
        obtain ⟨p, hp⟩ := h.stands_applyAll (edits.take i)
        rw [stateAt_succ k hn] at hx ⊢
        exact hp.keyOf?_born (hborn i rfl) hx
    | succ n hmn ih =>
      have hkey := ih (Nat.le_of_succ_le hn) fun i hmi hin => hlive i hmi (Nat.le_succ_of_le hin)
      have hafter := hlive (n + 1) (Nat.le_succ_of_le hmn) le_rfl
      obtain ⟨p, hp⟩ := h.stands_applyAll (edits.take n)
      rw [stateAt_succ k hn] at hafter ⊢
      exact hp.keyOf?_kept hkey hafter

end KeyedGraph

namespace KeyedGraph

variable {V E K : Type} [DecidableEq K]

/-- However a keyed graph has been edited since it was made, by live or dead handles, with payloads
changed to other keys and whether or not edits stopped on the way, its keys are on record. -/
theorem recorded_applyAll (keyOf : V → K) (edits : List (Edit V E)) :
    (∀ [BEq K] [LawfulBEq K] [Hashable K] [Footprint K] {k : KeyedGraph V E K (HashedIndex K)},
      Made keyOf k → Recorded keyOf k edits) ∧
    ∀ [Ord K] [Std.TransOrd K] [Std.LawfulEqOrd K] {k : KeyedGraph V E K (OrderedIndex K)},
      Made keyOf k → Recorded keyOf k edits :=
  ⟨fun hmade => hmade.recorded edits, fun hmade => hmade.recorded edits⟩

def changedKeys : List (Edit (Nat × Nat) Nat) :=
  [.insertVertex (1, 10), .modifyVertex ⟨⟨0, 0⟩⟩ fun x => (2, x.2), .insertVertex (2, 20),
    .insertVertex (1, 30), .modifyVertex ⟨⟨0, 0⟩⟩ fun x => (1, x.2), .removeVertex ⟨⟨0, 0⟩⟩]

theorem recorded_changedKeys :
    Recorded Prod.fst (withIndex Prod.fst ({} : HashedIndex Nat)) changedKeys ∧
      Recorded Prod.fst (withIndex Prod.fst ({} : OrderedIndex Nat)) changedKeys := by
  obtain ⟨hhashed, hordered⟩ := recorded_applyAll (Prod.fst : Nat × Nat → Nat) changedKeys
  exact ⟨hhashed (.withIndex {}), hordered (.withIndex {})⟩

end KeyedGraph

end SlotGraph

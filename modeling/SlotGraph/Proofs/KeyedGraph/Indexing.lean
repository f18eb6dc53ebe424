import SlotGraph.Proofs.KeyedGraph.Recorded
import SlotGraph.Proofs.Multigraph.CompactCopy
set_option autoImplicit false

namespace SlotGraph

namespace KeyedGraph

variable {V E K I : Type} [KeyIndex I K] [DecidableEq K]

/-- What comes of putting an index over a graph: the graph as it is, with each live vertex under the
key of its payload and nothing else, or the first key that comes a second time. -/
structure Indexing (keyOf : V → K) (g : Multigraph V E)
    (r : Except (KeyError K) (KeyedGraph V E K I)) : Prop where
  ok_iff : (∃ k, r = .ok k) ↔ (payloadKeys keyOf g).Nodup
  graph {k : KeyedGraph V E K I} : r = .ok k → k.graph = g
  inStep {k : KeyedGraph V E K I} : r = .ok k → InStep keyOf k
  find?_eq_some {k : KeyedGraph V E K I} : r = .ok k → ∀ key v,
    k.find? key = some v ↔ ∃ x, g.vertex? v = some x ∧ keyOf x = key
  error_iff (key : K) : r = .error (.taken key) ↔ FirstRepeat (payloadKeys keyOf g) key

/-- The same graph, and the same answers to every question for a key or for a vertex. -/
structure SameAnswers {I' : Type} [KeyIndex I' K] (k : KeyedGraph V E K I)
    (k' : KeyedGraph V E K I') : Prop where
  graph : k'.graph = k.graph
  find? (key : K) : k'.find? key = k.find? key
  keyOf? (v : VertexId) : k'.keyOf? v = k.keyOf? v

section

variable {keyOf : V → K} {k : KeyedGraph V E K I} {p : Register V E K} {g : Multigraph V E}

omit [DecidableEq K] in
theorem Stands.nodup_payloadKeys (h : Stands keyOf k p) (hcurrent : p.Current keyOf) :
    (payloadKeys keyOf k.graph).Nodup := by
  rw [payloadKeys_eq h.graph, ← hcurrent.map_snd_keys]
  exact h.enters.nodupKeys

theorem InStep.sameAnswers {I' : Type} [KeyIndex I' K] {k' : KeyedGraph V E K I'}
    (h : InStep keyOf k) (h' : InStep keyOf k') (hgraph : k'.graph = k.graph) :
    SameAnswers k k' where
  graph := hgraph
  find? key := by rw [h.find?, h'.find?, hgraph]
  keyOf? v := by rw [h.keyOf?, h'.keyOf?, hgraph]

variable [LawfulKeyIndex I]

theorem indexing_ofGraphWith (keyOf : V → K) {m : Roster V E} (h : g.Represents m) (index : I) :
    Indexing keyOf g (ofGraphWith keyOf index g) := by
  rcases ofGraphWith_cases keyOf h index with ⟨k, hrun, rfl, p, hp, hcurrent⟩ | ⟨key, hrun, hfirst⟩
  · have hd := hp.nodup_payloadKeys hcurrent
    rw [hrun]
    refine ⟨iff_of_true ⟨k, rfl⟩ hd, ?_, ?_, ?_, ?_⟩
    · rintro k' ⟨⟩
      rfl
    · rintro k' ⟨⟩
      exact hp.inStep hcurrent
    · rintro k' ⟨⟩ key v
      exact hp.find?_eq_some.trans (hp.mem_keys_iff hcurrent)
    · exact fun key => iff_of_false (by simp) fun hrepeat => hrepeat.not_nodup hd
  · rw [hrun]
    refine ⟨iff_of_false (by simp) hfirst.not_nodup, by simp, by simp, by simp, fun key' => ?_⟩
    constructor
    · intro heq
      cases heq
      exact hfirst
    · intro hrepeat
      rw [hfirst.unique hrepeat]

theorem Stands.ofGraph_ok {J : Type} [KeyIndex J K] {k : KeyedGraph V E K J}
    (h : Stands keyOf k p) (hcurrent : p.Current keyOf) :
    ∃ k' : KeyedGraph V E K I, ofGraph keyOf k.graph = .ok k' ∧ SameAnswers k k' := by
  have hindexing := indexing_ofGraphWith keyOf h.graph (KeyIndex.empty : I)
  obtain ⟨k', hrun⟩ := hindexing.ok_iff.mpr (h.nodup_payloadKeys hcurrent)
  exact ⟨k', hrun,
    (h.inStep hcurrent).sameAnswers (hindexing.inStep hrun) (hindexing.graph hrun)⟩

theorem mapWith_ok {W F L J σ : Type} [KeyIndex J L] {k : KeyedGraph W F L J} {m : Roster W F}
    (h : k.graph.Represents m) (f : σ → W → V × σ) (e : σ → F → E × σ) (s : σ) (keyOf : V → K) :
    ∃ copy s', k.graph.mapAccum f e s = .ok (copy, s') ∧ payloadKeys keyOf copy =
        (threaded f (k.graph.payloads.map Prod.snd) s).1.map keyOf ∧
      ∃ r : Except (KeyError K) (KeyedGraph V E K I),
        k.mapWith f e s keyOf = .ok r ∧ Indexing keyOf copy r := by
  obtain ⟨copy, hrun, hcopy⟩ := h.mapAccum_ok f e s
  refine ⟨copy, _, hrun, ?_, _, ?_, indexing_ofGraphWith keyOf hcopy KeyIndex.empty⟩
  · rw [payloadKeys_eq hcopy, Roster.mapAccum, m.vertexPayloads_copied, h.holds.payloads_eq,
      List.map_map]
    rfl
  · rw [mapWith, hrun]
    rfl

end

/-- What indexes of one kind make of graphs: of any graph there can be, of one that was indexed
before, and of a copy. -/
structure Indexes (I : Type) [KeyIndex I K] (keyOf : V → K) : Prop where
  put {E : Type} {g : Multigraph V E} : g.Reached →
    ∀ index : I, Indexing keyOf g (ofGraphWith keyOf index g)
  again {E J : Type} [KeyIndex J K] [LawfulKeyIndex J] {k : KeyedGraph V E K J}
    {edits : List (Edit V E)} : Made keyOf k → k.KeepsKeys keyOf edits →
    ∃ k' : KeyedGraph V E K I, ofGraph keyOf (k.applyAll edits).graph = .ok k' ∧
      SameAnswers (k.applyAll edits) k'
  copies {W F L E J σ : Type} [KeyIndex J L] [DecidableEq L] [LawfulKeyIndex J] {oldKey : W → L}
    {k : KeyedGraph W F L J} (edits : List (Edit W F)) (f : σ → W → V × σ) (e : σ → F → E × σ)
    (s : σ) : Made oldKey k →
    ∃ copy s', (k.applyAll edits).graph.mapAccum f e s = .ok (copy, s') ∧
      payloadKeys keyOf copy =
        (threaded f ((k.applyAll edits).graph.payloads.map Prod.snd) s).1.map keyOf ∧
      ∃ r : Except (KeyError K) (KeyedGraph V E K I),
        (k.applyAll edits).mapWith f e s keyOf = .ok r ∧ Indexing keyOf copy r

theorem indexes (I : Type) [KeyIndex I K] [LawfulKeyIndex I] (keyOf : V → K) :
    Indexes I keyOf where
  put hg index := by
    obtain ⟨m, h⟩ := hg.represents
    exact indexing_ofGraphWith keyOf h index
  again hmade hkeeps := by
    obtain ⟨p, hp, hcurrent⟩ := hmade.stands_current hkeeps
    exact hp.ofGraph_ok hcurrent
  copies edits f e s hmade := by
    obtain ⟨p, hp⟩ := hmade.stands_applyAll edits
    exact mapWith_ok hp.graph f e s keyOf

/-- Indexes by hash and in order refuse a graph by the first key that comes a second time, and for
no other reason. -/
theorem indexes_or_refuses (keyOf : V → K) :
    (∀ [BEq K] [LawfulBEq K] [Hashable K] [Footprint K], Indexes (HashedIndex K) keyOf) ∧
    ∀ [Ord K] [Std.TransOrd K] [Std.LawfulEqOrd K], Indexes (OrderedIndex K) keyOf :=
  ⟨indexes (HashedIndex K) keyOf, indexes (OrderedIndex K) keyOf⟩

/-- Two keys come twice. By the slots, and by the keys themselves, 2 would be the first to do so; in
the order of the table it is 3. -/
def repeatedKeys : List (Multigraph.Edit (Nat × Nat) Nat) :=
  [.insertVertex (1, 10), .insertVertex (2, 20), .insertVertex (3, 30), .insertVertex (3, 40),
    .removeVertex ⟨0, 0⟩, .insertVertex (2, 50)]

def enumerate (n : Nat) (x : Nat × Nat) : (Nat × Nat) × Nat := ((n, x.2), n + 1)

theorem indexes_or_refuses_repeatedKeys :
    (Multigraph.Edit.applyAll .empty repeatedKeys).Reached ∧
      payloadKeys Prod.fst (Multigraph.Edit.applyAll .empty repeatedKeys) = [2, 3, 3, 2] ∧
      ofGraphWith Prod.fst (KeyIndex.insert ({} : HashedIndex Nat) 3 ⟨⟨9, 0⟩⟩)
        (Multigraph.Edit.applyAll .empty repeatedKeys) = .error (.taken 3) ∧
      ofGraphWith Prod.fst (KeyIndex.insert ({} : OrderedIndex Nat) 3 ⟨⟨9, 0⟩⟩)
        (Multigraph.Edit.applyAll .empty repeatedKeys) = .error (.taken 3) ∧
      KeepsKeys Prod.fst (withIndex Prod.fst ({} : OrderedIndex Nat)) reuseEdits ∧
      (∃ k' : KeyedGraph (Nat × Nat) Nat Nat (HashedIndex Nat),
        ofGraph Prod.fst (applyAll (withIndex Prod.fst ({} : OrderedIndex Nat)) reuseEdits).graph =
          .ok k' ∧
        SameAnswers (applyAll (withIndex Prod.fst ({} : OrderedIndex Nat)) reuseEdits) k') ∧
      ∃ k' : KeyedGraph (Nat × Nat) Nat Nat (HashedIndex Nat),
        (applyAll (withIndex Prod.fst ({} : OrderedIndex Nat)) reuseEdits).mapWith enumerate
          (fun n x => (x, n)) 0 Prod.fst = .ok (.ok k') := by
  have hreached : (Multigraph.Edit.applyAll .empty repeatedKeys).Reached :=
    Multigraph.Reached.empty.applyAll repeatedKeys
  have hkeys : payloadKeys Prod.fst (Multigraph.Edit.applyAll .empty repeatedKeys) = [2, 3, 3, 2] :=
    by
    decide +kernel
  have hfirst :
      FirstRepeat (payloadKeys Prod.fst (Multigraph.Edit.applyAll .empty repeatedKeys)) 3 :=
    ⟨[2, 3], [2], hkeys, by decide, by decide⟩
  have hmade : Made Prod.fst
      (withIndex Prod.fst {} : KeyedGraph (Nat × Nat) Nat Nat (OrderedIndex Nat)) := .withIndex {}
  have hkeeps : KeepsKeys Prod.fst (withIndex Prod.fst ({} : OrderedIndex Nat)) reuseEdits :=
    ⟨trivial, trivial, trivial, trivial, trivial, trivial, fun _ _ => rfl, trivial⟩
  have hpayloads : (applyAll (withIndex Prod.fst ({} : OrderedIndex Nat))
      reuseEdits).graph.payloads.map Prod.snd = [(2, 30), (3, 41)] := by decide +kernel
  obtain ⟨hhashed, hordered⟩ := indexes_or_refuses (Prod.fst : Nat × Nat → Nat)
  obtain ⟨copy, s', -, hcopyKeys, r, hrun, hindexing⟩ :=
    hhashed.copies reuseEdits enumerate (fun n (x : Nat) => (x, n)) 0 hmade
  rw [hpayloads] at hcopyKeys
  obtain ⟨k', rfl⟩ := hindexing.ok_iff.mpr (by rw [hcopyKeys]; decide)
  exact ⟨hreached, hkeys, ((hhashed.put hreached _).error_iff 3).mpr hfirst,
    ((hordered.put hreached _).error_iff 3).mpr hfirst, hkeeps, hhashed.again hmade hkeeps,
    k', hrun⟩

end KeyedGraph

end SlotGraph

import SlotGraph.Proofs.KeyedGraph.Recorded
import SlotGraph.Proofs.Multigraph.Copying
import SlotGraph.Proofs.Multigraph.Reports
set_option autoImplicit false

/-!
Keyed graphs built from a stream of pairs. Every pair becomes an edge; a vertex is made for each key
when the stream names it first, so which payload it carries is settled by the order of the stream.
-/

namespace SlotGraph

/-- Two payloads whose vertices are to be joined by an edge. -/
structure Strand (V E : Type) where
  source : V
  target : V
  payload : E
  deriving Repr

namespace Strand

variable {V E K I : Type} [KeyIndex I K]

def ends (s : Strand V E) : List V := [s.source, s.target]

def tie (s : Strand V E) : Change (KeyedGraph V E K I) EdgeId :=
  KeyedGraph.connect s.source s.target s.payload

end Strand

namespace Register

variable {V E K : Type} [DecidableEq K] {keyOf : V → K} {p p' p'' : Register V E K}

theorem holder?_eq_none {key : K} : p.holder? key = none ↔ key ∉ p.keys.map Prod.snd := by
  rw [holder?, Option.map_eq_none_iff, List.find?_eq_none]
  constructor
  · intro hnone hmem
    obtain ⟨q, hq, rfl⟩ := List.mem_map.mp hmem
    exact hnone q hq (beq_self_eq_true q.2)
  · intro hnot q hq hkey
    exact hnot (beq_iff_eq.mp hkey ▸ List.mem_map_of_mem hq)

/-- Vertices have come for the payloads of a list, one for each new key; none has gone. -/
structure Gains (keyOf : V → K) (xs : List V) (p p' : Register V E K) : Prop where
  live : p.roster.vertices.live <+: p'.roster.vertices.live
  payloads : p'.roster.vertexPayloads =
    p.roster.vertexPayloads ++ firsts keyOf (p.roster.vertexPayloads.map keyOf) xs

theorem gains_none (p : Register V E K) : p.Gains keyOf [] p :=
  ⟨List.prefix_refl _, by simp [firsts]⟩

theorem Gains.trans {xs ys : List V} (h : p.Gains keyOf xs p') (h' : p'.Gains keyOf ys p'') :
    p.Gains keyOf (xs ++ ys) p'' where
  live := h.live.trans h'.live
  payloads := by
    rw [h'.payloads, h.payloads, firsts_append, List.map_append, List.append_assoc]

theorem gains_place (h : p.Current keyOf) (x : V) : p.Gains keyOf [x] (p.place keyOf x) := by
  have hheld := h.map_snd_keys
  cases hkey : p.holder? (keyOf x) with
  | some v =>
    have hx : keyOf x ∈ p.roster.vertexPayloads.map keyOf := by
      by_contra hnot
      rw [← hheld, ← holder?_eq_none, hkey] at hnot
      cases hnot
    rw [place_of_holder hkey]
    exact ⟨List.prefix_refl _, by rw [firsts_cons_held hx]; simp [firsts]⟩
  | none =>
    have hx : keyOf x ∉ p.roster.vertexPayloads.map keyOf := by
      rwa [← hheld, ← holder?_eq_none]
    rw [place_of_free hkey]
    refine ⟨List.prefix_append .., ?_⟩
    rw [firsts_cons_new hx]
    simp [enterVertex, Roster.vertexPayloads, Ledger.insert, firsts]

theorem Gains.keys {xs : List V} (h : p.Gains keyOf xs p') (hp : p.Current keyOf)
    (hp' : p'.Current keyOf) : p.keys ⊆ p'.keys := by
  rw [hp, hp']
  exact List.map_subset _ h.live.subset

/-- The arc runs between the vertices that have the keys of the strand on record. -/
structure Joins (keyOf : V → K) (p : Register V E K) (s : Strand V E) (r : Arc E) : Prop where
  payload : r.payload = s.payload
  source : (r.source, keyOf s.source) ∈ p.keys
  target : (r.target, keyOf s.target) ∈ p.keys

/-- A vertex has come for each new key of the strands and an edge for each strand; all else has
stayed. -/
structure Strung (keyOf : V → K) (ss : List (Strand V E)) (new : List (SlotId × Arc E))
    (p p' : Register V E K) : Prop where
  gains : p.Gains keyOf (ss.flatMap Strand.ends) p'
  edges : p'.roster.edges.live = p.roster.edges.live ++ new
  joins : List.Forall₂ (fun s q => Joins keyOf p' s q.2) ss new

theorem strung_nil (p : Register V E K) : p.Strung keyOf [] [] p :=
  ⟨p.gains_none, (List.append_nil _).symm, .nil⟩

theorem Strung.cons {s : Strand V E} {ss : List (Strand V E)} {q : SlotId × Arc E}
    {new : List (SlotId × Arc E)} (hp' : p'.Current keyOf) (hp'' : p''.Current keyOf)
    (h : p.Strung keyOf [s] [q] p') (h' : p'.Strung keyOf ss new p'') :
    p.Strung keyOf (s :: ss) (q :: new) p'' where
  gains := h.gains.trans h'.gains
  edges := by rw [h'.edges, h.edges, List.append_assoc, List.singleton_append]
  joins := by
    have hkeys := h'.gains.keys hp' hp''
    obtain ⟨hpayload, hsource, htarget⟩ := (List.forall₂_cons.mp h.joins).1
    exact .cons ⟨hpayload, hkeys hsource, hkeys htarget⟩ h'.joins

theorem strung_connect (h : p.Current keyOf) (s : Strand V E) : p.Strung keyOf [s]
    [(p.roster.edges.fresh,
      ⟨s.payload, p.seat keyOf s.source, (p.place keyOf s.source).seat keyOf s.target⟩)]
    (p.after keyOf (.connect s.source s.target s.payload)) := by
  have hsource := h.place s.source
  have hgains := (gains_place h s.source).trans (gains_place hsource s.target)
  refine ⟨⟨hgains.live, hgains.payloads⟩, ?_, .cons ⟨rfl, ?_, ?_⟩ .nil⟩
  · simp only [after, link, edges_place]
    rfl
  · exact (gains_place hsource s.target).keys hsource (hsource.place s.target)
      (p.seat_mem_keys s.source)
  · exact seat_mem_keys _ s.target

end Register

namespace KeyedGraph

variable {V E K I : Type} [KeyIndex I K] {keyOf : V → K} {k : KeyedGraph V E K I}
  {p : Register V E K}

open Change

/-- The one live vertex whose payload has a key, which the index finds. -/
structure Holder (keyOf : V → K) (k : KeyedGraph V E K I) (key : K) (v : VertexId) : Prop where
  find? : k.find? key = some v
  unique (w : VertexId) : (∃ x, k.graph.vertex? w = some x ∧ keyOf x = key) ↔ w = v

theorem Stands.holder (h : Stands keyOf k p) (hcurrent : p.Current keyOf) {key : K}
    {v : VertexId} (hv : (v, key) ∈ p.keys) : k.Holder keyOf key v where
  find? := h.find?_eq_some.mpr hv
  unique w := by
    rw [← h.mem_keys_iff hcurrent]
    constructor
    · exact fun hw => h.enters.vertex_eq hw hv
    · exact fun heq => heq ▸ hv

variable [DecidableEq K]

/-- Vertices have come for the new keys of a stream, in the order in which it names them first, and
then edges for its strands, in their order; all that was there before is there still. -/
structure Strung (keyOf : V → K) (k : KeyedGraph V E K I) (ss : List (Strand V E))
    (es : List EdgeId) (k' : KeyedGraph V E K I) : Prop where
  vertices : ∃ born : List (VertexId × V),
    TwoEnded.toList k'.graph.vertexIds = TwoEnded.toList k.graph.vertexIds ++ born.map Prod.fst ∧
    k'.graph.payloads = k.graph.payloads ++ born ∧
    born.map Prod.snd = firsts keyOf (payloadKeys keyOf k.graph) (ss.flatMap Strand.ends)
  edges : ∃ old new, k.graph.edgeReports = .ok old ∧ k'.graph.edgeReports = .ok (old ++ new) ∧
    new.map EdgeReport.id = es ∧
    List.Forall₂ (fun s r => r.payload = s.payload ∧ k'.Holder keyOf (keyOf s.source) r.source ∧
      k'.Holder keyOf (keyOf s.target) r.target ∧
      (r.isLoop ↔ keyOf s.source = keyOf s.target)) ss new
  edgeIds : TwoEnded.toList k'.graph.edgeIds = TwoEnded.toList k.graph.edgeIds ++ es
  inStep : InStep keyOf k'

theorem Stands.strung {k' : KeyedGraph V E K I} {p' : Register V E K} (h : Stands keyOf k p)
    (h' : Stands keyOf k' p') (hcurrent' : p'.Current keyOf)
    {ss : List (Strand V E)} {new : List (SlotId × Arc E)} (hstrung : p.Strung keyOf ss new p') :
    k.Strung keyOf ss (new.map fun q => ⟨q.1⟩) k' := by
  constructor
  case vertices =>
    obtain ⟨born, hborn⟩ := hstrung.gains.live
    have hpayloads := hstrung.gains.payloads
    rw [Roster.vertexPayloads, ← hborn, List.map_append] at hpayloads
    have hnew := List.append_cancel_left hpayloads
    refine ⟨born.map fun q => (⟨q.1⟩, q.2), ?_, ?_, ?_⟩
    · rw [h'.graph.holds.vertexIds_gives.toList_eq, h.graph.holds.vertexIds_gives.toList_eq,
        Roster.vertexIds, ← hborn, List.map_append, List.map_map]
      rfl
    · rw [h'.graph.holds.payloads_eq, h.graph.holds.payloads_eq, ← hborn, List.map_append]
    · rw [payloadKeys_eq h.graph, List.map_map]
      exact hnew
  case edges =>
    refine ⟨_, new.map Roster.edgeReport, h.graph.holds.edgeReports_ok, ?_, ?_, ?_⟩
    · rw [h'.graph.holds.edgeReports_ok, Roster.edgeReports, hstrung.edges, List.map_append]
      rfl
    · rw [List.map_map]
      rfl
    · rw [List.forall₂_map_right_iff]
      refine hstrung.joins.imp fun s q hjoins => ⟨hjoins.payload, ?_, ?_, ?_⟩
      · exact h'.holder hcurrent' hjoins.source
      · exact h'.holder hcurrent' hjoins.target
      · rw [EdgeReport.isLoop, beq_iff_eq]
        exact h'.enters.vertex_eq_iff hjoins.source hjoins.target
  case edgeIds =>
    rw [h'.graph.holds.edgeIds_gives.toList_eq, h.graph.holds.edgeIds_gives.toList_eq,
      Roster.edgeIds, hstrung.edges, List.map_append]
    rfl
  case inStep => exact h'.inStep hcurrent'

variable [LawfulKeyIndex I]

theorem Stands.tie_ok (h : Stands keyOf k p) (s : Strand V E) :
    ∃ k', s.tie k = .ok ⟨p.roster.edges.fresh⟩ k' ∧
      Stands keyOf k' (p.after keyOf (.connect s.source s.target s.payload)) :=
  (tally_connect h s.source s.target s.payload).exists_ok
    (Register.connect_ok h.vertices s.source s.target s.payload)

theorem Stands.mapM_tie_ok (h : Stands keyOf k p) (hcurrent : p.Current keyOf)
    (ss : List (Strand V E)) : ∃ k' p' new,
      ss.mapM Strand.tie k = .ok (new.map fun q => ⟨q.1⟩) k' ∧ Stands keyOf k' p' ∧
        p'.Current keyOf ∧ p.Strung keyOf ss new p' := by
  -- the keys on record stay those of the payloads, on which the next pair relies
  induction ss generalizing k p with
  | nil => exact ⟨k, p, [], rfl, h, hcurrent, p.strung_nil⟩
  | cons s ss ih =>
    obtain ⟨k₁, hrun₁, h₁⟩ := h.tie_ok s
    have hcurrent₁ : (p.after keyOf (.connect s.source s.target s.payload)).Current keyOf :=
      hcurrent.after (by simp)
    obtain ⟨k', p', new, hrun, h', hcurrent', hstrung⟩ := ih h₁ hcurrent₁
    refine ⟨k', p', _ :: new, ?_, h', hcurrent',
      (Register.strung_connect hcurrent s).cons hcurrent₁ hcurrent' hstrung⟩
    rw [List.mapM_cons, bind_ok hrun₁, bind_ok hrun]
    rfl

theorem Made.strung (h : Made keyOf k) {edits : List (Edit V E)}
    (hkeeps : k.KeepsKeys keyOf edits) (ss : List (Strand V E)) :
    ∃ es k', ss.mapM Strand.tie (k.applyAll edits) = .ok es k' ∧
      (k.applyAll edits).Strung keyOf ss es k' := by
  obtain ⟨p, hp, hcurrent⟩ := h.stands_current hkeeps
  obtain ⟨k', p', new, hrun, h', hcurrent', hstrung⟩ := hp.mapM_tie_ok hcurrent ss
  exact ⟨_, k', hrun, hp.strung h' hcurrent' hstrung⟩

end KeyedGraph

namespace KeyedGraph

variable {V E K : Type} [DecidableEq K]

/-- Every stream of pairs goes through on a keyed graph whose changed payloads kept their keys. -/
theorem strung_applyAll (keyOf : V → K) (edits : List (Edit V E)) (ss : List (Strand V E)) :
    (∀ [BEq K] [LawfulBEq K] [Hashable K] [Footprint K] {k : KeyedGraph V E K (HashedIndex K)},
      Made keyOf k → k.KeepsKeys keyOf edits → ∃ es k',
        ss.mapM Strand.tie (k.applyAll edits) = .ok es k' ∧
          (k.applyAll edits).Strung keyOf ss es k') ∧
    ∀ [Ord K] [Std.TransOrd K] [Std.LawfulEqOrd K] {k : KeyedGraph V E K (OrderedIndex K)},
      Made keyOf k → k.KeepsKeys keyOf edits → ∃ es k',
        ss.mapM Strand.tie (k.applyAll edits) = .ok es k' ∧
          (k.applyAll edits).Strung keyOf ss es k' :=
  ⟨fun hmade hkeeps => hmade.strung hkeeps ss, fun hmade hkeeps => hmade.strung hkeeps ss⟩

def freedSlot : List (Edit (Nat × Nat) Nat) :=
  [.insertVertex (1, 10), .insertVertex (2, 20), .removeVertex ⟨⟨0, 0⟩⟩,
    .modifyVertex ⟨⟨1, 0⟩⟩ fun x => (x.1, x.2 + 1)]

def recurringKeys : List (Strand (Nat × Nat) Nat) :=
  [⟨(3, 30), (3, 31), 1⟩, ⟨(2, 22), (1, 11), 2⟩, ⟨(1, 12), (3, 32), 3⟩, ⟨(4, 40), (2, 23), 4⟩]

theorem strung_applyAll_recurringKeys :
    KeepsKeys Prod.fst (withIndex Prod.fst ({} : HashedIndex Nat)) freedSlot ∧
      KeepsKeys Prod.fst (withIndex Prod.fst ({} : OrderedIndex Nat)) freedSlot ∧
      firsts Prod.fst [2] (recurringKeys.flatMap Strand.ends) = [(3, 30), (1, 11), (4, 40)] ∧
      (∃ es k', recurringKeys.mapM Strand.tie
          (applyAll (withIndex Prod.fst ({} : HashedIndex Nat)) freedSlot) = .ok es k' ∧
        Strung Prod.fst (applyAll (withIndex Prod.fst ({} : HashedIndex Nat)) freedSlot)
          recurringKeys es k') ∧
      ∃ es k', recurringKeys.mapM Strand.tie
          (applyAll (withIndex Prod.fst ({} : OrderedIndex Nat)) freedSlot) = .ok es k' ∧
        Strung Prod.fst (applyAll (withIndex Prod.fst ({} : OrderedIndex Nat)) freedSlot)
          recurringKeys es k' := by
  have hhashed : KeepsKeys Prod.fst (withIndex Prod.fst ({} : HashedIndex Nat)) freedSlot :=
    ⟨trivial, trivial, trivial, fun _ _ => rfl, trivial⟩
  have hordered : KeepsKeys Prod.fst (withIndex Prod.fst ({} : OrderedIndex Nat)) freedSlot :=
    ⟨trivial, trivial, trivial, fun _ _ => rfl, trivial⟩
  obtain ⟨hhash, hord⟩ :=
    strung_applyAll (Prod.fst : Nat × Nat → Nat) freedSlot recurringKeys
  exact ⟨hhashed, hordered, by decide, hhash (.withIndex {}) hhashed,
    hord (.withIndex {}) hordered⟩

end KeyedGraph

end SlotGraph

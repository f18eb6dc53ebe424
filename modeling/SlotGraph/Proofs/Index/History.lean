import Mathlib.Data.List.DropRight
import SlotGraph.Proofs.Index.Entries
set_option autoImplicit false

/-!
Histories of an index. Two indexes that look up the same entries answer every edit alike and go on
to look up the same entries, also when a key or a vertex is entered twice. While none is, an index
holds the pairs that were entered since the last clearing and have not been erased.
-/

namespace SlotGraph

namespace KeyIndex

variable {I J K : Type} [KeyIndex I K] [KeyIndex J K]

def run (index : I) : List (Edit K) → List (Option K) × I
  | [] => ([], index)
  | edit :: edits =>
    let (answer, next) := edit.apply index
    let (answers, last) := run next edits
    (answer :: answers, last)

theorem run_append (index : I) (edits later : List (Edit K)) :
    run index (edits ++ later) =
      ((run index edits).1 ++ (run (run index edits).2 later).1,
        (run (run index edits).2 later).2) := by
  induction edits generalizing index with
  | nil => rfl
  | cons edit edits ih => simp [run, ih]

theorem run_concat (index : I) (edits : List (Edit K)) (edit : Edit K) :
    run index (edits ++ [edit]) =
      ((run index edits).1 ++ [(edit.apply (run index edits).2).1],
        (edit.apply (run index edits).2).2) := by
  rw [run_append]
  rfl

theorem length_answers (index : I) (edits : List (Edit K)) :
    (run index edits).1.length = edits.length := by
  induction edits generalizing index with
  | nil => rfl
  | cons edit edits ih => simp [run, ih]

def Fresh (index : I) : Prop :=
  index = empty ∨ ∃ n, withRoom n = .ok index

/-- Both directions look up the same entries. -/
structure Alike (index : I) (index' : J) : Prop where
  vertex? (key : K) : vertex? index key = vertex? index' key
  key? (v : VertexId) : key? index v = key? index' v

section

variable [DecidableEq K] [LawfulKeyIndex I] [LawfulKeyIndex J] {index : I} {index' : J}

theorem alike_empty : Alike (empty : I) (empty : J) where
  vertex? key := by rw [LawfulKeyIndex.vertex?_empty, LawfulKeyIndex.vertex?_empty]
  key? v := by rw [LawfulKeyIndex.key?_empty, LawfulKeyIndex.key?_empty]

theorem Alike.insert (h : Alike index index') (key : K) (v : VertexId) :
    Alike (KeyIndex.insert index key v) (KeyIndex.insert index' key v) where
  vertex? key' := by simp [LawfulKeyIndex.vertex?_insert, h.vertex?]
  key? w := by simp [LawfulKeyIndex.key?_insert, h.key?]

theorem Alike.eraseVertex (h : Alike index index') (v : VertexId) :
    Alike (KeyIndex.eraseVertex index v).2 (KeyIndex.eraseVertex index' v).2 where
  vertex? key' := by
    cases hkey : KeyIndex.key? index' v with
    | none =>
      rw [LawfulKeyIndex.eraseVertex_none (h.key? v ▸ hkey), LawfulKeyIndex.eraseVertex_none hkey]
      exact h.vertex? key'
    | some key =>
      rw [LawfulKeyIndex.vertex?_eraseVertex (h.key? v ▸ hkey),
        LawfulKeyIndex.vertex?_eraseVertex hkey, h.vertex?]
  key? w := by simp [LawfulKeyIndex.key?_eraseVertex, h.key?]

theorem Alike.apply (h : Alike index index') (edit : Edit K) :
    (edit.apply index).1 = (edit.apply index').1 ∧
      Alike (edit.apply index).2 (edit.apply index').2 := by
  cases edit with
  | insert key v => exact ⟨rfl, h.insert key v⟩
  | eraseVertex v =>
    refine ⟨?_, h.eraseVertex v⟩
    show (KeyIndex.eraseVertex index v).1 = (KeyIndex.eraseVertex index' v).1
    rw [LawfulKeyIndex.eraseVertex_fst, LawfulKeyIndex.eraseVertex_fst, h.key?]
  | clear => exact ⟨rfl, alike_empty⟩

theorem Alike.run (h : Alike index index') (edits : List (Edit K)) :
    (run index edits).1 = (run index' edits).1 ∧
      Alike (run index edits).2 (run index' edits).2 := by
  induction edits generalizing index index' with
  | nil => exact ⟨rfl, h⟩
  | cons edit edits ih =>
    obtain ⟨hanswer, hnext⟩ := h.apply edit
    obtain ⟨hanswers, hlast⟩ := ih hnext
    exact ⟨congrArg₂ List.cons hanswer hanswers, hlast⟩

end

/-- The list has, once each, the keys that are looked up, and the index counts them. -/
structure Lists (index : I) (listing : List (K × VertexId)) : Prop where
  nodup : (listing.map Prod.fst).Nodup
  mem (key : K) (v : VertexId) : (key, v) ∈ listing ↔ vertex? index key = some v
  size : size index = listing.length

theorem Alike.size_eq {index : I} {index' : J} {listing listing' : List (K × VertexId)}
    (h : Alike index index') (hlists : Lists index listing) (hlists' : Lists index' listing') :
    size index = size index' := by
  have hperm : listing.Perm listing' := by
    refine (List.perm_ext_iff_of_nodup hlists.nodup.of_map hlists'.nodup.of_map).mpr fun p => ?_
    rw [hlists.mem, hlists'.mem, h.vertex?]
  rw [hlists.size, hlists'.size, hperm.length_eq]

/-- The same answers to the edits, and the same answers to every question after them. -/
structure Agree (index : I) (index' : J) (edits : List (Edit K)) : Prop where
  answers : (run index edits).1 = (run index' edits).1
  vertex? (key : K) : vertex? (run index edits).2 key = vertex? (run index' edits).2 key
  key? (v : VertexId) : key? (run index edits).2 v = key? (run index' edits).2 v
  size : size (run index edits).2 = size (run index' edits).2
  isEmpty : isEmpty (run index edits).2 = isEmpty (run index' edits).2

def Edit.isInsert : Edit K → Bool
  | .insert _ _ => true
  | _ => false

def Edit.isClear : Edit K → Bool
  | .clear => true
  | _ => false

def Edit.enter (entries : List (VertexId × K)) : Edit K → List (VertexId × K)
  | .insert key v => entries ++ [(v, key)]
  | .eraseVertex v => entries.filter fun p => p.1 != v
  | .clear => []

def Edit.Fits (entries : List (VertexId × K)) : Edit K → Prop
  | .insert key v => v ∉ entries.map Prod.fst ∧ key ∉ entries.map Prod.snd
  | _ => True

/-- No edit of the history enters a vertex or a key that has an entry by then. -/
def Fit : List (VertexId × K) → List (Edit K) → Prop
  | _, [] => True
  | entries, edit :: edits => edit.Fits entries ∧ Fit (edit.enter entries) edits

theorem fit_concat {entries : List (VertexId × K)} {edits : List (Edit K)} {edit : Edit K} :
    Fit entries (edits ++ [edit]) ↔
      Fit entries edits ∧ edit.Fits (edits.foldl Edit.enter entries) := by
  induction edits generalizing entries with
  | nil => simp [Fit]
  | cons first edits ih => simp [Fit, ih, and_assoc]

/-- The directions are inverse to each other, and erasing a vertex answers with its key and takes
out the one pair. -/
structure Exact (index : I) : Prop where
  inverse (key : K) (v : VertexId) : vertex? index key = some v ↔ key? index v = some key
  answer (v : VertexId) : (eraseVertex index v).1 = key? index v
  vertex?_erased {v : VertexId} {key : K} : key? index v = some key →
    ∀ (key' : K) (w : VertexId), vertex? (eraseVertex index v).2 key' = some w ↔
      vertex? index key' = some w ∧ key' ≠ key
  key?_erased {v : VertexId} {key : K} : key? index v = some key →
    ∀ (w : VertexId) (key' : K), key? (eraseVertex index v).2 w = some key' ↔
      key? index w = some key' ∧ w ≠ v
  size_erased {v : VertexId} {key : K} : key? index v = some key →
    size (eraseVertex index v).2 + 1 = size index
  absent {v : VertexId} : key? index v = none → (eraseVertex index v).2 = index

/-- The edits since the last clearing, each with its answer. -/
def recent (index : I) (edits : List (Edit K)) : List (Edit K × Option K) :=
  (edits.zip (run index edits).1).rtakeWhile fun p => !p.1.isClear

/-- There are as many entries as insertions since the last clearing, less the erasures since then
that found their vertex. -/
def Balanced (index : I) (edits : List (Edit K)) : Prop :=
  size (run index edits).2 + (recent index edits).countP (·.2.isSome) =
    (recent index edits).countP (·.1.isInsert)

theorem recent_concat (index : I) (edits : List (Edit K)) (edit : Edit K) :
    recent index (edits ++ [edit]) =
      if edit.isClear then []
      else recent index edits ++ [(edit, (edit.apply (run index edits).2).1)] := by
  unfold recent
  rw [run_concat, List.zip_append (length_answers index edits).symm, List.zip_cons_cons,
    List.zip_nil_left, List.rtakeWhile_concat]
  cases edit.isClear <;> rfl

section

variable [DecidableEq K] [LawfulKeyIndex I] {index : I} {entries : List (VertexId × K)}

theorem Enters.apply (h : Enters index entries) {edit : Edit K} (hfits : edit.Fits entries) :
    Enters (edit.apply index).2 (edit.enter entries) := by
  cases edit with
  | insert key v => exact h.insert hfits.1 hfits.2
  | eraseVertex v =>
    show Enters (KeyIndex.eraseVertex index v).2 (entries.filter fun p => p.1 != v)
    by_cases hv : v ∈ entries.map Prod.fst
    · obtain ⟨⟨w, key⟩, hmem, rfl⟩ := List.mem_map.mp hv
      exact h.eraseVertex hmem
    · have hall : ∀ p ∈ entries, (p.1 != v) = true := by
        intro p hp
        have hne : p.1 ≠ v := fun heq => hv (heq ▸ List.mem_map_of_mem hp)
        simpa using hne
      rw [LawfulKeyIndex.eraseVertex_none (h.key?_eq_none.mpr hv), List.filter_eq_self.mpr hall]
      exact h
  | clear => exact enters_empty

theorem Enters.run (h : Enters index entries) {edits : List (Edit K)} (hfit : Fit entries edits) :
    Enters (run index edits).2 (edits.foldl Edit.enter entries) := by
  induction edits generalizing index entries with
  | nil => exact h
  | cons edit edits ih => exact ih (h.apply hfit.1) hfit.2

theorem Enters.exact (h : Enters index entries) : Exact index where
  inverse key v := by rw [h.vertex?, h.key?]
  answer v := LawfulKeyIndex.eraseVertex_fst index v
  vertex?_erased {v key} hkey key' w := by
    rw [LawfulKeyIndex.vertex?_eraseVertex hkey]
    by_cases hk : key = key'
    · simp [hk]
    · simp [hk, Ne.symm hk]
  key?_erased {v key} hkey w key' := by
    rw [LawfulKeyIndex.key?_eraseVertex]
    by_cases hw : v = w
    · simp [hw]
    · simp [hw, Ne.symm hw]
  size_erased {v key} hkey := by
    have hmem := (h.key? v key).mp hkey
    have hpos : 0 < entries.length := List.length_pos_of_mem hmem
    rw [LawfulKeyIndex.size_eraseVertex hkey ((h.vertex? key v).mpr hmem), h.size]
    omega
  absent hnone := by rw [LawfulKeyIndex.eraseVertex_none hnone]

theorem Enters.size_apply (h : Enters index entries) {edit : Edit K} (hfits : edit.Fits entries)
    (hclear : edit.isClear = false) :
    KeyIndex.size (edit.apply index).2 + (edit.apply index).1.isSome.toNat =
      KeyIndex.size index + edit.isInsert.toNat := by
  cases edit with
  | insert key v =>
    show KeyIndex.size (KeyIndex.insert index key v) = KeyIndex.size index + 1
    rw [(h.insert hfits.1 hfits.2).size, h.size, List.length_append, List.length_singleton]
  | eraseVertex v =>
    show KeyIndex.size (KeyIndex.eraseVertex index v).2 +
      (KeyIndex.eraseVertex index v).1.isSome.toNat = KeyIndex.size index + 0
    rw [h.exact.answer]
    cases hkey : KeyIndex.key? index v with
    | none =>
      rw [h.exact.absent hkey]
      rfl
    | some key => exact h.exact.size_erased hkey
  | clear => cases hclear

theorem balanced (edits : List (Edit K)) (hfit : Fit [] edits) :
    Balanced (empty : I) edits := by
  induction edits using List.reverseRecOn with
  | nil => exact LawfulKeyIndex.size_empty
  | append_singleton edits edit ih =>
    obtain ⟨hedits, hfits⟩ := fit_concat.mp hfit
    have hbefore := ih hedits
    unfold Balanced at hbefore ⊢
    rw [recent_concat, run_concat]
    cases hclear : edit.isClear with
    | true =>
      cases edit with
      | clear => exact LawfulKeyIndex.size_empty
      | insert | eraseVertex => cases hclear
    | false =>
      have henters : Enters (empty : I) [] := enters_empty
      have hstep := (henters.run hedits).size_apply hfits hclear
      have hcount : ∀ b : Bool, (if b = true then 1 else 0) = b.toNat := by decide
      simp only [Bool.false_eq_true, if_false, List.countP_append, List.countP_singleton, hcount]
      omega

end

end KeyIndex

namespace HashedIndex

variable {K : Type} [BEq K] [Hashable K] [Footprint K]

theorem lists [LawfulBEq K] (index : HashedIndex K) : KeyIndex.Lists index index.vertexOf.toList where
  nodup := by
    rw [List.Nodup, List.pairwise_map]
    exact index.vertexOf.distinct_keys_toList.imp fun hne heq => by simp [heq] at hne
  mem key v := Std.HashMap.mem_toList_iff_getElem?_eq_some
  size := Std.HashMap.length_toList.symm

theorem fresh_eq {index : HashedIndex K} (h : KeyIndex.Fresh index) : index = KeyIndex.empty := by
  obtain rfl | ⟨n, hroom⟩ := h
  · rfl
  · change withRoom n = .ok index at hroom
    unfold withRoom Room.check at hroom
    dsimp only at hroom
    split at hroom
    · exact (Except.ok.inj hroom).symm
    · cases hroom

end HashedIndex

namespace OrderedIndex

variable {K : Type} [Ord K]

theorem fresh_eq {index : OrderedIndex K} (h : KeyIndex.Fresh index) : index = KeyIndex.empty := by
  obtain rfl | ⟨n, hroom⟩ := h
  · rfl
  · cases hroom
    rfl

variable [Std.TransOrd K]

theorem ascending_toList (index : OrderedIndex K) :
    index.toList.Pairwise fun p q => compare p.1 q.1 = .lt :=
  Std.TreeMap.ordered_keys_toList

variable [Std.LawfulEqOrd K]

theorem lists_toList (index : OrderedIndex K) : KeyIndex.Lists index index.toList where
  nodup := by
    rw [List.Nodup, List.pairwise_map]
    exact index.vertexOf.distinct_keys_toList.imp fun hne heq => by simp [heq] at hne
  mem key v := Std.TreeMap.mem_toList_iff_getElem?_eq_some
  size := Std.TreeMap.length_toList.symm

end OrderedIndex

namespace KeyIndex

variable {K : Type} [DecidableEq K] [Ord K] [Std.TransOrd K] [Std.LawfulEqOrd K] [BEq K]
  [LawfulBEq K] [Hashable K] [Footprint K]

/-- After any history, also one that enters keys and vertices twice, the indexes by order and by
hash answer alike and the first lists in ascending order what it looks up. After a history that
enters none twice each is exact, and counts what was entered and not erased since the last
clearing. -/
theorem histories_agree {ordered : OrderedIndex K} {hashed : HashedIndex K}
    (hordered : Fresh ordered) (hhashed : Fresh hashed) (edits : List (Edit K)) :
    Agree ordered hashed edits ∧
      (Lists (run ordered edits).2 (run ordered edits).2.toList ∧
        (run ordered edits).2.toList.Pairwise fun p q => compare p.1 q.1 = .lt) ∧
      (Fit [] edits →
        (Exact (run ordered edits).2 ∧ Balanced ordered edits) ∧
          Exact (run hashed edits).2 ∧ Balanced hashed edits) := by
  obtain rfl := OrderedIndex.fresh_eq hordered
  obtain rfl := HashedIndex.fresh_eq hhashed
  obtain ⟨hanswers, halike⟩ :=
    (alike_empty : Alike (empty : OrderedIndex K) (empty : HashedIndex K)).run edits
  have hlists := OrderedIndex.lists_toList (run (empty : OrderedIndex K) edits).2
  have hsize := halike.size_eq hlists (HashedIndex.lists _)
  refine ⟨⟨hanswers, halike.vertex?, halike.key?, hsize, by rw [isEmpty, isEmpty, hsize]⟩,
    ⟨hlists, OrderedIndex.ascending_toList _⟩, fun hfit => ?_⟩
  exact ⟨⟨(enters_empty.run hfit).exact, balanced edits hfit⟩,
    (enters_empty.run hfit).exact, balanced edits hfit⟩

def returningKeys : List (Edit Nat) :=
  [.insert 3 ⟨⟨0, 0⟩⟩, .clear, .insert 7 ⟨⟨1, 0⟩⟩, .insert 3 ⟨⟨0, 0⟩⟩, .eraseVertex ⟨⟨1, 0⟩⟩,
    .eraseVertex ⟨⟨1, 0⟩⟩, .insert 7 ⟨⟨0, 1⟩⟩]

theorem histories_agree_returningKeys :
    Fresh ({} : OrderedIndex Nat) ∧ withRoom 4 = .ok ({} : HashedIndex Nat) ∧ Fit [] returningKeys ∧
      Agree ({} : OrderedIndex Nat) ({} : HashedIndex Nat) returningKeys ∧
      Balanced ({} : OrderedIndex Nat) returningKeys ∧
      Balanced ({} : HashedIndex Nat) returningKeys := by
  have hroom : withRoom 4 = .ok ({} : HashedIndex Nat) := by
    have hbuckets : (8 * 4 / 7).nextPowerOfTwo = 4 := by decide +kernel
    show HashedIndex.withRoom 4 = _
    rw [HashedIndex.withRoom, hbuckets]
    rfl
  have hfit : Fit [] returningKeys := by simp [returningKeys, Fit, Edit.Fits, Edit.enter]
  obtain ⟨hagree, -, hexact⟩ :=
    histories_agree (.inl rfl) (.inr ⟨4, hroom⟩) returningKeys
  obtain ⟨⟨-, hordered⟩, -, hhashed⟩ := hexact hfit
  exact ⟨.inl rfl, hroom, hfit, hagree, hordered, hhashed⟩

example : (run ({} : OrderedIndex Nat) returningKeys).1 =
    [none, none, none, none, some 7, none, none] := by decide

end KeyIndex

end SlotGraph

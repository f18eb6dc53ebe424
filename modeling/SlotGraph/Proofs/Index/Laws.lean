import SlotGraph.Index.Hashed
import SlotGraph.Index.Ordered
set_option autoImplicit false

namespace SlotGraph

open KeyIndex (vertex? key? size)

class LawfulKeyIndex (I : Type) {K : outParam Type} [KeyIndex I K] [DecidableEq K] : Prop where
  vertex?_empty (key : K) : vertex? (KeyIndex.empty : I) key = none
  key?_empty (v : VertexId) : key? (KeyIndex.empty : I) v = none
  size_empty : size (KeyIndex.empty : I) = 0
  vertex?_insert (index : I) (key : K) (v : VertexId) (key' : K) :
    vertex? (KeyIndex.insert index key v) key' = if key = key' then some v else vertex? index key'
  key?_insert (index : I) (key : K) (v w : VertexId) :
    key? (KeyIndex.insert index key v) w = if v = w then some key else key? index w
  size_insert {index : I} {key : K} (v : VertexId) : vertex? index key = none →
    size (KeyIndex.insert index key v) = size index + 1
  eraseVertex_none {index : I} {v : VertexId} : key? index v = none →
    KeyIndex.eraseVertex index v = (none, index)
  eraseVertex_fst (index : I) (v : VertexId) : (KeyIndex.eraseVertex index v).1 = key? index v
  vertex?_eraseVertex {index : I} {v : VertexId} {key : K} : key? index v = some key → ∀ key',
    vertex? (KeyIndex.eraseVertex index v).2 key' =
      if key = key' then none else vertex? index key'
  key?_eraseVertex (index : I) (v w : VertexId) :
    key? (KeyIndex.eraseVertex index v).2 w = if v = w then none else key? index w
  size_eraseVertex {index : I} {v w : VertexId} {key : K} : key? index v = some key →
    vertex? index key = some w → size (KeyIndex.eraseVertex index v).2 = size index - 1

namespace HashedIndex

variable {K : Type} [BEq K] [Hashable K]

theorem eraseVertex_none {index : HashedIndex K} {v : VertexId} (h : index.keyOf[v]? = none) :
    index.eraseVertex v = (none, index) := by
  simp [eraseVertex, h]

theorem eraseVertex_some {index : HashedIndex K} {v : VertexId} {key : K}
    (h : index.keyOf[v]? = some key) :
    index.eraseVertex v = (some key, ⟨index.vertexOf.erase key, index.keyOf.erase v⟩) := by
  simp [eraseVertex, h]

instance [LawfulBEq K] [DecidableEq K] [Footprint K] : LawfulKeyIndex (HashedIndex K) where
  vertex?_empty key := Std.HashMap.getElem?_empty
  key?_empty v := Std.HashMap.getElem?_empty
  size_empty := Std.HashMap.size_empty
  vertex?_insert index key v key' := by
    show (index.vertexOf.insert key v)[key']? = if key = key' then some v else index.vertexOf[key']?
    simp [Std.HashMap.getElem?_insert]
  key?_insert index key v w := by
    show (index.keyOf.insert v key)[w]? = if v = w then some key else index.keyOf[w]?
    simp [Std.HashMap.getElem?_insert]
  size_insert {index key} v hnone := by
    have hmem : key ∉ index.vertexOf := by
      rw [Std.HashMap.mem_iff_isSome_getElem?, show index.vertexOf[key]? = none from hnone]
      simp
    show (index.vertexOf.insert key v).size = index.vertexOf.size + 1
    rw [Std.HashMap.size_insert, if_neg hmem]
  eraseVertex_none hnone := eraseVertex_none hnone
  eraseVertex_fst index v := by
    show (index.eraseVertex v).1 = index.keyOf[v]?
    cases hkey : index.keyOf[v]? with
    | none => rw [eraseVertex_none hkey]
    | some key => rw [eraseVertex_some hkey]
  vertex?_eraseVertex {index v key} hkey key' := by
    show (index.eraseVertex v).2.vertexOf[key']? =
      if key = key' then none else index.vertexOf[key']?
    simp [eraseVertex_some hkey, Std.HashMap.getElem?_erase]
  key?_eraseVertex index v w := by
    show (index.eraseVertex v).2.keyOf[w]? = if v = w then none else index.keyOf[w]?
    cases hkey : index.keyOf[v]? with
    | none =>
      rw [eraseVertex_none hkey]
      by_cases hw : v = w
      · subst hw
        simp [hkey]
      · simp [hw]
    | some key => simp [eraseVertex_some hkey, Std.HashMap.getElem?_erase]
  size_eraseVertex {index v w key} hkey hvertex := by
    have hmem : key ∈ index.vertexOf := by
      rw [Std.HashMap.mem_iff_isSome_getElem?, show index.vertexOf[key]? = some w from hvertex]
      rfl
    show (index.eraseVertex v).2.vertexOf.size = index.vertexOf.size - 1
    rw [eraseVertex_some hkey, Std.HashMap.size_erase, if_pos hmem]

end HashedIndex

instance : Std.TransOrd SlotId :=
  inferInstanceAs
    (Std.TransCmp (compareLex (compareOn SlotId.index) (compareOn SlotId.generation)))

instance : Std.LawfulEqOrd SlotId where
  eq_of_compare {a b} h := by
    obtain ⟨i, p⟩ := a
    obtain ⟨j, q⟩ := b
    obtain ⟨hindex, hgeneration⟩ := compareLex_eq_eq.mp h
    have hi : i = j := Std.LawfulEqOrd.eq_of_compare hindex
    have hp : p = q := Std.LawfulEqOrd.eq_of_compare hgeneration
    rw [hi, hp]

instance : Std.TransOrd VertexId := inferInstanceAs (Std.TransCmp (compareOn VertexId.slot))

instance : Std.LawfulEqOrd VertexId where
  eq_of_compare {a b} h := by
    obtain ⟨i⟩ := a
    obtain ⟨j⟩ := b
    have hi : i = j := Std.LawfulEqOrd.eq_of_compare h
    rw [hi]

namespace OrderedIndex

variable {K : Type} [Ord K]

theorem eraseVertex_none {index : OrderedIndex K} {v : VertexId} (h : index.keyOf[v]? = none) :
    index.eraseVertex v = (none, index) := by
  simp [eraseVertex, h]

theorem eraseVertex_some {index : OrderedIndex K} {v : VertexId} {key : K}
    (h : index.keyOf[v]? = some key) :
    index.eraseVertex v = (some key, ⟨index.vertexOf.erase key, index.keyOf.erase v⟩) := by
  simp [eraseVertex, h]

instance [Std.TransOrd K] [Std.LawfulEqOrd K] [DecidableEq K] :
    LawfulKeyIndex (OrderedIndex K) where
  vertex?_empty key := Std.TreeMap.getElem?_emptyc
  key?_empty v := Std.TreeMap.getElem?_emptyc
  size_empty := Std.TreeMap.size_emptyc
  vertex?_insert index key v key' := by
    show (index.vertexOf.insert key v)[key']? = if key = key' then some v else index.vertexOf[key']?
    simp [Std.TreeMap.getElem?_insert]
  key?_insert index key v w := by
    show (index.keyOf.insert v key)[w]? = if v = w then some key else index.keyOf[w]?
    simp [Std.TreeMap.getElem?_insert]
  size_insert {index key} v hnone := by
    show (index.vertexOf.insert key v).size = index.vertexOf.size + 1
    rw [Std.TreeMap.size_insert, Std.TreeMap.contains_eq_isSome_getElem?,
      show index.vertexOf[key]? = none from hnone]
    rfl
  eraseVertex_none hnone := eraseVertex_none hnone
  eraseVertex_fst index v := by
    show (index.eraseVertex v).1 = index.keyOf[v]?
    cases hkey : index.keyOf[v]? with
    | none => rw [eraseVertex_none hkey]
    | some key => rw [eraseVertex_some hkey]
  vertex?_eraseVertex {index v key} hkey key' := by
    show (index.eraseVertex v).2.vertexOf[key']? =
      if key = key' then none else index.vertexOf[key']?
    simp [eraseVertex_some hkey, Std.TreeMap.getElem?_erase]
  key?_eraseVertex index v w := by
    show (index.eraseVertex v).2.keyOf[w]? = if v = w then none else index.keyOf[w]?
    cases hkey : index.keyOf[v]? with
    | none =>
      rw [eraseVertex_none hkey]
      by_cases hw : v = w
      · subst hw
        simp [hkey]
      · simp [hw]
    | some key => simp [eraseVertex_some hkey, Std.TreeMap.getElem?_erase]
  size_eraseVertex {index v w key} hkey hvertex := by
    show (index.eraseVertex v).2.vertexOf.size = index.vertexOf.size - 1
    rw [eraseVertex_some hkey, Std.TreeMap.size_erase, Std.TreeMap.contains_eq_isSome_getElem?,
      show index.vertexOf[key]? = some w from hvertex]
    rfl

end OrderedIndex

end SlotGraph

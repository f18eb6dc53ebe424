import SlotGraph.Proofs.Index.Laws
import SlotGraph.Proofs.Lists
set_option autoImplicit false

namespace SlotGraph.KeyIndex

variable {I K : Type} [KeyIndex I K]

/-- Both directions of the index look up the listed entries, of which no two share a vertex or a
key. -/
structure Enters (index : I) (entries : List (VertexId × K)) : Prop where
  nodupVertices : (entries.map Prod.fst).Nodup
  nodupKeys : (entries.map Prod.snd).Nodup
  vertex? (key : K) (v : VertexId) : vertex? index key = some v ↔ (v, key) ∈ entries
  key? (v : VertexId) (key : K) : key? index v = some key ↔ (v, key) ∈ entries
  size : size index = entries.length

section

variable {index : I} {entries : List (VertexId × K)}

theorem Enters.vertex_eq (h : Enters index entries) {v w : VertexId} {key : K}
    (hv : (v, key) ∈ entries) (hw : (w, key) ∈ entries) : v = w :=
  (Prod.mk.inj (List.inj_on_of_nodup_map h.nodupKeys hv hw rfl)).1

theorem Enters.key_eq (h : Enters index entries) {v : VertexId} {key key' : K}
    (hkey : (v, key) ∈ entries) (hkey' : (v, key') ∈ entries) : key = key' :=
  (Prod.mk.inj (List.inj_on_of_nodup_map h.nodupVertices hkey hkey' rfl)).2

theorem Enters.vertex_eq_iff (h : Enters index entries) {v w : VertexId} {key key' : K}
    (hv : (v, key) ∈ entries) (hw : (w, key') ∈ entries) : v = w ↔ key = key' := by
  constructor
  · intro heq
    subst heq
    exact h.key_eq hv hw
  · intro heq
    subst heq
    exact h.vertex_eq hv hw

theorem Enters.vertex?_eq_none (h : Enters index entries) {key : K} :
    KeyIndex.vertex? index key = none ↔ key ∉ entries.map Prod.snd := by
  rw [Option.eq_none_iff_forall_ne_some]
  constructor
  · intro hnone hmem
    obtain ⟨p, hp, rfl⟩ := List.mem_map.mp hmem
    exact hnone p.1 ((h.vertex? p.2 p.1).mpr hp)
  · intro hnot v hv
    exact hnot (List.mem_map_of_mem ((h.vertex? key v).mp hv))

theorem Enters.key?_eq_none (h : Enters index entries) {v : VertexId} :
    KeyIndex.key? index v = none ↔ v ∉ entries.map Prod.fst := by
  rw [Option.eq_none_iff_forall_ne_some]
  constructor
  · intro hnone hmem
    obtain ⟨p, hp, rfl⟩ := List.mem_map.mp hmem
    exact hnone p.2 ((h.key? p.1 p.2).mpr hp)
  · intro hnot key hkey
    exact hnot (List.mem_map_of_mem ((h.key? v key).mp hkey))

theorem Enters.key?_eq_find? (h : Enters index entries) (v : VertexId) :
    KeyIndex.key? index v = (entries.find? fun p => p.1 == v).map Prod.snd := by
  refine Option.ext fun key => ?_
  rw [h.key?, find?_fst_eq_some h.nodupVertices]

variable [DecidableEq K]

theorem Enters.vertex?_eq_find? (h : Enters index entries) (key : K) :
    KeyIndex.vertex? index key = (entries.find? fun p => p.2 == key).map Prod.fst := by
  refine Option.ext fun v => ?_
  rw [h.vertex?, find?_snd_eq_some h.nodupKeys]

variable [LawfulKeyIndex I]

theorem enters_empty : Enters (KeyIndex.empty : I) [] where
  nodupVertices := List.nodup_nil
  nodupKeys := List.nodup_nil
  vertex? key v := by simp [LawfulKeyIndex.vertex?_empty]
  key? v key := by simp [LawfulKeyIndex.key?_empty]
  size := LawfulKeyIndex.size_empty

theorem Enters.insert (h : Enters index entries) {v : VertexId} {key : K}
    (hv : v ∉ entries.map Prod.fst) (hkey : key ∉ entries.map Prod.snd) :
    Enters (KeyIndex.insert index key v) (entries ++ [(v, key)]) where
  nodupVertices := by
    rw [List.map_append, List.nodup_append_comm]
    exact List.nodup_cons.mpr ⟨by simpa using hv, by simpa using h.nodupVertices⟩
  nodupKeys := by
    rw [List.map_append, List.nodup_append_comm]
    exact List.nodup_cons.mpr ⟨by simpa using hkey, by simpa using h.nodupKeys⟩
  vertex? key' w := by
    rw [LawfulKeyIndex.vertex?_insert]
    by_cases hk : key = key'
    · subst hk
      have hnot : (w, key) ∉ entries := fun hmem => hkey (List.mem_map_of_mem hmem)
      simp [hnot, eq_comm]
    · simp [hk, h.vertex?, Ne.symm hk]
  key? w key' := by
    rw [LawfulKeyIndex.key?_insert]
    by_cases hw : v = w
    · subst hw
      have hnot : (v, key') ∉ entries := fun hmem => hv (List.mem_map_of_mem hmem)
      simp [hnot, eq_comm]
    · simp [hw, h.key?, Ne.symm hw]
  size := by
    rw [LawfulKeyIndex.size_insert v (h.vertex?_eq_none.mpr hkey), h.size]
    simp

theorem Enters.eraseVertex (h : Enters index entries) {v : VertexId} {key : K}
    (hv : (v, key) ∈ entries) :
    Enters (KeyIndex.eraseVertex index v).2 (entries.filter fun p => p.1 != v) where
  nodupVertices := h.nodupVertices.sublist (List.Sublist.map _ List.filter_sublist)
  nodupKeys := h.nodupKeys.sublist (List.Sublist.map _ List.filter_sublist)
  vertex? key' w := by
    rw [LawfulKeyIndex.vertex?_eraseVertex ((h.key? v key).mpr hv), List.mem_filter]
    by_cases hk : key = key'
    · subst hk
      have hw : (w, key) ∈ entries → w = v := fun hw => h.vertex_eq hw hv
      simpa using hw
    · have hw : (w, key') ∈ entries → w ≠ v := by
        intro hw heq
        subst heq
        exact hk (h.key_eq hv hw)
      simpa [hk, h.vertex?] using hw
  key? w key' := by
    rw [LawfulKeyIndex.key?_eraseVertex, List.mem_filter]
    by_cases hw : v = w
    · simp [hw]
    · simp [hw, h.key?, Ne.symm hw]
  size := by
    rw [LawfulKeyIndex.size_eraseVertex ((h.key? v key).mpr hv) ((h.vertex? key v).mpr hv), h.size]
    obtain ⟨l, r, hsplit⟩ := List.append_of_mem hv
    have hd := h.nodupVertices
    rw [hsplit] at hd ⊢
    rw [filter_key_ne (x := (v, key)) hd]
    simp

end

end SlotGraph.KeyIndex

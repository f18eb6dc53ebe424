import Mathlib.Data.List.Basic
import SlotGraph.Json.Handle
import SlotGraph.Proofs.Json.Scan
set_option autoImplicit false

namespace SlotGraph

namespace Json

theorem natural?_toDigits (n : Nat) : natural? (Nat.toDigits 10 n) = some n := by
  have hdigits : (Nat.toDigits 10 n).all Char.isDigit = true :=
    List.all_eq_true.mpr fun _ hc => Nat.isDigit_of_mem_toDigits (by decide) (Nat.le_refl 10) hc
  rw [natural?, if_pos hdigits, ← Nat.ofDigitChars_eq_foldl, Nat.ofDigitChars_ten_toDigits]

theorem toDigits_inj {m n : Nat} : Nat.toDigits 10 m = Nat.toDigits 10 n ↔ m = n := by
  refine ⟨fun h => ?_, congrArg _⟩
  have hread := congrArg natural? h
  rw [natural?_toDigits, natural?_toDigits] at hread
  exact Option.some.inj hread

theorem handleOf?_toDigits (i g : Nat) :
    handleOf? (Nat.toDigits 10 i) (Nat.toDigits 10 g) =
      if i < UInt64.size ∧ g < UInt32.size then some ⟨i, UInt32.ofNat g⟩ else none := by
  rw [handleOf?, natural?_toDigits, natural?_toDigits]
  rfl

theorem handleOf?_index_lt {i g : List Char} {id : SlotId} (h : handleOf? i g = some id) :
    id.index < UInt64.size := by
  simp only [handleOf?, Option.bind_eq_bind, Option.bind_eq_some_iff] at h
  obtain ⟨n, -, m, -, hid⟩ := h
  split at hid
  · case isTrue hrange =>
      cases hid
      exact hrange.1
  · cases hid

theorem handle?_index_lt {v : Value} {id : SlotId} (h : handle? v = some id) :
    id.index < UInt64.size := by
  unfold handle? at h
  split at h
  · exact handleOf?_index_lt h
  · obtain ⟨members, -, h⟩ := Option.bind_eq_some_iff.mp h
    split at h
    · exact handleOf?_index_lt h
    · cases h
  · cases h

inductive Layout where
  | members
  | swapped
  | list
  deriving DecidableEq, Repr

namespace Layout

def name (s : String) : Token := .text (s.toList.map .char)

def number (n : Nat) : Token := .number (Nat.toDigits 10 n)

def tokens : Layout → Nat → Nat → List Token
  | .members, i, g =>
    [.openBrace, name "index", .colon, number i, .comma, name "generation", .colon, number g,
      .closeBrace]
  | .swapped, i, g =>
    [.openBrace, name "generation", .colon, number g, .comma, name "index", .colon, number i,
      .closeBrace]
  | .list, i, g => [.openBracket, number i, .comma, number g, .closeBracket]

def text : Layout → Nat → Nat → String
  | .members, i, g =>
    "\x7b\"index\":" ++ toString i ++ ",\"generation\":" ++ toString g ++ "\x7d"
  | .swapped, i, g =>
    "\x7b\"generation\":" ++ toString g ++ ",\"index\":" ++ toString i ++ "\x7d"
  | .list, i, g => "[" ++ toString i ++ "," ++ toString g ++ "]"

theorem spells_number (n : Nat) {c : Char} {cs : List Char} {ts : List Token}
    (hc : NumberPart.whole.next? c = none) (h : Spells (c :: cs) ts) :
    Spells (Nat.toDigits 10 n ++ c :: cs) (number n :: ts) :=
  .number n (fun _ hd => Option.some.inj hd ▸ hc) h

theorem spells_object (w w' : List Char) (hw : w.all isPlain = true)
    (hw' : w'.all isPlain = true) (m n : Nat) :
    Spells ('\x7b' :: '"' :: (w ++ '"' :: ':' :: (Nat.toDigits 10 m ++ ',' :: '"' ::
        (w' ++ '"' :: ':' :: (Nat.toDigits 10 n ++ ['\x7d'])))))
      [.openBrace, .text (w.map .char), .colon, number m, .comma, .text (w'.map .char), .colon,
        number n, .closeBrace] :=
  .mark rfl <| .name hw <| .mark rfl <| spells_number m rfl <| .mark rfl <| .name hw' <|
    .mark rfl <| spells_number n rfl <| .mark rfl .nil

theorem toList_around (a b c : String) (m n : Nat) :
    (a ++ toString m ++ b ++ toString n ++ c).toList =
      a.toList ++ (Nat.toDigits 10 m ++ (b.toList ++ (Nat.toDigits 10 n ++ c.toList))) := by
  simp only [String.toList_append, Nat.toString_eq_repr, Nat.toList_repr, List.append_assoc]

theorem spells_text (l : Layout) (i g : Nat) : Spells (l.text i g).toList (l.tokens i g) := by
  cases l with
  | members =>
    rw [show (text .members i g).toList = _ from toList_around _ _ _ i g]
    exact spells_object "index".toList "generation".toList rfl rfl i g
  | swapped =>
    rw [show (text .swapped i g).toList = _ from toList_around _ _ _ g i]
    exact spells_object "generation".toList "index".toList rfl rfl g i
  | list =>
    rw [show (text .list i g).toList = _ from toList_around _ _ _ i g]
    exact .mark rfl <| spells_number i rfl <| .mark rfl <| spells_number g rfl <| .mark rfl .nil

theorem handle?_tokens (l : Layout) (i g : Nat) :
    (valueFrom .value [] (l.tokens i g)).bind handle? =
      handleOf? (Nat.toDigits 10 i) (Nat.toDigits 10 g) := by
  cases l <;> rfl

end Layout

end Json

open Json

namespace SlotId

theorem ofJson?_of_spells (l : Layout) {s : String} {i g : Nat}
    (h : Spells s.toList (l.tokens i g)) : ofJson? s =
      if i < UInt64.size ∧ g < UInt32.size then some ⟨i, UInt32.ofNat g⟩ else none := by
  have hread : ofJson? s = (valueFrom .value [] (l.tokens i g)).bind handle? := by
    simp only [ofJson?, Value.read?, Json.tokens, h.tokensFrom, bind, Option.bind]
  rw [hread, Layout.handle?_tokens, handleOf?_toDigits]

theorem index_lt_of_ofJson? {s : String} {id : SlotId} (h : ofJson? s = some id) :
    id.index < UInt64.size := by
  obtain ⟨v, -, hv⟩ := Option.bind_eq_some_iff.mp h
  exact handle?_index_lt hv

theorem toList_toString (id : SlotId) : (toString id).toList =
    Nat.toDigits 10 id.index ++ 'v' :: Nat.toDigits 10 id.generation.toNat := by
  show (toString id.index ++ "v" ++ toString id.generation.toNat).toList = _
  simp only [String.toList_append, Nat.toString_eq_repr, Nat.toList_repr, List.append_assoc]
  rfl

/-- The letter between the numbers is no digit, so it is found again. -/
theorem toString_inj {a b : SlotId} : toString a = toString b ↔ a = b := by
  have hletter (n : Nat) : 'v' ∉ Nat.toDigits 10 n := fun h =>
    absurd (Nat.isDigit_of_mem_toDigits (by decide) (Nat.le_refl 10) h) (by decide)
  refine ⟨fun h => ?_, congrArg toString⟩
  have hlist := congrArg String.toList h
  rw [toList_toString, toList_toString,
    List.append_cons_inj_of_notMem (hletter a.index) (hletter a.generation.toNat)] at hlist
  obtain ⟨hindex, -, hgeneration⟩ := hlist
  obtain ⟨i, g⟩ := a
  obtain ⟨j, k⟩ := b
  obtain rfl : i = j := toDigits_inj.mp hindex
  obtain rfl : g = k := UInt32.toNat_inj.mp (toDigits_inj.mp hgeneration)
  rfl

end SlotId

/-- Handles of one kind that are written and read: the texts of numbers in range give the handle
with these numbers, whatever blanks stand in them, and those of other numbers are refused. -/
structure ReadsBack {α : Type} (slot : α → SlotId) (write : α → String)
    (read : String → Option α) : Prop where
  written (a : α) :
    write a = Layout.members.text (slot a).index (slot a).generation.toNat
  back (l : Layout) {a : α} : (slot a).index < UInt64.size →
    read (l.text (slot a).index (slot a).generation.toNat) = some a
  again {s : String} {a : α} : read s = some a →
    (slot a).index < UInt64.size ∧ read (write a) = some a
  texts (l : Layout) (i g : Nat) : (read (l.text i g)).map slot =
    if i < UInt64.size ∧ g < UInt32.size then some ⟨i, UInt32.ofNat g⟩ else none
  spelled (l : Layout) {s : String} {i g : Nat} : Spells s.toList (l.tokens i g) →
    (read s).map slot =
      if i < UInt64.size ∧ g < UInt32.size then some ⟨i, UInt32.ofNat g⟩ else none

theorem ReadsBack.of_slots {α : Type} {slot : α → SlotId} {write : α → String}
    {read : String → Option α} (hslot : Function.Injective slot)
    (hwrite : ∀ a, write a = (slot a).toJson)
    (hread : ∀ s, (read s).map slot = SlotId.ofJson? s) : ReadsBack slot write read := by
  have hspelled (l : Layout) {s : String} {i g : Nat} (h : Spells s.toList (l.tokens i g)) :
      (read s).map slot =
        if i < UInt64.size ∧ g < UInt32.size then some ⟨i, UInt32.ofNat g⟩ else none :=
    (hread s).trans (SlotId.ofJson?_of_spells l h)
  have hback (l : Layout) {a : α} (ha : (slot a).index < UInt64.size) :
      read (l.text (slot a).index (slot a).generation.toNat) = some a := by
    have htext := hspelled l (l.spells_text (slot a).index (slot a).generation.toNat)
    rw [if_pos ⟨ha, (slot a).generation.toNat_lt⟩, UInt32.ofNat_toNat] at htext
    obtain ⟨b, hb, heq⟩ := Option.map_eq_some_iff.mp htext
    rwa [hslot heq] at hb
  refine ⟨hwrite, hback, fun {s a} hs => ?_, fun l i g => hspelled l (l.spells_text i g), hspelled⟩
  have hid : SlotId.ofJson? s = some (slot a) := by rw [← hread, hs, Option.map_some]
  have hlt := SlotId.index_lt_of_ofJson? hid
  rw [hwrite]
  exact ⟨hlt, hback .members hlt⟩

/-- Handles are read back from what is written of them, over the whole range of both numbers, and
the displays of two handles are the same only if the handles are. -/
theorem handles_read_back :
    ReadsBack id SlotId.toJson SlotId.ofJson? ∧
    ReadsBack VertexId.slot VertexId.toJson VertexId.ofJson? ∧
    ReadsBack EdgeId.slot EdgeId.toJson EdgeId.ofJson? ∧
    ∀ a b : SlotId, toString a = toString b ↔ a = b := by
  refine ⟨.of_slots Function.injective_id (fun _ => rfl) fun s => ?_,
    .of_slots (fun _ _ h => congrArg VertexId.mk h) (fun _ => rfl) fun s => ?_,
    .of_slots (fun _ _ h => congrArg EdgeId.mk h) (fun _ => rfl) fun s => ?_,
    fun _ _ => SlotId.toString_inj⟩
  · exact congrFun Option.map_id _
  · rw [VertexId.ofJson?, Option.map_map]
    exact congrFun Option.map_id _
  · rw [EdgeId.ofJson?, Option.map_map]
    exact congrFun Option.map_id _

theorem handles_read_back_largest :
    SlotId.ofJson? (Layout.swapped.text 18446744073709551615 4294967295) =
      some ⟨18446744073709551615, 4294967295⟩ ∧
    VertexId.ofJson? (Layout.list.text 18446744073709551616 0) = none ∧
    EdgeId.ofJson? (EdgeId.toJson ⟨⟨0, 4294967295⟩⟩) = some ⟨⟨0, 4294967295⟩⟩ ∧
    toString (⟨11, 1⟩ : SlotId) ≠ toString (⟨1, 11⟩ : SlotId) := by
  obtain ⟨hslot, hvertex, hedge, hdisplay⟩ := handles_read_back
  refine ⟨?_, ?_, ?_, fun h => ?_⟩
  · exact hslot.back .swapped (a := ⟨18446744073709551615, 4294967295⟩) (by decide)
  · have hread := hvertex.texts .list 18446744073709551616 0
    rw [if_neg (by decide)] at hread
    exact Option.map_eq_none_iff.mp hread
  · have hread := hedge.back .members (a := ⟨⟨0, 4294967295⟩⟩) (by decide)
    rwa [← hedge.written] at hread
  · exact absurd ((hdisplay _ _).mp h) (by decide)

end SlotGraph

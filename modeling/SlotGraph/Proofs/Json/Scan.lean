import SlotGraph.Json.Token
set_option autoImplicit false

namespace SlotGraph.Json

open Scan (step)

def isPlain (c : Char) : Bool := c != '"' && c != '\\' && 0x20 ≤ c.toNat

/-- A text and the tokens that it spells. A blank spells none, and what follows a number does not
go on with it. -/
inductive Spells : List Char → List Token → Prop where
  | nil : Spells [] []
  | blank {c : Char} {cs : List Char} {ts : List Token} :
    Scan.idle.step c = some ([], .idle) → Spells cs ts → Spells (c :: cs) ts
  | mark {c : Char} {t : Token} {cs : List Char} {ts : List Token} :
    Scan.idle.step c = some ([t], .idle) → Spells cs ts → Spells (c :: cs) (t :: ts)
  | name {w cs : List Char} {ts : List Token} : w.all isPlain = true → Spells cs ts →
    Spells ('"' :: (w ++ '"' :: cs)) (.text (w.map .char) :: ts)
  | number (n : Nat) {cs : List Char} {ts : List Token} :
    (∀ c ∈ cs.head?, NumberPart.whole.next? c = none) → Spells cs ts →
    Spells (Nat.toDigits 10 n ++ cs) (.number (Nat.toDigits 10 n) :: ts)

theorem tokensFrom_refused {scan : Scan} {c : Char} (h : scan.step c = none) (cs : List Char) :
    tokensFrom scan (c :: cs) = none := by
  rw [tokensFrom, h]
  rfl

theorem tokensFrom_cons {scan next : Scan} {c : Char} {new : List Token}
    (h : scan.step c = some (new, next)) (cs : List Char) :
    tokensFrom scan (c :: cs) = (tokensFrom next cs).map (new ++ ·) := by
  rw [tokensFrom, h]
  cases hrest : tokensFrom next cs <;> simp [hrest, bind, Option.bind, pure]

theorem tokensFrom_quiet {scan next : Scan} {c : Char} (h : scan.step c = some ([], next))
    (cs : List Char) : tokensFrom scan (c :: cs) = tokensFrom next cs := by
  rw [tokensFrom_cons h]
  simp

theorem tokensFrom_text {w : List Char} (hw : w.all isPlain = true) (read : List Piece)
    (cs : List Char) : tokensFrom (.text read) (w ++ '"' :: cs) =
      (tokensFrom .idle cs).map (.text (read.reverse ++ w.map .char) :: ·) := by
  induction w generalizing read with
  | nil =>
    have hclose : (Scan.text read).step '"' = some ([.text read.reverse], .idle) := rfl
    rw [List.nil_append, tokensFrom_cons hclose]
    simp
  | cons c w ih =>
    obtain ⟨hc, hw⟩ : isPlain c = true ∧ w.all isPlain = true := by simpa using hw
    have hread : (Scan.text read).step c = some ([], .text (.char c :: read)) := by
      simp only [isPlain, Bool.and_eq_true, bne_iff_ne, ne_eq, decide_eq_true_eq] at hc
      obtain ⟨⟨hquote, hescape⟩, hcontrol⟩ := hc
      simp [step, hquote, hescape, Nat.not_lt.mpr hcontrol]
    rw [List.cons_append, tokensFrom_quiet hread, ih hw]
    simp

theorem tokensFrom_number_end {part : NumberPart} {read cs : List Char}
    (hpart : part.isComplete = true) (hend : ∀ c ∈ cs.head?, part.next? c = none) :
    tokensFrom (.number part read) cs =
      (tokensFrom .idle cs).map (.number read.reverse :: ·) := by
  cases cs with
  | nil => simp [tokensFrom, Scan.finish, hpart]
  | cons c cs =>
    have hcut : (Scan.number part read).step c = (Scan.number part read).cut c := by
      rw [step, hend c rfl]
    have hstep : (Scan.number part read).step c =
        (Scan.idle.step c).map fun q => (.number read.reverse :: q.1, q.2) := by
      rw [hcut, Scan.cut, Scan.finish, if_pos hpart]
      cases hidle : Scan.start c <;> simp [step, hidle]
    cases hidle : Scan.idle.step c with
    | none =>
      rw [hidle] at hstep
      rw [tokensFrom_refused hidle, tokensFrom_refused hstep]
      rfl
    | some q =>
      obtain ⟨new, next⟩ := q
      rw [hidle] at hstep
      rw [tokensFrom_cons hidle, tokensFrom_cons hstep, Option.map_map]
      rfl

theorem next?_zero_of_whole {c : Char} (h : NumberPart.whole.next? c = none) :
    NumberPart.zero.next? c = none := by
  simp only [NumberPart.next?] at h ⊢
  split at h
  · cases h
  · exact h

theorem step_whole_digit {d : Nat} (h : d < 10) (read : List Char) :
    (Scan.number .whole read).step d.digitChar =
      some ([], .number .whole (d.digitChar :: read)) := by
  have hdigit : d.digitChar.isDigit = true := by simp [Nat.isDigit_digitChar, h]
  simp [step, NumberPart.next?, hdigit]

theorem step_idle_digit {d : Nat} (h : d < 10) (hpos : 0 < d) :
    Scan.idle.step d.digitChar = some ([], .number .whole [d.digitChar]) := by
  revert d
  decide

/-- The digits of a positive number are read without a break, since the first of them is not
zero. -/
theorem tokensFrom_toDigits {n : Nat} (hn : 0 < n) (cs : List Char) :
    tokensFrom .idle (Nat.toDigits 10 n ++ cs) =
      tokensFrom (.number .whole (Nat.toDigits 10 n).reverse) cs := by
  induction n using Nat.strongRecOn generalizing cs with
  | ind n ih =>
    by_cases hsmall : n < 10
    · rw [Nat.toDigits_of_lt_base hsmall]
      exact tokensFrom_quiet (step_idle_digit hsmall hn) cs
    · have hlarge : 10 ≤ n := Nat.le_of_not_lt hsmall
      have hread := step_whole_digit (Nat.mod_lt n (by decide : 0 < 10))
        (Nat.toDigits 10 (n / 10)).reverse
      rw [Nat.toDigits_of_base_le (by decide) hlarge, List.append_assoc,
        ih (n / 10) (Nat.div_lt_self hn (by decide)) (Nat.div_pos hlarge (by decide)),
        List.singleton_append, tokensFrom_quiet hread, List.reverse_append]
      rfl

theorem tokensFrom_number (n : Nat) {cs : List Char}
    (hend : ∀ c ∈ cs.head?, NumberPart.whole.next? c = none) :
    tokensFrom .idle (Nat.toDigits 10 n ++ cs) =
      (tokensFrom .idle cs).map (.number (Nat.toDigits 10 n) :: ·) := by
  rcases Nat.eq_zero_or_pos n with rfl | hn
  · -- a zero stands alone, so what follows it is held to the narrower rule
    have hzero : Scan.idle.step '0' = some ([], .number .zero ['0']) := rfl
    show tokensFrom .idle ('0' :: cs) = _
    rw [tokensFrom_quiet hzero,
      tokensFrom_number_end rfl fun c hc => next?_zero_of_whole (hend c hc)]
    rfl
  · rw [tokensFrom_toDigits hn, tokensFrom_number_end rfl hend, List.reverse_reverse]

theorem Spells.tokensFrom {cs : List Char} {ts : List Token} (h : Spells cs ts) :
    tokensFrom .idle cs = some ts := by
  induction h with
  | nil => rfl
  | blank hstep _ ih => rw [tokensFrom_quiet hstep, ih]
  | mark hstep _ ih =>
    rw [tokensFrom_cons hstep, ih]
    rfl
  | name hw _ ih =>
    have hopen : Scan.idle.step '"' = some ([], .text []) := rfl
    rw [tokensFrom_quiet hopen, tokensFrom_text hw, ih]
    rfl
  | number n hend _ ih =>
    rw [tokensFrom_number n hend, ih]
    rfl

end SlotGraph.Json

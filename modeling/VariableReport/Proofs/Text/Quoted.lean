import VariableReport.Proofs.Number.Decimal
import VariableReport.Text.Quoted

/-!
# Spellings of quoted characters

A quoted character stands for itself, stands behind a backslash, has a letter of its own, or
is numbered (`spelled_escapeChar`). A number takes exactly the digits that its letter
announces. Whatever the case, no control character is left in a quoted text.
-/

namespace VariableReport.Quoted

variable {quote c d : Char} {width n : Nat}

theorem length_hex (hw : 0 < width) (h : n < Decimal.pow 16 width) :
    (hex width n).length = width := by
  have := Decimal.length_digits_le (by omega) hw h
  unfold hex
  rw [List.length_append, List.length_replicate]
  omega

theorem value_hex (width n : Nat) : Decimal.value 16 (hex width n) = n := by
  have hzero : ∀ k, Decimal.value 16 (List.replicate k '0') = 0 := by
    intro k
    induction k with
    | zero => rfl
    | succ k ih =>
      rw [List.replicate_succ', Decimal.value_append, ih]
      rfl
  unfold hex
  rw [Decimal.value_append, hzero, Decimal.value_digits (by omega) (by omega), Nat.zero_mul,
    Nat.zero_add]

theorem mem_hex (h : c ∈ hex width n) : ∃ d < 16, c = Decimal.digitChar d := by
  unfold hex at h
  rw [List.mem_append] at h
  cases h with
  | inl h => exact ⟨0, by omega, List.eq_of_mem_replicate h⟩
  | inr h => exact Decimal.mem_digits (by omega) h

/-- The letters that announce a number, with its digits. -/
def numberLetters : List (Char × Nat) := [('x', 2), ('u', 4), ('U', 8)]

/-- The control characters with a letter of their own. -/
def letterNames : List (Char × Char) := [('\t', 't'), ('\n', 'n'), ('\r', 'r')]

/-- How a character may be spelled between quotes. -/
inductive Spelled (quote c : Char) : Text → Prop
  | itself : c ≠ quote → c ≠ backslash → 32 ≤ c.toNat → Spelled quote c [c]
  | marked : c = quote ∨ c = backslash → Spelled quote c [backslash, c]
  | letter (l : Char) : (c, l) ∈ letterNames → Spelled quote c [backslash, l]
  | numbered (l : Char) (width : Nat) : (l, width) ∈ numberLetters →
      c.toNat < Decimal.pow 16 width → Spelled quote c (backslash :: l :: hex width c.toNat)

theorem le_toNat_of_isPrintable (h : Text.isPrintable c = true) : 32 ≤ c.toNat := by
  unfold Text.isPrintable at h
  split at h
  · simp only [Bool.and_eq_true, decide_eq_true_eq] at h
    exact h.1
  · omega

theorem toNat_lt (c : Char) : c.toNat < 0x110000 := by
  have := c.valid
  unfold UInt32.isValidChar Nat.isValidChar at this
  change c.val.toNat < _
  omega

theorem spelled_escapeChar (quote c : Char) : Spelled quote c (escapeChar quote c) := by
  unfold escapeChar
  dsimp only
  split
  next h => exact .marked (by simpa using h)
  next h =>
  simp only [Bool.or_eq_true, decide_eq_true_eq, not_or] at h
  split
  next ht => exact .letter 't' (by simp [ht, letterNames])
  split
  next hn => exact .letter 'n' (by simp [hn, letterNames])
  split
  next hr => exact .letter 'r' (by simp [hr, letterNames])
  split
  next hp => exact .itself h.1 h.2 (le_toNat_of_isPrintable hp)
  split
  next hx => exact .numbered 'x' 2 (by decide) hx
  split
  next hu => exact .numbered 'u' 4 (by decide) hu
  next => exact .numbered 'U' 8 (by decide) (Nat.lt_trans (toNat_lt c) (by decide))

theorem digitChar_ge {d : Nat} (h : d < 16) : 32 ≤ (Decimal.digitChar d).toNat := by
  have : ∀ d : Fin 16, 32 ≤ (Decimal.digitChar d).toNat := by decide
  exact this ⟨d, h⟩

/-- A quote and a backslash print, so nothing in a spelling is a control character. -/
theorem Spelled.le_toNat {s : Text} (hq : 32 ≤ quote.toNat) (h : Spelled quote c s) :
    ∀ d ∈ s, 32 ≤ d.toNat := by
  have hb : 32 ≤ backslash.toNat := by decide
  intro d hd
  cases h with
  | itself _ _ hc =>
    rw [List.mem_singleton] at hd
    exact hd ▸ hc
  | marked hc =>
    simp only [List.mem_cons, List.not_mem_nil, or_false] at hd
    rcases hd with rfl | rfl
    · exact hb
    · rcases hc with rfl | rfl
      · exact hq
      · exact hb
  | letter l hl =>
    simp only [List.mem_cons, List.not_mem_nil, or_false] at hd
    rcases hd with rfl | rfl
    · exact hb
    · have : ∀ p ∈ letterNames, 32 ≤ p.2.toNat := by decide
      exact this _ hl
  | numbered l width hl _ =>
    rw [List.mem_cons, List.mem_cons] at hd
    rcases hd with rfl | rfl | hd
    · exact hb
    · have : ∀ p ∈ numberLetters, 32 ≤ p.1.toNat := by decide
      exact this _ hl
    · obtain ⟨k, hk, rfl⟩ := mem_hex hd
      exact digitChar_ge hk

/-- The quote of a text is one of two. -/
theorem quoteFor_eq (single double : Bool) :
    quoteFor single double = singleQuote ∨ quoteFor single double = doubleQuote := by
  unfold quoteFor
  split
  · exact .inr rfl
  · exact .inl rfl

theorem le_toNat_of_mem_text {t : Text} (h : d ∈ text t) : 32 ≤ d.toNat := by
  unfold text at h
  dsimp only at h
  generalize hq : quoteFor (t.contains singleQuote) (t.contains doubleQuote) = quote at h
  have hle : 32 ≤ quote.toNat := by
    rcases quoteFor_eq (t.contains singleQuote) (t.contains doubleQuote) with he | he
    · rw [← hq, he]
      decide
    · rw [← hq, he]
      decide
  rw [List.mem_cons, List.mem_append, List.mem_singleton, List.mem_flatMap] at h
  rcases h with rfl | ⟨c, -, hc⟩ | rfl
  · exact hle
  · exact (spelled_escapeChar quote c).le_toNat hle d hc
  · exact hle

end VariableReport.Quoted

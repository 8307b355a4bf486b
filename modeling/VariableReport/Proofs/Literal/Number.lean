import VariableReport.Proofs.Literal.Token

/-!
# Reading whole numbers back

A written number has no underscore, no zero in front and, up to the bound on its size, no more
digits than are read. What follows it is neither a digit nor a letter, so it is read as a
whole (`token?_natText`).
-/

namespace VariableReport.Literal
open Text

variable {n : Nat} {s rest : Text}

theorem digitRun_append (hs : ∀ c ∈ s, Decimal.isDigit 10 c = true) (hrest : Delimited rest) :
    digitRun 10 (s ++ rest) = (s, rest) := by
  induction s with
  | nil => cases hrest <;> rfl
  | cons c s ih =>
    have hc := hs c List.mem_cons_self
    rw [List.cons_append, digitRun, if_pos hc, ih fun d hd => hs d (List.mem_cons_of_mem c hd)]

theorem isDigit_of_mem_natText {c : Char} (h : c ∈ Decimal.natText n) :
    Decimal.isDigit 10 c = true := by
  obtain ⟨d, hd, rfl⟩ := Decimal.mem_digits (by omega) h
  simp [Decimal.isDigit, Decimal.digitValue?_digitChar (show d < 16 by omega), hd]

/-- A number other than zero starts with another digit, and a bounded one is short enough. -/
theorem wholeNumber?_natText (h : n < Decimal.pow 10 Value.maxDigits) (rest : Text) :
    decimalNumber?.wholeNumber? (Decimal.natText n) rest = some (.int n, rest) := by
  unfold decimalNumber?.wholeNumber?
  split
  next hz =>
    have hn : n = 0 := by
      rw [← Decimal.natValue_natText n]
      apply Decimal.natValue_zeros
      simpa using hz
    rw [hn]
    rfl
  next hz =>
    have hpos : 0 < n := by
      apply Nat.pos_of_ne_zero
      intro hn
      subst hn
      exact hz (by rw [Decimal.natText_zero]; decide)
    have hhead := @Decimal.head_digits 10 (by omega) (by omega) n hpos
    have hlen := Decimal.length_natText_le (by decide) h
    rw [if_neg, Decimal.natValue_natText]
    simp only [Bool.or_eq_true, decide_eq_true_eq, not_or]
    exact ⟨hhead, by omega⟩

theorem decimalNumber?_natText (h : n < Decimal.pow 10 Value.maxDigits) (hrest : Delimited rest) :
    decimalNumber? (Decimal.natText n ++ rest) = some (.int n, rest) := by
  have hrun : digitRun? 10 (Decimal.natText n ++ rest) = some (Decimal.natText n, rest) := by
    have := digitRun_append (fun c => isDigit_of_mem_natText (n := n)) hrest
    obtain ⟨c, cs, hcs, -⟩ := Decimal.exists_natText n
    have hc := isDigit_of_mem_natText (n := n) (hcs ▸ List.mem_cons_self : c ∈ _)
    rw [hcs, List.cons_append] at this ⊢
    rw [digitRun?, if_pos hc, this]
  have hwhole := wholeNumber?_natText h
  unfold decimalNumber?
  rw [hrun]
  cases hrest with
  | nil => simp [hwhole]
  | comma t => simp [hwhole]
  | bracket t => simp [hwhole]
  | paren t => simp [hwhole]

/-- A decimal number is the number of the text when no letter after a zero announces
another base, and no letter follows the number. -/
theorem number?_eq_of_decimalNumber? {t : Text} {v : Value}
    (hbase : ∀ c r, t = '0' :: c :: r → baseOf? c = none)
    (h : decimalNumber? t = some (v, rest)) (hrest : Delimited rest) :
    number? t = some (v, rest) := by
  unfold number?
  split
  next c r =>
    rw [hbase c r rfl]
    dsimp only
    rw [h]
    cases hrest <;> rfl
  next =>
    rw [h]
    cases hrest <;> rfl

theorem number?_natText (h : n < Decimal.pow 10 Value.maxDigits) (hrest : Delimited rest) :
    number? (Decimal.natText n ++ rest) = some (.int n, rest) := by
  apply number?_eq_of_decimalNumber? _ (decimalNumber?_natText h hrest) hrest
  intro c r ht
  by_cases hn : n = 0
  · subst hn
    rw [Decimal.natText_zero, List.singleton_append, List.cons.injEq] at ht
    obtain ⟨-, rfl⟩ := ht
    cases hrest <;> rfl
  · obtain ⟨d, ds, hd, hzero⟩ := Decimal.exists_natText_of_pos (Nat.pos_of_ne_zero hn)
    rw [hd, List.cons_append, List.cons.injEq] at ht
    exact absurd ht.1 hzero

theorem token?_natText [Host] (h : n < Decimal.pow 10 Value.maxDigits) (hrest : Delimited rest) :
    token? (Decimal.natText n ++ rest) = some (.value (.int n), rest) := by
  have hnumber := number?_natText h hrest
  obtain ⟨c, cs, hcs, hc⟩ := Decimal.exists_natText n
  rw [hcs, List.cons_append] at hnumber ⊢
  simp [token?, hc, hnumber]

end VariableReport.Literal

import VariableReport.Number.Decimal
import VariableReport.Text.Class

/-!
# Digits of a whole number

The digits of a number are those of its quotient by the base and then one more
(`digits_of_le`). From this follow which characters a written number has, that there are no
more of them than the size of the number allows, and that no zero stands in front.
-/

namespace VariableReport.Decimal

theorem digitsInto_eq (base n : Nat) (acc : Text) :
    digitsInto base n acc = digits base n ++ acc := by
  induction n using Nat.strongRecOn generalizing acc with
  | ind n ih =>
    unfold digits
    rw [digitsInto, digitsInto.eq_def base n []]
    split
    next => rfl
    next h =>
      have hlt : n / base < n := Nat.div_lt_self (by omega) (by omega)
      rw [ih _ hlt, ih _ hlt [digitChar (n % base)]]
      simp

theorem digits_of_lt {base n : Nat} (h : n < base) : digits base n = [digitChar n] := by
  unfold digits
  rw [digitsInto, dif_pos (.inl h)]

theorem digits_of_le {base n : Nat} (h2 : 2 ≤ base) (h : base ≤ n) :
    digits base n = digits base (n / base) ++ [digitChar (n % base)] := by
  change digitsInto base n [] = _
  rw [digitsInto, dif_neg (by omega), digitsInto_eq]

theorem digits_ne_nil {base : Nat} (h2 : 2 ≤ base) (n : Nat) : digits base n ≠ [] := by
  by_cases h : n < base
  · simp [digits_of_lt h]
  · rw [digits_of_le h2 (by omega)]
    simp

/-- Every digit is below the base. -/
theorem mem_digits {base : Nat} (h2 : 2 ≤ base) {n : Nat} {c : Char} (hc : c ∈ digits base n) :
    ∃ d < base, c = digitChar d := by
  induction n using Nat.strongRecOn with
  | ind n ih =>
    by_cases h : n < base
    · rw [digits_of_lt h, List.mem_singleton] at hc
      exact ⟨n, h, hc⟩
    · rw [digits_of_le h2 (by omega), List.mem_append, List.mem_singleton] at hc
      rcases hc with hc | hc
      · exact ih _ (Nat.div_lt_self (by omega) (by omega)) hc
      · exact ⟨n % base, Nat.mod_lt _ (by omega), hc⟩

theorem length_digits_le {base : Nat} (h2 : 2 ≤ base) {k n : Nat} (hk : 0 < k)
    (h : n < pow base k) : (digits base n).length ≤ k := by
  induction k generalizing n with
  | zero => omega
  | succ k ih =>
    by_cases hn : n < base
    · simp [digits_of_lt hn]
    · rw [digits_of_le h2 (by omega), List.length_append, List.length_singleton]
      rcases Nat.eq_zero_or_pos k with rfl | hk
      · rw [Nat.zero_add, pow_one] at h
        omega
      · rw [pow_succ] at h
        have := ih hk (Nat.div_lt_of_lt_mul (by rwa [Nat.mul_comm] at h))
        omega

theorem digitChar_eq_zero {d : Nat} (h : d < 16) (hz : digitChar d = '0') : d = 0 := by
  have := digitValue?_digitChar h
  rw [hz] at this
  simpa [digitValue?] using this.symm

/-- No zero stands in front of a longer number. -/
theorem head_digits {base : Nat} (h2 : 2 ≤ base) (h16 : base ≤ 16) {n : Nat} (hn : 0 < n) :
    (digits base n).head? ≠ some '0' := by
  induction n using Nat.strongRecOn with
  | ind n ih =>
    by_cases h : n < base
    · intro hz
      rw [digits_of_lt h, List.head?_cons, Option.some.injEq] at hz
      have := digitChar_eq_zero (by omega) hz
      omega
    · have hlt : n / base < n := Nat.div_lt_self (by omega) (by omega)
      have := ih _ hlt (Nat.div_pos (by omega) (by omega))
      obtain ⟨c, cs, hc⟩ := List.exists_cons_of_ne_nil (digits_ne_nil h2 (n / base))
      rw [digits_of_le h2 (by omega)]
      simpa [hc] using this

theorem isAsciiDigit_digitChar {d : Nat} (h : d < 10) : Text.isAsciiDigit (digitChar d) = true := by
  have : ∀ d : Fin 10, Text.isAsciiDigit (digitChar d) = true := by decide
  exact this ⟨d, h⟩

theorem isAsciiDigit_of_mem_natText {n : Nat} {c : Char} (h : c ∈ natText n) :
    Text.isAsciiDigit c = true := by
  obtain ⟨d, hd, rfl⟩ := mem_digits (by omega) h
  exact isAsciiDigit_digitChar hd

theorem natText_zero : natText 0 = ['0'] := digits_of_lt (by omega)

theorem natValue_natText (n : Nat) : natValue (natText n) = n :=
  value_digits (by omega) (by omega) n

theorem length_natText_le {k n : Nat} (hk : 0 < k) (h : n < pow 10 k) : (natText n).length ≤ k :=
  length_digits_le (by omega) hk h

theorem exists_natText (n : Nat) :
    ∃ c cs, natText n = c :: cs ∧ Text.isAsciiDigit c = true := by
  obtain ⟨c, cs, h⟩ := List.exists_cons_of_ne_nil (@digits_ne_nil 10 (by omega) n)
  exact ⟨c, cs, h, isAsciiDigit_of_mem_natText (n := n) (by simp [natText, h])⟩

theorem exists_natText_of_pos {n : Nat} (hn : 0 < n) : ∃ c cs, natText n = c :: cs ∧ c ≠ '0' := by
  obtain ⟨c, cs, h, -⟩ := exists_natText n
  have hhead := @head_digits 10 (by omega) (by omega) n hn
  rw [show digits 10 n = c :: cs from h] at hhead
  refine ⟨c, cs, h, ?_⟩
  simpa using hhead

theorem natValue_zeros {t : Text} (h : ∀ c ∈ t, c = '0') : natValue t = 0 := by
  rw [List.eq_replicate_of_mem h]
  induction t.length with
  | zero => rfl
  | succ k ih =>
    rw [natValue] at ih ⊢
    rw [List.replicate_succ', value_append, ih]
    rfl

/-- A digit is none of the characters of a text without digits. -/
theorem not_mem_of_isAsciiDigit {c : Char} {t : Text}
    (ht : t.any Text.isAsciiDigit = false) (hc : Text.isAsciiDigit c = true) : c ∉ t := by
  intro hm
  exact List.any_eq_false.1 ht c hm hc

end VariableReport.Decimal

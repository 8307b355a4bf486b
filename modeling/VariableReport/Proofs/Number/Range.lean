import VariableReport.Number.Double

/-!
# The range of double precision

A whole number has a double next to it unless it reaches half a unit above the greatest double
(`Double.ofInt?_eq_none_iff`): there the tie goes to the even mantissa, which is the power of two
that needs an exponent too many.
-/

namespace VariableReport

variable {num den m k : Nat} {n : Int}

/-- At half a unit above an odd number, and beyond it, rounding goes up. -/
theorem roundDiv_eq_succ (hodd : m % 2 = 1) (hlow : (2 * m + 1) * den ≤ 2 * num)
    (hhigh : num < (m + 1) * den) : roundDiv num den = m + 1 := by
  have hmid : (2 * m + 1) * den = 2 * (m * den) + den := by
    rw [Nat.add_mul, Nat.one_mul, Nat.mul_assoc]
  have hquot : num / den = m := Nat.div_eq_of_lt_le (by omega) hhigh
  have hrem : den * m + num % den = num := hquot ▸ Nat.div_add_mod num den
  rw [Nat.mul_comm] at hrem
  rw [roundDiv, hquot, hodd, if_neg (by omega), ite_id]

namespace Precision

/-- Rounding adds at most one to the exponent, so a quotient that is small enough stays in
range. -/
theorem exists_round_eq {p : Precision} (negative : Bool) (hleast : p.least < p.greatest)
    (h : (Nat.log2 num : Int) - Nat.log2 den - (p.bits - 1 : Nat) < p.greatest) :
    ∃ m e, p.round negative num den = .finite negative m e := by
  unfold Precision.round
  split
  next => exact ⟨_, _, rfl⟩
  next =>
    generalize (Nat.log2 num : Int) - Nat.log2 den - (p.bits - 1 : Nat) = guess at h ⊢
    dsimp only
    generalize he : max (if (scaleDown num den guess).1 <
      (scaleDown num den guess).2 * Decimal.pow 2 (p.bits - 1) then guess - 1 else guess)
        p.least = e
    have hlt : e < p.greatest := by
      rw [← he]
      split <;> omega
    generalize roundDiv _ _ = m
    split
    next => exact ⟨_, _, if_neg (by omega)⟩
    next => exact ⟨_, _, if_neg (by omega)⟩

/-- A whole number with at least as many bits as the mantissa keeps its leading ones. -/
theorem round_one {p : Precision} (negative : Bool) (hnum : num ≠ 0) (hleast : p.least ≤ 0)
    (hlog : Nat.log2 num = k + (p.bits - 1)) :
    p.round negative num 1 =
      if roundDiv num (Decimal.pow 2 k) = Decimal.pow 2 p.bits then
        if p.greatest < (k : Int) + 1 then .infinite negative
        else .finite negative (Decimal.pow 2 (p.bits - 1)) (k + 1)
      else if p.greatest < (k : Int) then .infinite negative
      else .finite negative (roundDiv num (Decimal.pow 2 k)) k := by
  have hone : Nat.log2 1 = 0 := by decide
  have hguess : ((k + (p.bits - 1) : Nat) : Int) - (0 : Nat) - (p.bits - 1 : Nat) = k := by omega
  have hscale : scaleDown num 1 k = (num, Decimal.pow 2 k) := by
    rw [scaleDown, if_pos (by omega), Nat.one_mul, Int.toNat_natCast]
  have hlow : ¬num < Decimal.pow 2 k * Decimal.pow 2 (p.bits - 1) := by
    rw [← Decimal.pow_add, Nat.not_lt, ← hlog]
    exact Nat.log2_self_le hnum
  have hmax : max (k : Int) p.least = k := by omega
  simp only [Precision.round, if_neg hnum, hlog, hone, hguess, hscale]
  rw [if_neg hlow, hmax, hscale]
  split <;> rfl

/-- Twice what lies half a unit above the greatest number of the precision. -/
def twiceLimit (p : Precision) : Nat :=
  (2 * Decimal.pow 2 p.bits - 1) * Decimal.pow 2 p.greatest.toNat

theorem twiceLimit_eq {p : Precision} {g : Nat} (hm : Decimal.pow 2 p.bits = m + 1)
    (hg : p.greatest = g) : p.twiceLimit = (2 * m + 1) * Decimal.pow 2 g := by
  rw [twiceLimit, hm, hg, Int.toNat_natCast, show 2 * (m + 1) - 1 = 2 * m + 1 by omega]

/-- A whole number below the limit has a mantissa and an exponent. With the greatest exponent it
is not rounded up to a power of two. -/
theorem exists_round_one {p : Precision} (negative : Bool) (hleast : p.least ≤ 0)
    (hgreatest : 0 < p.greatest) (h : 2 * num < p.twiceLimit) :
    ∃ m e, p.round negative num 1 = .finite negative m e := by
  by_cases hsmall : (Nat.log2 num : Int) - Nat.log2 1 - (p.bits - 1 : Nat) < p.greatest
  · exact exists_round_eq negative (by omega) hsmall
  · obtain ⟨g, hg⟩ := Int.eq_ofNat_of_zero_le (Int.le_of_lt hgreatest)
    obtain ⟨m, hm⟩ := Nat.exists_eq_add_one.2 (Decimal.pow_pos Nat.two_pos p.bits)
    have hone : Nat.log2 1 = 0 := by decide
    have hnum : num ≠ 0 := by
      rintro rfl
      have hzero : Nat.log2 0 = 0 := by decide
      omega
    rw [twiceLimit_eq hm hg, Nat.add_mul, Nat.one_mul, Nat.mul_assoc] at h
    have hlog : Nat.log2 num < p.bits + g := by
      rw [Nat.log2_lt hnum]
      change num < Decimal.pow 2 (p.bits + g)
      rw [Decimal.pow_add, hm, Nat.add_mul]
      omega
    have hup : roundDiv num (Decimal.pow 2 g) ≠ m + 1 := by
      intro hup
      have hspec := (roundDiv_spec num (Decimal.pow_pos Nat.two_pos g)).2
      rw [hup, Nat.mul_assoc, Nat.add_mul] at hspec
      omega
    have hguess : Nat.log2 num = g + (p.bits - 1) := by omega
    rw [round_one negative hnum hleast hguess, hm, if_neg hup, if_neg (by omega)]
    exact ⟨_, _, rfl⟩

theorem round_one_eq_infinite {p : Precision} (negative : Bool) (hleast : p.least ≤ 0)
    (hgreatest : 0 < p.greatest) (hbits : 0 < p.bits) (h : p.twiceLimit ≤ 2 * num) :
    p.round negative num 1 = .infinite negative := by
  obtain ⟨g, hg⟩ := Int.eq_ofNat_of_zero_le (Int.le_of_lt hgreatest)
  obtain ⟨m, hm⟩ := Nat.exists_eq_add_one.2 (Decimal.pow_pos Nat.two_pos p.bits)
  obtain ⟨b, hb⟩ := Nat.exists_eq_add_one.2 hbits
  have hhalf : m + 1 = 2 * Decimal.pow 2 b := by
    rw [← hm, hb, Decimal.pow_succ, Nat.mul_comm]
  rw [twiceLimit_eq hm hg] at h
  have hlow : Decimal.pow 2 (g + b) ≤ num := by
    have hpos := Decimal.pow_pos Nat.two_pos b
    have hle : 2 * Decimal.pow 2 b * Decimal.pow 2 g ≤ (2 * m + 1) * Decimal.pow 2 g :=
      Nat.mul_le_mul_right _ (by omega)
    rw [Nat.mul_assoc, Nat.mul_comm (Decimal.pow 2 b), ← Decimal.pow_add] at hle
    omega
  have hnum : num ≠ 0 := by
    have := Decimal.pow_pos Nat.two_pos (g + b)
    omega
  obtain ⟨k, hk⟩ := Nat.exists_eq_add_of_le ((Nat.le_log2 hnum).2 hlow)
  have hlog : Nat.log2 num = g + k + (p.bits - 1) := by omega
  rw [round_one negative hnum hleast hlog, hm]
  split
  next => rw [if_pos (by omega)]
  next hup =>
    -- Without a carry the exponent is too great by itself.
    have hk : 0 < k := by
      refine Nat.pos_of_ne_zero fun hzero => hup ?_
      rw [hzero, Nat.add_zero] at hk ⊢
      refine roundDiv_eq_succ (by omega) h ?_
      have hhigh := @Nat.lt_log2_self num
      rw [hk, Nat.add_assoc, ← hb, Nat.add_comm] at hhigh
      rw [← hm, ← Decimal.pow_add]
      exact hhigh
    rw [if_pos (by omega)]

end Precision

namespace Double

/-- Half a unit above the greatest double. -/
def limit : Nat := Decimal.pow 2 1024 - Decimal.pow 2 970

theorem ofInt?_eq_none_iff : ofInt? n = none ↔ limit ≤ n.natAbs := by
  have htwice : Precision.double.twiceLimit = 2 * limit := by decide +kernel
  have hleast : Precision.double.least ≤ 0 := by decide
  have hgreatest : 0 < Precision.double.greatest := by decide
  unfold ofInt?
  rcases Nat.lt_or_ge n.natAbs limit with h | h
  · have hbelow : 2 * n.natAbs < Precision.double.twiceLimit := by omega
    obtain ⟨m, e, hround⟩ :=
      Precision.exists_round_one (decide (n < 0)) hleast hgreatest hbelow
    simp [hround, h]
  · have habove : Precision.double.twiceLimit ≤ 2 * n.natAbs := by omega
    have hround :=
      Precision.round_one_eq_infinite (decide (n < 0)) hleast hgreatest (by decide) habove
    simp [hround, h]

end Double

end VariableReport

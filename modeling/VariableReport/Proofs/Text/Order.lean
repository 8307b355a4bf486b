import VariableReport.Text

/-!
# Dictionary order

The order of texts is a strict total order: no text is before itself, of two different
texts one is before the other, and the order passes along chains.
-/

namespace VariableReport.Text

theorem toNat_ne_of_ne {a b : Char} (h : a ≠ b) : a.toNat ≠ b.toNat := fun he =>
  h (Char.ext (UInt32.toNat_inj.1 he))

theorem before_irrefl (t : Text) : before t t = false := by
  induction t with
  | nil => rfl
  | cons c t ih => simpa [before] using ih

theorem before_trans {t u v : Text} (h : before t u = true) (k : before u v = true) :
    before t v = true := by
  induction t generalizing u v with
  | nil =>
    cases v with
    | nil => cases u <;> simp [before] at h k
    | cons => rfl
  | cons a t ih =>
    cases u with
    | nil => simp [before] at h
    | cons b u =>
      cases v with
      | nil => simp [before] at k
      | cons c v =>
        simp only [before] at h k ⊢
        by_cases hab : a = b
        · subst hab
          by_cases hac : a = c
          · subst hac
            simp only [if_true] at h k ⊢
            exact ih h k
          · simpa [hac] using k
        · by_cases hbc : b = c
          · subst hbc
            simpa [hab] using h
          · simp only [hab, hbc, if_false, decide_eq_true_eq] at h k
            have hac : a ≠ c := by
              intro heq
              subst heq
              omega
            simp only [hac, if_false, decide_eq_true_eq]
            omega

theorem before_or_before {t u : Text} (h : t ≠ u) : before t u = true ∨ before u t = true := by
  induction t generalizing u with
  | nil =>
    cases u with
    | nil => contradiction
    | cons => exact .inl rfl
  | cons a t ih =>
    cases u with
    | nil => exact .inr rfl
    | cons b u =>
      by_cases hab : a = b
      · subst hab
        have hne : t ≠ u := fun he => h (by rw [he])
        simpa [before] using ih hne
      · have := toNat_ne_of_ne hab
        simp only [before, hab, Ne.symm hab, if_false, decide_eq_true_eq]
        omega

theorem not_before_of_before {t u : Text} (h : before t u = true) : before u t = false := by
  cases hk : before u t with
  | false => rfl
  | true =>
    have := before_trans h hk
    rw [before_irrefl] at this
    contradiction

/-- Not to be after is to be before or the same. -/
theorem not_before_iff {t u : Text} : before u t = false ↔ t = u ∨ before t u = true := by
  constructor
  · intro h
    by_cases he : t = u
    · exact .inl he
    · refine .inr ((before_or_before he).resolve_right ?_)
      rw [h]
      exact Bool.false_ne_true
  · rintro (rfl | h)
    · exact before_irrefl t
    · exact not_before_of_before h

end VariableReport.Text

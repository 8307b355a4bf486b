import VariableReport.Text
import Mathlib.Data.List.Infix

/-!
# First occurrences

A text is cut at the first occurrence of a part, if it has any (`cutAt_eq_none_iff`), and what
stands behind the text does not move that occurrence (`cutAt_append`). A part of which no ending is
also a beginning is found where it was put (`cutAt_part`), and a part that shares no end with another
does not reach across it (`infix_of_infix_append`).
-/

namespace VariableReport.Text

variable {m n t u v a b : Text} {c : Char}

/-- No ending of the first text begins the second. -/
def Parted (m n : Text) : Prop := ∀ u, u <:+ m → u <+: n → u = []

instance (m n : Text) : Decidable (Parted m n) :=
  decidable_of_iff (∀ u ∈ m.tails, u <+: n → u = []) (by simp [Parted])

theorem cutAt_eq_none_iff (hm : m ≠ []) : cutAt m t = none ↔ ¬m <:+: t := by
  induction t with
  | nil => simp [cutAt, hm]
  | cons c t ih =>
    rw [cutAt, List.infix_cons_iff, ← List.isPrefixOf_iff_prefix]
    split
    next h => simp [h]
    next h => rw [Option.map_eq_none_iff, ih]; simp [h]

/-- A beginning of a longer text that fits into the text begins it. -/
theorem prefix_of_prefix_append (h : m <+: t ++ u) (hl : m.length ≤ t.length) : m <+: t :=
  List.prefix_of_prefix_length_le h (List.prefix_append t u) hl

/-- A beginning that does not hold a character ends before the character. -/
theorem prefix_append_cons_iff (hc : c ∉ m) : m <+: t ++ c :: u ↔ m <+: t := by
  refine ⟨fun h => ?_, fun h => h.trans (List.prefix_append t _)⟩
  have hlong : t ++ [c] <+: t ++ c :: u := ⟨u, by simp⟩
  rcases List.prefix_or_prefix_of_prefix h hlong with h | h
  · rcases List.prefix_concat_iff.1 h with rfl | h
    · simp at hc
    · exact h
  · exact absurd (h.subset (by simp)) hc

theorem cutAt_append (h : cutAt m t = some (a, b)) (u : Text) :
    cutAt m (t ++ u) = some (a, b ++ u) := by
  induction t generalizing a with
  | nil =>
    rw [cutAt] at h
    split at h
    next hm =>
      obtain ⟨rfl, rfl⟩ := Prod.mk.inj (Option.some.inj h)
      obtain rfl := List.isEmpty_iff.1 hm
      cases u <;> rfl
    next => cases h
  | cons c t ih =>
    rw [cutAt] at h
    split at h
    next hm =>
      obtain ⟨rfl, rfl⟩ := Prod.mk.inj (Option.some.inj h)
      have hbegins := List.isPrefixOf_iff_prefix.1 hm
      have hlong : m.isPrefixOf (c :: t ++ u) = true :=
        List.isPrefixOf_iff_prefix.2 (hbegins.trans (List.prefix_append _ u))
      rw [List.cons_append] at hlong
      rw [List.cons_append, cutAt, if_pos hlong, ← List.cons_append,
        List.drop_append_of_le_length hbegins.length_le]
    next hm =>
      obtain ⟨⟨a', b'⟩, hab, he⟩ := Option.map_eq_some_iff.1 h
      obtain ⟨rfl, rfl⟩ := Prod.mk.inj he
      have hlength : m.length ≤ t.length := by
        rw [cutAt_eq_some hab]
        simp only [List.length_append]
        omega
      have hlong : ¬m.isPrefixOf (c :: (t ++ u)) = true := fun hp => hm
        (List.isPrefixOf_iff_prefix.2 (prefix_of_prefix_append (t := c :: t) (u := u)
          (List.isPrefixOf_iff_prefix.1 hp) (by simp only [List.length_cons]; omega)))
      rw [List.cons_append, cutAt, if_neg hlong, ih hab]
      rfl

/-- A part that does not overlap itself is found where it was put behind a text without it. -/
theorem cutAt_part (hm : m ≠ []) (hself : Parted m.tail m) (ht : ¬m <:+: t) (u : Text) :
    cutAt m (t ++ (m ++ u)) = some (t, u) := by
  induction t with
  | nil =>
    obtain ⟨c, m', rfl⟩ := List.exists_cons_of_ne_nil hm
    have hbegins : (c :: m').isPrefixOf (c :: (m' ++ u)) = true :=
      List.isPrefixOf_iff_prefix.2 (List.prefix_append (c :: m') u)
    rw [List.nil_append, List.cons_append, cutAt, if_pos hbegins]
    simp
  | cons c t ih =>
    rw [List.infix_cons_iff, not_or] at ht
    have hbegins : ¬m.isPrefixOf (c :: (t ++ (m ++ u))) = true := by
      rw [List.isPrefixOf_iff_prefix]
      intro hp
      -- the part would begin in the text and end in itself
      rcases List.prefix_or_prefix_of_prefix hp (List.prefix_append (c :: t) (m ++ u)) with h | h
      · exact ht.1 h
      · obtain ⟨r, rfl⟩ := h
        have hr : r <+: c :: t ++ r ++ u := (List.prefix_append_right_inj (c :: t)).1 hp
        have hr' : r <+: c :: t ++ r := prefix_of_prefix_append hr (by simp; omega)
        obtain rfl := hself r (List.suffix_append t r) hr'
        exact ht.1 (by simp)
    rw [List.cons_append, cutAt, if_neg hbegins, ih ht.2]
    rfl

/-- A part that shares no end with the text put in between occurs in one of the three texts. -/
theorem infix_of_infix_append (hmn : Parted m n) (hnm : Parted n m) (hn : ¬n <:+: m)
    (h : m <:+: t ++ (n ++ u)) : m <:+: t ∨ m <:+: n ∨ m <:+: u := by
  rcases List.infix_append_iff.1 h with h | h | ⟨l₁, l₂, rfl, h₁, h₂⟩
  · exact .inl h
  · rcases List.infix_append_iff.1 h with h | h | ⟨l₁, l₂, rfl, h₁, h₂⟩
    · exact .inr (.inl h)
    · exact .inr (.inr h)
    · obtain rfl := hnm l₁ h₁ (List.prefix_append l₁ l₂)
      exact .inr (.inr h₂.isInfix)
  · rcases List.prefix_or_prefix_of_prefix h₂ (List.prefix_append n u) with h₂ | h₂
    · obtain rfl := hmn l₂ (List.suffix_append l₁ l₂) h₂
      rw [List.append_nil]
      exact .inl h₁.isInfix
    · exact absurd (h₂.isInfix.trans (List.suffix_append l₁ l₂).isInfix) hn

theorem infix_cons_iff_of_head? (hm : m ≠ []) (hc : m.head? ≠ some c) :
    m <:+: c :: t ↔ m <:+: t := by
  obtain ⟨d, m', rfl⟩ := List.exists_cons_of_ne_nil hm
  rw [List.infix_cons_iff, List.cons_prefix_cons]
  refine or_iff_right fun h => hc ?_
  rw [h.1, List.head?_cons]

/-- A part does not begin where none of the characters is its first one. -/
theorem infix_append_iff_of_head? (hm : m ≠ []) (hu : ∀ c ∈ u, m.head? ≠ some c) :
    m <:+: u ++ t ↔ m <:+: t := by
  induction u with
  | nil => rfl
  | cons c u ih =>
    rw [List.forall_mem_cons] at hu
    rw [List.cons_append, infix_cons_iff_of_head? hm hu.1, ih hu.2]

end VariableReport.Text

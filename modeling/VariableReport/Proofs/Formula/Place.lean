import VariableReport.Proofs.Formula.Units

/-!
# Places in units

Whether a place lies in a unit is seen on its row: a bracket is open in front of it (`Opens`) and
one closes behind it (`Closes`). At any other place a text is cut in two whose units are changed
apart (`mapUnits_append_of_outside`). Around a place in a unit the first open bracket and the first
closing one are the ends of that unit, which is changed as a whole (`exists_unit_around`).
-/

namespace VariableReport.Formula
open Text

variable {p q r t k : Text} {c : Char}

/-- A bracket on the text's last row is open at its end. -/
def Opens (p : Text) : Prop := ∃ a x, p = a ++ '[' :: x ∧ ']' ∉ x ∧ '\n' ∉ x

/-- A bracket closes on the text's first row. -/
def Closes (q : Text) : Prop := ∃ y z, q = y ++ ']' :: z ∧ '\n' ∉ y

theorem opens_cons : Opens (c :: t) ↔ (c = '[' ∧ ']' ∉ t ∧ '\n' ∉ t) ∨ Opens t := by
  constructor
  · rintro ⟨a, x, h, hx⟩
    cases a with
    | nil =>
      obtain ⟨rfl, rfl⟩ := List.cons.inj h
      exact .inl ⟨rfl, hx⟩
    | cons d a => exact .inr ⟨a, x, (List.cons.inj h).2, hx⟩
  · rintro (⟨rfl, ht⟩ | ⟨a, x, rfl, hx⟩)
    · exact ⟨[], t, rfl, ht⟩
    · exact ⟨c :: a, x, rfl, hx⟩

instance decidableOpens : DecidablePred Opens
  | [] => isFalse fun ⟨a, x, h, _⟩ => by simp at h
  | _ :: t =>
    have := decidableOpens t
    decidable_of_iff _ opens_cons.symm

theorem Opens.append_left (h : Opens t) (p : Text) : Opens (p ++ t) := by
  obtain ⟨a, x, rfl, hx⟩ := h
  exact ⟨p ++ a, x, by rw [List.append_assoc], hx⟩

theorem closes_append : Closes (t ++ r) ↔ Closes t ∨ ('\n' ∉ t ∧ Closes r) := by
  constructor
  · rintro ⟨y, z, h, hy⟩
    rcases List.append_eq_append_iff.1 h with ⟨u, rfl, hu⟩ | ⟨u, rfl, hu⟩
    · rw [List.mem_append, not_or] at hy
      exact .inr ⟨hy.1, u, z, hu, hy.2⟩
    · cases u with
      | nil => exact .inr ⟨by simpa using hy, [], z, hu.symm, by simp⟩
      | cons c u =>
        obtain ⟨rfl, -⟩ := List.cons.inj hu
        exact .inl ⟨y, u, rfl, hy⟩
  · rintro (⟨y, z, rfl, hy⟩ | ⟨ht, y, z, rfl, hy⟩)
    · exact ⟨y, z ++ r, by simp, hy⟩
    · exact ⟨t ++ y, z, by simp, by simp [ht, hy]⟩

theorem not_mem_of_not_closes (h : ¬Closes t) (ht : '\n' ∉ t) : ']' ∉ t := by
  intro hm
  obtain ⟨y, z, rfl⟩ := List.append_of_mem hm
  exact h ⟨y, z, rfl, fun hy => ht (by simp [hy])⟩

/-- The first bracket that closes on the row ends what a unit may hold. -/
theorem Closes.exists_first (h : Closes t) : ∃ y z, t = y ++ ']' :: z ∧ ']' ∉ y ∧ '\n' ∉ y := by
  obtain ⟨y, z, rfl, hy⟩ := h
  by_cases hm : ']' ∈ y
  · obtain ⟨a, b, rfl, ha⟩ := List.eq_append_cons_of_mem hm
    exact ⟨a, b ++ ']' :: z, by simp, ha, fun hn => hy (by simp [hn])⟩
  · exact ⟨y, z, rfl, hm, hy⟩

theorem unitContent?_eq_none_iff_not_closes : unitContent? t = none ↔ ¬Closes t := by
  constructor
  · intro h hcloses
    obtain ⟨y, z, rfl, h1, h2⟩ := hcloses.exists_first
    rw [unitContent?_append h1 h2] at h
    cases h
  · intro h
    cases hc : unitContent? t with
    | none => rfl
    | some k =>
      obtain ⟨rest, rfl, -, hk⟩ := unitContent?_eq_some hc
      exact absurd ⟨k, rest, rfl, hk⟩ h

instance decidableCloses : DecidablePred Closes := fun t =>
  decidable_of_iff (¬unitContent? t = none) (by rw [unitContent?_eq_none_iff_not_closes, not_not])

/-- At a place that does not lie in a unit the units of the two sides are changed apart. -/
theorem mapUnits_append_of_outside (f : Text → Text) (h : ¬(Opens p ∧ Closes r)) :
    mapUnits f (p ++ r) = mapUnits f p ++ mapUnits f r := by
  have hb := bracketed p
  induction hb with
  | nil => rfl
  | @char c t hc _ ih =>
    have hrest : ¬(Opens t ∧ Closes r) := fun ht => h ⟨opens_cons.2 (.inr ht.1), ht.2⟩
    have hopen : c = '[' → unitContent? (t ++ r) = none := by
      rintro rfl
      have ht := unitContent?_eq_none_iff_not_closes.1 (hc rfl)
      rw [unitContent?_eq_none_iff_not_closes, closes_append]
      rintro (hcloses | ⟨hrow, hcloses⟩)
      · exact ht hcloses
      · exact h ⟨opens_cons.2 (.inl ⟨rfl, not_mem_of_not_closes ht hrow, hrow⟩), hcloses⟩
    rw [List.cons_append, mapUnits_char f hopen, mapUnits_char f hc, ih hrest, List.cons_append]
  | @unit k t h1 h2 _ ih =>
    have hrest : ¬(Opens t ∧ Closes r) := by
      rintro ⟨ht, hr⟩
      have happend : '[' :: (k ++ ']' :: t) = '[' :: (k ++ [']']) ++ t := by simp
      exact h ⟨happend ▸ ht.append_left _, hr⟩
    have hunit : '[' :: (k ++ ']' :: t) ++ r = '[' :: (k ++ ']' :: (t ++ r)) := by simp
    rw [hunit, mapUnits_unit f h1 h2, mapUnits_unit f h1 h2, ih hrest]
    simp

/-- The first bracket that is open at the end of the text. -/
theorem Opens.exists_first (h : Opens p) :
    ∃ a x, p = a ++ '[' :: x ∧ ']' ∉ x ∧ '\n' ∉ x ∧ ¬Opens a := by
  obtain ⟨a, x, rfl, h1, h2⟩ := h
  induction hn : a.length using Nat.strongRecOn generalizing a x with
  | ind n ih =>
    by_cases ha : Opens a
    · obtain ⟨a, y, rfl, h3, h4⟩ := ha
      rw [List.append_assoc, List.cons_append]
      exact ih a.length (by simp [← hn]) a (y ++ '[' :: x) (by simp [h1, h3]) (by simp [h2, h4]) rfl
    · exact ⟨a, x, rfl, h1, h2, ha⟩

/-- A text in a unit lies between the unit's brackets, and the unit is changed as a whole. -/
theorem exists_unit_around (hp : Opens p) (hq : Closes q) : ∃ a x y z,
    ∀ (f : Text → Text) (m : Text), ']' ∉ m → '\n' ∉ m → mapUnits f (p ++ (m ++ q)) =
      mapUnits f a ++ '[' :: (f (x ++ (m ++ y)) ++ ']' :: mapUnits f z) := by
  obtain ⟨a, x, rfl, h1, h2, ha⟩ := hp.exists_first
  obtain ⟨y, z, rfl, h3, h4⟩ := hq.exists_first
  refine ⟨a, x, y, z, fun f m h5 h6 => ?_⟩
  have htext : a ++ '[' :: x ++ (m ++ (y ++ ']' :: z)) =
      a ++ '[' :: (x ++ (m ++ y) ++ ']' :: z) := by simp
  rw [htext, mapUnits_append_of_outside f fun h => ha h.1,
    mapUnits_unit f (by simp [h1, h3, h5]) (by simp [h2, h4, h6])]

/-! ### The ends of a text -/

theorem head?_mapUnits (f : Text → Text) (t : Text) : (mapUnits f t).head? = t.head? := by
  cases bracketed t with
  | nil => rfl
  | char hc _ => rw [mapUnits_char f hc]; rfl
  | unit h1 h2 _ => rw [mapUnits_unit f h1 h2]; rfl

theorem getLast?_mapUnits (f : Text → Text) (t : Text) : (mapUnits f t).getLast? = t.getLast? := by
  have hb := bracketed t
  induction hb with
  | nil => rfl
  | char hc _ ih => rw [mapUnits_char f hc, List.getLast?_cons, List.getLast?_cons, ih]
  | @unit k t h1 h2 _ ih =>
    have hlast (k u : Text) : ('[' :: (k ++ ']' :: u)).getLast? = some (u.getLast?.getD ']') := by
      rw [← List.cons_append, List.getLast?_append, List.getLast?_cons]
      rfl
    rw [mapUnits_unit f h1 h2, hlast, hlast, ih]

end VariableReport.Formula

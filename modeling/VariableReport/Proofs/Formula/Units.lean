import VariableReport.Proofs.Formula.Product

/-!
# Units in a text

A text is read as single characters and whole units (`Bracketed`), and a function over the
contents of units acts through this reading (`mapUnits`). A text whose units are all settled
is simplified to itself. A step is tame when it leaves the brackets, the rows and the blanks
around a slash where they are; tame steps keep settled units settled, as long as what they
produce has its subscripts braced.
-/

namespace VariableReport.Formula
open Text

variable {f g : Text → Text} {s t u k : Text}

/-- The text with the content of every unit changed, `skip` characters of a unit having been
dealt with. -/
def mapUnitsFrom (f : Text → Text) : Nat → Text → Text
  | _, [] => []
  | skip + 1, _ :: cs => mapUnitsFrom f skip cs
  | 0, c :: cs =>
    match if c = '[' then unitContent? cs else none with
    | some content => '[' :: (f content ++ ']' :: mapUnitsFrom f (content.length + 1) cs)
    | none => c :: mapUnitsFrom f 0 cs

/-- The text with the content of every unit changed. -/
def mapUnits (f : Text → Text) (t : Text) : Text := mapUnitsFrom f 0 t

/-- The text with the contents of its units left out. -/
def outsideUnits (t : Text) : Text := mapUnits (fun _ => []) t

theorem simplifyUnits_eq_mapUnits (t : Text) : simplifyUnits t = mapUnits simplifyUnit t := by
  have key : ∀ (t : Text) (skip : Nat),
      simplifyUnitsFrom skip t = mapUnitsFrom simplifyUnit skip t := by
    intro t
    induction t with
    | nil => intro skip; cases skip <;> rfl
    | cons c t ih =>
      intro skip
      cases skip with
      | zero =>
        rw [simplifyUnitsFrom, mapUnitsFrom]
        generalize (if c = '[' then unitContent? t else none) = content
        cases content with
        | none => exact congrArg (c :: ·) (ih 0)
        | some k =>
          exact congrArg (fun u => '[' :: (simplifyUnit k ++ ']' :: u)) (ih (k.length + 1))
      | succ skip => exact ih skip
  exact key t 0

/-- A text as single characters and whole units. -/
inductive Bracketed : Text → Prop
  | nil : Bracketed []
  | char {c : Char} {t : Text} : (c = '[' → unitContent? t = none) → Bracketed t →
      Bracketed (c :: t)
  | unit {k t : Text} : ']' ∉ k → '\n' ∉ k → Bracketed t → Bracketed ('[' :: (k ++ ']' :: t))

theorem unitContent?_append (h1 : ']' ∉ k) (h2 : '\n' ∉ k) (t : Text) :
    unitContent? (k ++ ']' :: t) = some k := by
  induction k with
  | nil => simp [unitContent?]
  | cons c k ih =>
    simp only [List.mem_cons, not_or] at h1 h2
    simp [unitContent?, Ne.symm h1.1, Ne.symm h2.1, ih h1.2 h2.2]

theorem unitContent?_eq_some (h : unitContent? t = some k) :
    ∃ rest, t = k ++ ']' :: rest ∧ ']' ∉ k ∧ '\n' ∉ k := by
  induction t generalizing k with
  | nil => simp [unitContent?] at h
  | cons c t ih =>
    rw [unitContent?] at h
    split at h
    next hc =>
      obtain rfl := Option.some.inj h
      exact ⟨t, by simp [hc]⟩
    next hc =>
      split at h
      next => contradiction
      next hn =>
        obtain ⟨k', hk, rfl⟩ := Option.map_eq_some_iff.1 h
        obtain ⟨rest, rfl, h1, h2⟩ := ih hk
        exact ⟨rest, rfl, by simp [h1, Ne.symm hc], by simp [h2, Ne.symm hn]⟩

theorem bracketed (t : Text) : Bracketed t := by
  induction hn : t.length using Nat.strongRecOn generalizing t with
  | ind n ih =>
    cases t with
    | nil => exact .nil
    | cons c t =>
      simp only [List.length_cons] at hn
      cases hu : if c = '[' then unitContent? t else none with
      | none =>
        refine .char (fun hc => ?_) (ih t.length (by omega) t rfl)
        simpa [hc] using hu
      | some k =>
        split at hu
        next hc =>
          obtain ⟨rest, rfl, h1, h2⟩ := unitContent?_eq_some hu
          simp only [List.length_append, List.length_cons] at hn
          subst hc
          exact .unit h1 h2 (ih rest.length (by omega) rest rfl)
        next => contradiction

theorem mapUnitsFrom_skip (f : Text → Text) (s t : Text) :
    mapUnitsFrom f s.length (s ++ t) = mapUnits f t := by
  induction s with
  | nil => rfl
  | cons c s ih => simpa [mapUnitsFrom] using ih

theorem mapUnits_nil (f : Text → Text) : mapUnits f [] = [] := rfl

theorem mapUnits_char (f : Text → Text) {c : Char} (h : c = '[' → unitContent? t = none) :
    mapUnits f (c :: t) = c :: mapUnits f t := by
  have hn : (if c = '[' then unitContent? t else none) = none := by
    split
    next hc => exact h hc
    next => rfl
  simp [mapUnits, mapUnitsFrom, hn]

theorem mapUnits_unit (f : Text → Text) (h1 : ']' ∉ k) (h2 : '\n' ∉ k) (t : Text) :
    mapUnits f ('[' :: (k ++ ']' :: t)) = '[' :: (f k ++ ']' :: mapUnits f t) := by
  have hskip := mapUnitsFrom_skip f (k ++ [']']) t
  rw [List.length_append, List.length_singleton, List.append_assoc, List.singleton_append] at hskip
  simp [mapUnits, mapUnitsFrom, unitContent?_append h1 h2, hskip]

/-- A text before the first bracket is kept. -/
theorem mapUnits_append (f : Text → Text) {a : Text} (ha : '[' ∉ a) (t : Text) :
    mapUnits f (a ++ t) = a ++ mapUnits f t := by
  induction a with
  | nil => rfl
  | cons c a ih =>
    simp only [List.mem_cons, not_or] at ha
    rw [List.cons_append, mapUnits_char f fun hc => absurd hc.symm ha.1, ih ha.2, List.cons_append]

/-- A row has no unit content when no bracket closes on it. -/
theorem unitContent?_eq_none_iff :
    unitContent? t = none ↔ ']' ∉ t.takeWhile (fun c => c ≠ '\n') := by
  induction t with
  | nil => simp [unitContent?]
  | cons c t ih =>
    rw [unitContent?]
    by_cases h1 : c = ']'
    · simp [h1]
    · by_cases h2 : c = '\n'
      · simp [h2]
      · simp [h1, h2, ih, Ne.symm h1]

theorem unitContent?_mapUnits (h : unitContent? t = none) : unitContent? (mapUnits f t) = none := by
  have hb := bracketed t
  induction hb with
  | nil => rfl
  | @char c t hc _ ih =>
    rw [mapUnits_char f hc]
    rw [unitContent?] at h ⊢
    split at h
    next => contradiction
    next h1 =>
      rw [if_neg h1]
      split at h
      next h2 => rw [if_pos h2]
      next h2 => rw [if_neg h2, ih (by simpa using h)]; rfl
  | @unit k t h1 h2 _ _ =>
    have hk : '\n' ∉ '[' :: k := by simp [h2]
    have hk' : ']' ∉ '[' :: k := by simp [h1]
    have := unitContent?_append hk' hk t
    rw [List.cons_append] at this
    rw [this] at h
    contradiction

/-- A text whose units are settled, read bracket by bracket. -/
inductive SettledUnits : Text → Prop
  | plain {a : Text} : '[' ∉ a → SettledUnits a
  | open_ {a t : Text} : '[' ∉ a → unitContent? t = none → SettledUnits t →
      SettledUnits (a ++ '[' :: t)
  | unit {a k t : Text} : '[' ∉ a → ']' ∉ k → '\n' ∉ k → SettledUnit k → SettledUnits t →
      SettledUnits (a ++ '[' :: (k ++ ']' :: t))

theorem SettledUnits.cons {c : Char} (hc : c ≠ '[') (h : SettledUnits t) :
    SettledUnits (c :: t) := by
  have hm {a : Text} (ha : '[' ∉ a) : '[' ∉ c :: a := by simp [ha, Ne.symm hc]
  cases h with
  | plain ha => exact .plain (hm ha)
  | open_ ha hn ht => exact .open_ (hm ha) hn ht
  | unit ha h1 h2 hk ht => exact .unit (hm ha) h1 h2 hk ht

theorem settledUnits_simplifyUnits (t : Text) : SettledUnits (simplifyUnits t) := by
  rw [simplifyUnits_eq_mapUnits]
  have hb := bracketed t
  induction hb with
  | nil => exact .plain (by simp [mapUnits_nil])
  | @char c t hc _ ih =>
    rw [mapUnits_char _ hc]
    by_cases ho : c = '['
    · subst ho
      exact .open_ (a := []) (by simp) (unitContent?_mapUnits (hc rfl)) ih
    · exact ih.cons ho
  | @unit k t h1 h2 _ ih =>
    rw [mapUnits_unit _ h1 h2]
    refine .unit (a := []) (by simp) (fun hm => ?_) (fun hm => ?_) (settled_simplifyUnit k) ih
    · exact (mem_simplifyUnit hm).elim h1 (by decide)
    · exact (mem_simplifyUnit hm).elim h2 (by decide)

theorem SettledUnits.simplifyUnits_eq (h : SettledUnits t) : simplifyUnits t = t := by
  rw [simplifyUnits_eq_mapUnits]
  induction h with
  | @plain a ha => simpa [mapUnits_nil] using mapUnits_append simplifyUnit ha []
  | open_ ha hn _ ih => rw [mapUnits_append _ ha, mapUnits_char _ fun _ => hn, ih]
  | unit ha h1 h2 hk _ ih =>
    rw [mapUnits_append _ ha, mapUnits_unit _ h1 h2, hk.simplifyUnit_eq, ih]

/-- A step that brings no brackets, rows, slashes or stars, is local where units and their
fractions are cut, and does not blank an end. -/
structure Tame (f : Text → Text) : Prop where
  nil : f [] = []
  splits : ∀ d, d ∈ "[]/ \n".toList → SplitsAt f d
  mem : ∀ d, d ∈ "[]/\n*".toList → ∀ t, d ∈ f t → d ∈ t
  trimmed : ∀ t, IsTrimmed t → IsTrimmed (f t)
  ne_nil : ∀ t, t ≠ [] → f t ≠ []

theorem Tame.comp (hg : Tame g) (hf : Tame f) : Tame fun t => g (f t) where
  nil := by rw [hf.nil, hg.nil]
  splits d hd := (hg.splits d hd).comp (hf.splits d hd)
  mem d hd t h := hf.mem d hd t (hg.mem d hd _ h)
  trimmed t ht := hg.trimmed _ (hf.trimmed t ht)
  ne_nil t ht := hg.ne_nil _ (hf.ne_nil t ht)

/-- A step that only puts characters in is tame where these take no part in units. -/
theorem Tame.of_inserted {P : Char → Prop} (h : ∀ t, Inserted P t (f t))
    (hs : ∀ d, d ∈ "[]/ \n".toList → SplitsAt f d) (hP : ∀ c, P c → c ∉ "[]/\n*".toList)
    (hb : ∀ c, P c → isBlank c = false) (hn : f [] = []) : Tame f where
  nil := hn
  splits := hs
  mem d hd t hm := ((h t).mem_iff fun hp => hP d hp hd).1 hm
  trimmed t ht := (h t).isTrimmed hb ht
  ne_nil t ht := by
    have := (h t).length_le
    have := List.length_pos_iff.2 ht
    exact List.length_pos_iff.1 (by omega)

theorem Tame.settledUnit (hf : Tame f) (hb : ∀ t, subscript.brace (f t) = f t)
    (h : SettledUnit k) : SettledUnit (f k) := by
  have hp {p : Text} (h : SettledProduct p) : SettledProduct (f p) :=
    ⟨fun hm => h.star (hf.mem '*' (by decide) p hm), hf.trimmed p h.trimmed, hb p⟩
  cases h with
  | product h hs => exact .product (hp h) fun hm => hs (hf.mem '/' (by decide) _ hm)
  | @fraction p q h hne hs hq =>
    have h1 := hf.splits ' ' (by decide) p ('/' :: ' ' :: q)
    have h2 := hf.splits '/' (by decide) [] (' ' :: q)
    have h3 := hf.splits ' ' (by decide) [] q
    simp only [List.nil_append, hf.nil] at h1 h2 h3
    rw [h1, h2, h3]
    exact .fraction (hp h) (hf.ne_nil p hne) (fun hm => hs (hf.mem '/' (by decide) p hm)) (hp hq)

theorem Tame.unitContent? (hf : Tame f) (h : unitContent? t = none) :
    unitContent? (f t) = none := by
  rw [unitContent?_eq_none_iff] at h ⊢
  have hrow {a b : Text} (h1 : '\n' ∉ a) (hb : b = [] ∨ ∃ b', b = '\n' :: b') :
      (a ++ b).takeWhile (fun c => c ≠ '\n') = a := by
    rw [List.takeWhile_append_of_pos (by rintro c hc; simpa using ne_of_mem_of_not_mem hc h1)]
    rcases hb with rfl | ⟨b', rfl⟩ <;> simp
  have hsplit := (List.takeWhile_append_dropWhile (p := fun c => decide (c ≠ '\n')) (l := t))
  generalize ha : t.takeWhile (fun c => decide (c ≠ '\n')) = a at h hsplit
  have han : '\n' ∉ a := by
    rw [← ha]
    intro hm
    simpa using List.mem_takeWhile_imp hm
  have hfa : '\n' ∉ f a := fun hm => han (hf.mem '\n' (by decide) a hm)
  have hfa' : ']' ∉ f a := fun hm => h (hf.mem ']' (by decide) a hm)
  rw [← hsplit]
  cases hd : t.dropWhile (fun c => decide (c ≠ '\n')) with
  | nil => rwa [List.append_nil, ← List.append_nil (f a), hrow hfa (.inl rfl)]
  | cons c b =>
    have hc : c = '\n' := by
      have := List.head?_dropWhile_not (fun c => decide (c ≠ '\n')) t
      rw [hd] at this
      simpa using this
    rw [hc, hf.splits '\n' (by decide), hrow hfa (.inr ⟨_, rfl⟩)]
    exact hfa'

/-- Tame steps keep units settled. -/
theorem Tame.settledUnits (hf : Tame f) (hb : ∀ t, subscript.brace (f t) = f t)
    (h : SettledUnits t) : SettledUnits (f t) := by
  have hopen := hf.mem '[' (by decide)
  induction h with
  | @plain a ha => exact .plain fun hm => ha (hopen a hm)
  | @open_ a t ha hn _ ih =>
    rw [hf.splits '[' (by decide)]
    exact .open_ (fun hm => ha (hopen a hm)) (hf.unitContent? hn) ih
  | @unit a k t ha h1 h2 hk _ ih =>
    rw [hf.splits '[' (by decide), hf.splits ']' (by decide)]
    exact .unit (fun hm => ha (hopen a hm)) (fun hm => h1 (hf.mem ']' (by decide) k hm))
      (fun hm => h2 (hf.mem '\n' (by decide) k hm)) (hf.settledUnit hb hk) ih

end VariableReport.Formula

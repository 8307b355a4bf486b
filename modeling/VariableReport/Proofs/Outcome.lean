import Mathlib.Data.List.Forall2

/-!
# Outcomes in sequence

A sequence of steps that may fail succeeds exactly when every step does. The facts are
stated for all failures, so that a chain of steps is opened one step at a time.
-/

namespace VariableReport.Outcome

variable {ε α β : Type} {x : Except ε α} {f : α → Except ε β} {b : β}

/-- The first step succeeds, and then the rest does. -/
theorem bind_eq_ok : (x >>= f) = .ok b ↔ ∃ a, x = .ok a ∧ f a = .ok b := by
  cases x <;> simp [bind, Except.bind]

theorem map_eq_ok {g : α → β} : x.map g = .ok b ↔ ∃ a, x = .ok a ∧ g a = b := by
  cases x <;> simp [Except.map]

theorem exists_eq_ok (h : x.toOption.isSome = true) : ∃ a, x = .ok a := by
  cases x with
  | error e => contradiction
  | ok a => exact ⟨a, rfl⟩

theorem eq_ok_of_toOption {a : α} (h : x.toOption = some a) : x = .ok a := by
  cases x with
  | error e => cases h
  | ok b => rw [Option.some.inj h]

theorem exists_bind_eq_ok : (∃ b, (x >>= f) = .ok b) ↔ ∃ a, x = .ok a ∧ ∃ b, f a = .ok b := by
  simp only [bind_eq_ok]
  exact exists_comm.trans (exists_congr fun a => exists_and_left)

/-- Every member of the first of two related lists has a partner in the second. -/
theorem exists_of_mem_forall₂ {R : α → β → Prop} {xs : List α} {ys : List β} {a : α}
    (h : List.Forall₂ R xs ys) (ha : a ∈ xs) : ∃ b ∈ ys, R a b := by
  induction h with
  | nil => contradiction
  | cons hab _ ih =>
    rcases List.mem_cons.1 ha with rfl | ha
    · exact ⟨_, by simp, hab⟩
    · obtain ⟨b, hb, h⟩ := ih ha
      exact ⟨b, by simp [hb], h⟩

/-- What holds of the members of the second list holds of the partners. -/
theorem forall₂_and_right {R : α → β → Prop} {P : β → Prop} {xs : List α} {ys : List β}
    (h : List.Forall₂ R xs ys) (hP : ∀ b ∈ ys, P b) :
    List.Forall₂ (fun a b => R a b ∧ P b) xs ys := by
  induction h with
  | nil => exact .nil
  | cons hab _ ih =>
    rw [List.forall_mem_cons] at hP
    exact .cons ⟨hab, hP.1⟩ (ih hP.2)

/-- Related members have related partners. -/
theorem forall₂_of_partners {γ δ : Type} {R : α → β → Prop} {A : α → γ → Prop} {B : β → δ → Prop}
    {S : γ → δ → Prop} {xs : List α} {ys : List β} {us : List γ} {vs : List δ}
    (h : List.Forall₂ R xs ys) (hA : List.Forall₂ A xs us) (hB : List.Forall₂ B ys vs)
    (hS : ∀ a b c d, R a b → A a c → B b d → S c d) : List.Forall₂ S us vs := by
  induction h generalizing us vs with
  | nil =>
    cases hA
    cases hB
    exact .nil
  | cons hab _ ih =>
    cases hA with
    | cons hac hA =>
      cases hB with
      | cons hbd hB => exact .cons (hS _ _ _ _ hab hac hbd) (ih hA hB)

/-- A sequence succeeds with the results of its members. -/
theorem mapM_eq_ok_iff {xs : List α} {ys : List β} :
    xs.mapM f = .ok ys ↔ List.Forall₂ (fun a b => f a = .ok b) xs ys := by
  induction xs generalizing ys with
  | nil =>
    rw [List.forall₂_nil_left_iff]
    exact ⟨fun h => (Except.ok.inj h).symm, fun h => h ▸ rfl⟩
  | cons x xs ih =>
    rw [List.mapM_cons, List.forall₂_cons_left_iff, bind_eq_ok]
    refine exists_congr fun y => ?_
    rw [exists_and_left]
    refine and_congr_right fun _ => ?_
    rw [bind_eq_ok]
    simp only [ih]
    constructor
    · rintro ⟨zs, hzs, hys⟩
      exact ⟨zs, hzs, (Except.ok.inj hys).symm⟩
    · rintro ⟨zs, hzs, rfl⟩
      exact ⟨zs, hzs, rfl⟩

/-- A list has partners when every member has one. -/
theorem exists_forall₂_iff {R : α → β → Prop} {xs : List α} :
    (∃ ys, List.Forall₂ R xs ys) ↔ ∀ a ∈ xs, ∃ b, R a b := by
  induction xs with
  | nil => simp
  | cons a xs ih =>
    rw [List.forall_mem_cons, ← ih]
    constructor
    · rintro ⟨_, _ | ⟨hb, hbs⟩⟩
      exact ⟨⟨_, hb⟩, _, hbs⟩
    · rintro ⟨⟨b, hb⟩, bs, hbs⟩
      exact ⟨b :: bs, .cons hb hbs⟩

/-- A sequence succeeds when every member does. -/
theorem exists_mapM_eq_ok {xs : List α} :
    (∃ ys, xs.mapM f = .ok ys) ↔ ∀ a ∈ xs, ∃ b, f a = .ok b := by
  simp only [mapM_eq_ok_iff, exists_forall₂_iff]

/-- Members with the same outcomes one by one have the same outcome together. -/
theorem mapM_eq_of_forall₂ {γ : Type} {g : γ → Except ε β} {xs : List α} {ys : List γ}
    (h : List.Forall₂ (fun a c => f a = g c) xs ys) : xs.mapM f = ys.mapM g := by
  induction h with
  | nil => rfl
  | cons hac _ ih => rw [List.mapM_cons, List.mapM_cons, hac, ih]

/-! ### How a run ends -/

/-- A run ends with a result of one kind or with a failure of another. -/
inductive Ends (E : ε → Prop) (P : α → Prop) : Except ε α → Prop
  | ok {a : α} : P a → Ends E P (.ok a)
  | error {e : ε} : E e → Ends E P (.error e)

section
variable {E : ε → Prop} {P : α → Prop} {e : ε}

theorem Ends.of_error (h : Ends E P (.error e : Except ε α)) : E e := by
  cases h with
  | error h => exact h

theorem Ends.mapError {ε' : Type} {E' : ε' → Prop} {g : ε → ε'} (h : Ends E P x)
    (hg : ∀ e, E e → E' (g e)) : Ends E' P (x.mapError g) := by
  cases h with
  | ok ha => exact .ok ha
  | error he => exact .error (hg _ he)

/-- A run that ends well unless it is derailed, where the failures tell the two apart, ends well
exactly when it is not derailed, and its failure is of the kind exactly when it tells so. -/
theorem ends_iff_not_derailed {tells : ε → Bool} {Derailed : Prop} (h : Ends E P x ∨ Derailed)
    (hE : ∀ e, E e → tells e = true)
    (hderailed : Derailed → ∃ e, x = .error e ∧ tells e = false) :
    (Ends E P x ↔ ¬Derailed) ∧ ∀ e, x = .error e → (tells e = true ↔ E e) := by
  have hexclude : Derailed → ¬Ends E P x := by
    intro hd hends
    obtain ⟨e, rfl, htells⟩ := hderailed hd
    rw [hE e hends.of_error] at htells
    contradiction
  refine ⟨⟨fun hends hd => hexclude hd hends, h.resolve_right⟩, ?_⟩
  rintro e rfl
  refine ⟨fun htells => ?_, hE e⟩
  rcases h with hends | hd
  · exact hends.of_error
  · obtain ⟨e', he', htells'⟩ := hderailed hd
    cases he'
    rw [htells] at htells'
    contradiction

end

end VariableReport.Outcome

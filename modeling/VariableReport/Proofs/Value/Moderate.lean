import VariableReport.Matrix
import VariableReport.Value.Printer
import VariableReport.Proofs.Number.Decimal
import VariableReport.Proofs.Number.Range
import Mathlib.Data.List.Induction

/-!
# Moderate values

A number that is spelled with at most 255 letters, digits and underscores is below a power of
sixteen that is in the range of double precision (`ofInt?_ne_none`) and has far fewer decimal
digits than a number may have that is printed (`Moderate.text?_ne_none`). Values without greater
whole numbers are moderate.
-/

namespace VariableReport

variable {t u : Text} {base num : Nat} {n : Int} {v : Value}

/-! ### Runs -/

/-- The characters with which whole numbers are spelled in any base. -/
def Text.isRunChar (c : Char) : Bool := isAsciiWord c || c = '_'

/-- The greatest length of a run that starts with a digit. -/
def Text.maxRun : Nat := 255

/-- No run that starts with a digit is longer than the greatest length. -/
def Text.ShortRuns (t : Text) : Prop := ∀ c u, c :: u <:+: t → isAsciiDigit c = true →
  (∀ d ∈ u, isRunChar d = true) → (c :: u).length ≤ maxRun

theorem Text.ShortRuns.part (h : ShortRuns t) (hu : u <:+: t) : ShortRuns u :=
  fun c v hv => h c v (hv.trans hu)

theorem Text.ShortRuns.length_le (h : ShortRuns t) (hu : u <:+: t)
    (hhead : ∀ c ∈ u.head?, isAsciiDigit c = true) (hchars : ∀ c ∈ u, isRunChar c = true) :
    u.length ≤ maxRun := by
  cases u with
  | nil => exact Nat.zero_le _
  | cons c v =>
    rw [List.forall_mem_cons] at hchars
    exact h c v hu (hhead c rfl) hchars.2

theorem Text.shortRuns_of_length_le (h : t.length ≤ maxRun) : ShortRuns t :=
  fun _ _ hu _ _ => Nat.le_trans hu.length_le h

theorem Decimal.digitValue?_cases {c : Char} {d : Nat} (h : digitValue? c = some d) :
    (48 ≤ c.toNat ∧ c.toNat ≤ 57 ∧ d = c.toNat - 48) ∨
      (97 ≤ c.toNat ∧ c.toNat ≤ 102 ∧ d = c.toNat - 87) ∨
      (65 ≤ c.toNat ∧ c.toNat ≤ 70 ∧ d = c.toNat - 55) := by
  simp only [digitValue?, Bool.and_eq_true, decide_eq_true_eq] at h
  split at h
  next hc => exact .inl ⟨hc.1, hc.2, (Option.some.inj h).symm⟩
  next =>
    split at h
    next hc => exact .inr (.inl ⟨hc.1, hc.2, (Option.some.inj h).symm⟩)
    next =>
      split at h
      next hc => exact .inr (.inr ⟨hc.1, hc.2, (Option.some.inj h).symm⟩)
      next => cases h

theorem Decimal.exists_digitValue? {c : Char} (h : isDigit base c = true) :
    ∃ d, digitValue? c = some d ∧ d < base := by
  unfold isDigit at h
  split at h
  next d hd => exact ⟨d, hd, by simpa using h⟩
  next => contradiction

theorem Text.isAsciiDigit_of_isDigit {c : Char} (h : Decimal.isDigit 10 c = true) :
    isAsciiDigit c = true := by
  obtain ⟨d, hd, hlt⟩ := Decimal.exists_digitValue? h
  have hrange : 48 ≤ c.toNat ∧ c.toNat ≤ 57 := by
    have := Decimal.digitValue?_cases hd
    omega
  simp only [isAsciiDigit, Bool.and_eq_true, decide_eq_true_eq]
  exact hrange

/-- Digits of any base are among the characters of a run. -/
theorem Text.isRunChar_of_isDigit {c : Char} (h : Decimal.isDigit base c = true) :
    isRunChar c = true := by
  obtain ⟨d, hd, -⟩ := Decimal.exists_digitValue? h
  have hword : isAsciiWord c = true := by
    simp only [isAsciiWord, isAsciiLetter, isAsciiDigit, Bool.or_eq_true, Bool.and_eq_true,
      decide_eq_true_eq]
    rcases Decimal.digitValue?_cases hd with ⟨h0, h9, -⟩ | ⟨ha, hf, -⟩ | ⟨ha, hf, -⟩
    · exact .inr ⟨h0, h9⟩
    · exact .inl (.inl ⟨ha, Nat.le_trans hf (by decide)⟩)
    · exact .inl (.inr ⟨ha, Nat.le_trans hf (by decide)⟩)
  rw [isRunChar, hword, Bool.true_or]

/-- Whole numbers of at most the greatest length are below this one. -/
def Value.bound : Nat := Decimal.pow 16 Text.maxRun

theorem Decimal.value_lt_pow (h : ∀ c ∈ u, isDigit base c = true) :
    value base u < pow base u.length := by
  induction u using List.reverseRecOn with
  | nil => exact Nat.one_pos
  | append_singleton u c ih =>
    have hu := ih fun d hd => h d (List.mem_append_left _ hd)
    obtain ⟨k, hk, hlt⟩ := exists_digitValue? (h c (by simp))
    have hc : value base [c] = k := by simp [value, hk]
    rw [value_append, hc, List.length_append, List.length_singleton, pow_add, pow_one]
    have hstep : (value base u + 1) * base ≤ pow base u.length * base :=
      Nat.mul_le_mul_right base hu
    rw [Nat.add_mul, Nat.one_mul] at hstep
    omega

theorem Decimal.value_lt_bound (h16 : base ≤ 16) (h : ∀ c ∈ u, isDigit base c = true)
    (hu : u.length ≤ Text.maxRun) :
    value base u < Value.bound := by
  refine Nat.lt_of_lt_of_le (value_lt_pow h) ?_
  calc pow base u.length ≤ pow 16 u.length := Nat.pow_le_pow_left h16 _
    _ ≤ pow 16 Text.maxRun := Nat.pow_le_pow_right (by decide) hu

/-! ### Range -/

theorem Double.ofInt?_ne_none (h : n.natAbs < Value.bound) : ofInt? n ≠ none := by
  have hbound : Value.bound ≤ limit := by decide +kernel
  rw [Ne, ofInt?_eq_none_iff, Nat.not_le]
  exact Nat.lt_of_lt_of_le h hbound

/-! ### Values -/

namespace Value

/-- All whole numbers in the value are below the bound. -/
inductive Moderate : Value → Prop
  | none : Moderate .none
  | ellipsis : Moderate .ellipsis
  | bool (b : Bool) : Moderate (.bool b)
  | int {n : Int} : n.natAbs < bound → Moderate (.int n)
  | float (d : Double) : Moderate (.float d)
  | complex (re im : Double) : Moderate (.complex re im)
  | str (t : Text) : Moderate (.str t)
  | bytes (b : Utf8.Bytes) : Moderate (.bytes b)
  | list {items : List Value} : (∀ v ∈ items, Moderate v) → Moderate (.list items)
  | tuple {items : List Value} : (∀ v ∈ items, Moderate v) → Moderate (.tuple items)
  | dict {entries : List (Value × Value)} : (∀ e ∈ entries, Moderate e.1) →
      (∀ e ∈ entries, Moderate e.2) → Moderate (.dict entries)
  | set {items : List Value} : (∀ v ∈ items, Moderate v) → Moderate (.set items)

theorem pow_le_pow_ten {k m : Nat} (h : 2 * k ≤ m) : Decimal.pow 16 k ≤ Decimal.pow 10 m :=
  calc Decimal.pow 16 k ≤ (10 ^ 2) ^ k := Nat.pow_le_pow_left (by decide) k
    _ = 10 ^ (2 * k) := (Nat.pow_mul 10 2 k).symm
    _ ≤ Decimal.pow 10 m := Nat.pow_le_pow_right (by decide) h

theorem isSome_intText? (h : n.natAbs < bound) : (intText? n).isSome := by
  have hbound : bound ≤ Decimal.pow 10 maxDigits := pow_le_pow_ten (by decide)
  rw [intText?, if_pos (Nat.lt_of_lt_of_le h hbound)]
  rfl

theorem isSome_literals? {items : List Value} (h : ∀ v ∈ items, (literal? v).isSome) :
    (literals? items).isSome := by
  induction items with
  | nil => rfl
  | cons v items ih =>
    rw [List.forall_mem_cons] at h
    obtain ⟨t, ht⟩ := Option.isSome_iff_exists.1 h.1
    obtain ⟨ts, hts⟩ := Option.isSome_iff_exists.1 (ih h.2)
    rw [literals?, ht, hts]
    rfl

theorem isSome_entryLiterals? {entries : List (Value × Value)}
    (hkeys : ∀ e ∈ entries, (literal? e.1).isSome) (h : ∀ e ∈ entries, (literal? e.2).isSome) :
    (entryLiterals? entries).isSome := by
  induction entries with
  | nil => rfl
  | cons e entries ih =>
    rw [List.forall_mem_cons] at hkeys h
    obtain ⟨a, ha⟩ := Option.isSome_iff_exists.1 hkeys.1
    obtain ⟨b, hb⟩ := Option.isSome_iff_exists.1 h.1
    obtain ⟨ts, hts⟩ := Option.isSome_iff_exists.1 (ih hkeys.2 h.2)
    rw [entryLiterals?, ha, hb, hts]
    rfl

theorem Moderate.isSome_literal? (h : Moderate v) : (literal? v).isSome := by
  induction h with
  | none => rfl
  | ellipsis => rfl
  | bool b => rfl
  | int hn => exact isSome_intText? hn
  | float d => rfl
  | complex re im => rfl
  | str t => rfl
  | bytes b => rfl
  | list _ ih => rw [literal?, Option.isSome_map]; exact isSome_literals? ih
  | tuple _ ih => rw [literal?, Option.isSome_map]; exact isSome_literals? ih
  | dict _ _ ihkeys ih => rw [literal?, Option.isSome_map]; exact isSome_entryLiterals? ihkeys ih
  | set _ ih => rw [literal?, Option.isSome_map]; exact isSome_literals? ih

/-- A moderate value can be printed. -/
theorem Moderate.text?_ne_none (h : Moderate v) : v.text? ≠ Option.none := by
  rw [← Option.isSome_iff_ne_none]
  cases v with
  | str t => rfl
  | _ => exact h.isSome_literal?

theorem moderate_setOf {items : List Value} (h : ∀ v ∈ items, Moderate v) :
    Moderate (setOf items) := by
  refine .set (List.foldlRecOn items _ (motive := fun acc => ∀ v ∈ acc, Moderate v) (by simp) ?_)
  intro acc hacc v hv
  split
  · exact hacc
  · exact List.forall_mem_append.2 ⟨hacc, List.forall_mem_singleton.2 (h v hv)⟩

theorem mem_put {k x : Value} {e : Value × Value} {entries : List (Value × Value)}
    (h : e ∈ put k x entries) : (e.1 = k ∨ ∃ y, (e.1, y) ∈ entries) ∧
      (e.2 = x ∨ ∃ l, (l, e.2) ∈ entries) := by
  induction entries with
  | nil =>
    obtain rfl := List.mem_singleton.1 h
    exact ⟨.inl rfl, .inl rfl⟩
  | cons first entries ih =>
    obtain ⟨l, y⟩ := first
    rw [put] at h
    split at h
    · rcases List.mem_cons.1 h with rfl | h
      · exact ⟨.inr ⟨y, by simp⟩, .inl rfl⟩
      · exact ⟨.inr ⟨e.2, by simp [h]⟩, .inr ⟨e.1, by simp [h]⟩⟩
    · rcases List.mem_cons.1 h with rfl | h
      · exact ⟨.inr ⟨y, by simp⟩, .inr ⟨l, by simp⟩⟩
      · obtain ⟨hkey, hvalue⟩ := ih h
        exact ⟨hkey.imp_right fun ⟨z, hz⟩ => ⟨z, by simp [hz]⟩,
          hvalue.imp_right fun ⟨z, hz⟩ => ⟨z, by simp [hz]⟩⟩

theorem moderate_dictOf {entries : List (Value × Value)} (hkeys : ∀ e ∈ entries, Moderate e.1)
    (h : ∀ e ∈ entries, Moderate e.2) : Moderate (dictOf entries) := by
  suffices hall : ∀ e ∈ entries.foldl (fun acc e => put e.1 e.2 acc) [],
      Moderate e.1 ∧ Moderate e.2 from
    .dict (fun e he => (hall e he).1) fun e he => (hall e he).2
  refine List.foldlRecOn entries _
    (motive := fun acc : List (Value × Value) => ∀ e ∈ acc, Moderate e.1 ∧ Moderate e.2)
    (by simp) ?_
  intro acc hacc first hfirst e he
  obtain ⟨hkey, hvalue⟩ := mem_put he
  constructor
  · rcases hkey with hkey | ⟨y, hy⟩
    · exact hkey ▸ hkeys first hfirst
    · exact (hacc _ hy).1
  · rcases hvalue with hvalue | ⟨l, hl⟩
    · exact hvalue ▸ h first hfirst
    · exact (hacc _ hl).2

end Value

end VariableReport

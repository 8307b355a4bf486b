import VariableReport.Formula
import VariableReport.Proofs.Formula.Script

/-!
# Carets for stars

After carets have taken the places of double stars no two stars stand next to each other,
and a text without two such stars is left as it is. What the replacement does to a text is
seen at single characters: a star may become a caret or vanish, and nothing else changes.
-/

namespace VariableReport.Formula
open Text

variable {t : Text}

/-- No two stars stand next to each other. -/
def Unpaired (t : Text) : Prop := t.IsChain fun a b => ¬(a = '*' ∧ b = '*')

theorem caretPowers_pair (t : Text) : caretPowers ('*' :: '*' :: t) = '^' :: caretPowers t := by
  rw [caretPowers]

theorem caretPowers_cons {c : Char} (h : ¬(c = '*' ∧ t.head? = some '*')) :
    caretPowers (c :: t) = c :: caretPowers t := by
  rw [caretPowers.eq_def]
  split
  next heq =>
    obtain ⟨rfl, rfl⟩ := List.cons.inj heq
    simp at h
  next heq =>
    obtain ⟨rfl, rfl⟩ := List.cons.inj heq
    rfl
  next heq => contradiction

/-- A text as pairs of stars and other characters. -/
theorem caretPowers_induction {P : Text → Prop} (nil : P [])
    (pair : ∀ t, P t → P ('*' :: '*' :: t))
    (char : ∀ c t, ¬(c = '*' ∧ t.head? = some '*') → P t → P (c :: t)) (t : Text) : P t := by
  induction hn : t.length using Nat.strongRecOn generalizing t with
  | ind n ih =>
    cases t with
    | nil => exact nil
    | cons c t =>
      simp only [List.length_cons] at hn
      by_cases h : c = '*' ∧ t.head? = some '*'
      · obtain ⟨rfl, h⟩ := h
        cases t with
        | nil => simp at h
        | cons d t =>
          obtain rfl : d = '*' := by simpa using h
          simp only [List.length_cons] at hn
          exact pair t (ih t.length (by omega) t rfl)
      · exact char c t h (ih t.length (by omega) t rfl)

theorem mem_caretPowers {d : Char} (h : d ∈ caretPowers t) : d = '^' ∨ d ∈ t := by
  induction t using caretPowers_induction with
  | nil => exact .inr h
  | pair t ih =>
    rw [caretPowers_pair, List.mem_cons] at h
    exact h.elim .inl fun h => (ih h).imp_right fun h => by simp [h]
  | char c t hp ih =>
    rw [caretPowers_cons hp, List.mem_cons] at h
    rcases h with rfl | h
    · exact .inr (by simp)
    · exact (ih h).imp_right fun h => by simp [h]

theorem head_caretPowers : ∀ c ∈ (caretPowers t).head?, c = '^' ∨ c ∈ t.head? := by
  induction t using caretPowers_induction with
  | nil => simp [caretPowers]
  | pair t _ => simp [caretPowers_pair]
  | char c t hp _ => simp [caretPowers_cons hp]

theorem caretPowers_ne_nil (h : t ≠ []) : caretPowers t ≠ [] := by
  induction t using caretPowers_induction with
  | nil => contradiction
  | pair t _ => simp [caretPowers_pair]
  | char c t hp _ => simp [caretPowers_cons hp]

theorem getLast_caretPowers : ∀ c ∈ (caretPowers t).getLast?, c = '^' ∨ c ∈ t.getLast? := by
  induction t using caretPowers_induction with
  | nil => simp [caretPowers]
  | pair t ih =>
    intro c hc
    cases t with
    | nil => exact .inl (by simpa [caretPowers, eq_comm] using hc)
    | cons x t =>
      obtain ⟨y, u, hy⟩ := List.exists_cons_of_ne_nil (caretPowers_ne_nil (List.cons_ne_nil x t))
      rw [caretPowers_pair, hy, List.getLast?_cons_cons, ← hy] at hc
      rw [List.getLast?_cons_cons, List.getLast?_cons_cons]
      exact ih c hc
  | char d t hp ih =>
    intro c hc
    cases t with
    | nil => simp_all [caretPowers]
    | cons x t =>
      obtain ⟨y, u, hy⟩ := List.exists_cons_of_ne_nil (caretPowers_ne_nil (List.cons_ne_nil x t))
      rw [caretPowers_cons hp, hy, List.getLast?_cons_cons, ← hy] at hc
      rw [List.getLast?_cons_cons]
      exact ih c hc

theorem caretPowers_splitsAt {d : Char} (hd : d ≠ '*') : SplitsAt caretPowers d := by
  intro a b
  induction a using caretPowers_induction with
  | nil => rw [List.nil_append, caretPowers_cons fun h => hd h.1]; rfl
  | pair a ih => rw [List.cons_append, List.cons_append, caretPowers_pair, caretPowers_pair, ih,
      List.cons_append]
  | char c a hp ih =>
    have hp' : ¬(c = '*' ∧ (a ++ d :: b).head? = some '*') := by
      cases a with
      | nil => simp [hd]
      | cons x a => simpa using hp
    rw [List.cons_append, caretPowers_cons hp', caretPowers_cons hp, ih, List.cons_append]

theorem unpaired_caretPowers (t : Text) : Unpaired (caretPowers t) := by
  unfold Unpaired
  induction t using caretPowers_induction with
  | nil => simp [caretPowers]
  | pair t ih =>
    rw [caretPowers_pair, List.isChain_cons]
    exact ⟨by simp, ih⟩
  | char c t hp ih =>
    rw [caretPowers_cons hp, List.isChain_cons]
    refine ⟨fun b hb => ?_, ih⟩
    rcases head_caretPowers b hb with rfl | hb
    · simp
    · rintro ⟨rfl, rfl⟩
      exact hp ⟨rfl, hb⟩

theorem caretPowers_eq_self (h : Unpaired t) : caretPowers t = t := by
  induction t with
  | nil => rfl
  | cons c t ih =>
    rw [Unpaired, List.isChain_cons] at h
    have hp : ¬(c = '*' ∧ t.head? = some '*') := fun hc => h.1 '*' (by simp [hc.2]) ⟨hc.1, rfl⟩
    rw [caretPowers_cons hp, ih h.2]

/-- Exponents stay normal when characters are put in that are neither stars nor carets nor
part of an exponent. -/
theorem normalizeExponents_eq_self {P : Char → Prop} {t u : Text}
    (hP : ∀ c, P c → c ≠ '*' ∧ c ≠ '^' ∧ superscript.member c = false)
    (h : Inserted P (normalizeExponents t) u) : normalizeExponents u = u := by
  have hstar : Unpaired u := by
    refine h.isChain (fun c hc d => ?_) ?_
    · have := (hP c hc).1
      exact ⟨fun h => this h.1, fun h => this h.2⟩
    · refine (Script.brace_inserted superscript _).isChain ?_ (unpaired_caretPowers t)
      rintro c (rfl | rfl) d <;> exact ⟨by simp, by simp⟩
  have hcaret : u.IsChain fun a b => a = superscript.mark → superscript.member b = false := by
    refine h.isChain (fun c hc d => ?_) ?_
    · exact ⟨fun hm => absurd hm (hP c hc).2.1, fun _ => (hP c hc).2.2⟩
    · exact (Script.bracing_brace superscript _).isChain Script.superscript_proper
  unfold normalizeExponents
  rw [caretPowers_eq_self hstar]
  exact Script.brace_eq_self_of_isChain rfl hcaret

end VariableReport.Formula

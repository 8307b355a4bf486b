import VariableReport.Proofs.Text.Blank
import Mathlib.Data.List.Chain

/-!
# Texts with characters put in

Several steps over a text only put characters in. What such a step keeps is stated once
here: which characters occur, which follow each other, and whether the ends are blank. A
step may also be local at a character, so that it treats the two sides of that
character apart; unit brackets survive a step for that reason.
-/

namespace VariableReport.Text

/-- The second text is the first one with characters of a class put in. -/
inductive Inserted (P : Char → Prop) : Text → Text → Prop
  | nil : Inserted P [] []
  | keep {c : Char} {t u : Text} : Inserted P t u → Inserted P (c :: t) (c :: u)
  | add {c : Char} {t u : Text} : P c → Inserted P t u → Inserted P t (c :: u)

namespace Inserted

variable {P : Char → Prop} {t u v w : Text}

theorem refl (t : Text) : Inserted P t t := by
  induction t with
  | nil => exact .nil
  | cons c t ih => exact .keep ih

theorem append (h : Inserted P t u) (k : Inserted P v w) : Inserted P (t ++ v) (u ++ w) := by
  induction h with
  | nil => exact k
  | keep _ ih => exact .keep ih
  | add hc _ ih => exact .add hc ih

theorem mono {Q : Char → Prop} (h : Inserted P t u) (hPQ : ∀ c, P c → Q c) :
    Inserted Q t u := by
  induction h with
  | nil => exact .nil
  | keep _ ih => exact .keep ih
  | add hc _ ih => exact .add (hPQ _ hc) ih

theorem trans (h : Inserted P t u) (k : Inserted P u v) : Inserted P t v := by
  induction k generalizing t with
  | nil => exact h
  | keep _ ih =>
    cases h with
    | keep h => exact .keep (ih h)
    | add hc h => exact .add hc (ih h)
  | add hc _ ih => exact .add hc (ih h)

theorem sublist (h : Inserted P t u) : t.Sublist u := by
  induction h with
  | nil => exact .slnil
  | keep _ ih => exact ih.cons_cons _
  | add _ _ ih => exact ih.cons _

theorem length_le (h : Inserted P t u) : t.length ≤ u.length := h.sublist.length_le

/-- Nothing was put in when the text did not become longer. -/
theorem eq_of_length_le (h : Inserted P t u) (hl : u.length ≤ t.length) : u = t := by
  induction h with
  | nil => rfl
  | keep _ ih => rw [ih (by simpa using hl)]
  | add _ k _ =>
    have := k.length_le
    simp only [List.length_cons] at hl
    omega

theorem mem_iff (h : Inserted P t u) {c : Char} (hc : ¬P c) : c ∈ u ↔ c ∈ t := by
  induction h with
  | nil => rfl
  | keep _ ih => simp [ih]
  | @add d t u hd _ ih =>
    have hne : c ≠ d := by rintro rfl; exact hc hd
    simp [hne, ih]

theorem head (h : Inserted P t u) : ∀ c ∈ u.head?, P c ∨ c ∈ t.head? := by
  cases h with
  | nil => simp
  | keep => simp
  | add hc => simpa using Or.inl hc

theorem getLast (h : Inserted P t u) : ∀ c ∈ u.getLast?, P c ∨ c ∈ t.getLast? := by
  induction h with
  | nil => simp
  | @keep d t u h ih =>
    intro c hc
    cases u with
    | nil =>
      have ht : t = [] := List.length_eq_zero_iff.1 (Nat.le_zero.1 h.length_le)
      simpa [ht] using Or.inr hc
    | cons x xs =>
      rw [List.getLast?_cons_cons] at hc
      cases t with
      | nil => exact (ih c hc).imp_right (by simp)
      | cons y ys => simpa [List.getLast?_cons_cons] using ih c hc
  | @add d t u hd _ ih =>
    intro c hc
    cases u with
    | nil => exact Or.inl (by simp_all)
    | cons x xs =>
      rw [List.getLast?_cons_cons] at hc
      exact ih c hc

/-- Nothing is seen of what was put in where it is filtered out. -/
theorem filter_eq (h : Inserted P t u) {q : Char → Bool} (hq : ∀ c, P c → q c = false) :
    u.filter q = t.filter q := by
  induction h with
  | nil => rfl
  | keep _ ih => rw [List.filter_cons, List.filter_cons, ih]
  | add hc _ ih => rw [List.filter_cons_of_neg (by simp [hq _ hc]), ih]

/-- What may follow each character still does, when all that is put in may stand before
and after every character. -/
theorem isChain (h : Inserted P t u) {R : Char → Char → Prop}
    (hP : ∀ c, P c → ∀ d, R c d ∧ R d c) (ht : t.IsChain R) : u.IsChain R := by
  induction h with
  | nil => exact ht
  | @keep c t u h ih =>
    rw [List.isChain_cons] at ht ⊢
    refine ⟨fun d hd => ?_, ih ht.2⟩
    rcases h.head d hd with hp | hp
    · exact (hP d hp c).2
    · exact ht.1 d hp
  | @add c t u hc _ ih =>
    rw [List.isChain_cons]
    exact ⟨fun d _ => (hP c hc d).1, ih ht⟩

end Inserted

theorem Inserted.isTrimmed {P : Char → Prop} {t u : Text} (h : Inserted P t u)
    (hP : ∀ c, P c → isBlank c = false) (ht : IsTrimmed t) : IsTrimmed u := by
  constructor <;> intro c hc
  · exact (h.head c hc).elim (hP c) (ht.1 c)
  · exact (h.getLast c hc).elim (hP c) (ht.2 c)

/-- A step is local at a character when it treats the texts before and after the character
apart. -/
def SplitsAt (f : Text → Text) (d : Char) : Prop := ∀ a b, f (a ++ d :: b) = f a ++ d :: f b

/-- What stands between two characters at which a step is local stands between them after it. -/
theorem infix_of_splitsAt {f : Text → Text} {p q : Text} (hp : ∀ d ∈ p.getLast?, SplitsAt f d)
    (hq : ∀ d ∈ q.head?, SplitsAt f d) (m : Text) : f m <:+: f (p ++ (m ++ q)) := by
  have hright : ∃ v, f (m ++ q) = f m ++ v := by
    cases q with
    | nil => exact ⟨[], by simp⟩
    | cons d q => exact ⟨d :: f q, hq d (by simp) m q⟩
  obtain ⟨v, hv⟩ := hright
  rcases List.eq_nil_or_concat p with rfl | ⟨p, d, rfl⟩
  · exact ⟨[], v, by simp [hv]⟩
  · have hleft := hp d (by simp) p (m ++ q)
    have htext : p.concat d ++ (m ++ q) = p ++ d :: (m ++ q) := by simp
    refine ⟨f p ++ [d], v, ?_⟩
    rw [htext, hleft, hv]
    simp

theorem SplitsAt.comp {f g : Text → Text} {d : Char} (hg : SplitsAt g d) (hf : SplitsAt f d) :
    SplitsAt (fun t => g (f t)) d := by
  intro a b
  change g (f (a ++ d :: b)) = g (f a) ++ d :: g (f b)
  rw [hf, hg]

end VariableReport.Text

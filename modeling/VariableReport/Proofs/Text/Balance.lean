import VariableReport.Proofs.Text.Insertion
import VariableReport.Proofs.Text.Pieces

/-!
# Balanced braces

A text is balanced when it closes as many groups as it opens and no beginning of it closes more
than it opens. Read from the left inside some open groups, a text leaves a number of groups open
(`openAfter`), and it is balanced exactly when that is the number it was read in, whatever that
is (`balanced_iff_openAfter`). A step over a text keeps balance when it does not change what is
left open, and characters other than braces never do.
-/

namespace VariableReport.Text

variable {s t u p : Text} {c : Char} {n m : Nat}

def isBrace (c : Char) : Bool := c = '\x7b' || c = '\x7d'

/-- As many closing braces as opening ones, and in no beginning more of them. -/
structure Balanced (t : Text) : Prop where
  count_eq : t.count '\x7d' = t.count '\x7b'
  count_le : ∀ p, p <+: t → p.count '\x7d' ≤ p.count '\x7b'

/-- The number of open groups behind one more character; none when a group is closed that is not
open. -/
def openStep (n : Nat) (c : Char) : Option Nat :=
  if c = '\x7b' then some (n + 1)
  else if c = '\x7d' then if n = 0 then none else some (n - 1)
  else some n

/-- The number of open groups behind a text that is read inside `n` of them. -/
def openAfter : Nat → Text → Option Nat
  | n, [] => some n
  | n, c :: t => (openStep n c).bind fun m => openAfter m t

@[simp] theorem openAfter_nil (n : Nat) : openAfter n [] = some n := rfl

theorem openAfter_cons (n : Nat) (c : Char) (t : Text) :
    openAfter n (c :: t) = (openStep n c).bind fun m => openAfter m t := rfl

@[simp] theorem openAfter_open (n : Nat) (t : Text) :
    openAfter n ('\x7b' :: t) = openAfter (n + 1) t := rfl

@[simp] theorem openAfter_close (n : Nat) (t : Text) :
    openAfter (n + 1) ('\x7d' :: t) = openAfter n t := rfl

theorem openAfter_other (hc : isBrace c = false) (n : Nat) (t : Text) :
    openAfter n (c :: t) = openAfter n t := by
  simp only [isBrace, Bool.or_eq_false_iff, decide_eq_false_iff_not] at hc
  rw [openAfter_cons, openStep, if_neg hc.1, if_neg hc.2, Option.bind_some]

theorem openAfter_append (n : Nat) (s t : Text) :
    openAfter n (s ++ t) = (openAfter n s).bind fun m => openAfter m t := by
  induction s generalizing n with
  | nil => rfl
  | cons c s ih =>
    rw [List.cons_append, openAfter_cons, openAfter_cons, Option.bind_assoc]
    exact congrArg _ (funext ih)

/-- Characters other than braces open and close nothing. -/
theorem openAfter_unbraced_append (hs : ∀ c ∈ s, isBrace c = false) (n : Nat) (t : Text) :
    openAfter n (s ++ t) = openAfter n t := by
  induction s with
  | nil => rfl
  | cons c s ih =>
    rw [List.forall_mem_cons] at hs
    rw [List.cons_append, openAfter_other hs.1, ih hs.2]

theorem openAfter_unbraced (ht : ∀ c ∈ t, isBrace c = false) (n : Nat) :
    openAfter n t = some n := by
  simpa using openAfter_unbraced_append ht n []

theorem Inserted.openAfter_eq {P : Char → Prop} (h : Inserted P t u)
    (hP : ∀ c, P c → isBrace c = false) (n : Nat) : openAfter n u = openAfter n t := by
  induction h generalizing n with
  | nil => rfl
  | keep _ ih =>
    rw [openAfter_cons, openAfter_cons]
    exact congrArg _ (funext ih)
  | add hc _ ih => rw [openAfter_other (hP _ hc), ih]

/-- What is left open is told by the number of braces, as long as no beginning closes too many. -/
theorem openAfter_eq_some_iff : openAfter n t = some m ↔
    n + t.count '\x7b' = m + t.count '\x7d' ∧
      ∀ p, p <+: t → p.count '\x7d' ≤ n + p.count '\x7b' := by
  induction t generalizing n with
  | nil => simp [List.prefix_nil]
  | cons c t ih =>
    -- the empty beginning closes nothing, and each other one starts with the character
    have hprefixes : ∀ k : Nat, (∀ p, p <+: c :: t → p.count '\x7d' ≤ k + p.count '\x7b') ↔
        ∀ p, p <+: t → (c :: p).count '\x7d' ≤ k + (c :: p).count '\x7b' := by
      intro k
      simp only [List.prefix_cons_iff]
      constructor
      · exact fun h p hp => h (c :: p) (.inr ⟨p, rfl, hp⟩)
      · rintro h p (rfl | ⟨q, rfl, hq⟩)
        · simp
        · exact h q hq
    rw [hprefixes]
    by_cases hopen : c = '\x7b'
    · subst hopen
      rw [openAfter_open, ih]
      simp only [List.count_cons_self, List.count_cons_of_ne (by decide : '\x7b' ≠ '\x7d')]
      refine and_congr (by omega) (forall₂_congr fun p _ => ?_)
      omega
    · by_cases hclose : c = '\x7d'
      · subst hclose
        simp only [List.count_cons_self, List.count_cons_of_ne (by decide : '\x7d' ≠ '\x7b')]
        cases n with
        | zero =>
          refine iff_of_false (by simp [openAfter_cons, openStep]) fun h => ?_
          simpa using h.2 [] List.nil_prefix
        | succ n =>
          rw [openAfter_close, ih]
          refine and_congr (by omega) (forall₂_congr fun p _ => ?_)
          omega
      · rw [openAfter_other (by simp [isBrace, hopen, hclose]), ih]
        simp only [List.count_cons_of_ne hopen, List.count_cons_of_ne hclose]

/-- A balanced text leaves open what was open before it. -/
theorem balanced_iff_openAfter : Balanced t ↔ ∀ n, openAfter n t = some n := by
  simp only [openAfter_eq_some_iff]
  constructor
  · intro h n
    have heq := h.count_eq
    refine ⟨by omega, fun p hp => ?_⟩
    have hle := h.count_le p hp
    omega
  · intro h
    obtain ⟨heq, hle⟩ := h 0
    refine ⟨by omega, fun p hp => ?_⟩
    simpa using hle p hp

theorem balanced_of_unbraced (h : ∀ c ∈ t, isBrace c = false) : Balanced t :=
  balanced_iff_openAfter.2 (openAfter_unbraced h)

theorem balanced_of_any_isBrace (h : t.any isBrace = false) : Balanced t :=
  balanced_of_unbraced (by simpa using h)

theorem Balanced.append (hs : Balanced s) (ht : Balanced t) : Balanced (s ++ t) := by
  rw [balanced_iff_openAfter] at hs ht ⊢
  intro n
  rw [openAfter_append, hs, Option.bind_some, ht]

theorem balanced_join (hs : Balanced s) {ps : List Text} (h : ∀ p ∈ ps, Balanced p) :
    Balanced (join s ps) := by
  induction ps with
  | nil => exact balanced_of_unbraced (by simp [join_nil])
  | cons p ps ih =>
    rw [List.forall_mem_cons] at h
    cases ps with
    | nil =>
      rw [join_singleton]
      exact h.1
    | cons q ps =>
      rw [join_cons_cons]
      exact h.1.append (hs.append (ih h.2))

end VariableReport.Text

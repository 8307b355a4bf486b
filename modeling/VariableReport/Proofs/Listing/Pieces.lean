import VariableReport.Listing.Scan
import VariableReport.Proofs.Text.Blank
import VariableReport.Proofs.Text.Lines
import VariableReport.Proofs.Text.Pieces
import Mathlib.Data.Bool.AllAny

/-!
# Pieces at the top level

The state of the scan at a place carries everything that the text before it says about the text
behind it. A separator that counts divides a text into two that are split apart
(`splitFrom_append_cons`), and pieces that the scan leaves as it entered them, without such a
separator in them, are found again when they have been joined (`splitTopLevel_join`).

The pieces of any text lie one behind the other in this way, but for what the last one leaves open
(`inPieces_splitFrom`). So a piece is split no further, and a text is split at all places where
nothing is open and at no other ones (`splitTopLevel_lossless`).
-/

namespace VariableReport.Listing
open Text

variable {s : Scan} {sep : Text} {c d : Char} {t u : Text}

namespace Scan

/-- Between two characters nothing is protected unless a quote is open. -/
theorem quote_isSome_step (h : s.escaped = true → s.quote.isSome = true) :
    (s.step c).escaped = true → (s.step c).quote.isSome = true := by
  fun_cases Scan.step s c <;> simp_all

theorem quote_isSome_after (t : Text) :
    (after {} t).escaped = true → (after {} t).quote.isSome = true := by
  suffices h : ∀ s : Scan, (s.escaped = true → s.quote.isSome = true) →
      (s.after t).escaped = true → (s.after t).quote.isSome = true from h {} (by simp)
  induction t with
  | nil => exact fun _ h => h
  | cons c t ih => exact fun s h => ih (s.step c) (quote_isSome_step h)

/-- Nothing is open where no quote and no bracket is. -/
theorem after_eq_empty_iff :
    after {} t = {} ↔ (after {} t).depth = 0 ∧ (after {} t).quote = none := by
  have hquote := quote_isSome_after t
  generalize after {} t = s at hquote ⊢
  obtain ⟨depth, quote, escaped⟩ := s
  constructor
  · rintro ⟨⟩
    exact ⟨rfl, rfl⟩
  · rintro ⟨rfl, rfl⟩
    cases escaped with
    | false => rfl
    | true => exact absurd (hquote rfl) (by simp)

theorem isTop_iff : s.isTop = true ↔ s = {} := by
  obtain ⟨depth, quote, escaped⟩ := s
  simp [isTop, and_assoc]

/-- A character that is neither quote nor bracket changes nothing outside quotes. -/
theorem step_eq_self (hs : s.quote = none) (he : s.escaped = false) (hq : isQuote c = false)
    (ho : isOpening c = false) (hc : isClosing c = false) : s.step c = s := by
  simp [step, hs, he, hq, ho, hc]

end Scan

/-- White space is neither a comma nor a quote nor a bracket. -/
theorem marks_of_isBlank (h : isBlank c = true) :
    c ≠ ',' ∧ isQuote c = false ∧ isOpening c = false ∧ isClosing c = false := by
  have hmarks : ∀ d ∈ [',', '\x27', '\x22', '(', '[', '\x7b', ')', ']', '\x7d'],
      isBlank d = false := List.all_iff_forall_prop.1 (by decide)
  have hnot : c ∉ [',', '\x27', '\x22', '(', '[', '\x7b', ')', ']', '\x7d'] := by
    intro hc
    rw [hmarks c hc] at h
    contradiction
  simpa [isQuote, isOpening, isClosing, and_assoc] using hnot

theorem Scan.after_blanks (h : ∀ c ∈ t, isBlank c = true) : after {} t = {} := by
  induction t with
  | nil => rfl
  | cons c t ih =>
    rw [List.forall_mem_cons] at h
    obtain ⟨-, hq, ho, hc⟩ := marks_of_isBlank h.1
    have hstep : step {} c = {} := step_eq_self rfl rfl hq ho hc
    change after (step {} c) t = {}
    rw [hstep]
    exact ih h.2

/-- No separator of the text counts when the scan enters it in this state. -/
def Undivided (sep : Text) : Scan → Text → Prop
  | _, [] => True
  | s, c :: cs => separates sep s c = false ∧ Undivided sep (s.step c) cs

theorem undivided_append :
    Undivided sep s (t ++ u) ↔ Undivided sep s t ∧ Undivided sep (s.after t) u := by
  induction t generalizing s with
  | nil => exact (and_iff_right trivial).symm
  | cons c t ih => exact (and_congr_right fun _ => ih).trans and_assoc.symm

theorem undivided_of_not_mem (h : d ∉ t) : Undivided [d] s t := by
  induction t generalizing s with
  | nil => trivial
  | cons c t ih =>
    rw [List.mem_cons, not_or] at h
    exact ⟨by simp [separates, h.1], ih h.2⟩

/-- A separator that does not count stands where something is open. -/
theorem undivided_of_open (h : ∀ a b, t = a ++ d :: b → s.after a ≠ {}) : Undivided [d] s t := by
  induction t generalizing s with
  | nil => trivial
  | cons c t ih =>
    refine ⟨?_, ih fun a b hab => h (c :: a) b (congrArg (c :: ·) hab)⟩
    by_contra hsep
    simp only [separates, Bool.not_eq_false, Bool.and_eq_true, decide_eq_true_eq,
      List.cons.injEq, and_true] at hsep
    obtain ⟨⟨⟨⟨htop, -⟩, -⟩, -⟩, rfl⟩ := hsep
    exact h [] t rfl (Scan.isTop_iff.1 htop)

theorem splitFrom_of_undivided (h : Undivided sep s t) : splitFrom sep s t = [t] := by
  induction t generalizing s with
  | nil => rfl
  | cons c t ih => rw [splitFrom, h.1, ih h.2]; rfl

/-- A separator that counts divides a text into two that are split apart. -/
theorem splitFrom_append_cons (h : separates sep (s.after t) c = true) (u : Text) :
    splitFrom sep s (t ++ c :: u) = splitFrom sep s t ++ splitFrom sep (s.after t) u := by
  induction t generalizing s with
  | nil =>
    have hhere : separates sep s c = true := h
    exact if_pos hhere
  | cons d t ih =>
    have hrest : separates sep ((s.step d).after t) c = true := h
    rw [List.cons_append, splitFrom, splitFrom]
    by_cases hd : separates sep s d = true
    · rw [step_of_separates hd] at hrest
      have hafter : s.after (d :: t) = s.after t := congrArg (Scan.after · t) (step_of_separates hd)
      rw [if_pos hd, if_pos hd, ih hrest, List.cons_append, hafter]
    · rw [if_neg hd, if_neg hd, ih hrest, attach_append d (splitFrom_ne_nil _ _ _)]
      rfl

theorem splitTopLevel_join {ps : List Text} (hne : ps ≠ []) (hq : isQuote c = false)
    (ho : isOpening c = false) (hc : isClosing c = false)
    (h : ∀ p ∈ ps, Undivided [c] {} p ∧ Scan.after {} p = {}) :
    splitTopLevel [c] (join [c] ps) = ps := by
  induction ps with
  | nil => contradiction
  | cons p ps ih =>
    rw [List.forall_mem_cons] at h
    obtain ⟨⟨hp, hafter⟩, hps⟩ := h
    cases ps with
    | nil => rw [join_singleton, splitTopLevel, splitFrom_of_undivided hp]
    | cons q ps =>
      have hsep : separates [c] (Scan.after {} p) c = true := by
        rw [hafter]
        simp [separates, Scan.isTop, hq, ho, hc]
      rw [join_cons_cons, List.singleton_append, splitTopLevel, splitFrom_append_cons hsep,
        splitFrom_of_undivided hp, hafter]
      exact congrArg (p :: ·) (ih (by simp) hps)

/-- Texts in a row, the first of which the scan enters in this state: no separator counts in any of
them, and all but the last leave nothing open. -/
inductive InPieces (sep : Text) : Scan → List Text → Prop
  | last {s : Scan} {t : Text} : Undivided sep s t → InPieces sep s [t]
  | cons {s : Scan} {t : Text} {ps : List Text} : Undivided sep s t → s.after t = {} →
      InPieces sep {} ps → InPieces sep s (t :: ps)

namespace InPieces

variable {ps : List Text}

theorem ne_nil (h : InPieces sep s ps) : ps ≠ [] := by cases h <;> simp

theorem attach (h : InPieces sep (s.step c) ps) (hc : separates sep s c = false) :
    InPieces sep s (attach c ps) := by
  cases h with
  | last ht => exact .last ⟨hc, ht⟩
  | cons ht hafter hps => exact .cons ⟨hc, ht⟩ hafter hps

theorem undivided (h : InPieces sep s ps) (hs : s = {}) : ∀ p ∈ ps, Undivided sep {} p := by
  induction h with
  | last ht => simpa [hs] using ht
  | cons ht _ _ ih => exact List.forall_mem_cons.2 ⟨hs ▸ ht, ih rfl⟩

theorem after_eq (h : InPieces sep s ps) (hs : s = {}) :
    ∀ p ∈ ps.dropLast, Scan.after {} p = {} := by
  induction h with
  | last _ => simp
  | cons _ hafter hps ih =>
    rw [List.dropLast_cons_of_ne_nil hps.ne_nil]
    exact List.forall_mem_cons.2 ⟨hs ▸ hafter, ih rfl⟩

end InPieces

theorem inPieces_splitFrom (sep : Text) (s : Scan) (t : Text) :
    InPieces sep s (splitFrom sep s t) := by
  induction t generalizing s with
  | nil => exact .last trivial
  | cons c t ih =>
    rw [splitFrom]
    by_cases hc : separates sep s c = true
    · have hs : s = {} := by
        simp only [separates, Bool.and_eq_true] at hc
        exact Scan.isTop_iff.1 hc.1.1.1.1
      rw [if_pos hc, hs]
      exact .cons trivial rfl (ih {})
    · rw [if_neg hc]
      exact (ih (s.step c)).attach (Bool.eq_false_iff.2 hc)

/-- The pieces joined with the separator are the text, a piece is split no further, and all but the
last leave nothing open. A separator that is neither quote nor bracket splits a text wherever
nothing is open in front of it. -/
theorem splitTopLevel_lossless (c : Char) :
    (∀ t, join [c] (splitTopLevel [c] t) = t ∧
      (∀ p ∈ splitTopLevel [c] t, splitTopLevel [c] p = [p]) ∧
      ∀ p ∈ (splitTopLevel [c] t).dropLast, (Scan.after {} p).isTop = true) ∧
    (isQuote c = false → isOpening c = false → isClosing c = false →
      ∀ a b, (Scan.after {} a).isTop = true →
        splitTopLevel [c] (a ++ [c] ++ b) = splitTopLevel [c] a ++ splitTopLevel [c] b) := by
  refine ⟨fun t => ?_, fun hq ho hc a b htop => ?_⟩
  · have hpieces : InPieces [c] {} (splitTopLevel [c] t) := inPieces_splitFrom [c] {} t
    refine ⟨join_splitTopLevel [c] t, fun p hp => ?_, fun p hp => ?_⟩
    · exact splitFrom_of_undivided (hpieces.undivided rfl p hp)
    · exact Scan.isTop_iff.2 (hpieces.after_eq rfl p hp)
  · have hsep : separates [c] (Scan.after {} a) c = true := by
      simp [separates, htop, hq, ho, hc]
    have hsplit := splitFrom_append_cons hsep b
    rw [Scan.isTop_iff.1 htop] at hsplit
    rwa [List.append_assoc, List.singleton_append]

/-- A bracket, a quote and a quote behind a backslash are open and closed in front of the comma. -/
theorem splitTopLevel_lossless_quoted :
    (Scan.after {} "f(a, ']\\'')".toList).isTop = true ∧
      splitTopLevel [','] ("f(a, ']\\'')".toList ++ [','] ++ " b, '\\".toList) =
        splitTopLevel [','] "f(a, ']\\'')".toList ++ splitTopLevel [','] " b, '\\".toList := by
  have htop : (Scan.after {} "f(a, ']\\'')".toList).isTop = true := by decide
  exact ⟨htop, (splitTopLevel_lossless ',').2 (by decide) (by decide) (by decide) _ _ htop⟩

end VariableReport.Listing

import VariableReport.Text.Class
import Mathlib.Data.List.TakeWhile

/-!
# Trimmed texts

A trimmed text has no white space at either end, and trimming leaves just such texts as they
are. Blanks at an end are taken off, and a text of blanks is trimmed to nothing.
-/

namespace VariableReport.Text

/-- The text neither starts nor ends with white space. -/
def IsTrimmed (t : Text) : Prop :=
  (∀ c ∈ t.head?, isBlank c = false) ∧ ∀ c ∈ t.getLast?, isBlank c = false

theorem IsTrimmed.append {t u : Text} (hu : IsTrimmed u)
    (h : ∀ c ∈ (t ++ u).head?, isBlank c = false) (hne : u ≠ []) : IsTrimmed (t ++ u) := by
  refine ⟨h, fun c hc => hu.2 c ?_⟩
  rw [List.getLast?_append] at hc
  cases hl : u.getLast? with
  | none => exact absurd (List.getLast?_eq_none_iff.1 hl) hne
  | some x => simpa [hl] using hc

theorem head_dropWhile_isBlank (t : Text) : ∀ c ∈ (t.dropWhile isBlank).head?, isBlank c = false := by
  induction t with
  | nil => simp
  | cons c t ih =>
    by_cases hc : isBlank c = true
    · simpa [hc] using ih
    · simp [hc]

theorem dropWhile_isBlank_eq_self {t : Text} (h : ∀ c ∈ t.head?, isBlank c = false) :
    t.dropWhile isBlank = t := by
  cases t with
  | nil => rfl
  | cons c t => simp [h c (by simp)]

theorem trimStart_blanks_append {w t : Text} (hw : ∀ c ∈ w, isBlank c = true)
    (ht : ∀ c ∈ t.head?, isBlank c = false) : trimStart (w ++ t) = t := by
  rw [trimStart, List.dropWhile_append_of_pos hw]
  exact dropWhile_isBlank_eq_self ht

theorem trim_eq_self {t : Text} (h : IsTrimmed t) : trim t = t := by
  have hs : trimStart t = t := dropWhile_isBlank_eq_self h.1
  have he : t.reverse.dropWhile isBlank = t.reverse :=
    dropWhile_isBlank_eq_self (by simpa [List.head?_reverse] using h.2)
  rw [trim, hs, trimEnd, he, List.reverse_reverse]

theorem prefix_trim (t : Text) : trim t <+: trimStart t := by
  have := List.dropWhile_suffix (l := (trimStart t).reverse) isBlank
  simpa [trim, trimEnd] using List.reverse_prefix.2 this

theorem isTrimmed_trim (t : Text) : IsTrimmed (trim t) := by
  have hlast := head_dropWhile_isBlank (trimStart t).reverse
  constructor <;> intro c hc
  · have hp : trimEnd (trimStart t) <+: trimStart t := prefix_trim t
    obtain ⟨rest, hrest⟩ := hp
    apply head_dropWhile_isBlank t c
    change c ∈ (trimStart t).head?
    rw [← hrest]
    simp only [trim] at hc
    cases hq : trimEnd (trimStart t) with
    | nil => simp [hq] at hc
    | cons x xs => simpa [hq] using hc
  · apply hlast c
    simpa [trim, trimEnd, List.getLast?_reverse] using hc

theorem isTrimmed_of_trim_eq {t : Text} (h : trim t = t) : IsTrimmed t := h ▸ isTrimmed_trim t

theorem infix_trim (t : Text) : trim t <:+: t := by
  have hstart : trimStart t <:+ t := List.dropWhile_suffix isBlank
  exact (prefix_trim t).isInfix.trans hstart.isInfix

theorem mem_of_mem_trim {t : Text} {c : Char} (h : c ∈ trim t) : c ∈ t := by
  have h1 : c ∈ trimStart t := by
    have := (List.dropWhile_sublist (l := (trimStart t).reverse) isBlank).subset
      (List.mem_reverse.1 h)
    exact List.mem_reverse.1 this
  exact (List.dropWhile_sublist isBlank).subset h1

theorem dropWhile_eq_drop (q : Char → Bool) (t : Text) :
    t.dropWhile q = t.drop (t.takeWhile q).length := by
  have hdrop := congrArg (List.drop (t.takeWhile q).length)
    (List.takeWhile_append_dropWhile (p := q) (l := t))
  rwa [List.drop_left] at hdrop

theorem mem_dropWhile_of_not {q : Char → Bool} {t : Text} {c : Char} (h : c ∈ t)
    (hq : q c = false) : c ∈ t.dropWhile q := by
  rw [← List.takeWhile_append_dropWhile (p := q) (l := t), List.mem_append] at h
  refine h.resolve_left fun htake => ?_
  rw [List.mem_takeWhile_imp htake] at hq
  contradiction

/-- Only blanks are trimmed off. -/
theorem mem_trim {t : Text} {c : Char} (h : c ∈ t) (hc : isBlank c = false) : c ∈ trim t := by
  have hstart : c ∈ trimStart t := mem_dropWhile_of_not h hc
  exact List.mem_reverse.2 (mem_dropWhile_of_not (List.mem_reverse.2 hstart) hc)

theorem trim_blank_cons {c : Char} (hc : isBlank c = true) (t : Text) : trim (c :: t) = trim t := by
  simp [trim, trimStart, hc]

theorem trim_blanks_append {w : Text} (hw : ∀ c ∈ w, isBlank c = true) (t : Text) :
    trim (w ++ t) = trim t := by
  rw [trim, trimStart, List.dropWhile_append_of_pos hw]
  rfl

/-- Only blanks are trimmed to nothing. -/
theorem trim_eq_nil_iff {t : Text} : trim t = [] ↔ ∀ c ∈ t, isBlank c = true := by
  constructor
  · intro h
    have hend : ∀ c ∈ trimStart t, isBlank c = true := by
      have : (trimStart t).reverse.dropWhile isBlank = [] := List.reverse_eq_nil_iff.1 h
      simpa [List.dropWhile_eq_nil_iff] using this
    have hstart : trimStart t = [] := by
      cases hc : trimStart t with
      | nil => rfl
      | cons c u =>
        have hhead : t.dropWhile isBlank = c :: u := hc
        have h1 := head_dropWhile_isBlank t c (by simp [hhead])
        rw [hend c (by simp [hc])] at h1
        contradiction
    exact List.dropWhile_eq_nil_iff.1 hstart
  · intro h
    have : trimStart t = [] := List.dropWhile_eq_nil_iff.2 h
    rw [trim, this]
    rfl

theorem trim_append_blanks {t w : Text} (ht : IsTrimmed t) (hw : ∀ c ∈ w, isBlank c = true) :
    trim (t ++ w) = t := by
  by_cases hne : t = []
  · rw [hne, List.nil_append]
    exact trim_eq_nil_iff.2 hw
  · have hstart : trimStart (t ++ w) = t ++ w := by
      obtain ⟨x, xs, rfl⟩ := List.exists_cons_of_ne_nil hne
      exact dropWhile_isBlank_eq_self (by simpa using ht.1)
    have hend : t.reverse.dropWhile isBlank = t.reverse :=
      dropWhile_isBlank_eq_self (by simpa [List.head?_reverse] using ht.2)
    rw [trim, hstart, trimEnd, List.reverse_append, List.dropWhile_append_of_pos (by simpa using hw),
      hend, List.reverse_reverse]

theorem trim_append_blank {c : Char} (hc : isBlank c = true) {t : Text} (ht : IsTrimmed t) :
    trim (t ++ [c]) = t := trim_append_blanks ht (by simpa using hc)

/-- The first character is kept by trimming if it is no blank. -/
theorem head_trim {c : Char} (h : isBlank c = false) (t : Text) :
    (trim (c :: t)).head? = some c := by
  have hne : trim (c :: t) ≠ [] := by
    rw [ne_eq, trim_eq_nil_iff]
    exact fun hall => by simp [hall c (by simp)] at h
  have hprefix : trim (c :: t) <+: c :: t := by simpa [trimStart, h] using prefix_trim (c :: t)
  obtain ⟨d, u, hd⟩ := List.exists_cons_of_ne_nil hne
  rw [hd] at hprefix ⊢
  rw [(List.cons_prefix_cons.1 hprefix).1]
  rfl

end VariableReport.Text

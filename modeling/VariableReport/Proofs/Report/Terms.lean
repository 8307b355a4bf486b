import VariableReport.Report.Equation
import Mathlib.Data.List.Basic

/-!
# Terms of a matrix equation

The equation of a matrix has its name and then some of three texts: the expression, the replaced
form and the formula of the value. No two of the terms behind the name say the same
(`pairwise_shown`). The replaced form and the formula give way to any text that says the same, also
to one that is not shown itself, so that a text can be lost. When that happens is told exactly
(`Loses`, `covered_iff`): the two give way to each other, or a blank text gives way to an expression
that is not there.
-/

namespace VariableReport.Report
open Text

variable {expression replaced latex t u v : Text}

theorem same_eq_true_iff : same t u = true ↔ squeeze t = squeeze u := decide_eq_true_iff

theorem same_eq_false_iff : same t u = false ↔ squeeze t ≠ squeeze u := decide_eq_false_iff_not

/-- Whether a text is shown beside two others: it is not empty, and it says something else. -/
def standsOut (t u v : Text) : Bool := !t.isEmpty && !same t u && !same t v

theorem standsOut_iff :
    standsOut t u v = true ↔ t ≠ [] ∧ squeeze t ≠ squeeze u ∧ squeeze t ≠ squeeze v := by
  simp only [standsOut, Bool.and_eq_true, Bool.not_eq_true', List.isEmpty_eq_false_iff,
    same_eq_false_iff, and_assoc]

/-- The texts that a matrix equation is made from. -/
def given (expression replaced latex : Text) : List Text :=
  [expression, replaced, latex].filter fun t => !t.isEmpty

/-- The terms of a matrix equation behind the name. -/
def shown (expression replaced latex : Text) : List Text :=
  (if expression.isEmpty then [] else [expression]) ++
    (if standsOut replaced expression latex then [replaced] else []) ++
    (if standsOut latex expression replaced then [latex] else [])

theorem mem_given : t ∈ given expression replaced latex ↔
    (t = expression ∨ t = replaced ∨ t = latex) ∧ t ≠ [] := by
  simp [given]

theorem mem_ite_singleton {b : Bool} : t ∈ (if b then [u] else []) ↔ b = true ∧ t = u := by
  cases b <;> simp

theorem mem_shown : t ∈ shown expression replaced latex ↔
    (t = expression ∧ t ≠ []) ∨ (t = replaced ∧ standsOut t expression latex = true) ∨
      (t = latex ∧ standsOut t expression replaced = true) := by
  have hexpression : (t ∈ if expression.isEmpty then [] else [expression]) ↔
      t = expression ∧ t ≠ [] := by
    split
    next h => simp_all
    next h =>
      rw [List.mem_singleton, List.isEmpty_iff] at *
      exact ⟨fun ht => ⟨ht, ht ▸ h⟩, And.left⟩
  have hother {x a b : Text} :
      (t ∈ if standsOut x a b then [x] else []) ↔ t = x ∧ standsOut t a b = true := by
    rw [mem_ite_singleton, and_comm]
    exact and_congr_right fun ht => by rw [ht]
  rw [shown, List.mem_append, List.mem_append, hexpression, hother, hother, or_assoc]

/-- The terms are texts of the equation, in their order. -/
theorem sublist_shown (expression replaced latex : Text) :
    (shown expression replaced latex).Sublist (given expression replaced latex) := by
  have hpart {t u v : Text} : (if standsOut t u v then [t] else []).Sublist
      ([t].filter fun x => !x.isEmpty) := by
    split
    next h =>
      rw [standsOut_iff] at h
      simp [h.1]
    next => exact List.nil_sublist _
  have hfirst : (if expression.isEmpty then [] else [expression]).Sublist
      ([expression].filter fun x => !x.isEmpty) := by
    split
    next => exact List.nil_sublist _
    next h => simp [h]
  have hsplit : given expression replaced latex = ([expression].filter fun x => !x.isEmpty) ++
      ([replaced].filter fun x => !x.isEmpty) ++ [latex].filter fun x => !x.isEmpty := by
    rw [← List.filter_append, ← List.filter_append]
    rfl
  rw [hsplit]
  exact (hfirst.append hpart).append hpart

/-- No two terms say the same. -/
theorem pairwise_shown (expression replaced latex : Text) :
    (shown expression replaced latex).Pairwise fun t u => same t u = false := by
  have hreplaced : standsOut replaced expression latex = true →
      squeeze expression ≠ squeeze replaced := fun h => (standsOut_iff.1 h).2.1.symm
  have hlatex : standsOut latex expression replaced = true →
      squeeze expression ≠ squeeze latex ∧ squeeze replaced ≠ squeeze latex := fun h =>
    ⟨(standsOut_iff.1 h).2.1.symm, (standsOut_iff.1 h).2.2.symm⟩
  unfold shown
  split <;> split <;> split <;> simp_all [same_eq_false_iff]

/-- How a text comes to be told by no term of a matrix equation. -/
inductive Loses (expression replaced latex : Text) : Prop
  /-- The replaced form and the formula say the same, and each gives way to the other. -/
  | twins : squeeze replaced = squeeze latex → squeeze replaced ≠ squeeze expression →
      replaced ≠ [] ∨ latex ≠ [] → Loses expression replaced latex
  /-- A blank text gives way to an expression that is not there. -/
  | blank {t : Text} : expression = [] → t = replaced ∨ t = latex → t ≠ [] → squeeze t = [] →
      Loses expression replaced latex

/-- Where the replaced form and the formula say the same and the expression does not, no term says
what they say. -/
theorem not_covered_of_twins (htwins : squeeze replaced = squeeze latex)
    (hother : squeeze replaced ≠ squeeze expression) (ht : squeeze t = squeeze replaced) :
    ∀ u ∈ shown expression replaced latex, same t u = false := by
  intro u hu
  rw [same_eq_false_iff, ht]
  rcases mem_shown.1 hu with ⟨rfl, -⟩ | ⟨rfl, hout⟩ | ⟨rfl, hout⟩
  · exact hother
  · exact absurd htwins (standsOut_iff.1 hout).2.2
  · exact absurd htwins.symm (standsOut_iff.1 hout).2.2

/-- Without an expression no blank text is shown. -/
theorem not_covered_of_blank (ht : squeeze t = []) :
    ∀ u ∈ shown [] replaced latex, same t u = false := by
  intro u hu
  have hnil : squeeze [] = [] := rfl
  rw [same_eq_false_iff, ht]
  rcases mem_shown.1 hu with ⟨rfl, hne⟩ | ⟨rfl, hout⟩ | ⟨rfl, hout⟩
  · exact absurd rfl hne
  · exact (standsOut_iff.1 hout).2.1.symm
  · exact (standsOut_iff.1 hout).2.1.symm

/-- A text that gives way is told all the same, by the expression, unless texts are lost. -/
theorem covered_of_not_loses (h : ¬Loses expression replaced latex)
    (ht : t ∈ given expression replaced latex) :
    ∃ u ∈ shown expression replaced latex, same t u = true := by
  obtain ⟨hcases, hne⟩ := mem_given.1 ht
  by_cases hsame : squeeze t = squeeze expression
  · have hexpression : expression ≠ [] := by
      rintro rfl
      rcases hcases with rfl | hcases
      · exact hne rfl
      · exact h (.blank rfl hcases hne hsame)
    exact ⟨expression, mem_shown.2 (.inl ⟨rfl, hexpression⟩), same_eq_true_iff.2 hsame⟩
  · refine ⟨t, mem_shown.2 ?_, same_eq_true_iff.2 rfl⟩
    rcases hcases with rfl | rfl | rfl
    · exact absurd rfl hsame
    · refine .inr (.inl ⟨rfl, standsOut_iff.2 ⟨hne, hsame, fun htwins => ?_⟩⟩)
      exact h (.twins htwins hsame (.inl hne))
    · refine .inr (.inr ⟨rfl, standsOut_iff.2 ⟨hne, hsame, fun htwins => ?_⟩⟩)
      exact h (.twins htwins.symm (htwins ▸ hsame) (.inr hne))

theorem covered_iff : (∀ t ∈ given expression replaced latex,
    ∃ u ∈ shown expression replaced latex, same t u = true) ↔ ¬Loses expression replaced latex := by
  refine ⟨fun hall hloses => ?_, fun h _ => covered_of_not_loses h⟩
  cases hloses with
  | twins htwins hother hne =>
    rcases hne with hne | hne
    · obtain ⟨u, hu, hsame⟩ := hall replaced (mem_given.2 ⟨.inr (.inl rfl), hne⟩)
      simp [not_covered_of_twins htwins hother rfl u hu] at hsame
    · obtain ⟨u, hu, hsame⟩ := hall latex (mem_given.2 ⟨.inr (.inr rfl), hne⟩)
      simp [not_covered_of_twins htwins hother htwins.symm u hu] at hsame
  | blank hexpression ht hne hblank =>
    subst hexpression
    obtain ⟨u, hu, hsame⟩ := hall _ (mem_given.2 ⟨.inr ht, hne⟩)
    simp [not_covered_of_blank hblank u hu] at hsame

/-- The texts of a record that its matrix equation is made from. -/
def matrixTexts (r : Record) : List Text :=
  given (orEmpty r.expression) (orEmpty r.replaced) (orEmpty r.latexValue)

/-- The terms of the matrix equation of a record behind the name. -/
def matrixTerms (r : Record) : List Text :=
  shown (orEmpty r.expression) (orEmpty r.replaced) (orEmpty r.latexValue)

/-- The terms of a matrix equation behind the name are texts of the record in their order, and no
two of them say the same. Each text of the record is told by one of them, up to white space, exactly
when none is lost. -/
theorem matrixEquation_terms (s : Settings) (r : Record) :
    matrixEquation s r = "$$ ".toList ++
        join " = ".toList (Formula.format s.symbols r.name :: matrixTerms r) ++ " $$\n\n".toList ∧
      (matrixTerms r).Sublist (matrixTexts r) ∧
      ((matrixTerms r).Pairwise fun t u => same t u = false) ∧
      ((∀ t ∈ matrixTexts r, ∃ u ∈ matrixTerms r, same t u = true) ↔
        ¬Loses (orEmpty r.expression) (orEmpty r.replaced) (orEmpty r.latexValue)) :=
  ⟨rfl, sublist_shown _ _ _, pairwise_shown _ _ _, covered_iff⟩

/-- A record whose replaced form is the formula of its value. -/
def twinRecord : Record where
  name := "M".toList
  value := "[[1]]".toList
  type := "list".toList
  expression := some "A".toList
  replaced := some "\\begin\x7bbmatrix\x7d 1 \\end\x7bbmatrix\x7d".toList
  latexValue := some "\\begin\x7bbmatrix\x7d 1 \\end\x7bbmatrix\x7d".toList

/-- The formula of the value gives way to the replaced form, which gives way to the formula, so that
the equation tells neither. -/
theorem matrixEquation_loses_twins : matrixEquation {} twinRecord = "$$ M = A $$\n\n".toList ∧
    ¬∀ t ∈ matrixTexts twinRecord, ∃ u ∈ matrixTerms twinRecord, same t u = true := by
  decide +kernel

end VariableReport.Report

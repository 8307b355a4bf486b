import VariableReport.Proofs.Formula.Idempotence
import VariableReport.Settings

/-!
# Normal formulas

A formula is normal: its units are simple, no two stars stand next to each other, and every run
behind a caret or an underscore stands in braces, whatever text it was made from and whatever
identifiers are its symbols (`normal_format`). The steps that come later put in backslashes and
braces only. These are neither stars nor marks, and no name of a symbol holds a character at which
units are cut, so what an earlier step has made stays as that step would leave it.
-/

namespace VariableReport.Formula
open Text

variable {symbols : List Text} {t u : Text} {settings : Settings}

namespace Script

variable {s : Script}

/-- Every run behind the mark stands in braces. -/
def Braced (s : Script) (t : Text) : Prop := ∀ a b, t = a ++ s.mark :: b → s.opens b = false

/-- Nothing was put in only where every run had its braces. -/
theorem Bracing.braced_of_length (h : s.Bracing t u) (hlen : u.length ≤ t.length) :
    s.Braced t := by
  induction h with
  | nil =>
    intro a b hab
    simp at hab
  | @plain c t u hp _ ih =>
    intro a b hab
    cases a with
    | nil =>
      obtain ⟨rfl, rfl⟩ := List.cons.inj hab
      exact hp rfl
    | cons x a => exact ih (by simpa using hlen) a b (List.cons.inj hab).2
  | group _ _ _ _ h _ =>
    have := h.inserted.length_le
    simp only [List.length_cons, List.length_append] at hlen
    omega

theorem braced_of_brace_eq_self (h : s.brace t = t) : s.Braced t :=
  (bracing_brace s t).braced_of_length (by rw [h])

end Script

/-- A text that the steps for units, exponents and subscripts leave as it is. -/
structure Normal (t : Text) : Prop where
  units : simplifyUnits t = t
  exponents : normalizeExponents t = t
  subscripts : braceSubscripts t = t

theorem Normal.unpaired (h : Normal t) : Unpaired t := by
  have hinserted := superscript.brace_inserted (caretPowers t)
  have hbraced : superscript.brace (caretPowers t) = t := h.exponents
  rw [hbraced] at hinserted
  refine hinserted.isChain ?_ (unpaired_caretPowers t)
  rintro c (rfl | rfl) d
  · exact ⟨by simp, by simp⟩
  · exact ⟨by simp, by simp⟩

theorem Normal.superscripts_braced (h : Normal t) : superscript.Braced t := by
  have hbraced := h.exponents
  rw [normalizeExponents, caretPowers_eq_self h.unpaired] at hbraced
  exact Script.braced_of_brace_eq_self hbraced

theorem not_mem_of_isIdentifier {s : Text} {d : Char} (hd : isIdentifierStart d = false)
    (hd' : isIdentifierRest d = false) (h : isIdentifier s = true) : d ∉ s := by
  cases s with
  | nil => cases h
  | cons c cs =>
    simp only [isIdentifier, Bool.and_eq_true, List.all_eq_true] at h
    intro hmem
    rcases List.mem_cons.1 hmem with rfl | hmem
    · rw [hd] at h
      exact absurd h.1 (by simp)
    · have hrest := h.2 d hmem
      rw [hd'] at hrest
      cases hrest

/-- Identifiers hold no character at which units are cut. -/
theorem solid_of_isIdentifier (h : ∀ s ∈ symbols, isIdentifier s = true) : Solid symbols := by
  have hcut : ∀ d, d ∈ "[]/ \n".toList → isIdentifierStart d = false ∧ isIdentifierRest d = false :=
    List.all_iff_forall_prop.1 (by decide)
  intro s hs
  refine ⟨?_, fun d hd => not_mem_of_isIdentifier (hcut d hd).1 (hcut d hd).2 (h s hs)⟩
  rintro rfl
  cases h [] hs

theorem normal_format_of_solid (hs : Solid symbols) (t : Text) : Normal (format symbols t) where
  units := simplifyUnits_format hs t
  exponents := normalizeExponents_format hs.nil_not_mem t
  subscripts := braceSubscripts_format hs.nil_not_mem t

/-- With the symbols of settings that can be used, simplifying units, normalizing exponents and
bracing subscripts change nothing in a formula: it holds no two stars in a row, and no exponent or
subscript without braces. -/
theorem normal_format (h : settings.misuse? = none) (t : Text) :
    Normal (format settings.symbols t) ∧ Unpaired (format settings.symbols t) ∧
      superscript.Braced (format settings.symbols t) ∧
      subscript.Braced (format settings.symbols t) := by
  have hsolid : Solid settings.symbols :=
    solid_of_isIdentifier (Settings.Usable.of_misuse?_eq_none h).symbols
  have hnormal := normal_format_of_solid hsolid t
  exact ⟨hnormal, hnormal.unpaired, hnormal.superscripts_braced,
    Script.braced_of_brace_eq_self hnormal.subscripts⟩

/-- Symbols that overlap, hold underscores or are beyond ASCII. -/
def awkwardSymbols : Settings :=
  { symbols := ["a_b", "_a", "a", "\u00e9\u00b7", "\u2118"].map String.toList }

/-- A formula with units in units, a bracket that is not closed, and stars and marks in a row. -/
def awkwardFormula : Text :=
  format awkwardSymbols.symbols
    "[_a*[a_b**-x_a*_a/\u00e9\u00b7*]_\u2118^a_b ***[a*\n_a]".toList

theorem normal_format_awkward : awkwardSymbols.misuse? = none ∧ Normal awkwardFormula ∧
    Unpaired awkwardFormula ∧ superscript.Braced awkwardFormula ∧
    subscript.Braced awkwardFormula := by
  have h : awkwardSymbols.misuse? = none := by decide +kernel
  exact ⟨h, normal_format h _⟩

end VariableReport.Formula

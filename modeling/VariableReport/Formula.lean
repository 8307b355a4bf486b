import VariableReport.Formula.Symbols
import VariableReport.Formula.Units

/-!
# Formulas

The text of an expression or of a value becomes a formula in four steps. Units come
first, so that their factors are collected before exponents and subscripts are seen;
symbols follow exponents, and subscripts are last, so that an escaped symbol is
lowered as a whole. A power is written with a caret in place of two stars, and the run of
characters that is its exponent is put into braces.
-/

namespace VariableReport.Formula

/-- A caret for every two stars, from the left. -/
def caretPowers : Text → Text
  | '*' :: '*' :: cs => '^' :: caretPowers cs
  | c :: cs => c :: caretPowers cs
  | [] => []

def normalizeExponents (t : Text) : Text := superscript.brace (caretPowers t)

def braceSubscripts (t : Text) : Text := subscript.brace t

/-- The text after each of the four steps. -/
structure Steps where
  units : Text
  exponents : Text
  symbols : Text
  subscripts : Text

def steps (symbols : List Text) (t : Text) : Steps :=
  let units := simplifyUnits t
  let exponents := normalizeExponents units
  let escaped := escapeSymbols symbols exponents
  ⟨units, exponents, escaped, braceSubscripts escaped⟩

/-- The formula of a text; the empty text has the empty formula. -/
def format (symbols : List Text) (t : Text) : Text :=
  if t.isEmpty then [] else (steps symbols t).subscripts

end VariableReport.Formula

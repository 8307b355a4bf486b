import VariableReport.Formula
import VariableReport.Record
import VariableReport.Settings

/-!
# Equations

A variable that is neither a table nor a matrix is shown as one line of mathematics: its
name, its expression, the replaced form and the value, with equal signs between them. A
term that says the same as its neighbour is shown once; white space makes no difference
between terms. A matrix is shown as a displayed equation of its own.
-/

namespace VariableReport.Report

/-- The text of an annotation; an absent one is empty. -/
def orEmpty (note : Option Text) : Text := note.getD []

/-- One line of mathematics with equal signs between the terms that are not empty. -/
def inlineMath (terms : List Text) : Text :=
  "$ ".toList ++ Text.join " = ".toList (terms.filter fun t => !t.isEmpty) ++ " $\n\n".toList

def emptyUnit : Text := ['[', ']']

/-- A formula without the mark of automatic scaling and without empty units. -/
def cleanTerm (s : Settings) (t : Text) : Text :=
  Text.trim (Formula.caretPowers (Text.remove emptyUnit (Text.remove s.autoScaleMarker t)))

/-- Whether a term makes a unit. -/
def makesUnit (s : Settings) (t : Text) : Bool :=
  s.unitConstructors.any fun constructor => Text.occursIn constructor t

/-- Whether two terms say the same. -/
def same (t u : Text) : Bool := Text.squeeze t = Text.squeeze u

/-- The name and the value of a record as they are. -/
def plainEquation (s : Settings) (r : Record) : Text :=
  inlineMath [Formula.format s.symbols r.name, Formula.format s.symbols r.value]

/-- The equation of a record. An expression that makes a unit is left out with its
replaced form. A replaced form that says the same as the expression is left out, and then
the expression too when it says the same as the value. -/
def equation (s : Settings) (r : Record) : Text :=
  let name := Formula.format s.symbols r.name
  let value := Text.trim (Text.remove emptyUnit (Formula.format s.symbols r.value))
  let source := Text.remove s.trueValueMarker (orEmpty r.expression)
  if makesUnit s source then inlineMath [name, value]
  else
    let expression := Formula.format s.symbols source
    let replaced := Formula.format s.symbols (Text.remove s.trueValueMarker (orEmpty r.replaced))
    if same expression replaced then
      let expression := cleanTerm s expression
      if same expression value then inlineMath [name, value]
      else inlineMath [name, expression, value]
    else inlineMath [name, cleanTerm s expression, cleanTerm s replaced, value]

/-- The equation of a record that is a matrix. The replaced form and the formula of the value
are left out where they say the same as another term. -/
def matrixEquation (s : Settings) (r : Record) : Text :=
  let expression := orEmpty r.expression
  let replaced := orEmpty r.replaced
  let latex := orEmpty r.latexValue
  let showsReplaced := !replaced.isEmpty && !same replaced expression && !same replaced latex
  let showsLatex := !latex.isEmpty && !same latex expression && !same latex replaced
  let terms :=
    [Formula.format s.symbols r.name] ++
      (if expression.isEmpty then [] else [expression]) ++
      (if showsReplaced then [replaced] else []) ++
      (if showsLatex then [latex] else [])
  "$$ ".toList ++ Text.join " = ".toList terms ++ " $$\n\n".toList

end VariableReport.Report

import VariableReport.Text

/-!
# The host

What the program is given by the machine that runs it and cannot decide itself. How deep a text
may be nested depends on what is open around the place where it is read, and the bound on the
rules of a grammar on the text as well. The characters that have a name are those of a
database of the host.

Nothing is assumed of a host but that it goes some way down: two hundred containers, and seven
hundred rules of the grammar of literals, can be open at once wherever a text is read.
-/

namespace VariableReport

/-- Where a text is read. -/
inductive Site
  | list
  | matrix
  | directive
  | column
  | settings
  | snapshot
  | payload
  | output
  | notebook
  deriving DecidableEq, Repr

class Host where
  /-- How many arrays and objects may be open at once in a JSON text. -/
  jsonDepth : Site → Nat
  /-- How many rules of the grammar may be open at once in a literal. -/
  grammarDepth : Site → Text → Nat
  /-- The character of a name. -/
  charNamed? : Text → Option Char
  jsonDepth_ge (site : Site) : 200 ≤ jsonDepth site
  grammarDepth_ge (site : Site) (t : Text) : 700 ≤ grammarDepth site t

end VariableReport

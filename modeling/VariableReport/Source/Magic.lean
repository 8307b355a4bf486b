import VariableReport.Text.Class
import VariableReport.Text.Lines

/-!
# Magics

A cell may hold lines for the notebook shell instead of code: a line whose first
character after blanks is a percent sign or an exclamation mark. Such lines are emptied
and the rows keep their numbers. A cell whose first line names a cell magic of another
language holds no code at all; four cell magics run code as usual.
-/

namespace VariableReport.Source

/-- The cell magics whose cell is still code. -/
def codeMagics : List Text :=
  ["%%time", "%%timeit", "%%capture", "%%prun"].map String.toList

def isShellLine (line : Text) : Bool :=
  match Text.trimStart line with
  | c :: _ => c = '%' || c = '!'
  | [] => false

/-- A line with the magic taken out: its line feed remains. -/
def maskLine (line : Text) : Text :=
  if isShellLine line then (if Text.endsWith line ['\n'] then ['\n'] else []) else line

/-- The first line that is not blank, trimmed. -/
def firstLine (lines : List Text) : Text :=
  ((lines.map Text.trim).find? fun line => !line.isEmpty).getD []

def isForeign (lines : List Text) : Bool :=
  let first := firstLine lines
  Text.startsWith first ['%', '%'] && !(codeMagics.any (Text.startsWith first))

/-- The source with its magics taken out; none for a cell in another language. -/
def maskMagics? (source : Text) : Option Text :=
  let lines := Text.lines source
  if isForeign lines then none else some (lines.map maskLine).flatten

end VariableReport.Source

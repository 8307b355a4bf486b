import VariableReport.Notebook.Cell
import VariableReport.Records
import VariableReport.Report.Equation
import VariableReport.Report.Table

/-!
# Reports

A report follows the cells of a notebook. Prose is copied, and in the place of each code
cell stand the variables that it defines, in the order of their lines and then of their
names. Variables without a definition follow at the end under a heading of their own,
if the settings include them.

The report is what a template gives. Of the engine that fills it in it is assumed that the line end
behind a command is dropped, that all other line ends of the template are kept, also the last, and
that texts are put in as they are.
-/

namespace VariableReport.Report

section
variable [Host]

/-- A record as a table, a matrix or an equation, the first that it can be. Where this
fails the name and the value are shown. -/
def recordText (s : Settings) (r : Record) : Text :=
  if r.tableItems.isSome then
    match table s r with
    | .ok t => t
    | .error _ => plainEquation s r
  else if r.latexValue.isSome then matrixEquation s r
  else equation s r

end

/-- Prose with an empty line after it; nothing for blank prose. -/
def proseText (t : Text) : Text := if (Text.trim t).isEmpty then [] else t ++ "\n\n".toList

/-- The line of a record in the order of a cell. -/
def lineOf (r : Record) : Int := r.line.getD 0

/-- Whether `a` may stand before `b` in a cell: by line, then by name. -/
def inLineOrder (a b : Record) : Bool :=
  lineOf a < lineOf b || (lineOf a = lineOf b && !Text.before b.name a.name)

def inNameOrder (a b : Record) : Bool := !Text.before b.name a.name

/-- The records that a cell defines, in order. -/
def definedIn (rs : Records) (index : Nat) : List Record :=
  (rs.toList.filter fun r => r.cellIndex = some (index : Int)).mergeSort inLineOrder

/-- The records that no cell defines, in order. -/
def undefined (rs : Records) : List Record :=
  (rs.toList.filter fun r => r.cellIndex.isNone).mergeSort inNameOrder

section
variable [Host]

/-- What stands in the place of a cell. -/
def placeText (s : Settings) (rs : Records) (index : Nat) (c : Cell) : Except Failure Text :=
  match c.kind with
  | .markdown => c.prose.map proseText
  | .code => .ok ((definedIn rs index).map (recordText s)).flatten
  | .raw => .ok []

def cellsText (s : Settings) (rs : Records) : Nat → List Cell → Except Failure Text
  | _, [] => .ok []
  | index, c :: cs => do
    let first ← placeText s rs index c
    let rest ← cellsText s rs (index + 1) cs
    .ok (first ++ rest)

end

def titleText (s : Settings) : Text :=
  if s.title.isEmpty then [] else "# ".toList ++ s.title ++ "\n\n".toList

variable [Host]

/-- The section of the variables that no cell defines. -/
def undefinedText (s : Settings) (rs : Records) : Text :=
  if s.includeUnplaced && !(undefined rs).isEmpty then
    "## Other variables\n\n".toList ++ ((undefined rs).map (recordText s)).flatten
  else []

/-- The report of a notebook. -/
def text (s : Settings) (rs : Records) (cells : List Cell) : Except Failure Text := do
  let body ← cellsText s rs 0 cells
  .ok (titleText s ++ body ++ undefinedText s rs)

end VariableReport.Report

import VariableReport.Directive
import VariableReport.Notebook.Cell
import VariableReport.Records
import VariableReport.Source.Assignment

/-!
# Tables among records

A table directive names the rows of the variable that the next statement assigns. Of the
directives of one statement the last counts, and of the statements that assign a name the
last that has a directive. A directive whose statement is no assignment counts for
nothing.
-/

namespace VariableReport.Records

section
variable [Host]

/-- The labels of the last comment that is a directive. All comments are read. -/
def lastLabels? (keyword : Text) (comments : List Text) :
    Except Failure (Option (List Text)) := do
  .ok ((← comments.mapM (Directive.labels? keyword)).filterMap id).getLast?

/-- The name that a statement assigns, with the labels it is given. -/
def statementTable? (keyword : Text) (s : Source.Statement) :
    Except Failure (Option (Text × List Text)) := do
  match ← lastLabels? keyword (s.leading ++ s.trailing) with
  | none => .ok none
  | some labels => .ok ((Source.assignment? s).map fun (name, _) => (name, labels))

/-- The names and labels of one cell in order. Only code has any. -/
def cellTables (keyword : Text) (c : Cell) : Except Failure (List (Text × List Text)) := do
  match c.kind with
  | .code =>
    let source ← c.code
    .ok ((← (Source.statements source).mapM (statementTable? keyword)).filterMap id)
  | _ => .ok []

def tables (keyword : Text) (cells : List Cell) : Except Failure (List (Text × List Text)) := do
  .ok (← cells.mapM (cellTables keyword)).flatten

end

/-- The record with the last labels that its name is given. -/
def labelFrom (found : List (Text × List Text)) (r : Record) : Record :=
  match found.reverse.lookup r.name with
  | some labels => { r with tableItems := some (labels.map some) }
  | none => r

theorem name_labelFrom (found : List (Text × List Text)) (r : Record) :
    (labelFrom found r).name = r.name := by
  unfold labelFrom
  split <;> rfl

/-- Attach the table labels that the cells give. -/
def attachTables [Host] (rs : Records) (keyword : Text) (cells : List Cell) :
    Except Failure Records := do
  let found ← tables keyword cells
  .ok (rs.annotate (labelFrom found) (name_labelFrom found))

end VariableReport.Records

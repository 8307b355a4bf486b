import VariableReport.Json

/-!
# Records of variables

A record holds what is known about one variable: its name, its value and type as texts,
and the annotations that were found in the cells. An annotation that is absent differs
from an empty one, and is left out when the record is written.
-/

namespace VariableReport

structure Record where
  name : Text
  value : Text
  type : Text
  /-- The right-hand side of the assignment that defines the variable. -/
  expression : Option Text := none
  /-- The expression with the values of other variables in it. -/
  replaced : Option Text := none
  /-- The value as a matrix formula. -/
  latexValue : Option Text := none
  /-- The labels of the rows of a table. -/
  tableItems : Option (List (Option Text)) := none
  /-- The number of the cell that holds the assignment, and its line in the cell. -/
  cellIndex : Option Int := none
  line : Option Int := none
  deriving DecidableEq, Repr

namespace Record

/-- An annotation as a member of an object, if it is there. -/
def member (key : Text) (note : Option Json) : List (Text × Json) :=
  (note.map fun j => (key, j)).toList

/-- A row label, or null in place of one. -/
def label : Option Text → Json
  | some t => .str t
  | none => .null

def members (r : Record) : List (Text × Json) :=
  [("value".toList, .str r.value), ("type".toList, .str r.type)] ++
    member "expression".toList (r.expression.map .str) ++
    member "replaced".toList (r.replaced.map .str) ++
    member "latexValue".toList (r.latexValue.map .str) ++
    member "tableItems".toList (r.tableItems.map fun items => .array (items.map label))

def toJson (r : Record) : Json := .object r.members

end Record

end VariableReport

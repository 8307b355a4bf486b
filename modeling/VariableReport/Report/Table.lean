import VariableReport.Formula
import VariableReport.Listing
import VariableReport.Record
import VariableReport.Settings
import VariableReport.Value.Printer

/-!
# Tables

A record with row labels is shown as a table: one row for each label, with the items of
the expression, of the replaced form and of the value in the places of the rows. Where a
list has no item for a row, or nothing in it, the cell is empty.

The table is what a template gives. Of the engine that fills it in it is assumed that the line end
behind a command is dropped, that all other line ends of the template are kept, also the last, and
that texts are put in as they are.
-/

namespace VariableReport.Report

/-- The text of the item for a row. -/
def cellText (s : Settings) (items : List Value) (row : Nat) : Except Failure Text :=
  match items[row]? with
  | none | some .none => .ok []
  | some v =>
    match v.text? with
    | some t => .ok (Formula.format s.symbols t)
    | none => .error .integerTooLong

/-- One row of a table with its cells. -/
def rowText (cells : List Text) : Text :=
  "| ".toList ++ Text.join " | ".toList cells ++ " |\n".toList

/-- The three lists of a table. -/
structure Columns where
  expressions : List Value
  replaced : List Value
  values : List Value

def Columns.row (c : Columns) (s : Settings) (row : Nat) (label : Option Text) :
    Except Failure Text := do
  let expression ← cellText s c.expressions row
  let replaced ← cellText s c.replaced row
  let value ← cellText s c.values row
  .ok (rowText [Formula.format s.symbols (label.getD []), expression, replaced, value])

/-- The rows of the labels from the row of a number on. -/
def Columns.rowsFrom (c : Columns) (s : Settings) : Nat → List (Option Text) →
    Except Failure (List Text)
  | _, [] => .ok []
  | row, label :: labels => do
    let first ← c.row s row label
    let rest ← c.rowsFrom s (row + 1) labels
    .ok (first :: rest)

def tableHead : Text :=
  "| Item | Expression | Replaced | Value |\n|---|---|---|---|\n".toList

/-- The table of a record. -/
def table [Host] (s : Settings) (r : Record) : Except Failure Text := do
  let values ← Listing.read r.value .column
  let expressions ← Listing.readOptional r.expression .column
  let replaced ← Listing.readOptional r.replaced .column
  let columns : Columns := { expressions, replaced, values }
  let rows ← columns.rowsFrom s 0 (r.tableItems.getD [])
  .ok ('*' :: (Formula.format s.symbols r.name ++ "*\n\n".toList ++ tableHead ++
    rows.flatten ++ ['\n']))

end VariableReport.Report

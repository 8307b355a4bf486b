import VariableReport.Notebook.Cell
import VariableReport.Source.Assignment

/-!
# Definitions

A definition is an assignment in its place in a notebook: the number of its cell, counted
from zero over cells of all kinds, and its line in the cell, counted from one. The last
definition of a name is the one that holds at the end of the notebook.
-/

namespace VariableReport.Notebook

structure Definition where
  name : Text
  expression : Text
  cellIndex : Nat
  line : Nat
  deriving DecidableEq, Repr

/-- The definition that a statement of a cell makes. -/
def definition? (cellIndex : Nat) (s : Source.Statement) : Option Definition :=
  (Source.assignment? s).map fun (name, expression) => ⟨name, expression, cellIndex, s.line⟩

/-- The definitions of one cell. Only code has any. -/
def cellDefinitions (cellIndex : Nat) (c : Cell) : Except Failure (List Definition) :=
  match c.kind with
  | .code => c.code.map fun source => (Source.statements source).filterMap (definition? cellIndex)
  | _ => .ok []

def definitionsFrom : Nat → List Cell → Except Failure (List Definition)
  | _, [] => .ok []
  | i, c :: cs => do
    let first ← cellDefinitions i c
    let rest ← definitionsFrom (i + 1) cs
    .ok (first ++ rest)

/-- The definitions of all cells in order. -/
def definitions (cells : List Cell) : Except Failure (List Definition) := definitionsFrom 0 cells

/-- The last definition of a name. -/
def lastDefinition? (name : Text) (ds : List Definition) : Option Definition :=
  ds.reverse.find? fun d => d.name = name

end VariableReport.Notebook

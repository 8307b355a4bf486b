import VariableReport.Notebook.Node

/-!
# Cells

A cell has a kind and a source. The source is kept as it was found, since only the cells
that are looked into need a text for a source: code where statements are looked for, and
prose where it is copied. The cells of a notebook stand in order. A source that is a list of texts
is joined, and a missing one is empty. Cells of no known kind are raw.
-/

namespace VariableReport

inductive CellKind
  | code
  | markdown
  | raw
  deriving DecidableEq, Repr

namespace CellKind

/-- The kind of a name. Other names stand for raw cells. -/
def ofText (t : Text) : CellKind :=
  if t = "code".toList then .code else if t = "markdown".toList then .markdown else .raw

def text : CellKind → Text
  | .code => "code".toList
  | .markdown => "markdown".toList
  | .raw => "raw".toList

end CellKind

structure Cell where
  kind : CellKind
  source : Json

namespace Cell

def ofText (kind : CellKind) (source : Text) : Cell := ⟨kind, .str source⟩

/-- The source as a text, of which a member is asked for. -/
def text (c : Cell) (member : Text) : Except Failure Text :=
  match c.source with
  | .str t => .ok t
  | j => .error (Notebook.lacks j member)

/-- The source of a cell that is to be cut into lines. -/
def code (c : Cell) : Except Failure Text := c.text "splitlines".toList

/-- The source of a cell that is to be copied unless it is blank. -/
def prose (c : Cell) : Except Failure Text := c.text "strip".toList

end Cell

namespace Notebook

def cellOf (node : Json) : Except Failure Cell := do
  let kind ← get node "cell_type".toList (.str "raw".toList)
  let source ← joined (← get node "source".toList (.str []))
  match kind with
  | .str t => .ok ⟨.ofText t, source⟩
  | _ => .ok ⟨.raw, source⟩

/-- The cells of a notebook. -/
def cells (notebook : Json) : Except Failure (List Cell) := do
  (← items (← demand notebook "cells".toList)).mapM cellOf

end Notebook

end VariableReport

import VariableReport.Notebook.Node
import VariableReport.Snapshot

/-!
# Snapshots in notebooks

A notebook keeps what its cells have printed. A snapshot in the outputs of a code cell is
found in the text of a stream or in the plain form of a result; the last one of the
notebook counts.
-/

namespace VariableReport.Notebook

variable [Host]

/-- The snapshot that a value holds, if it is a text. -/
def printedSnapshot? (j : Json) : Except Failure (Option Snapshot) :=
  match j with
  | .str t => Snapshot.ofText? t
  | j => .error (.notText (typeName j))

/-- The snapshot that one output of a cell holds: a stream has it in its text, and a result
that was shown in its plain form. -/
def outputSnapshot? (output : Json) : Except Failure (Option Snapshot) := do
  let empty : Json := .str []
  let type ← get output "output_type".toList .null
  if isText type "stream".toList then
    printedSnapshot? (← joined (← get output "text".toList empty))
  else if isText type "execute_result".toList ||
      isText type "display_data".toList then
    let data ← get output "data".toList (.object [])
    printedSnapshot? (← joined (← get data "text/plain".toList empty))
  else .ok none

/-- The snapshots that a cell holds. Only code has outputs. -/
def cellSnapshots (node : Json) : Except Failure (List Snapshot) := do
  let kind ← get node "cell_type".toList .null
  if isText kind "code".toList then
    let outputs ← items (← get node "outputs".toList (.array []))
    .ok ((← outputs.mapM outputSnapshot?).filterMap id)
  else .ok []

/-- The last snapshot in the outputs of a notebook. -/
def snapshot (notebook : Json) : Except Failure Snapshot := do
  let nodes ← items (← demand notebook "cells".toList)
  match (← nodes.mapM cellSnapshots).flatten.getLast? with
  | some members => .ok members
  | none => .error .noSnapshot

end VariableReport.Notebook

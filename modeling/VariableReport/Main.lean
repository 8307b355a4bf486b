import VariableReport.CommandLine

/-!
# The program

The files that a call looks at are read into a tree, the call is run over the tree, and what
it added is written.
-/

namespace VariableReport.Disk

/-- The path of a place on disk. -/
def pathOf (names : List Text) : String :=
  match names with
  | root :: rest =>
    if Files.isRoot root then String.ofList (root ++ Text.join ['/'] rest)
    else String.ofList (Text.join ['/'] names)
  | [] => "."

/-- The places on the way to a path, the start and the end included. -/
def placesOn (p : Path) : List (List Text) :=
  p.steps.foldl (fun places step => places ++ [Files.next (places.getLast?.getD []) step])
    [Files.start p]

/-- What is at a place. -/
def observe (names : List Text) : IO (Option Files.Node) := do
  match ← (IO.FS.readBinFile (pathOf names)).toBaseIO with
  | .ok content => return some (.file content.toList)
  | .error _ =>
    match ← (IO.FS.realPath (pathOf names)).toBaseIO with
    | .ok _ => return some .directory
    | .error _ => return none

/-- The tree of what is at the given places. -/
def load (places : List (List Text)) : IO Files := do
  let nodes ← places.filterMapM fun names => do return (← observe names).map fun n => (names, n)
  return ⟨nodes⟩

/-- Write the nodes that `before` does not have. -/
def save (before after : Files) : IO Unit := do
  for (names, node) in after.nodes do
    if before.node? names ≠ some node then
      match node with
      | .directory => IO.FS.createDirAll (pathOf names)
      | .file content => IO.FS.writeBinFile (pathOf names) ⟨content.toArray⟩

end VariableReport.Disk

open VariableReport in
/-- Run one call over the files on disk. Its status is the status of the process. -/
def main (args : List String) : IO UInt32 := do
  let args := args.map String.toList
  let before ← Disk.load ((CommandLine.paths args).flatMap Disk.placesOn).eraseDups
  match CommandLine.run before args with
  | .error e =>
    IO.eprintln (String.ofList e.message)
    return 1
  | .ok outcome =>
    Disk.save before outcome.files
    IO.print (String.ofList outcome.out)
    IO.eprint (String.ofList outcome.err)
    return outcome.status.toUInt32

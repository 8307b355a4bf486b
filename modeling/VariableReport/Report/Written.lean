import VariableReport.Notebook.Cell
import VariableReport.Notebook.Reader
import VariableReport.Notebook.Snapshot
import VariableReport.Records.Build
import VariableReport.Report

/-!
# Written reports

A run reads a notebook and its snapshot, from a file of its own or from the outputs that are
saved in the notebook, and writes two files next to the notebook or into another
directory: the records and the report. Nothing is written before both are complete.
-/

namespace VariableReport.Report

/-- The records and the report of a snapshot and cells. -/
def make [Host] [Matrix.Arrays] (s : Settings) (snapshot : Snapshot) (cells : List Cell) :
    Except Failure (Records × Text) := do
  let rs ← Records.build s snapshot cells
  .ok (rs, ← text s rs cells)

/-- What a run takes: the notebook, and perhaps a snapshot file and a directory. -/
structure Request where
  notebook : Path
  snapshot : Option Path := none
  directory : Option Path := none

/-- The two files that a run wrote, and the number of variables in them. -/
structure Written where
  recordsPath : Path
  reportPath : Path
  count : Nat

def Request.target (r : Request) : Path := r.directory.getD r.notebook.parent

/-- The path of a written file, which is named after the notebook. -/
def Request.outputPath (r : Request) (suffix : Text) : Path :=
  r.target.append (r.notebook.stem ++ suffix)

/-- The snapshot of a run. -/
def Request.snapshotOf [Host] (r : Request) (fs : Files) (notebook : Json) :
    Except Failure Snapshot :=
  match r.snapshot with
  | some p => Snapshot.load fs p
  | none => Notebook.snapshot notebook

/-- One run over a tree of files. -/
def generate [Host] [Matrix.Arrays] (s : Settings) (fs : Files) (r : Request) :
    Except Failure (Written × Files) := do
  let notebook ← Notebook.read fs r.notebook
  let cells ← Notebook.cells notebook
  let (rs, report) ← make s (← r.snapshotOf fs notebook) cells
  let fs ← (fs.makeDirectories r.target r.target.steps.length).mapError .file
  let recordsPath := r.outputPath s.varsSuffix
  let fs ← fs.writeText recordsPath rs.text
  let reportPath := r.outputPath s.reportSuffix
  let fs ← fs.writeText reportPath report
  .ok (⟨recordsPath, reportPath, rs.size⟩, fs)

end VariableReport.Report

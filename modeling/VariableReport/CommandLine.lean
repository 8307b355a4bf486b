import VariableReport.CommandLine.Usage
import VariableReport.Report.Written
import VariableReport.Settings.File
import VariableReport.Standard

/-!
# The command line

One call of the program over a tree of files. It ends with zero after a report, a help text
or the source of a snapshot cell, with two for wrong arguments, and with one where a file is
missing or not what it should be. Any other failure is not dealt with here.
-/

namespace VariableReport.CommandLine

/-- How a call ended, what it printed and the files that it left. -/
structure Outcome where
  status : Nat
  out : Text := []
  err : Text := []
  files : Files

def refuse (fs : Files) (m : Misuse) : Outcome := { status := 2, err := complaint m, files := fs }

/-- The outcome for a file that is not there. -/
def notFound (fs : Files) (what : String) (p : Path) : Outcome :=
  { status := 1
    err := "Error: ".toList ++ what.toList ++ " not found: ".toList ++ p.text ++ ['\n']
    files := fs }

/-- The outcome of a failure that names a file. -/
def giveUp (fs : Files) (e : Failure) : Except Failure Outcome :=
  if e.isOrderly then .ok { status := 1, files := fs } else .error e

def summary (w : Report.Written) : Text :=
  "Variables: ".toList ++ Decimal.natText w.count ++ "\nRecords:   ".toList ++
    w.recordsPath.text ++ "\nReport:    ".toList ++ w.reportPath.text ++ ['\n']

section
variable [Host] [Matrix.Arrays]

def report (s : Settings) (fs : Files) (r : Report.Request) : Except Failure Outcome :=
  match Report.generate s fs r with
  | .ok (w, fs) => .ok { status := 0, out := summary w, files := fs }
  | .error e => giveUp fs e

end

/-- What a call is asked to report on. -/
def requestOf (a : Arguments) (notebook : Text) : Report.Request where
  notebook := Path.ofText notebook
  snapshot := a.snapshot.map Path.ofText
  directory := a.outputDir.map Path.ofText

/-- Report on a notebook. The settings are read before it. -/
def reportWith [Host] [Matrix.Arrays] [Settings.Builder] (a : Arguments) (fs : Files)
    (r : Report.Request) : Except Failure Outcome :=
  if !fs.holds r.notebook then .ok (notFound fs "notebook" r.notebook)
  else
    match a.config.map Path.ofText with
    | none => report {} fs r
    | some p =>
      if !fs.holds p then .ok (notFound fs "config file" p)
      else
        match Settings.load fs p with
        | .ok s => report s fs r
        | .error e => giveUp fs e

/-- One call with its arguments. -/
def run [Host] [Matrix.Arrays] [Settings.Builder] (fs : Files) (args : List Text) :
    Except Failure Outcome :=
  match parse args with
  | .error .help => .ok { status := 0, out := help, files := fs }
  | .error (.misuse m) => .ok (refuse fs m)
  | .ok a =>
    if a.printCell then .ok { status := 0, out := Snapshot.cellSource, files := fs }
    else
      match a.notebook with
      | none => .ok (refuse fs .noNotebook)
      | some notebook => reportWith a fs (requestOf a notebook)

/-- The paths that a call looks at. -/
def paths (args : List Text) : List Path :=
  match parse args with
  | .error _ => []
  | .ok a =>
    match a.notebook with
    | none => []
    | some notebook =>
      let r := requestOf a notebook
      [r.notebook, r.target] ++ r.snapshot.toList ++ (a.config.map Path.ofText).toList

end VariableReport.CommandLine

import VariableReport.CommandLine.Arguments
import VariableReport.Text.Quoted

/-!
# Usage

How the program is called, on eighty columns: a summary that stands before every message
about the arguments, and the help, which tells what each argument is for.
-/

namespace VariableReport.CommandLine

def program : Text := "run_report.py".toList

def usage : Text :=
  ("usage: run_report.py [-h] [--snapshot SNAPSHOT] [--output-dir OUTPUT_DIR]\n" ++
    "                     [--config CONFIG] [--print-snapshot-cell] [--verbose]\n" ++
    "                     [notebook]\n").toList

/-- The column at which the explanations of the arguments stand. -/
def helpColumn : Nat := 24

/-- An argument with its explanation, which is given in lines. The first line stands beside
the argument where there is room. -/
def helpEntry (argument : String) (lines : List String) : Text :=
  let head := ' ' :: ' ' :: argument.toList
  let indent := List.replicate helpColumn ' '
  let body := lines.map fun line => indent ++ line.toList ++ ['\n']
  match lines with
  | first :: rest =>
    if head.length + 2 ≤ helpColumn then
      head ++ List.replicate (helpColumn - head.length) ' ' ++ first.toList ++
        '\n' :: (rest.map fun line => indent ++ line.toList ++ ['\n']).flatten
    else head ++ '\n' :: body.flatten
  | [] => head ++ ['\n']

def help : Text :=
  usage ++ "\nRender notebook variables as a LaTeX/Markdown report\n".toList ++
    "\npositional arguments:\n".toList ++
    helpEntry "notebook" ["Path to the .ipynb notebook"] ++
    "\noptions:\n".toList ++
    helpEntry "-h, --help" ["show this help message and exit"] ++
    helpEntry "--snapshot SNAPSHOT"
      ["Snapshot JSON file (default: read from notebook", "outputs)"] ++
    helpEntry "--output-dir OUTPUT_DIR"
      ["Directory for the report files (default: next to the", "notebook)"] ++
    helpEntry "--config CONFIG" ["Path to report config JSON file"] ++
    helpEntry "--print-snapshot-cell"
      ["Print the code cell that captures a snapshot, then", "exit"] ++
    helpEntry "--verbose" ["Enable DEBUG-level logging"]

def ofOption (c : Choice) (problem : Text) : Text :=
  "argument ".toList ++ c.name ++ ':' :: ' ' :: problem

def Misuse.message : Misuse → Text
  | .ambiguous argument candidates =>
    "ambiguous option: ".toList ++ argument ++ " could match ".toList ++
      Text.join ", ".toList candidates
  | .unusedValue c value =>
    ofOption c ("ignored explicit argument ".toList ++ Quoted.text value)
  | .missingValue c => ofOption c "expected one argument".toList
  | .unrecognized arguments =>
    "unrecognized arguments: ".toList ++ Text.join [' '] arguments
  | .noNotebook => "the notebook argument is required".toList

/-- A message about the arguments. -/
def complaint (m : Misuse) : Text :=
  usage ++ program ++ ": error: ".toList ++ m.message ++ ['\n']

end VariableReport.CommandLine

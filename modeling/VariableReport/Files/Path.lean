import VariableReport.Text.Quoted

/-!
# Paths and faults

A path is a list of steps from a start, which is the working directory or a root. Empty
steps and steps to the directory itself are left out when a path is read; steps to the
directory above are kept. The path without steps is the start itself. A root is one slash,
or exactly two, which a system may tell apart; more than two are one.

There are four ways in which a path fails to lead to a file or directory. They have the numbers
that the system gives them.
-/

namespace VariableReport

structure Path where
  root : Text := []
  steps : List Text
  deriving DecidableEq, Repr

namespace Path

def isAbsolute (p : Path) : Bool := !p.root.isEmpty

def rootOf (t : Text) : Text :=
  match (t.takeWhile (· = '/')).length with
  | 0 => []
  | 2 => ['/', '/']
  | _ => ['/']

def ofText (t : Text) : Path :=
  ⟨rootOf t, (Text.splitOn '/' t).filter fun s => !(s.isEmpty || s = ['.'])⟩

def text (p : Path) : Text :=
  if p.root.isEmpty && p.steps.isEmpty then ['.'] else p.root ++ Text.join ['/'] p.steps

/-- The last step; a path without steps has an empty one. -/
def name (p : Path) : Text := p.steps.getLast?.getD []

def parent (p : Path) : Path := { p with steps := p.steps.dropLast }

/-- The name up to its last point. A point at either end of the name does not count. -/
def stem (p : Path) : Text :=
  let name := p.name
  let after := (name.reverse.takeWhile fun c => c ≠ '.').length
  if after + 1 < name.length && 0 < after then name.take (name.length - after - 1) else name

/-- The path that starts where `p` ends, unless it starts at a root. -/
def append (p : Path) (t : Text) : Path :=
  let q := ofText t
  if q.isAbsolute then q else { p with steps := p.steps ++ q.steps }

end Path

namespace Files

inductive Cause
  | missing
  | exists
  | notDirectory
  | isDirectory
  deriving DecidableEq, Repr

structure Fault where
  cause : Cause
  path : Path
  deriving DecidableEq, Repr

def Cause.text : Cause → Text
  | .missing => "[Errno 2] No such file or directory".toList
  | .exists => "[Errno 17] File exists".toList
  | .notDirectory => "[Errno 20] Not a directory".toList
  | .isDirectory => "[Errno 21] Is a directory".toList

def Fault.message (f : Fault) : Text := f.cause.text ++ ':' :: ' ' :: Quoted.text f.path.text

end Files

end VariableReport

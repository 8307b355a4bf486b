import VariableReport.Failure
import VariableReport.Text.Lines

/-!
# Files

A tree of files is a list of nodes, each with the names that lead to it from the working
directory or, for an absolute path, a root and the names that lead to it from there. A
directory is there when it was made or when something lies in it. The working directory,
the directories above it and the roots are always there.

A text file is in UTF-8. All line ends are read as line feeds and are written as they are.
-/

namespace VariableReport

inductive Files.Node
  | file (content : Utf8.Bytes)
  | directory
  deriving DecidableEq, Repr

structure Files where
  nodes : List (List Text × Files.Node) := []

namespace Files

/-- The step to the directory above. -/
def above : Text := ['.', '.']

def isRoot (name : Text) : Bool := name.head? = some '/'

/-- Places that are always there. -/
def isAnchor : List Text → Bool
  | [name] => name = above || isRoot name
  | names => names.all (· = above)

def node? (fs : Files) (names : List Text) : Option Node :=
  if isAnchor names then some .directory
  else
    match fs.nodes.lookup names with
    | some n => some n
    | none =>
      if fs.nodes.any fun (other, _) => names.isPrefixOf other then some .directory else none

/-- One step from a place. Nothing is above a root. -/
def next (place : List Text) (step : Text) : List Text :=
  if step ≠ above then place ++ [step]
  else
    match place.getLast? with
    | none => [above]
    | some last =>
      if last = above then place ++ [above] else if isRoot last then place else place.dropLast

/-- Where a path starts. -/
def start (p : Path) : List Text := if p.isAbsolute then [p.root] else []

/-- Follow steps from a place. Every place but the last must be a directory. -/
def walk (fs : Files) (place : List Text) : List Text → Except Cause (List Text × Node)
  | [] =>
    match fs.node? place with
    | some n => .ok (place, n)
    | none => .error .missing
  | step :: steps =>
    match fs.node? place with
    | none => .error .missing
    | some (.file _) => .error .notDirectory
    | some .directory => walk fs (next place step) steps

/-- The names and the node that a path leads to. -/
def find (fs : Files) (p : Path) : Except Cause (List Text × Node) := fs.walk (start p) p.steps

def holds (fs : Files) (p : Path) : Bool := (fs.find p).toOption.isSome

def read (fs : Files) (p : Path) : Except Fault Utf8.Bytes :=
  match fs.find p with
  | .ok (_, .file content) => .ok content
  | .ok (_, .directory) => .error ⟨.isDirectory, p⟩
  | .error c => .error ⟨c, p⟩

def put (fs : Files) (names : List Text) (n : Node) : Files :=
  ⟨fs.nodes.filter (·.1 ≠ names) ++ [(names, n)]⟩

/-- The names of a node that may be made at a path: its directory is there. -/
def placeFor (fs : Files) (p : Path) : Except Cause (List Text) :=
  match p.steps.getLast? with
  | none => .ok (start p)
  | some last =>
    match fs.find p.parent with
    | .error c => .error c
    | .ok (_, .file _) => .error .notDirectory
    | .ok (place, .directory) => .ok (next place last)

def write (fs : Files) (p : Path) (content : Utf8.Bytes) : Except Fault Files :=
  match fs.placeFor p with
  | .error c => .error ⟨c, p⟩
  | .ok names =>
    match fs.node? names with
    | some .directory => .error ⟨.isDirectory, p⟩
    | _ => .ok (fs.put names (.file content))

/-- Make one directory in a directory that is there. One that is there already stays. -/
def makeDirectory (fs : Files) (p : Path) : Except Fault Files :=
  match fs.placeFor p with
  | .error c => .error ⟨c, p⟩
  | .ok names =>
    match fs.node? names with
    | some .directory => .ok fs
    | some (.file _) => .error ⟨.exists, p⟩
    | none => .ok (fs.put names .directory)

/-- Make a directory and the missing ones above it, of which there are `count` at most. -/
def makeDirectories (fs : Files) (p : Path) : Nat → Except Fault Files
  | 0 => fs.makeDirectory p
  | count + 1 =>
    match fs.makeDirectory p with
    | .error ⟨.missing, _⟩ =>
      match fs.makeDirectories p.parent count with
      | .ok fs => fs.makeDirectory p
      | .error e => .error e
    | r => r

/-! ### Texts -/

def readText (fs : Files) (p : Path) : Except Failure Text := do
  let content ← (fs.read p).mapError .file
  let t ← (Utf8.decode content).mapError .utf8
  .ok (Text.unifyLineEnds t)

def writeText (fs : Files) (p : Path) (t : Text) : Except Failure Files :=
  (fs.write p (Utf8.encode t)).mapError .file

end Files

end VariableReport

import VariableReport.Files
import VariableReport.Json.Printer
import VariableReport.Json.Reader
import VariableReport.Text.Quoted

/-!
# Snapshots

A snapshot is an object with an entry for each variable of a running notebook. It is
printed by a cell of its own, between two markers, and found again in printed text, where
the last one counts, or in a file.
-/

namespace VariableReport

/-- The entries of the variables by name. -/
abbrev Snapshot := List (Text × Json)

namespace Snapshot

/-- A value as a snapshot, which only an object can be. -/
def ofJson : Json → Except Failure Snapshot
  | .object members => .ok members
  | j => .error (.noMember j.typeName "items".toList)

def startMarker : Text := "<<VAR_START>>".toList

def endMarker : Text := "<<VAR_END>>".toList

theorem length_of_cutAt {part t a b : Text} (h : Text.cutAt part t = some (a, b)) :
    t.length = a.length + part.length + b.length := by
  rw [Text.cutAt_eq_some h]
  simp [Nat.add_assoc]

/-- What stands between the markers, from the left. A payload ends at the first end marker
after its start. -/
def payloads (t : Text) : List Text :=
  match _hs : Text.cutAt startMarker t with
  | none => []
  | some (_, rest) =>
    match _he : Text.cutAt endMarker rest with
    | none => []
    | some (payload, rest) => payload :: payloads rest
  termination_by t.length
  decreasing_by
    have h1 := length_of_cutAt _hs
    have h2 := length_of_cutAt _he
    have : 0 < startMarker.length := by decide
    omega

section
variable [Host]

/-- The object that a payload denotes. A payload of another form is no snapshot. -/
def ofPayload? (t : Text) (site : Site := .output) : Except Failure (Option Snapshot) :=
  match Json.read t site with
  | .ok (.object members) => .ok (some members)
  | .ok _ => .ok none
  | .error (.malformed _ _ _ _) => .ok none
  | .error f => .error (.json f)

/-- The last snapshot between markers in a text. -/
def ofText? (t : Text) (site : Site := .output) : Except Failure (Option Snapshot) :=
  match (payloads t).getLast? with
  | some payload => ofPayload? payload site
  | none => .ok none

/-- The snapshot of a file: between markers, or else the whole text. -/
def load (fs : Files) (p : Path) : Except Failure Snapshot := do
  let t ←
    match fs.readText p with
    | .ok t => pure t
    | .error (.file f) => throw (.snapshotUnreadable p.text (.file f))
    | .error e => throw e
  match ← ofText? t .payload with
  | some members => .ok members
  | none =>
    match Json.read t .snapshot with
    | .ok (.object members) => .ok members
    | .ok j => .error (.snapshotNotObject p.text j.typeName)
    | .error (.malformed c o l n) =>
      .error (.snapshotMalformed p.text (.json (.malformed c o l n)))
    | .error f => .error (.json f)

end

/-- The source of the cell that prints a snapshot. -/
def cellSource : Text :=
  ("from nbreport.notebook.snapshot import capture_namespace as _nbr_capture\n" ++
    "import json as _nbr_json\n" ++ "print(").toList ++ Quoted.text startMarker ++
    " + _nbr_json.dumps(_nbr_capture(globals())) + ".toList ++ Quoted.text endMarker ++
    ")\n".toList

/-- What the cell prints for a snapshot, up to the line feed. -/
def framed (s : Snapshot) : Text :=
  startMarker ++ Json.render .compact (.object s) ++ endMarker

end Snapshot

end VariableReport

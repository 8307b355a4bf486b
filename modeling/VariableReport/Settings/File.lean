import VariableReport.Files
import VariableReport.Json.Reader
import VariableReport.Settings.Reader

/-!
# Settings files

A settings file holds one JSON object. What is wrong with the file or its content is told
with the path; two faults of content that no file should have, a value in the place of a
list that has no items and too deep a nesting, are left as they are.
-/

namespace VariableReport.Settings

/-- The settings that a JSON text holds. -/
def ofText [Host] [Builder] (t : Text) : Except Failure Settings := do
  let j ← (Json.read t .settings).mapError .json
  (ofJson j).mapError .settings

/-- The failure of a file whose object holds no settings. -/
def invalid (p : Path) (f : Fault) : Failure :=
  match f with
  | .notSequence typeName => .settings (.notSequence typeName)
  | .notObject typeName => .settings (.notObject typeName)
  | .unexpectedField name => .settings (.unexpectedField name)
  | f => .settingsInvalid p.text (.settings f)

/-- The JSON value of a settings file. -/
def jsonOf [Host] (fs : Files) (p : Path) : Except Failure Json :=
  match fs.readText p with
  | .error e => .error (.settingsUnreadable p.text e)
  | .ok t =>
    match Json.read t .settings with
    | .ok j => .ok j
    | .error (.tooDeep c) => .error (.json (.tooDeep c))
    | .error f => .error (.settingsUnreadable p.text (.json f))

/-- The settings of a file. -/
def load [Host] [Builder] (fs : Files) (p : Path) : Except Failure Settings := do
  match ← jsonOf fs p with
  | .object members => (ofJson (.object members)).mapError (invalid p)
  | j => .error (.settingsNotObject p.text j.typeName)

end VariableReport.Settings

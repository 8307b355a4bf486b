import VariableReport.Notebook.Definition
import VariableReport.Records.Matrices
import VariableReport.Records.Substitution
import VariableReport.Records.Tables
import VariableReport.Settings
import VariableReport.Snapshot
import VariableReport.Value.Printer

/-!
# Records of a notebook

The records of a run start from a snapshot and take their annotations from the cells, in
four steps: expressions, matrices, replaced forms and tables.

A snapshot is an object with an entry for each variable. An entry that is an object says
the value and the type; a value that is missing is the empty text, and a type that is
missing is unknown. Any other entry is a value itself. Entries without a name are left
out.

The record of a variable takes its expression from the last definition of its name, with
the place of that definition. Records without a definition stay as they are.
-/

namespace VariableReport.Records

/-! ### Snapshots -/

/-- The text that an entry prints as. -/
def entryText (j : Json) : Except Failure Text :=
  match j.toValue.text? with
  | some t => .ok t
  | none => .error .integerTooLong

def entryRecord (name : Text) (entry : Json) : Except Failure Record := do
  match entry with
  | .object members =>
    let value := (Json.find? "value".toList members).getD (.str [])
    let type := (Json.find? "type".toList members).getD (.str "Unknown".toList)
    .ok { name, value := ← entryText value, type := ← entryText type }
  | j => .ok { name, value := ← entryText j, type := j.typeName }

def ofSnapshot (snapshot : Snapshot) : Except Failure Records := do
  let entries := snapshot.filter fun (name, _) => !name.isEmpty
  .ok (ofList (← entries.mapM fun (name, entry) => entryRecord name entry))

/-! ### Expressions -/

/-- The record with what a definition says. -/
def define (d : Notebook.Definition) (r : Record) : Record :=
  { r with expression := some d.expression, cellIndex := some d.cellIndex, line := some d.line }

/-- The record with what the last definition of its name says. -/
def defineFrom (ds : List Notebook.Definition) (r : Record) : Record :=
  match Notebook.lastDefinition? r.name ds with
  | some d => define d r
  | none => r

theorem name_defineFrom (ds : List Notebook.Definition) (r : Record) :
    (defineFrom ds r).name = r.name := by
  unfold defineFrom
  split <;> rfl

def attachDefinitions (rs : Records) (ds : List Notebook.Definition) : Records :=
  rs.annotate (defineFrom ds) (name_defineFrom ds)

/-- Attach the expressions that the cells give. -/
def attachExpressions (rs : Records) (cells : List Cell) : Except Failure Records := do
  .ok (rs.attachDefinitions (← Notebook.definitions cells))

/-! ### The four steps -/

variable [Host] [Matrix.Arrays]

/-- The four steps over a collection. -/
def enrich (rs : Records) (s : Settings) (cells : List Cell) : Except Failure Records := do
  let rs ← rs.attachExpressions cells
  let rs ← rs.attachMatrices
  rs.attachReplaced.attachTables s.tableDirective cells

def build (s : Settings) (snapshot : Snapshot) (cells : List Cell) : Except Failure Records := do
  (← ofSnapshot snapshot).enrich s cells

end VariableReport.Records

import VariableReport.Json.Printer
import VariableReport.Settings

/-!
# Settings as JSON objects

An object of settings may leave fields out, which then keep their defaults. A library builds the
settings from the object; it knows the names and types of the fields, and what is assumed of it is
written down in `Builder`. The settings it has built are checked. Written settings have all fields,
in the order of their names.
-/

namespace VariableReport

/-- A value that has no items. -/
inductive Json.Single : Json → Prop
  | null : Single .null
  | bool (b : Bool) : Single (.bool b)
  | int (n : Int) : Single (.int n)
  | float (d : Double) : Single (.float d)

namespace Settings

abbrev Members := List (Text × Json)

def fieldNames : List Text :=
  ["symbols", "table_directive", "true_value_marker", "auto_scale_marker",
    "unit_constructors", "unit_type", "title", "include_unplaced", "vars_suffix",
    "report_suffix"].map String.toList

/-- The fields that are lists of texts. -/
def listNames : List Text := ["symbols".toList, "unit_constructors".toList]

/-- The fields that are truth values. -/
def flagNames : List Text := ["include_unplaced".toList]

/-- The first name that is no field. -/
def strayName? (members : Members) : Option Text :=
  (members.map (·.1)).find? fun name => !fieldNames.contains name

/-- Whether a value has the type of a field. -/
def fits (field : Text) (j : Json) : Bool :=
  match j with
  | .array items => listNames.contains field && (Json.texts? items).isSome
  | .bool _ => flagNames.contains field
  | .str _ => !listNames.contains field && !flagNames.contains field
  | _ => false

def textOf (members : Members) (field default : Text) : Text :=
  match Json.find? field members with
  | some (.str t) => t
  | _ => default

def flagOf (members : Members) (field : Text) (default : Bool) : Bool :=
  match Json.find? field members with
  | some (.bool b) => b
  | _ => default

def textsOf (members : Members) (field : Text) (default : List Text) : List Text :=
  match Json.find? field members with
  | some (.array items) => (Json.texts? items).getD default
  | _ => default

/-- The settings with the values of the members, as far as these have the types of their
fields. -/
def fill (members : Members) : Settings :=
  let default : Settings := {}
  { symbols := textsOf members "symbols".toList default.symbols
    tableDirective := textOf members "table_directive".toList default.tableDirective
    trueValueMarker := textOf members "true_value_marker".toList default.trueValueMarker
    autoScaleMarker := textOf members "auto_scale_marker".toList default.autoScaleMarker
    unitConstructors := textsOf members "unit_constructors".toList default.unitConstructors
    unitType := textOf members "unit_type".toList default.unitType
    title := textOf members "title".toList default.title
    includeUnplaced := flagOf members "include_unplaced".toList default.includeUnplaced
    varsSuffix := textOf members "vars_suffix".toList default.varsSuffix
    reportSuffix := textOf members "report_suffix".toList default.reportSuffix }

/-- A fault that the library tells of an object, or that a value was met that is wrong for a
conversion: these are caught. -/
inductive Fault.IsTold : Fault → Prop
  | unknownField (name : Text) : IsTold (.unknownField name)
  | wrongType (field expected value typeName : Text) :
      IsTold (.wrongType field expected value typeName)
  | keyNotPair (index length : Nat) : IsTold (.keyNotPair index length)
  | valueTooLong : IsTold .valueTooLong
  | misuse (m : Misuse) : IsTold (.misuse m)

/-- A fault that is told, or the conversion of a value without items in the place of a list. -/
def IsFaultOf (members : Members) (f : Fault) : Prop :=
  f.IsTold ∨ ∃ field ∈ listNames, ∃ j, Json.find? field members = some j ∧ j.Single ∧
    f = .notSequence j.typeName

/-- A field has its type, or is a list in the place of which stands a value without items. -/
def Nearly (m : Text × Json) : Prop := fits m.1 m.2 = true ∨ m.1 ∈ listNames ∧ m.2.Single

/-- A library that builds settings from objects. -/
class Builder where
  build : Json → Except Fault Settings
  /-- The library is strict: a name that is no field is refused. -/
  stray {members : Members} : strayName? members ≠ none →
    ∃ name, build (.object members) = .error (.unknownField name)
  /-- Values of the right types are taken as they are, and fields that are left out keep their
  defaults. -/
  fill {members : Members} : strayName? members = none →
    (∀ m ∈ members, fits m.1 m.2 = true) → build (.object members) = .ok (Settings.fill members)
  /-- The conversion of a value without items fails with a fault that is not the library's own; all
  other faults are. -/
  fault {members : Members} {f : Fault} : build (.object members) = .error f → IsFaultOf members f
  /-- What stands for a list is converted to one before its type is looked at. -/
  single {members : Members} {field : Text} {j : Json} : strayName? members = none →
    field ∈ listNames → Json.find? field members = some j → j.Single →
    (∀ m ∈ members, Nearly m) →
    ∃ typeName, build (.object members) = .error (.notSequence typeName)

def ofJson [Builder] (j : Json) : Except Fault Settings := do check (← Builder.build j)

/-- Settings from named fields of the right types, among which a wrong name is unexpected. -/
def ofFields (members : Members) : Except Fault Settings :=
  match strayName? members with
  | some name => .error (.unexpectedField name)
  | none => check (fill members)

def members (s : Settings) : Members :=
  [("auto_scale_marker".toList, .str s.autoScaleMarker),
    ("include_unplaced".toList, .bool s.includeUnplaced),
    ("report_suffix".toList, .str s.reportSuffix),
    ("symbols".toList, .array (s.symbols.map .str)),
    ("table_directive".toList, .str s.tableDirective),
    ("title".toList, .str s.title),
    ("true_value_marker".toList, .str s.trueValueMarker),
    ("unit_constructors".toList, .array (s.unitConstructors.map .str)),
    ("unit_type".toList, .str s.unitType),
    ("vars_suffix".toList, .str s.varsSuffix)]

def toJson (s : Settings) : Json := .object s.members

/-- Settings are written in ASCII with an indentation of two. -/
def style : Json.Style := { indent := some 2 }

def text (s : Settings) : Text := s.toJson.render style

end Settings

end VariableReport

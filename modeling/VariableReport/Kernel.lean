import VariableReport.Json
import VariableReport.Value.Printer

/-!
# Capturing a running notebook

A snapshot is taken of the names of a running notebook. Private names, modules and the
names of the shell are left out. An array is captured as nested lists, and a quantity
under the name that the settings have for quantities. Where an object cannot be printed
the entry says so.
-/

namespace VariableReport.Kernel

/-- The objects that names stand for. What is absent could not be had. -/
inductive Object
  | value (v : Value)
  | module
  /-- An object that can be turned into nested lists. -/
  | array (typeName : Text) (content : Option Value)
  /-- A magnitude with a unit. -/
  | quantity (text : Option Text)
  | other (typeName : Text) (text : Option Text)

structure Entry where
  name : Text
  value : Text
  type : Text
  deriving DecidableEq, Repr

/-- The member of a snapshot that an entry is printed as. -/
def Entry.member (e : Entry) : Text × Json :=
  (e.name, .object [("value".toList, .str e.value), ("type".toList, .str e.type)])

/-- The names that a shell and its helpers use. -/
def shellNames : List Text :=
  ["In", "Out", "get_ipython", "exit", "quit", "open", "json", "sys", "types"].map String.toList

def isPublic (name : Text) : Bool := !Text.startsWith name ['_'] && !shellNames.contains name

/-- The entry of an object with a text, or of one without. -/
def entry (name : Text) (text : Option Text) (type : Text) : Entry :=
  match text with
  | some t => ⟨name, t, type⟩
  | none => ⟨name, "<Error>".toList, "Unknown".toList⟩

def captureOne (unitType name : Text) : Object → Option Entry
  | .module => none
  | .value v => some (entry name v.text? v.typeName)
  | .array typeName content => some (entry name (content.bind Value.text?) typeName)
  | .quantity text => some (entry name text unitType)
  | .other typeName text => some (entry name text typeName)

/-- Put an object at its name: a name that is there keeps its place. -/
def bind (name : Text) (o : Object) : List (Text × Object) → List (Text × Object)
  | [] => [(name, o)]
  | (n, p) :: rest => if n = name then (name, o) :: rest else (n, p) :: bind name o rest

/-- The names and objects of a list in which later objects take the places of earlier ones. -/
def namespaceOf (named : List (Text × Object)) : List (Text × Object) :=
  named.foldl (fun acc (name, o) => bind name o acc) []

/-- The entries of the public names, in order. -/
def capture (unitType : Text) (names : List (Text × Object)) : List Entry :=
  (names.filter fun (name, _) => isPublic name).filterMap fun (name, o) =>
    captureOne unitType name o

end VariableReport.Kernel

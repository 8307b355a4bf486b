import VariableReport.Value

/-!
# JSON values

Numbers keep the distinction between whole numbers and others that their spelling
makes. The members of an object stand in the order in which their names came first,
and no name comes twice in an object that was read.
-/

namespace VariableReport

inductive Json
  | null
  | bool (b : Bool)
  | int (n : Int)
  | float (d : Double)
  | str (t : Text)
  | array (items : List Json)
  | object (members : List (Text × Json))

namespace Json

/-- Give a name a value: a name that is there keeps its place. -/
def put (name : Text) (value : Json) : List (Text × Json) → List (Text × Json)
  | [] => [(name, value)]
  | (k, v) :: members =>
    if k = name then (k, value) :: members else (k, v) :: put name value members

/-- The members with later values in the places of earlier ones. -/
def merge (members : List (Text × Json)) : List (Text × Json) :=
  members.foldl (fun acc (k, v) => put k v acc) []

/-- The member of a name in a list of members. -/
def find? (name : Text) : List (Text × Json) → Option Json
  | [] => none
  | (k, v) :: members => if k = name then some v else find? name members

mutual

def toValue : Json → Value
  | null => .none
  | bool b => .bool b
  | int n => .int n
  | float d => .float d
  | str t => .str t
  | array items => .list (toValues items)
  | object members => .dict (toEntries members)

def toValues : List Json → List Value
  | [] => []
  | j :: js => toValue j :: toValues js

def toEntries : List (Text × Json) → List (Value × Value)
  | [] => []
  | (k, j) :: members => (.str k, toValue j) :: toEntries members

end

def typeName (j : Json) : Text := j.toValue.typeName

/-- A list of texts, if all items are texts. -/
def texts? : List Json → Option (List Text)
  | [] => some []
  | str t :: js => (texts? js).map (t :: ·)
  | _ => none

end Json

end VariableReport

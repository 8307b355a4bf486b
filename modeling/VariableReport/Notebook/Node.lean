import VariableReport.Failure
import VariableReport.Json

/-!
# Nodes of notebooks

A notebook is a JSON value whose objects are called nodes. A node is asked for the value of
a key, with or without a default; values of other types have no keys. What is gone through
item by item may be an array, but also a node, which gives its keys, or a text, which gives
its characters.
-/

namespace VariableReport.Notebook

def typeName : Json → Text
  | .object _ => "NotebookNode".toList
  | j => j.typeName

/-- The failure of a value that was asked for a member it does not have. -/
def lacks (j : Json) (member : Text) : Failure :=
  match j with
  | .object _ => .noKey member
  | j => .noMember j.typeName member

/-- The value of a key that must be there. -/
def demand (j : Json) (key : Text) : Except Failure Json :=
  match j with
  | .object members =>
    match Json.find? key members with
    | some v => .ok v
    | none => .error (.noKey key)
  | j => .error (.noMember j.typeName key)

/-- The value of a key, or a default. -/
def get (j : Json) (key : Text) (default : Json) : Except Failure Json :=
  match j with
  | .object members => .ok ((Json.find? key members).getD default)
  | j => .error (.noMember j.typeName "get".toList)

def items : Json → Except Failure (List Json)
  | .array items => .ok items
  | .object members => .ok (members.map fun (k, _) => .str k)
  | .str t => .ok (t.map fun c => .str [c])
  | j => .error (.notSequence (typeName j))

def isText (j : Json) (t : Text) : Bool :=
  match j with
  | .str u => u = t
  | _ => false

/-- The texts of a list, of which the first has the number `i`. -/
def textsFrom (i : Nat) : List Json → Except Failure (List Text)
  | [] => .ok []
  | .str t :: js => (textsFrom (i + 1) js).map (t :: ·)
  | j :: _ => .error (.itemNotText i (typeName j))

/-- A list of texts joined into one text; any other value as it is. -/
def joined : Json → Except Failure Json
  | .array items => (textsFrom 0 items).map fun ts => .str ts.flatten
  | j => .ok j

end VariableReport.Notebook

import VariableReport.Records.Graph

/-!
# Substitution

The replaced form of an expression has the values of other variables in the places of
their names. A value is put in as it is and not searched again. A name stays when it is no
record's, and when it reaches the record whose expression this is, so that nothing is
explained by itself. An expression that cannot be lexed stays as a whole.
-/

namespace VariableReport.Records

/-- The text from `cursor` on with the references that have a value replaced. -/
def replaceFrom (value? : Text → Option Text) (t : Text) :
    Nat → List Source.Reference → Text
  | cursor, [] => t.drop cursor
  | cursor, r :: rs =>
    match value? r.name with
    | some value => Text.slice t cursor r.start ++ value ++ replaceFrom value? t r.stop rs
    | none => replaceFrom value? t cursor rs

/-- What stands for a name in the expression of `r`, if it is replaced. -/
def standIn? (rs : Records) (g : Graph) (r : Record) (name : Text) : Option Text :=
  match rs.get? name with
  | some other => if g.reaches name r.name then none else some other.value
  | none => none

/-- The replaced form of a record's expression, by a given graph. -/
def substituteBy? (rs : Records) (g : Graph) (r : Record) : Option Text :=
  r.expression.map fun t =>
    match Source.references? t with
    | some references => replaceFrom (rs.standIn? g r) t 0 references
    | none => t

def substitute? (rs : Records) (r : Record) : Option Text := rs.substituteBy? rs.graph r

/-- The record with the replaced form of its expression, if it has one. -/
def replaceIn (rs : Records) (g : Graph) (r : Record) : Record :=
  match rs.substituteBy? g r with
  | some replaced => { r with replaced := some replaced }
  | none => r

theorem name_replaceIn (rs : Records) (g : Graph) (r : Record) :
    (rs.replaceIn g r).name = r.name := by
  unfold replaceIn
  split <;> rfl

/-- Attach the replaced forms. -/
def attachReplaced (rs : Records) : Records :=
  rs.annotate (rs.replaceIn rs.graph) (rs.name_replaceIn rs.graph)

end VariableReport.Records

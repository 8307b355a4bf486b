import VariableReport.Failure
import VariableReport.Json.Reader
import VariableReport.Listing.Scan
import VariableReport.Literal
import VariableReport.Text.Class

/-!
# Lists in text

A text that stands for a list is read in one of three ways, tried in this order: as a
JSON array, as a literal list or tuple, or loosely, as bracketed pieces between commas.
A text that can be read in none of them is one item. Each reading answers a list or none;
the faults that are no matter of form are failures.
-/

namespace VariableReport.Listing

section
variable [Host]

/-- The items of a JSON array. -/
def json? (t : Text) (site : Site := .list) : Except Failure (Option (List Value)) :=
  match Json.read t site with
  | .ok (.array items) => .ok (some (Json.toValues items))
  | .ok _ => .ok none
  | .error (.malformed _ _ _ _) => .ok none
  | .error f => .error (.json f)

/-- The items of a literal list or tuple. -/
def literal? (t : Text) (site : Site := .list) : Except Failure (Option (List Value)) :=
  match Literal.read (Text.trim t) site with
  | .ok (.list items) => .ok (some items)
  | .ok (.tuple items) => .ok (some items)
  | .ok _ => .ok none
  | .error .noLiteral => .ok none
  | .error .outOfRange => .error .integerOutOfRange

end

/-- The text inside two brackets of one kind. -/
def body? (t : Text) : Option Text :=
  match t with
  | opening :: rest =>
    if (opening = '[' && rest.getLast? = some ']') ||
        (opening = '(' && rest.getLast? = some ')') then
      some rest.dropLast
    else none
  | [] => none

/-- The text without its first and last character, when these are one and the same quote. -/
def unquote (t : Text) : Text :=
  match t with
  | q :: rest => if isQuote q && rest.getLast? = some q then rest.dropLast else t
  | [] => []

/-- The items without an empty one at the end, which a comma after the last item leaves. -/
def dropEmptyEnd (items : List Text) : List Text :=
  if items.getLast? = some [] then items.dropLast else items

/-- The pieces between the commas of a bracketed text, trimmed and without quotes. -/
def loose? (t : Text) : Option (List Text) :=
  (body? (Text.trim t)).map fun body =>
    if (Text.trim body).isEmpty then []
    else dropEmptyEnd ((splitTopLevel [','] body).map fun piece => unquote (Text.trim piece))

variable [Host]

/-- The items of a JSON array, or else of a literal. -/
def strict? (t : Text) (site : Site := .list) : Except Failure (Option (List Value)) := do
  match ← json? t site with
  | some items => .ok (some items)
  | none => literal? t site

/-- The items of a text that is a list in one of the three ways. -/
def bracketed? (t : Text) (site : Site := .list) : Except Failure (Option (List Value)) := do
  match ← strict? t site with
  | some items => .ok (some items)
  | none => .ok ((loose? t).map fun items => items.map .str)

/-- The items that a text stands for; the text itself when it is no list. -/
def read (t : Text) (site : Site := .list) : Except Failure (List Value) := do
  match ← bracketed? t site with
  | some items => .ok items
  | none => .ok [.str t]

/-- The items of a text that may be absent. -/
def readOptional (t : Option Text) (site : Site := .list) : Except Failure (List Value) :=
  match t with
  | some t => read t site
  | none => .ok []

end VariableReport.Listing

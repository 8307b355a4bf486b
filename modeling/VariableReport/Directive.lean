import VariableReport.Listing
import VariableReport.Text.CaseFold
import VariableReport.Value.Printer

/-!
# Table directives

A table directive is a comment with a keyword, a colon and a bracketed list of labels.
The keyword is compared without case, and white space may stand on both sides of the
keyword and of the colon. A comment of another form, or with no labels, is no directive.
-/

namespace VariableReport.Directive

/-- What follows the keyword and a colon in a text that may begin with white space. The
keyword may begin with white space too, so it is looked for at the end of the white space
first, and then at every place before. -/
def afterKeyword? (keyword : Text) : Text → Option Text
  | [] => none
  | c :: cs =>
    let later := if Text.isBlank c then afterKeyword? keyword cs else none
    match later with
    | some rest => some rest
    | none =>
      match (Text.afterAgreeing keyword (c :: cs)).map Text.trimStart with
      | some (':' :: rest) => some (Text.trimStart rest)
      | _ => none

/-- The text of the label list of a comment. -/
def body? (keyword comment : Text) : Option Text :=
  match Text.trim comment with
  | '#' :: rest =>
    match afterKeyword? keyword rest with
    | some body => if Text.startsWith body ['['] && !body.contains '\n' then some body else none
    | none => none
  | _ => none

/-- The label of an item: its text, trimmed. -/
def label (v : Value) : Except Failure Text :=
  match v.text? with
  | some t => .ok (Text.trim t)
  | none => .error .integerTooLong

/-- The labels of a comment that is a table directive. -/
def labels? [Host] (keyword comment : Text) : Except Failure (Option (List Text)) := do
  match body? keyword comment with
  | none => .ok none
  | some body =>
    match ← Listing.bracketed? body .directive with
    | none => .ok none
    | some [] => .ok none
    | some items => .ok (some (← items.mapM label))

end VariableReport.Directive
